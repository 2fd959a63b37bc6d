import FailureOrchestrator.OperatorSession

namespace FailureOrchestrator

open Exec

section Verified

variable {s : RunStore} {d : DurableRunState}

theorem sequenceGap_nil {events : List AuditEvent} {k : Nat} (h : events.map (·.sequence) = List.range' k events.length) :
    sequenceGap k events = [] := by
  induction events generalizing k with
  | nil => rfl
  | cons e rest ih =>
    obtain ⟨hfirst, hrest⟩ := List.cons.inj h
    show (if e.sequence = k then sequenceGap (k + 1) rest else _) = []
    rw [if_pos hfirst]
    exact ih hrest

theorem Counted.sequenceMismatch_nil (h : Counted s d) : sequenceMismatch d s.events = [] := by
  have hlatest := latestSequence_range' h.sequence
  unfold RunStore.latestSequence at hlatest
  unfold sequenceMismatch
  cases hlast : s.events.getLast? with
  | none => rfl
  | some last =>
    rw [hlast] at hlatest
    have hsame : d.lastEventSequence = last.sequence := h.last.trans hlatest.symm
    simp [hsame]

theorem checkRef_nil (h : ∀ r ∈ d.refs, s.isFile r.2 = true) (label : String) (field : RefField) :
    checkRef s d label field = [] := by
  unfold checkRef
  split
  · rfl
  · rfl
  next ref _ href =>
    have hmem : (field, ref) ∈ d.refs := by
      obtain ⟨before, after, hsplit, -⟩ := List.lookup_eq_some_iff.mp href
      rw [hsplit]
      exact List.mem_append_right _ List.mem_cons_self
    rw [if_pos (h _ hmem)]

/-- A run state in step with its log passes the consistency check. -/
theorem InSync.verified (h : InSync s d) : verifyRunConsistency s d = [] := by
  have hgap := sequenceGap_nil h.sequence
  have hmismatch := h.sequenceMismatch_nil
  have hescalation : missingEscalation s d = [] := by
    refine if_neg ?_
    rintro ⟨hstatus, hmissing, -⟩
    have hpresent := h.status.escalated hstatus
    rw [show s.isFile escalationSummary = false from hmissing] at hpresent
    cases hpresent
  have hevaluation : missingEvaluation d s.events = [] := by
    refine if_neg ?_
    rintro ⟨hstatus, hnone⟩
    obtain ⟨e, he, htype⟩ := h.status.evaluated hstatus
    exact hnone e he htype
  unfold verifyRunConsistency
  rw [hgap, hmismatch, hescalation, hevaluation, List.nil_append, List.nil_append, List.append_nil, List.append_nil,
    List.flatMap_eq_nil_iff]
  exact fun x _ => checkRef_nil h.refs x.1 x.2

end Verified

section Session

variable [PyReview]

def OperatorStep.exec (env : Env) : OperatorStep → Exec Journal RunError Reply
  | .resume runId => Reply.recovery <$> resumeRun env runId
  | .decide call => Reply.review <$> applyReviewerDecision env call
  | .append call => Reply.sequence <$> appendOperatorEvent env call

/-- A call and the identifiers that `new_id` draws for it. -/
structure OperatorAct where
  step : OperatorStep
  newId : String → Nat → Str

/-- The answer of a call on a stored run, and what it leaves. -/
def OperatorAct.exec (a : OperatorAct) (s : RunStore) : Except RunError Reply × RunStore :=
  let env : Env := { store := s, newId := a.newId }
  ((a.step.exec env {}).1, (a.step.exec env {}).2.store env)

/-- What the calls of a session leave, made one after another. -/
def session (s : RunStore) (acts : List OperatorAct) : RunStore := acts.foldl (fun s a => (a.exec s).2) s

end Session

/-- An interpreter that knows ASCII only and reads no text file as JSON. -/
@[reducible] def asciiReview : PyReview where
  toUnicodeCase := asciiCase
  str _ := []
  loads _ := .error []

/-- A foundation whose proposal goes to a human reviewer. -/
def reviewedSample : Foundation :=
  { Foundation.sample with
    evaluatePolicy := fun _ => .ok
      { outcome := .escalate, reasons := [], matchedRules := [], violations := [], riskLevel := .high, evidence := [],
        explanation := "" }
    buildEscalation := fun _ _ _ _ _ _ _ => .ok
      { escalationId := "esc-1".toList, document := .obj [("escalation_id", .text "esc-1")] }
    writeEscalation := fun _ _ _ => .ok
      { root := [], summaryJson := [], summaryMd := [], evidenceIndex := [], proposedPatch := [], evaluationSummary := [] } }

/-- Surroundings without failures. -/
def calmEnv : Env where
  newId _ k := List.replicate k 'e'

end FailureOrchestrator
