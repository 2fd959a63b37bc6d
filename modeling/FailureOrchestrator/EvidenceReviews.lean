import FailureOrchestrator.EvidenceRuns
import FailureOrchestrator.Interleaving
import FailureOrchestrator.SessionRuns

namespace FailureOrchestrator

open Exec RunPersistence EvidenceName

/-- The name of any evidence file. -/
abbrev AnyFile (_ : EvidenceName) : Prop := True

/-- No event of the log refers to a reviewer's decision. -/
def RunStore.Undecided (s : RunStore) : Prop :=
  ∀ e ∈ s.events, reviewerDecisionRef.ref ∉ e.evidenceRefs.map (·.ref)

instance (s : RunStore) : Decidable s.Undecided := inferInstanceAs (Decidable (∀ e ∈ s.events, _))

theorem RunStore.events_step (s : RunStore) (call : StoreStep) : s.events ⊆ (s.step call).events := by
  obtain ⟨op, done⟩ := call
  intro e he
  cases done with
  | false => exact he
  | true =>
    cases op with
    | append event => exact List.mem_append_left _ he
    | createRun run => exact he
    | saveRun run => exact he
    | write ref document => exact he

/-- A logged event is in the log. -/
theorem RunStore.mem_events {s : RunStore} {calls : List StoreStep} {e : AuditEvent} (h : ⟨.append e, true⟩ ∈ calls) :
    e ∈ (s.replay calls).events := by
  have hkept : ∀ (rest : List StoreStep) (s : RunStore), e ∈ s.events → e ∈ (s.replay rest).events := by
    intro rest s hs
    exact Calls.foldl_keeps (I := fun s : RunStore => e ∈ s.events) (fun s call he => s.events_step call he) rest hs
  induction calls generalizing s with
  | nil => cases h
  | cons call rest ih =>
    rcases List.mem_cons.mp h with rfl | h
    · exact hkept rest _ (List.mem_append_right _ (List.mem_singleton_self _))
    · exact ih h

section Reviews

variable [PyReview] {env : Env} {s : RunStore} {past : List StoreStep} {c : ReviewCall} {d : DurableRunState}
  {action : ReviewerAction} (hstore : env.store = s.replay past)

/-- The call writes a decision. -/
def ReviewCall.Records (c : ReviewCall) (s : RunStore) : Prop :=
  ∃ d action escalationId, loadRun s c.runId = .ok d ∧ c.judge d (verifyRunConsistency s d) = .ok action ∧
    c.resolve s d = .ok (.ok escalationId)

omit [PyReview] in
/-- Where the log has no decision yet, its events refer to files of the run. -/
theorem filed_undecided (h : Filed s past AnyFile {}) (hundecided : (s.replay past).Undecided) : Filed s past OfRun {} where
  preserved := h.preserved
  named ref hcited := by
    obtain ⟨a, -, hplain, rfl⟩ := h.named ref hcited
    refine ⟨a, ?_, hplain, rfl⟩
    rintro rfl
    obtain ⟨e, hmem, href⟩ := hcited
    rw [List.append_nil] at hmem
    exact hundecided e (RunStore.mem_events hmem) href

/-- The decision is on file, and the history is preserved. -/
def DecisionFiled (env : Env) (s : RunStore) (past : List StoreStep) (A : EvidenceName → Prop) (j : Journal) : Prop :=
  j.Holds env reviewerDecisionRef.ref ∧ Filed s past A j

include hstore

omit [PyReview] in
theorem filed_next {event : Str → Nat → AuditEvent} {A : EvidenceName → Prop}
    (hevent : ∀ id n, (event id n).evidenceRefs = [reviewerDecisionRef]) :
    Triple (DecisionFiled env s past A) (appendNext env event) (fun _ => DecisionFiled env s past AnyFile)
      (fun _ => Filed s past AnyFile) := by
  apply Triple.read_keep
  intro j _
  apply Triple.bind (Q := fun _ => DecisionFiled env s past AnyFile)
  · have hholds : Keeps (Journal.Holds env reviewerDecisionRef.ref)
        (perform env (.append (event (env.newId "evt" j.trace.length) ((j.store env).latestSequence + 1)))) :=
      lasting_holds.perform _
    refine (hholds.triple.both (filed_append (A := A) (B := AnyFile) hstore fun _ _ => trivial)).mono ?_ (fun _ _ h => h)
      fun _ _ h => h.2
    rintro j' ⟨hholds, hfiled⟩
    refine ⟨hholds, fun r hr => ?_, hfiled⟩
    rw [hevent] at hr
    obtain rfl := List.mem_singleton.mp hr
    exact ⟨hholds, .decision, trivial, trivial, rfl⟩
  intro _
  exact Triple.ret fun _ h => h

omit [PyReview] in
theorem decisionFiled_save {d : DurableRunState} :
    Triple (DecisionFiled env s past AnyFile) (perform env (.saveRun d)) (fun _ => DecisionFiled env s past AnyFile)
      (fun _ => Filed s past AnyFile) :=
  ((lasting_holds.perform _).triple.both (filed_save hstore).triple).mono (fun _ h => h) (fun _ _ h => h) fun _ _ h => h.2

omit [PyReview] in
theorem filed_recordDecision {escalationId : Str} :
    Triple (Filed s past OfRun) (recordDecision env c d action escalationId) (fun _ => Filed s past AnyFile)
      (fun _ => Filed s past AnyFile) := by
  apply Triple.bind (Q := fun _ => DecisionFiled env s past OfRun)
  · exact (filed_write (b := .decision) hstore trivial fun h => h rfl).mono (fun _ h => h) (fun _ _ h => h)
      fun _ _ h => h.mono fun _ _ => trivial
  intro _
  rw [humanTransition_ok]
  apply Triple.bind (filed_next hstore fun _ _ => rfl)
  intro n
  apply Triple.bind (decisionFiled_save hstore)
  intro _
  cases action.transition.event with
  | none => exact Triple.ret fun _ h => h.2
  | some terminal =>
    apply Triple.bind (filed_next hstore fun _ _ => rfl)
    intro last
    apply Triple.bind (decisionFiled_save hstore)
    intro _
    exact Triple.ret fun _ h => h.2

/-- A call that records a decision does so on a log without one; one that does not writes nothing. -/
theorem filed_review (hpast : Filed s past AnyFile {}) (honce : c.Records env.store → env.store.Undecided) :
    Filed s past AnyFile (applyReviewerDecision env c {}).2 := by
  have htriple : Triple (fun j => j = {}) (applyReviewerDecision env c) (fun _ => Filed s past AnyFile)
      (fun _ => Filed s past AnyFile) := by
    have hrefused : ∀ j : Journal, j = {} → Filed s past AnyFile j := by
      rintro j rfl
      exact hpast
    apply Triple.read_bind
    rintro j rfl
    cases hload : loadRun (Journal.store env {}) c.runId with
    | error e => exact Triple.ret hrefused
    | ok d =>
      cases hjudged : c.judge d (verifyRunConsistency (Journal.store env {}) d) with
      | error r =>
        simp only [hjudged]
        exact Triple.ret hrefused
      | ok action =>
        simp only [hjudged]
        apply Triple.bind (Q := fun resolved j => c.resolve env.store d = .ok resolved ∧ j = {})
        · exact Triple.lift (fun _ hr _ hj => ⟨hr, hj⟩) fun _ _ j hj => hrefused j hj
        intro resolved
        apply Triple.given
        intro hresolved
        cases resolved with
        | error r => exact Triple.ret hrefused
        | ok escalationId =>
          have hundecided : env.store.Undecided := honce ⟨d, action, escalationId, hload, hjudged, hresolved⟩
          rw [hstore] at hundecided
          refine (filed_recordDecision hstore).mono ?_ (fun _ _ h => h) fun _ _ h => h
          rintro j rfl
          exact filed_undecided hpast hundecided
  exact htriple.after rfl

end Reviews

/-- A reviewer's call, and what it draws and meets in the stores. -/
structure ReviewAct where
  call : ReviewCall
  newId : String → Nat → Str
  fails : Nat → Option Str := fun _ => none

section History

variable [PyReview] {f : Foundation} {env : Env} {event : FailureEvent}

def ReviewAct.surroundings (a : ReviewAct) (s : RunStore) : Env := { store := s, newId := a.newId, fails := a.fails }

/-- The store calls of a run and its reviewers, when one more reviewer has called. -/
def ReviewAct.after (s : RunStore) (past : List StoreStep) (a : ReviewAct) : List StoreStep :=
  past ++ (applyReviewerDecision (a.surroundings (s.replay past)) a.call {}).2.trace

/-- The store calls of a run and of the reviewers that follow it. -/
def Foundation.history (f : Foundation) (env : Env) (event : FailureEvent) (reviews : List ReviewAct) : List StoreStep :=
  reviews.foldl (ReviewAct.after env.store) (f.run env event).2.journal.trace

/-- A decision is recorded on a log that has none. -/
def ReviewAct.FirstDecision (s : RunStore) (past : List StoreStep) (a : ReviewAct) : Prop :=
  a.call.Records (s.replay past) → (s.replay past).Undecided

theorem filed_after {s : RunStore} {past : List StoreStep} {a : ReviewAct} (h : Filed s past AnyFile {})
    (hfirst : a.FirstDecision s past) : Filed s (a.after s past) AnyFile {} := by
  have hreview := @filed_review _ (a.surroundings (s.replay past)) _ _ _ rfl h hfirst
  constructor
  · rw [List.append_nil]
    exact hreview.preserved
  · intro ref hcited
    rw [List.append_nil] at hcited
    exact hreview.named ref hcited

/-- A run whose plans have one step for each tool, and reviewers of whom one records a decision: every file that the log
refers to has the content that it had when its event was logged. -/
theorem Foundation.evidence_preserved (hplans : f.PlansOneEach) (reviews : List ReviewAct)
    (hfirst : Calls.Along (ReviewAct.after env.store) (ReviewAct.FirstDecision env.store) reviews
      (f.run env event).2.journal.trace) : Preserved env.store (f.history env event reviews) := by
  have hrun : Filed env.store (f.run env event).2.journal.trace AnyFile {} := by
    have h := (show Evidence env OfRun (f.run env event).2 from evidence_run hplans).1
    constructor
    · rw [List.append_nil]
      exact h.preserved
    · intro ref hcited
      rw [List.append_nil] at hcited
      obtain ⟨a, -, hplain, href⟩ := h.named ref hcited
      exact ⟨a, trivial, hplain, href⟩
  have hall := hfirst.foldl (I := fun past => Filed env.store past AnyFile {}) (fun past a h hc => filed_after h hc)
    reviews hrun
  have hpreserved := hall.preserved
  rw [List.append_nil] at hpreserved
  exact hpreserved

end History

/-- The sample run, escalated, and a reviewer's approval. -/
theorem reviewed_evidence_preserved :
    Preserved calmEnv.store (@Foundation.history asciiReview reviewedSample calmEnv sampleEvent
      [⟨{ runId := "run-1".toList, action := "approve".toList }, fun _ k => List.replicate k 'a', fun _ => none⟩]) := by
  have hplans : reviewedSample.PlansOneEach := by
    rintro n context classification retry plan h
    obtain rfl := Except.ok.inj h
    exact ⟨by decide, by decide⟩
  refine @Foundation.evidence_preserved asciiReview reviewedSample calmEnv sampleEvent hplans _ ⟨fun _ => ?_, trivial⟩
  decide +kernel

/-- A foundation whose plan calls one tool twice, with two results. -/
def repeatedSample : Foundation :=
  { Foundation.sample with
    plan := fun _ _ _ _ => .ok { goal := "fix".toList, steps := [{ tool := "log_reader" }, { tool := "log_reader" }] }
    invoke := fun _ index _ tool _ => .ok ({ toolName := tool, riskLevel := .readOnly },
      { toolName := tool, success := true, stdout := natStr index }) }

/-- The event that a call logged. -/
def StoreStep.logged : StoreStep → Option AuditEvent
  | ⟨.append e, true⟩ => some e
  | _ => none

theorem StoreStep.eq_of_logged {call : StoreStep} {e : AuditEvent} (h : call.logged = some e) : call = ⟨.append e, true⟩ := by
  obtain ⟨op, done⟩ := call
  cases done <;> cases op <;> cases h
  rfl

/-- The output that a tool's document shows. -/
def Document.stdout : Document → Option Str
  | .json (.obj entries) =>
    match entries.lookup "stdout" with
    | some (.str s) => some s
    | _ => none
  | _ => none

/-- The second call of the tool overwrites the file that the event of the first one refers to. -/
theorem repeated_tool_overwrites :
    ¬ ∀ (_ : PyReview) (f : Foundation) (env : Env) (event : FailureEvent) (reviews : List ReviewAct),
      f.persistence = true → Preserved env.store (f.history env event reviews) := by
  intro h
  let calls := (@Foundation.run asciiReview.toUnicodeData repeatedSample calmEnv sampleEvent).2.journal.trace
  let ref := "tools/tool-001-log_reader.json".toList
  have hpreserved : Preserved calmEnv.store calls := h asciiReview repeatedSample calmEnv sampleEvent [] rfl
  have hlogged : (calls[21]?.bind StoreStep.logged).map (fun e => e.evidenceRefs.map (·.ref)) = some [ref] := by
    decide +kernel
  have hfirst : ((calmEnv.store.replay (calls.take 21)).file ref).bind Document.stdout = some "0".toList := by
    decide +kernel
  have hlast : ((calmEnv.store.replay calls).file ref).bind Document.stdout = some "1".toList := by decide +kernel
  obtain ⟨e, hevent, hrefs⟩ := Option.map_eq_some_iff.mp hlogged
  obtain ⟨call, hcall, he⟩ := Option.bind_eq_some_iff.mp hevent
  obtain ⟨hlength, hget⟩ := List.getElem?_eq_some_iff.mp hcall
  have hsplit : calls = calls.take 21 ++ ⟨.append e, true⟩ :: calls.drop 22 := by
    rw [← StoreStep.eq_of_logged he, ← hget, List.cons_getElem_drop_succ, List.take_append_drop]
  obtain ⟨document, hthen, hnow⟩ := hpreserved _ e _ hsplit ref (by rw [hrefs]; exact List.mem_singleton_self _)
  rw [hthen] at hfirst
  rw [hnow] at hlast
  exact absurd (hfirst.symm.trans hlast) (by decide)

end FailureOrchestrator
