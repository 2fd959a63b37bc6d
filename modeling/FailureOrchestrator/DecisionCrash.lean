import FailureOrchestrator.CutCalls
import FailureOrchestrator.InterruptedWrites
import FailureOrchestrator.RunAttribution

namespace FailureOrchestrator

open Exec

/-- A stored decision that the consistency check accepts is in the log. -/
def RunStore.Attributable (s : RunStore) : Prop :=
  ∀ d, s.state = some d → verifyRunConsistency s d = [] → Backed s d.workflowStatus

section Stores

variable {s : RunStore} {d : DurableRunState} {ops : List StoreOp}

theorem RunStore.Attributed.attributable (h : s.Attributed) : s.Attributable :=
  fun _ hd _ => h _ (congrArg (Option.map DurableRunState.workflowStatus) hd)

theorem attributed_effect (hs : s.Attributed) (hops : ∀ op ∈ ops, ∀ text, op.savedStatus = some text → Backed s text) :
    (s.effect ops).Attributed := by
  induction ops generalizing s with
  | nil => exact hs
  | cons op ops ih =>
    refine ih (hs.apply (hops op List.mem_cons_self)) fun op' hop' text htext => ?_
    exact (hops op' (List.mem_cons_of_mem _ hop') text htext).apply op

/-- An event that the run state counts keeps the status. -/
theorem attributed_mark (hs : s.Attributed) (hd : s.state = some d) (e : AuditEvent) (m : Nat) :
    (s.effect ((markOps d e).take m)).Attributed := by
  apply attributed_effect hs
  intro op hop text htext
  have hmem : op ∈ markOps d e := List.mem_of_mem_take hop
  simp only [markOps, List.mem_cons, List.not_mem_nil, or_false] at hmem
  rcases hmem with rfl | rfl
  · cases htext
  · cases htext
    exact hs _ (congrArg (Option.map DurableRunState.workflowStatus) hd)

theorem RunStore.effect_append {before after : List StoreOp} : s.effect (before ++ after) = (s.effect before).effect after :=
  List.foldl_append

theorem refusal_next_none {e : AuditEvent} (he : e.sequence = s.latestSequence + 1) :
    s.refusal (.append e) = none ↔ e.eventId ∉ s.events.map (·.eventId) :=
  RunStore.refusal_append_none_iff.trans (and_iff_left he)

end Stores

section Decisions

variable {env : Env} {c : ReviewCall} {d : DurableRunState} {action : ReviewerAction} {escalationId : Str}

theorem ReviewerAction.event_decides {t : AuditEventType} (h : action.transition.event = some t) :
    action.transition.next.decided = true ∧ t ∈ action.transition.next.deciders := by
  cases action <;> cases h <;> decide

theorem ReviewerAction.next_undecided (h : action.transition.event = none) :
    action.transition.next.decided = false := by
  cases action <;> first | rfl | cases h

/-- The recorded decision is no event of the status that it enters. -/
theorem ReviewerAction.recorded_no_decider {t : AuditEventType} (action : ReviewerAction)
    (ht : t ∈ action.transition.next.deciders) : AuditEventType.humanDecisionRecorded.value ≠ t.value := by
  revert ht
  cases action <;> cases t <;> decide

/-- What the store calls before the event of a terminal decision leave. -/
theorem recorded_attributed (hs : env.store.Attributed)
    (hshown : action.transition.next.decided = true → env.store.Shows action.transition.next) (m : Nat) :
    (env.store.effect ((recordOps env c d action escalationId).take m)).Attributed := by
  apply attributed_effect hs
  intro op hop text htext
  have hmem : op ∈ recordOps env c d action escalationId := List.mem_of_mem_take hop
  simp only [recordOps, List.mem_cons, List.not_mem_nil, or_false] at hmem
  rcases hmem with rfl | rfl | rfl
  · cases htext
  · cases htext
  · cases htext
    exact backed_value hshown

/-- Before the save of its status a decision changes no status. -/
theorem begun_attributed (hs : env.store.Attributed) {m : Nat} (hm : m < 3) :
    (env.store.effect ((recordOps env c d action escalationId).take m)).Attributed := by
  apply attributed_effect hs
  intro op hop text htext
  match m, hm with
  | 0, _ => cases hop
  | 1, _ =>
    cases List.mem_singleton.mp hop
    cases htext
  | 2, _ =>
    rcases List.mem_pair.mp hop with rfl | rfl <;> cases htext

/-- From the event of a terminal decision on its status is backed. -/
theorem ended_attributed {t : AuditEventType} (ht : action.transition.event = some t) (m : Nat) :
    (env.store.effect (recordOps env c d action escalationId ++ (terminalOps env c d action t).take (m + 1))).Attributed := by
  obtain ⟨hdecided, hmem⟩ := ReviewerAction.event_decides ht
  let b : StoreOp := .append (c.event (env.newId "evt" 3) (env.store.latestSequence + 2) t d action)
  let recorded := env.store.effect (recordOps env c d action escalationId)
  have hshown : (recorded.apply b).Shows action.transition.next := RunStore.shows_append hmem rfl
  have happended : (recorded.apply b).Attributed := by
    rintro text ⟨⟩
    exact backed_value fun _ => hshown
  rw [RunStore.effect_append]
  show ((recorded.apply b).effect (List.take m _)).Attributed
  apply attributed_effect happended
  intro op hop text htext
  cases List.mem_singleton.mp (List.mem_of_mem_take hop)
  cases htext
  exact backed_value fun _ => hshown

/-- Only a decision that ends the run and stops before its event leaves a status that the log does not back. -/
theorem decision_attributed (hs : env.store.Attributed) {m : Nat}
    (hshown : m = 3 → action.transition.event.isSome = true → env.store.Shows action.transition.next) :
    (env.store.effect ((decisionOps env c d action escalationId).take m)).Attributed := by
  have hlength : (recordOps env c d action escalationId).length = 3 := rfl
  unfold decisionOps
  rw [List.take_append, hlength]
  cases hevent : action.transition.event with
  | none =>
    rw [show (none : Option AuditEventType).elim [] (terminalOps env c d action) = [] from rfl, List.take_nil,
      List.append_nil]
    apply recorded_attributed hs
    intro hdecided
    rw [ReviewerAction.next_undecided hevent] at hdecided
    cases hdecided
  | some t =>
    rcases Nat.lt_or_ge m 4 with hm | hm
    · rw [show m - 3 = 0 by omega, List.take_zero, List.append_nil]
      rcases Nat.lt_or_ge m 3 with hm' | hm'
      · exact begun_attributed hs hm'
      · apply recorded_attributed hs
        exact fun _ => hshown (by omega) (by rw [hevent]; rfl)
    · obtain ⟨k, rfl⟩ := Nat.exists_eq_add_of_le hm
      rw [List.take_of_length_le (by omega), show 4 + k - 3 = k + 1 by omega]
      exact ended_attributed hevent k

/-- Which store calls of a decision are taken. -/
theorem takenAt_decision :
    (TakenAt env {} (decisionOps env c d action escalationId) 0 ↔ env.fails 0 = none) ∧
    (TakenAt env {} (decisionOps env c d action escalationId) 1 ↔
      env.fails 1 = none ∧ env.newId "evt" 1 ∉ env.store.events.map (·.eventId)) ∧
    (TakenAt env {} (decisionOps env c d action escalationId) 2 ↔ env.fails 2 = none) := by
  refine ⟨?_, ?_, ?_⟩
  · exact ⟨fun h => h.1, fun h => ⟨h, by rintro op ⟨⟩; rfl⟩⟩
  · have hrefusal : (env.store.effect ((decisionOps env c d action escalationId).take 1)).refusal
        (.append (recordedEvent env c d action)) = none ↔ env.newId "evt" 1 ∉ env.store.events.map (·.eventId) :=
      refusal_next_none rfl
    rw [← hrefusal]
    exact ⟨fun h => ⟨h.1, h.2 _ rfl⟩, fun h => ⟨h.1, by rintro op ⟨⟩; exact h.2⟩⟩
  · exact ⟨fun h => h.1, fun h => ⟨h, by rintro op ⟨⟩; rfl⟩⟩

theorem takenAt_terminal {t : AuditEventType} (ht : action.transition.event = some t) :
    TakenAt env {} (decisionOps env c d action escalationId) 3 ↔
      env.fails 3 = none ∧ env.newId "evt" 3 ∉ env.newId "evt" 1 :: env.store.events.map (·.eventId) := by
  let e := c.event (env.newId "evt" 3) (env.store.latestSequence + 2) t d action
  let recorded := env.store.effect (recordOps env c d action escalationId)
  have hops : decisionOps env c d action escalationId =
      recordOps env c d action escalationId ++ terminalOps env c d action t := by
    unfold decisionOps
    rw [ht]
    rfl
  have hids : recorded.events.map (·.eventId) = env.store.events.map (·.eventId) ++ [env.newId "evt" 1] :=
    List.map_append
  have hrefusal : recorded.refusal (.append e) = none ↔
      env.newId "evt" 3 ∉ env.newId "evt" 1 :: env.store.events.map (·.eventId) := by
    have hsequence : e.sequence = recorded.latestSequence + 1 :=
      congrArg (· + 1) (RunStore.latestSequence_append (s := env.store) (e := recordedEvent env c d action)).symm
    rw [refusal_next_none hsequence, hids, List.mem_append, List.mem_singleton, or_comm, List.mem_cons]
    exact Iff.rfl
  rw [hops, ← hrefusal]
  exact ⟨fun h => ⟨h.1, h.2 _ rfl⟩, fun h => ⟨h.1, by rintro op ⟨⟩; exact h.2⟩⟩

end Decisions

section Calls

variable [PyReview]

/-- A call on a stored run, the surroundings it meets, and the number of its store calls that are made before a crash. -/
structure CutCall where
  step : OperatorStep
  newId : String → Nat → Str
  fails : Nat → Option Str := fun _ => none
  made : Nat

def CutCall.env (c : CutCall) (s : RunStore) : Env := { store := s, newId := c.newId, fails := c.fails }

/-- What the call leaves of the run. -/
def CutCall.leaves (c : CutCall) (s : RunStore) : RunStore :=
  s.replay ((c.step.exec (c.env s) {}).2.trace.take c.made)

/-- What calls leave that are made one after another, each of which may be cut by a crash. -/
def cutSession (s : RunStore) (calls : List CutCall) : RunStore := calls.foldl (fun s c => c.leaves s) s

/-- The call makes a decision: the run awaits one and nothing stands against it. -/
def ReviewCall.Decides (c : ReviewCall) (s : RunStore) (action : ReviewerAction) : Prop :=
  ∃ d id, s.state = some d ∧ c.judge d (verifyRunConsistency s d) = .ok action ∧ c.resolve s d = .ok (.ok id)

/-- The store call of this number is made and does not fail. -/
def CutCall.Made (c : CutCall) (n : Nat) : Prop := n < c.made ∧ c.fails n = none

/-- The event of this store call is appended to a log with these identifiers. -/
def CutCall.Logs (c : CutCall) (n : Nat) (ids : List Str) : Prop := c.Made n ∧ c.newId "evt" n ∉ ids

/-- A decision that ends the run stops between the save of its status and the event of the status. -/
structure CutCall.Halfway (c : CutCall) (s : RunStore) (action : ReviewerAction) : Prop where
  decides : ∃ call, c.step = .decide call ∧ call.Decides s action
  ends : action.transition.event.isSome = true
  written : c.Made 0
  recorded : c.Logs 1 (s.events.map (·.eventId))
  saved : c.Made 2
  stopped : ¬ c.Logs 3 (c.newId "evt" 1 :: s.events.map (·.eventId))

/-- A call leaves the effect of the first of its store calls. -/
theorem CutCall.leaves_effect {c : CutCall} {s : RunStore} {ops : List StoreOp}
    (h : (c.step.exec (c.env s) {}).2 = attempted (c.env s) ops {}) :
    ∃ m, m ≤ ops.length ∧ c.leaves s = s.effect (ops.take m) ∧
      (∀ i < m, i < c.made ∧ TakenAt (c.env s) {} ops i) ∧
      (m < ops.length → ¬ (m < c.made ∧ TakenAt (c.env s) {} ops m)) := by
  unfold CutCall.leaves
  rw [h]
  exact @attempted_crash (c.env s) ops c.made

theorem CutCall.leaves_nothing {c : CutCall} {s : RunStore} (h : (c.step.exec (c.env s) {}).2 = {}) : c.leaves s = s := by
  unfold CutCall.leaves
  rw [h, show ({} : Journal).trace = [] from rfl, List.take_nil]
  rfl

theorem CutCall.leaves_marked {c : CutCall} {s : RunStore} (hs : s.Attributed)
    (h : (∃ d e, s.state = some d ∧ (c.step.exec (c.env s) {}).2 = attempted (c.env s) (markOps d e) {}) ∨
      (c.step.exec (c.env s) {}).2 = {}) : (c.leaves s).Attributed := by
  rcases h with ⟨d, e, hd, hexec⟩ | hexec
  · obtain ⟨m, -, hleaves, -⟩ := c.leaves_effect hexec
    rw [hleaves]
    exact attributed_mark hs hd e m
  · rw [c.leaves_nothing hexec]
    exact hs

/-- A decision that leaves its first three store calls stops halfway, when it ends the run. -/
theorem CutCall.halfway_of_recorded {c : CutCall} {s : RunStore} {call : ReviewCall} {d : DurableRunState}
    {action : ReviewerAction} {escalationId : Str} (hstep : c.step = .decide call) (hdecides : call.Decides s action)
    (hends : action.transition.event.isSome = true)
    (htaken : ∀ i < 3, i < c.made ∧ TakenAt (c.env s) {} (decisionOps (c.env s) call d action escalationId) i)
    (hstop : ¬ (3 < c.made ∧ TakenAt (c.env s) {} (decisionOps (c.env s) call d action escalationId) 3)) :
    c.Halfway s action := by
  obtain ⟨hwritten, hrecorded, hsaved⟩ := @takenAt_decision (c.env s) call d action escalationId
  obtain ⟨t, ht⟩ := Option.isSome_iff_exists.mp hends
  exact
    { decides := ⟨call, hstep, hdecides⟩
      ends := hends
      written := ⟨(htaken 0 (by decide)).1, hwritten.mp (htaken 0 (by decide)).2⟩
      recorded := ⟨⟨(htaken 1 (by decide)).1, (hrecorded.mp (htaken 1 (by decide)).2).1⟩,
        (hrecorded.mp (htaken 1 (by decide)).2).2⟩
      saved := ⟨(htaken 2 (by decide)).1, hsaved.mp (htaken 2 (by decide)).2⟩
      stopped := fun h => hstop ⟨h.1.1, (takenAt_terminal ht).mpr ⟨h.1.2, h.2⟩⟩ }

theorem CutCall.leaves_attributed {c : CutCall} {s : RunStore} (hs : s.Attributed)
    (hwhole : ∀ action, c.Halfway s action → s.Shows action.transition.next) : (c.leaves s).Attributed := by
  cases hstep : c.step with
  | resume runId =>
    apply c.leaves_marked hs
    rw [hstep]
    unfold OperatorStep.exec
    rw [Exec.map_state]
    exact @resumeRun_attempted (c.env s) runId
  | append call =>
    apply c.leaves_marked hs
    rw [hstep]
    unfold OperatorStep.exec
    rw [Exec.map_state]
    exact @appendOperatorEvent_attempted (c.env s) call
  | decide call =>
    have hexec : (c.step.exec (c.env s) {}).2 = (applyReviewerDecision (c.env s) call {}).2 := by
      rw [hstep]
      exact Exec.map_state _ _ _
    rcases @applyReviewerDecision_cases (c.env s) call _ with ⟨d, action, escalationId, hd, hjudged, hresolved⟩ | hnothing
    · obtain ⟨m, hm, hleaves, htaken, hstop⟩ :=
        c.leaves_effect (hexec.trans (applyReviewerDecision_attempted hd hjudged hresolved))
      rw [hleaves]
      apply @decision_attributed (c.env s) call d action escalationId hs
      rintro rfl hends
      apply hwhole action
      refine c.halfway_of_recorded hstep ⟨d, escalationId, hd, hjudged, hresolved⟩ hends htaken (hstop ?_)
      obtain ⟨t, ht⟩ := Option.isSome_iff_exists.mp hends
      unfold decisionOps
      rw [ht]
      exact Nat.lt_of_lt_of_le (by decide : 3 < 5) (Nat.le_refl 5)
    · rw [c.leaves_nothing (hexec.trans hnothing)]
      exact hs

end Calls

section Halfway

variable {env : Env} {c : ReviewCall} {d : DurableRunState} {action : ReviewerAction} {escalationId : Str}

theorem checkRef_eq_nil {s : RunStore} {label : String} {field : RefField} :
    checkRef s d label field = [] ↔ ∀ ref, d.ref field = some ref → ref ≠ [] → s.isFile ref = true := by
  unfold checkRef
  cases href : d.ref field with
  | none => exact ⟨fun _ _ h => (nomatch h), fun _ => rfl⟩
  | some ref =>
    cases ref with
    | nil => exact ⟨fun _ ref h hne => absurd (Option.some.inj h).symm hne, fun _ => rfl⟩
    | cons a rest =>
      show (if s.isFile (a :: rest) = true then [] else _) = [] ↔ _
      split
      next hfile =>
        refine ⟨fun _ ref h _ => ?_, fun _ => rfl⟩
        cases h
        exact hfile
      next hmissing => exact ⟨nofun, fun hall => absurd (hall _ rfl (List.cons_ne_nil _ _)) hmissing⟩

/-- What a decision has stored when the event of its status is due. -/
def recorded (env : Env) (c : ReviewCall) (d : DurableRunState) (action : ReviewerAction) (escalationId : Str) : RunStore :=
  env.store.effect (recordOps env c d action escalationId)

/-- The check accepts a decision whose event is missing. -/
theorem verify_recorded (hstatus : d.workflowStatus = RunStatus.awaitingHuman.value)
    (hvalid : verifyRunConsistency env.store d = []) (hends : action.transition.next.decided = true) :
    verifyRunConsistency (recorded env c d action escalationId)
      (ReviewCall.decided d action (env.store.latestSequence + 1)) = [] := by
  let s := recorded env c d action escalationId
  let d' := ReviewCall.decided d action (env.store.latestSequence + 1)
  let e := recordedEvent env c d action
  have hevents : s.events = env.store.events ++ [e] := rfl
  unfold verifyRunConsistency at hvalid ⊢
  simp only [List.append_eq_nil_iff] at hvalid ⊢
  obtain ⟨⟨⟨⟨hgap, -⟩, hrefs⟩, -⟩, hevaluation⟩ := hvalid
  refine ⟨⟨⟨⟨?_, ?_⟩, ?_⟩, ?_⟩, ?_⟩
  · exact (sequenceGap_append (e := e) rfl).mpr hgap
  · exact @sequenceMismatch_marked d' env.store.events e
  · rw [List.flatMap_eq_nil_iff] at hrefs ⊢
    intro x hx
    refine checkRef_eq_nil.mpr fun ref href hne => ?_
    change ((RefField.reviewerDecision, reviewerDecisionRef.ref) :: d.refs).lookup x.2 = some ref at href
    rw [List.lookup_cons] at href
    split at href
    · cases href
      exact RunStore.isFile_write _ _
    · exact RunStore.isFile_apply (checkRef_eq_nil.mp (hrefs x hx) ref href hne) (.write _ _)
  · refine if_neg fun h => ?_
    rw [← RunStatus.eq_of_decided hends h.1.symm] at hends
    cases hends
  · rw [missingEvaluation_eq_nil] at hevaluation ⊢
    intro _
    obtain ⟨e', he', htype⟩ := hevaluation (by rw [hstatus]; decide)
    exact ⟨e', List.mem_append_left _ he', htype⟩

/-- A decision that stops halfway leaves a status that the check accepts and the log does not back. -/
theorem CutCall.halfway_unattributable [PyReview] {c : CutCall} {s : RunStore} (h : c.Halfway s action)
    (hnot : ¬ s.Shows action.transition.next) : ¬ (c.leaves s).Attributable := by
  obtain ⟨call, hstep, d, escalationId, hd, hjudged, hresolved⟩ := h.decides
  obtain ⟨t, ht⟩ := Option.isSome_iff_exists.mp h.ends
  have hops : decisionOps (c.env s) call d action escalationId =
      recordOps (c.env s) call d action escalationId ++ terminalOps (c.env s) call d action t := by
    unfold decisionOps
    rw [ht]
    rfl
  have hexec : (c.step.exec (c.env s) {}).2 =
      attempted (c.env s) (decisionOps (c.env s) call d action escalationId) {} := by
    rw [hstep]
    exact (Exec.map_state _ _ _).trans (applyReviewerDecision_attempted hd hjudged hresolved)
  obtain ⟨hwritten, hrecorded, hsaved⟩ := @takenAt_decision (c.env s) call d action escalationId
  obtain ⟨m, hm, hleaves, htaken, hstop⟩ := c.leaves_effect hexec
  have hlength : (decisionOps (c.env s) call d action escalationId).length = 5 := by
    rw [hops]
    rfl
  have hthree : m = 3 := by
    rcases Nat.lt_trichotomy m 3 with hlt | heq | hgt
    · have hnext := hstop (by omega)
      match m, hlt with
      | 0, _ => exact absurd ⟨h.written.1, hwritten.mpr h.written.2⟩ hnext
      | 1, _ => exact absurd ⟨h.recorded.1.1, hrecorded.mpr ⟨h.recorded.1.2, h.recorded.2⟩⟩ hnext
      | 2, _ => exact absurd ⟨h.saved.1, hsaved.mpr h.saved.2⟩ hnext
    · exact heq
    · obtain ⟨hmade, hat⟩ := htaken 3 hgt
      obtain ⟨hfails, hnew⟩ := (takenAt_terminal ht).mp hat
      exact absurd ⟨⟨hmade, hfails⟩, hnew⟩ h.stopped
  subst hthree
  have hleft : c.leaves s = recorded (c.env s) call d action escalationId := by
    rw [hleaves, hops]
    rfl
  obtain ⟨hvalid, hstatus⟩ := judge_ok hjudged
  obtain ⟨hdecided, -⟩ := ReviewerAction.event_decides ht
  intro hattributable
  rw [hleft] at hattributable
  obtain ⟨e, he, t', ht', htype⟩ :=
    hattributable _ rfl (verify_recorded hstatus hvalid hdecided) action.transition.next hdecided rfl
  rcases List.mem_append.mp he with hold | hnew
  · exact hnot ⟨e, hold, t', ht', htype⟩
  · rw [List.mem_singleton.mp hnew] at htype
    exact action.recorded_no_decider ht' htype

end Halfway

section Sessions

variable [PyReview]

theorem cutSession_concat {s : RunStore} {calls : List CutCall} {c : CutCall} :
    cutSession s (calls ++ [c]) = c.leaves (cutSession s calls) := by
  unfold cutSession
  rw [List.foldl_append]
  rfl

/-- At every crash point of a run and of the calls after it, a stored decision that the consistency check accepts is in
the log, exactly when no decision stops between the save of its status and the event of the status. -/
theorem decisions_attributable_iff (f : Foundation) (env : Env) (event : FailureEvent) (hp : f.persistence = true)
    (hnew : env.store.state = none) (calls : List StoreStep) (hcrash : calls <+: (f.run env event).2.journal.trace)
    (later : List CutCall) :
    (∀ before, before <+: later → (cutSession (env.store.replay calls) before).Attributable) ↔
      ∀ before c, before ++ [c] <+: later → ∀ action, c.Halfway (cutSession (env.store.replay calls) before) action →
        (cutSession (env.store.replay calls) before).Shows action.transition.next := by
  have hstart : env.store.Attributed := by
    intro text htext
    unfold RunStore.workflowStatus at htext
    rw [hnew] at htext
    cases htext
  constructor
  · intro h before c hprefix action hhalfway
    by_contra hnot
    have hafter := h (before ++ [c]) hprefix
    rw [cutSession_concat] at hafter
    exact CutCall.halfway_unattributable hhalfway hnot hafter
  · intro h before hprefix
    apply RunStore.Attributed.attributable
    induction before using List.reverseRecOn with
    | nil => exact f.run_attributed event hp hstart calls hcrash
    | append_singleton before c ih =>
      rw [cutSession_concat]
      exact CutCall.leaves_attributed (ih ((List.prefix_append _ _).trans hprefix)) (h before c hprefix)

end Sessions

/-- A reviewer approves the sample run, and the process dies after so many of the store calls. -/
def cutApproval (made : Nat) : CutCall where
  step := .decide { runId := "run-1".toList, action := "APPROVE".toList }
  newId _ k := List.replicate k 'a'
  made

/-- The store calls of the sample run that goes to a reviewer. -/
def reviewedCalls : List StoreStep :=
  (@Foundation.run asciiReview.toUnicodeData reviewedSample calmEnv sampleEvent).2.journal.trace

theorem reviewedCalls_prefix :
    reviewedCalls <+: (@Foundation.run asciiReview.toUnicodeData reviewedSample calmEnv sampleEvent).2.journal.trace :=
  List.prefix_refl _

/-- The sample run as it waits for a reviewer. -/
@[reducible] def awaitingSample : RunStore := calmEnv.store.replay reviewedCalls

/-- An approval that is written to its end is in the log. -/
theorem wholeApproval_attributable : reviewedSample.persistence = true ∧ calmEnv.store.state = none ∧
    ∀ before, before <+: [cutApproval 5] → (@cutSession asciiReview awaitingSample before).Attributable := by
  have hids : (cutApproval 5).newId "evt" 3 ∉ (cutApproval 5).newId "evt" 1 ::
      (@cutSession asciiReview awaitingSample []).events.map (·.eventId) := by decide +kernel
  have hlogs : (cutApproval 5).Logs 3 ((cutApproval 5).newId "evt" 1 ::
      (@cutSession asciiReview awaitingSample []).events.map (·.eventId)) := ⟨⟨by decide, rfl⟩, hids⟩
  refine ⟨rfl, rfl, ?_⟩
  refine (@decisions_attributable_iff asciiReview reviewedSample calmEnv sampleEvent rfl rfl reviewedCalls
    reviewedCalls_prefix [cutApproval 5]).mpr ?_
  rintro before c hprefix action ⟨-, -, -, -, -, hstopped⟩
  obtain ⟨rfl, rfl⟩ : before = [] ∧ c = cutApproval 5 := by
    obtain ⟨after, hafter⟩ := hprefix
    cases before with
    | nil => exact ⟨rfl, (List.cons.inj hafter).1⟩
    | cons first rest => simp at hafter
  exact absurd hlogs hstopped

/-- The process dies before it appends HUMAN_APPROVED: the run is stored as APPROVED, the check accepts it, and no event
says who approved it. -/
theorem cutApproval_unattributed :
    ¬ ∀ (_ : PyReview) (f : Foundation) (env : Env) (event : FailureEvent) (calls : List StoreStep) (later : List CutCall),
      f.persistence = true → env.store.state = none → calls <+: (f.run env event).2.journal.trace →
      (cutSession (env.store.replay calls) later).Attributable := by
  intro h
  have hattributable : (@cutSession asciiReview awaitingSample [cutApproval 3]).Attributable :=
    h asciiReview reviewedSample calmEnv sampleEvent reviewedCalls _ rfl rfl reviewedCalls_prefix
  have hstatus : (@cutSession asciiReview awaitingSample [cutApproval 3]).workflowStatus =
      some RunStatus.approved.value := by decide +kernel
  have hvalid : ∀ d ∈ (@cutSession asciiReview awaitingSample [cutApproval 3]).state,
      verifyRunConsistency (@cutSession asciiReview awaitingSample [cutApproval 3]) d = [] := by decide +kernel
  have hnone : ∀ e ∈ (@cutSession asciiReview awaitingSample [cutApproval 3]).events,
      ∀ t ∈ RunStatus.approved.deciders, e.eventType ≠ t.value := by decide +kernel
  obtain ⟨d, hd, happroved⟩ := Option.map_eq_some_iff.mp hstatus
  obtain ⟨e, he, t, ht, htype⟩ := hattributable d hd (hvalid d hd) .approved rfl happroved
  exact hnone e he t ht htype

end FailureOrchestrator
