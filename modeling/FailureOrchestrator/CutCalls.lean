import FailureOrchestrator.ReviewAlone

namespace FailureOrchestrator

open Exec

section Attempts

variable {env : Env} {j : Journal} {op : StoreOp} {ops : List StoreOp}

/-- The journal after store calls that are made one after another, up to the first that raises. -/
def attempted (env : Env) : List StoreOp → Journal → Journal
  | [], j => j
  | op :: ops, j =>
    match perform env op j with
    | (.ok (), j') => attempted env ops j'
    | (.error _, j') => j'

/-- The store takes the call. -/
def Taken (env : Env) (j : Journal) (op : StoreOp) : Prop :=
  (j.store env).refusal op = none ∧ env.fails j.trace.length = none

theorem perform_taken (h : Taken env j op) : perform env op j = (.ok (), j.call op true) := by
  unfold perform
  rw [h.1, h.2]
  rfl

theorem perform_stopped (h : ¬ Taken env j op) : ∃ e, perform env op j = (.error e, j.call op false) := by
  unfold perform
  cases hr : ((j.store env).refusal op).or (env.fails j.trace.length) with
  | some message => exact ⟨_, rfl⟩
  | none => exact absurd (Option.or_eq_none_iff.mp hr) h

theorem attempted_taken (h : Taken env j op) : attempted env (op :: ops) j = attempted env ops (j.call op true) := by
  show (match perform env op j with | (.ok (), j') => attempted env ops j' | (.error _, j') => j') = _
  rw [perform_taken h]

theorem attempted_stopped (h : ¬ Taken env j op) : attempted env (op :: ops) j = j.call op false := by
  obtain ⟨e, he⟩ := perform_stopped h
  show (match perform env op j with | (.ok (), j') => attempted env ops j' | (.error _, j') => j') = _
  rw [he]

/-- A store call comes first. -/
theorem attempted_perform {α : Type} {k : Unit → Exec Journal RunError α}
    (hk : Taken env j op → (k () (j.call op true)).2 = attempted env ops (j.call op true)) :
    ((perform env op >>= k) j).2 = attempted env (op :: ops) j := by
  by_cases h : Taken env j op
  · rw [bind_of_ok (perform_taken h), attempted_taken h]
    exact hk h
  · obtain ⟨e, he⟩ := perform_stopped h
    rw [bind_of_error he, attempted_stopped h]

/-- The next event comes first. -/
theorem attempted_next {α : Type} {event : Str → Nat → AuditEvent} {k : Nat → Exec Journal RunError α} {e : AuditEvent}
    (he : e = event (env.newId "evt" j.trace.length) ((j.store env).latestSequence + 1))
    (hk : Taken env j (.append e) →
      (k ((j.store env).latestSequence + 1) (j.call (.append e) true)).2 = attempted env ops (j.call (.append e) true)) :
    ((appendNext env event >>= k) j).2 = attempted env (.append e :: ops) j := by
  subst he
  by_cases h : Taken env j (.append (event (env.newId "evt" j.trace.length) ((j.store env).latestSequence + 1)))
  · have happend : appendNext env event j = (.ok ((j.store env).latestSequence + 1), j.call _ true) :=
      (bind_of_ok rfl).trans (bind_of_ok (perform_taken h))
    rw [bind_of_ok happend, attempted_taken h]
    exact hk h
  · obtain ⟨e, he⟩ := perform_stopped h
    have happend : appendNext env event j = (.error e, j.call _ false) := (bind_of_ok rfl).trans (bind_of_error he)
    rw [bind_of_error happend, attempted_stopped h]

/-- The effect of store calls that all succeed. -/
def RunStore.effect (s : RunStore) (ops : List StoreOp) : RunStore := ops.foldl RunStore.apply s

/-- The store call of this number is taken, where those before it were. -/
def TakenAt (env : Env) (j : Journal) (ops : List StoreOp) (k : Nat) : Prop :=
  env.fails (j.trace.length + k) = none ∧
    ∀ op, ops[k]? = some op → ((j.store env).effect (ops.take k)).refusal op = none

theorem takenAt_zero : TakenAt env j (op :: ops) 0 ↔ Taken env j op := by
  constructor
  · exact fun h => ⟨h.2 op rfl, h.1⟩
  · rintro ⟨hrefusal, hfails⟩
    refine ⟨hfails, ?_⟩
    rintro op' ⟨⟩
    exact hrefusal

theorem takenAt_succ {k : Nat} : TakenAt env j (op :: ops) (k + 1) ↔ TakenAt env (j.call op true) ops k := by
  have hlength : (j.call op true).trace.length = j.trace.length + 1 := by simp [Journal.call]
  unfold TakenAt
  rw [hlength, store_call_true, show j.trace.length + 1 + k = j.trace.length + (k + 1) by omega]
  exact Iff.rfl

/-- The calls made are those up to the first that is not taken. -/
theorem attempted_trace (ops : List StoreOp) (j : Journal) :
    ∃ k, k ≤ ops.length ∧ (attempted env ops j).trace =
        j.trace ++ ((ops.take k).map fun op => ⟨op, true⟩) ++ (ops[k]?.toList.map fun op => ⟨op, false⟩) ∧
      (∀ i < k, TakenAt env j ops i) ∧ (k < ops.length → ¬ TakenAt env j ops k) := by
  induction ops generalizing j with
  | nil => exact ⟨0, Nat.le_refl _, by simp [attempted], nofun, nofun⟩
  | cons op ops ih =>
    by_cases h : Taken env j op
    · obtain ⟨k, hk, htrace, htaken, hstop⟩ := ih (j.call op true)
      refine ⟨k + 1, Nat.succ_le_succ hk, ?_, ?_, ?_⟩
      · rw [attempted_taken h, htrace]
        simp [Journal.call]
      · intro i hi
        cases i with
        | zero => exact takenAt_zero.mpr h
        | succ i => exact takenAt_succ.mpr (htaken i (Nat.lt_of_succ_lt_succ hi))
      · intro hlt hat
        exact hstop (Nat.lt_of_succ_lt_succ hlt) (takenAt_succ.mp hat)
    · refine ⟨0, Nat.zero_le _, ?_, nofun, fun _ hat => h (takenAt_zero.mp hat)⟩
      rw [attempted_stopped h]
      simp [Journal.call]

theorem replay_done (s : RunStore) (ops : List StoreOp) : s.replay (ops.map fun op => ⟨op, true⟩) = s.effect ops := by
  unfold RunStore.replay RunStore.effect
  rw [List.foldl_map]
  rfl

theorem replay_failed (s : RunStore) (ops : List StoreOp) : s.replay (ops.map fun op => ⟨op, false⟩) = s := by
  induction ops with
  | nil => rfl
  | cons op ops ih => exact ih

/-- A crash after `n` of the calls leaves the effect of those that were made and taken. -/
theorem attempted_crash (ops : List StoreOp) (n : Nat) :
    ∃ m, m ≤ ops.length ∧ env.store.replay ((attempted env ops {}).trace.take n) = env.store.effect (ops.take m) ∧
      (∀ i < m, i < n ∧ TakenAt env {} ops i) ∧ (m < ops.length → ¬ (m < n ∧ TakenAt env {} ops m)) := by
  obtain ⟨k, hk, htrace, htaken, hstop⟩ := @attempted_trace env ops {}
  rw [htrace]
  rcases Nat.le_total n k with hcut | hdone
  · refine ⟨n, hcut.trans hk, ?_, fun i hi => ⟨hi, htaken i (hi.trans_le hcut)⟩, fun _ h => absurd h.1 (Nat.lt_irrefl n)⟩
    have hlength : n ≤ ((ops.take k).map fun op => (⟨op, true⟩ : StoreStep)).length := by
      rw [List.length_map, List.length_take]
      exact Nat.le_min.mpr ⟨hcut, hcut.trans hk⟩
    rw [show ({} : Journal).trace = [] from rfl, List.nil_append, List.take_append_of_le_length hlength, ← List.map_take,
      List.take_take, Nat.min_eq_left hcut, replay_done]
  · refine ⟨k, hk, ?_, fun i hi => ⟨hi.trans_le hdone, htaken i hi⟩, fun hlt h => hstop hlt h.2⟩
    have hlength : ((ops.take k).map fun op => (⟨op, true⟩ : StoreStep)).length ≤ n := by
      rw [List.length_map, List.length_take]
      exact (Nat.min_le_left _ _).trans hdone
    rw [show ({} : Journal).trace = [] from rfl, List.nil_append, List.take_append, List.take_of_length_le hlength,
      ← List.map_take]
    show List.foldl _ _ _ = _
    rw [List.foldl_append]
    exact (replay_failed _ _).trans (replay_done _ _)

end Attempts

theorem Exec.map_state {σ ε α β : Type} (x : Exec σ ε α) (f : α → β) (s : σ) : ((f <$> x) s).2 = (x s).2 := by
  show (Exec.bind x (fun a => pure (f a)) s).2 = _
  unfold Exec.bind
  rcases x s with ⟨e | a, s'⟩ <;> rfl

section Operators

variable {env : Env} {d : DurableRunState}

/-- An event of the log and the run state that counts it. -/
def markOps (d : DurableRunState) (e : AuditEvent) : List StoreOp :=
  [.append e, .saveRun { d with lastEventSequence := e.sequence }]

theorem mark_attempted {α : Type} {event : Str → Nat → AuditEvent} {k : Nat → Exec Journal RunError α} {j : Journal}
    (hsequence : ∀ id n, (event id n).sequence = n) (hk : ∀ n j, (k n j).2 = j) :
    ∃ e, ((appendNext env event >>= fun n => perform env (.saveRun { d with lastEventSequence := n }) >>= fun _ => k n)
      j).2 = attempted env (markOps d e) j := by
  refine ⟨event (env.newId "evt" j.trace.length) ((j.store env).latestSequence + 1), attempted_next rfl fun _ => ?_⟩
  rw [hsequence]
  exact attempted_perform fun _ => hk _ _

theorem appendOperatorEvent_attempted (c : OperatorCall) :
    (∃ d e, env.store.state = some d ∧ (appendOperatorEvent env c {}).2 = attempted env (markOps d e) {}) ∨
      (appendOperatorEvent env c {}).2 = {} := by
  cases hload : loadRun env.store c.runId with
  | error e =>
    right
    have hlift : (Exec.lift (loadRun (Journal.store env {}) c.runId) : Exec Journal RunError _) {} = (.error e, {}) :=
      congrArg (fun r => (r, ({} : Journal))) hload
    exact congrArg Prod.snd ((bind_of_ok rfl).trans (bind_of_error hlift))
  | ok d =>
    left
    have hlift : (Exec.lift (loadRun (Journal.store env {}) c.runId) : Exec Journal RunError _) {} = (.ok d, {}) :=
      congrArg (fun r => (r, ({} : Journal))) hload
    obtain ⟨e, he⟩ := @mark_attempted env d _ (c.event d) pure {} (fun _ _ => rfl) fun _ _ => rfl
    refine ⟨d, e, loadRun_state hload, ?_⟩
    rw [← he]
    exact congrArg Prod.snd ((bind_of_ok rfl).trans (bind_of_ok hlift))

theorem resumeRun_attempted (runId : Str) :
    (∃ d e, env.store.state = some d ∧ (resumeRun env runId {}).2 = attempted env (markOps d e) {}) ∨
      (resumeRun env runId {}).2 = {} := by
  cases hload : loadRun env.store runId with
  | error e =>
    right
    have hlift : (Exec.lift (loadRun (Journal.store env {}) runId) : Exec Journal RunError _) {} = (.error e, {}) :=
      congrArg (fun r => (r, ({} : Journal))) hload
    exact congrArg Prod.snd ((bind_of_ok rfl).trans (bind_of_error hlift))
  | ok d =>
    have hlift : (Exec.lift (loadRun (Journal.store env {}) runId) : Exec Journal RunError _) {} = (.ok d, {}) :=
      congrArg (fun r => (r, ({} : Journal))) hload
    have hresume : resumeRun env runId {} = ((when ((recoveryDecision env.store runId d).status = .resumable)
        (markResumed env runId d)) >>= fun _ => pure (recoveryDecision env.store runId d)) {} :=
      (bind_of_ok rfl).trans (bind_of_ok hlift)
    rw [hresume]
    unfold Exec.when
    split
    · left
      rw [markResumed_eq]
      simp only [bind_assoc]
      let event := fun (eventId : Str) (sequence : Nat) => ({
        eventId
        runId
        sequence
        eventType := AuditEventType.runResumed.value
        component := "persistence".toList
        stateBefore := some d.workflowStatus
        stateAfter := some d.workflowStatus } : AuditEvent)
      obtain ⟨e, he⟩ := @mark_attempted env d _ event (fun _ => pure (recoveryDecision env.store runId d)) {}
        (fun _ _ => rfl) fun _ _ => rfl
      exact ⟨d, e, loadRun_state hload, he⟩
    · exact .inr rfl

end Operators

section Decisions

variable {env : Env} {c : ReviewCall} {d : DurableRunState} {action : ReviewerAction} {escalationId : Str}

/-- The first event of a decision. -/
def recordedEvent (env : Env) (c : ReviewCall) (d : DurableRunState) (action : ReviewerAction) : AuditEvent :=
  c.event (env.newId "evt" 1) (env.store.latestSequence + 1) .humanDecisionRecorded d action

/-- The store calls of a decision up to the save of its status. -/
def recordOps (env : Env) (c : ReviewCall) (d : DurableRunState) (action : ReviewerAction) (escalationId : Str) :
    List StoreOp :=
  [.write reviewerDecisionRef.ref (c.document action escalationId), .append (recordedEvent env c d action),
    .saveRun (ReviewCall.decided d action (env.store.latestSequence + 1))]

/-- The store calls that follow in a terminal decision. -/
def terminalOps (env : Env) (c : ReviewCall) (d : DurableRunState) (action : ReviewerAction) (t : AuditEventType) :
    List StoreOp :=
  [.append (c.event (env.newId "evt" 3) (env.store.latestSequence + 2) t d action),
    .saveRun { ReviewCall.decided d action (env.store.latestSequence + 1) with
      lastEventSequence := env.store.latestSequence + 2 }]

def decisionOps (env : Env) (c : ReviewCall) (d : DurableRunState) (action : ReviewerAction) (escalationId : Str) :
    List StoreOp :=
  recordOps env c d action escalationId ++ action.transition.event.elim [] (terminalOps env c d action)

/-- The second event of a terminal decision is counted from the first one. -/
theorem terminal_attempted {t : AuditEventType} {j : Journal} {k : Nat → Exec Journal RunError HumanDecisionResult}
    (hlatest : (j.store env).latestSequence = env.store.latestSequence + 1) (hlength : j.trace.length = 3)
    (hk : ∀ n j, (k n j).2 = j) :
    ((appendNext env (fun id n => c.event id n t d action) >>= fun last =>
      perform env (.saveRun { ReviewCall.decided d action (env.store.latestSequence + 1) with lastEventSequence := last })
        >>= fun _ => k last) j).2 = attempted env (terminalOps env c d action t) j := by
  unfold terminalOps
  rw [show env.store.latestSequence + 2 = (j.store env).latestSequence + 1 by rw [hlatest], ← hlength]
  exact attempted_next rfl fun _ => attempted_perform fun _ => hk _ _

theorem recordDecision_attempted :
    (recordDecision env c d action escalationId {}).2 =
      attempted env (decisionOps env c d action escalationId) {} := by
  unfold recordDecision
  apply attempted_perform
  intro _
  rw [humanTransition_ok]
  refine attempted_next rfl fun _ => attempted_perform fun _ => ?_
  cases hevent : action.transition.event with
  | none => rfl
  | some terminal =>
    refine terminal_attempted ?_ rfl fun _ _ => rfl
    exact RunStore.latestSequence_append (e := recordedEvent env c d action)

-- Only an approval and a rejection append a second event.
example : ReviewerAction.all.filter (fun action => action.transition.event.isSome) = [.approve, .reject] := by
  decide +kernel

section Review

variable [PyReview]

theorem applyReviewerDecision_attempted (hd : env.store.state = some d)
    (hjudged : c.judge d (verifyRunConsistency env.store d) = .ok action)
    (hresolved : c.resolve env.store d = .ok (.ok escalationId)) :
    (applyReviewerDecision env c {}).2 = attempted env (decisionOps env c d action escalationId) {} := by
  rw [← recordDecision_attempted, applyReviewerDecision_start, loadRun_stored hd]
  dsimp only
  rw [hjudged]
  dsimp only
  rw [hresolved]
  rfl

/-- A call that makes no decision writes nothing. -/
theorem applyReviewerDecision_cases :
    (∃ d action escalationId, env.store.state = some d ∧
      c.judge d (verifyRunConsistency env.store d) = .ok action ∧ c.resolve env.store d = .ok (.ok escalationId)) ∨
      (applyReviewerDecision env c {}).2 = {} := by
  rw [applyReviewerDecision_start]
  cases hload : loadRun env.store c.runId with
  | error e => exact .inr rfl
  | ok d =>
    dsimp only
    cases hjudged : c.judge d (verifyRunConsistency env.store d) with
    | error r => exact .inr rfl
    | ok action =>
      cases hresolved : c.resolve env.store d with
      | error e => exact .inr rfl
      | ok resolved =>
        cases resolved with
        | error r => exact .inr rfl
        | ok escalationId => exact .inl ⟨d, action, escalationId, loadRun_state hload, hjudged, hresolved⟩

end Review

end Decisions

end FailureOrchestrator
