import FailureOrchestrator.OperatorSession
import FailureOrchestrator.ReviewRules
import Mathlib.Logic.Relation

namespace FailureOrchestrator

open Exec

section Steps

variable [PyReview] {s : RunStore} {t : Reviewer}

/-- The steps of a call that runs by itself. -/
def Leads : RunStore × Reviewer → RunStore × Reviewer → Prop := Relation.ReflTransGen fun p q => q = p.2.act p.1

theorem Leads.step {p q : RunStore × Reviewer} (h : Leads (p.2.act p.1) q) : Leads p q := Relation.ReflTransGen.head rfl h

/-- A step whose outcome is known. -/
theorem Leads.move {p p' q : RunStore × Reviewer} (hact : p.2.act p.1 = p') (h : Leads p' q) : Leads p q := by
  refine Leads.step ?_
  rw [hact]
  exact h

theorem leads_verified {d : DurableRunState} {log : List AuditEvent} (pending : List (String × RefField))
    (issues : List ConsistencyIssue) : Leads (s, { t with phase := .verifying d log pending issues })
      (s, { t with phase := .verifying d log [] (issues ++
        pending.flatMap fun (label, field) => checkRef s d label field) }) := by
  induction pending generalizing issues with
  | nil =>
    rw [List.flatMap_nil, List.append_nil]
    exact Relation.ReflTransGen.refl
  | cons first rest ih =>
    refine Leads.step ?_
    rw [List.flatMap_cons, ← List.append_assoc]
    exact ih _

omit [PyReview] in
/-- The store refuses the next event for its identifier only. -/
theorem refusal_next {e : AuditEvent} (he : e.sequence = s.latestSequence + 1) :
    s.refusal (.append e) =
      if e.eventId ∈ s.events.map (·.eventId) then some ("duplicate event_id: ".toList ++ e.eventId) else none := by
  unfold RunStore.refusal
  dsimp only
  split
  · rfl
  · rw [if_neg (not_not_intro he)]

/-- Alone, an event with a known identifier is refused. -/
theorem leads_refused {r : Review} {message : Str} (hseen : r.known s = s.events.map (·.eventId))
    (hrefusal : s.refusal (.append (t.event r (s.latestSequence + 1))) = some message) :
    Leads (s, { t with phase := .counting r }) (s, { t with phase := .finished (.error (.persistence message)) }) := by
  rw [refusal_next rfl] at hrefusal
  have hid : r.eventId t ∈ r.known s := by
    by_contra hid
    rw [hseen] at hid
    rw [if_neg (show ¬ (t.event r (s.latestSequence + 1)).eventId ∈ _ from hid)] at hrefusal
    cases hrefusal
  have hmessage : "duplicate event_id: ".toList ++ r.eventId t = message := by
    rw [hseen] at hid
    rw [if_pos (show (t.event r (s.latestSequence + 1)).eventId ∈ _ from hid)] at hrefusal
    exact Option.some.inj hrefusal
  refine Leads.step ?_
  refine Leads.move (if_pos hid) ?_
  rw [← hmessage]
  exact Relation.ReflTransGen.refl

/-- Alone, an event with a new identifier is appended and counted. -/
theorem leads_counted {r : Review} (hseen : r.known s = s.events.map (·.eventId))
    (hrefusal : s.refusal (.append (t.event r (s.latestSequence + 1))) = none) :
    Leads (s, { t with phase := .counting r })
      ((s.apply (.append (t.event r (s.latestSequence + 1)))).apply (.saveRun (r.decided (s.latestSequence + 1))),
        { t with phase := t.next { r with seen := r.known s ++ [r.eventId t] } (s.latestSequence + 1) }) := by
  rw [refusal_next rfl] at hrefusal
  have hid : ¬ r.eventId t ∈ r.known s := by
    intro hid
    rw [hseen] at hid
    rw [if_pos (show (t.event r (s.latestSequence + 1)).eventId ∈ _ from hid)] at hrefusal
    cases hrefusal
  refine Leads.step ?_
  refine Leads.move (if_neg hid) ?_
  refine Leads.move (if_neg (not_not_intro rfl)) ?_
  refine Leads.step ?_
  refine Leads.step ?_
  exact Relation.ReflTransGen.refl

/-- The call came to the outcome of a sequential run. -/
def Ends (env : Env) (t : Reviewer) (p : RunStore × Reviewer) (out : Except RunError HumanDecisionResult × Journal) : Prop :=
  Leads p (out.2.store env, { t with phase := .finished out.1 })

variable {env : Env} {j : Journal}

omit [PyReview] in
theorem perform_refused {op : StoreOp} {message : Str} (h : (j.store env).refusal op = some message) :
    perform env op j = (.error (.persistence message), j.call op false) := by
  unfold perform
  rw [h]
  rfl

omit [PyReview] in
theorem perform_done {op : StoreOp} (henv : ∀ n, env.fails n = none) (h : (j.store env).refusal op = none) :
    perform env op j = (.ok (), j.call op true) := by
  unfold perform
  rw [h, henv]
  rfl

/-- Alone, a call that appends and counts its next event does what the sequential run does. -/
theorem ends_counted {r : Review} {k : Nat → Exec Journal RunError HumanDecisionResult} (henv : ∀ n, env.fails n = none)
    (hj : j.store env = s) (hid : env.newId "evt" j.trace.length = r.eventId t)
    (hseen : r.known s = s.events.map (·.eventId))
    (hk : ∀ j' s' n, n = s.latestSequence + 1 → s' = (s.apply (.append (t.event r n))).apply (.saveRun (r.decided n)) →
      j'.store env = s' → j'.trace.length = j.trace.length + 2 →
      Ends env t (s', { t with phase := t.next { r with seen := r.known s ++ [r.eventId t] } n }) (k n j')) :
    Ends env t (s, { t with phase := .counting r })
      ((appendNext env (fun id n => t.call.event id n r.eventType r.d r.action) >>= fun n =>
        perform env (.saveRun (r.decided n)) >>= fun _ => k n) j) := by
  subst hj
  let n := (j.store env).latestSequence + 1
  let e := t.call.event (env.newId "evt" j.trace.length) n r.eventType r.d r.action
  have hevent : e = t.event r n := by
    show t.call.event (env.newId "evt" j.trace.length) n r.eventType r.d r.action = _
    rw [hid]
    rfl
  cases hrefusal : (j.store env).refusal (.append e) with
  | some message =>
    have happend : appendNext env (fun id n => t.call.event id n r.eventType r.d r.action) j =
        (.error (.persistence message), j.call (.append e) false) :=
      (bind_of_ok rfl).trans (bind_of_error (perform_refused hrefusal))
    rw [bind_of_error happend]
    unfold Ends
    rw [store_call_false]
    rw [hevent] at hrefusal
    exact leads_refused hseen hrefusal
  | none =>
    have happend : appendNext env (fun id n => t.call.event id n r.eventType r.d r.action) j =
        (.ok n, j.call (.append e) true) :=
      (bind_of_ok rfl).trans (bind_of_ok (perform_done henv hrefusal))
    let j' := j.call (.append e) true
    have hsave : perform env (.saveRun (r.decided n)) j' = (.ok (), j'.call (.saveRun (r.decided n)) true) :=
      perform_done henv rfl
    rw [bind_of_ok happend, bind_of_ok hsave]
    rw [hevent] at hrefusal
    refine (leads_counted hseen hrefusal).trans (hk _ _ n rfl rfl ?_ ?_)
    · rw [store_call_true, store_call_true, hevent]
    · simp [j', Journal.call]

/-- The surroundings of a call that no other call disturbs. -/
def Reviewer.alone (t : Reviewer) (s : RunStore) : Env where
  store := s
  newId _ n := if n ≤ 1 then t.recordedId else t.followId

theorem ends_finished {out : Except RunError HumanDecisionResult} (hj : j.store env = s) :
    Ends env t (s, { t with phase := .finished out }) (out, j) := by
  subst hj
  exact Relation.ReflTransGen.refl

/-- The second event of a terminal decision, and the answer. -/
theorem ends_terminal {r : Review} {terminal : AuditEventType} {n : Nat} (hfirst : r.first = some n)
    (hevent : r.action.transition.event = some terminal) (henv : ∀ n, env.fails n = none)
    (hj : j.store env = s) (hid : env.newId "evt" j.trace.length = t.followId)
    (hseen : r.known s = s.events.map (·.eventId)) :
    Ends env t (s, { t with phase := .counting r })
      ((appendNext env (fun id n => t.call.event id n terminal r.d r.action) >>= fun last =>
        perform env (.saveRun { ReviewCall.decided r.d r.action n with lastEventSequence := last }) >>= fun _ =>
          pure (t.call.accept r.d r.action last)) j) := by
  obtain ⟨d, log, action, first, seen⟩ := r
  cases hfirst
  have htype : (Review.eventType ⟨d, log, action, some n, seen⟩) = terminal := by
    show action.transition.event.getD _ = terminal
    rw [show action.transition.event = some terminal from hevent]
    rfl
  rw [← htype]
  refine ends_counted (r := ⟨d, log, action, some n, seen⟩) henv hj hid hseen ?_
  intro j' s' last _ _ hj' _
  exact ends_finished hj'

theorem ends_recorded {r : Review} {escalationId : Str} (hfirst : r.first = none) (hseen : r.seen = []) :
    Ends (t.alone s) t (s, { t with phase := .resolved r escalationId })
      (recordDecision (t.alone s) t.call r.d r.action escalationId {}) := by
  obtain ⟨d, log, action, first, seen⟩ := r
  cases hfirst
  cases hseen
  let op := StoreOp.write reviewerDecisionRef.ref (t.call.document action escalationId)
  let j : Journal := Journal.call {} op true
  have hwrite : perform (t.alone s) op {} = (.ok (), j) := perform_done (fun _ => rfl) rfl
  unfold recordDecision
  rw [bind_of_ok hwrite, humanTransition_ok]
  have hact : ({ t with phase := .resolved ⟨d, log, action, none, []⟩ escalationId } : Reviewer).act s =
      (s.apply op, { t with phase := .counting ⟨d, log, action, none, []⟩ }) := by
    unfold Reviewer.act
    dsimp only
    rw [humanTransition_ok]
  refine Leads.move hact ?_
  refine ends_counted (r := ⟨d, log, action, none, []⟩) (fun _ => rfl) store_call_true rfl rfl ?_
  intro j' s' n hn hs' hj' hlength
  unfold Reviewer.next
  dsimp only
  cases hevent : action.transition.event with
  | none => exact ends_finished hj'
  | some terminal =>
    refine ends_terminal rfl hevent (fun _ => rfl) hj' ?_ ?_
    · show (if j'.trace.length ≤ 1 then _ else _) = _
      rw [hlength]
      rfl
    · rw [hs']
      simp [Review.known, RunStore.apply, Reviewer.event, ReviewCall.event]

theorem Ends.move {p q : ReviewPhase} {out : Except RunError HumanDecisionResult × Journal}
    (hact : ({ t with phase := p } : Reviewer).act s = (s, { t with phase := q }))
    (h : Ends env t (s, { t with phase := q }) out) : Ends env t (s, { t with phase := p }) out :=
  Leads.move hact h

theorem ends_accepted {r : Review} (hfirst : r.first = none) (hseen : r.seen = []) :
    Ends (t.alone s) t (s, { t with phase := .accepted r }) ((lift (t.call.resolve s r.d) >>= fun
      | .error result => return result
      | .ok escalationId => recordDecision (t.alone s) t.call r.d r.action escalationId) {}) := by
  cases hresolve : t.call.resolve s r.d with
  | error e =>
    refine Ends.move (q := .finished (.error e)) ?_ (ends_finished rfl)
    unfold Reviewer.act
    dsimp only
    rw [hresolve]
  | ok resolved =>
    cases resolved with
    | error result =>
      refine Ends.move (q := .finished (.ok result)) ?_ (ends_finished rfl)
      unfold Reviewer.act
      dsimp only
      rw [hresolve]
    | ok escalationId =>
      refine Ends.move (q := .resolved r escalationId) ?_ (ends_recorded hfirst hseen)
      unfold Reviewer.act
      dsimp only
      rw [hresolve]

/-- A call looks at the store before it writes to it. -/
theorem applyReviewerDecision_start {c : ReviewCall} :
    applyReviewerDecision env c {} = (match loadRun env.store c.runId with
      | .error e => return c.unloaded e
      | .ok d =>
        match c.judge d (verifyRunConsistency env.store d) with
        | .error r => return r
        | .ok action =>
          lift (c.resolve env.store d) >>= fun
            | .error r => return r
            | .ok escalationId => recordDecision env c d action escalationId) {} := bind_of_ok rfl

/-- A call that runs by itself does what `apply_reviewer_decision` does. -/
theorem review_alone (hstart : t.phase = .start) :
    Ends (t.alone s) t (s, t) (applyReviewerDecision (t.alone s) t.call {}) := by
  obtain ⟨call, recordedId, followId, phase⟩ := t
  cases hstart
  let t : Reviewer := { call, recordedId, followId }
  show Ends (t.alone s) t (s, t) (applyReviewerDecision (t.alone s) call {})
  rw [applyReviewerDecision_start, show (t.alone s).store = s from rfl]
  cases hload : loadRun s call.runId with
  | error e =>
    refine Ends.move (t := t) (q := .finished (.ok (call.unloaded e))) ?_ (ends_finished rfl)
    unfold Reviewer.act
    dsimp only
    rw [hload]
  | ok d =>
    refine Ends.move (t := t) (q := .loaded d) ?_ ?_
    · unfold Reviewer.act
      dsimp only
      rw [hload]
    refine Ends.move rfl ?_
    refine (leads_verified checkedRefs _).trans ?_
    dsimp only
    cases hjudge : call.judge d (verifyRunConsistency s d) with
    | error result =>
      refine Ends.move (q := .finished (.ok result)) ?_ (ends_finished rfl)
      show (match call.judge d (verifyRunConsistency s d) with | .error result => _ | .ok action => _) = _
      rw [hjudge]
    | ok action =>
      refine Ends.move (q := .accepted { d, log := s.events, action }) ?_ (ends_accepted rfl rfl)
      show (match call.judge d (verifyRunConsistency s d) with | .error result => _ | .ok action => _) = _
      rw [hjudge]

end Steps

end FailureOrchestrator
