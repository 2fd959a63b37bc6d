import FailureOrchestrator.HumanDecision
import FailureOrchestrator.Interleaving
import FailureOrchestrator.OperatorSession

namespace FailureOrchestrator

/-- A decision under way: the loaded run state, the log as the consistency check read it, the action, the number of the
recorded decision once it is saved, and the identifiers that the audit store has seen. The call itself never looks at
`log` again. -/
structure Review where
  d : DurableRunState
  log : List AuditEvent
  action : ReviewerAction
  first : Option Nat := none
  seen : List Str := []

/-- The place of `apply_reviewer_decision` between two accesses to the run's directory. -/
inductive ReviewPhase where
  | start
  | loaded (d : DurableRunState)
  | verifying (d : DurableRunState) (log : List AuditEvent) (pending : List (String × RefField))
      (issues : List ConsistencyIssue)
  | accepted (r : Review)
  | resolved (r : Review) (escalationId : Str)
  | counting (r : Review)
  | reading (r : Review) (sequence : Nat)
  | comparing (r : Review) (sequence : Nat)
  | appending (r : Review) (sequence : Nat)
  | saving (r : Review) (sequence : Nat)
  | finished (result : Except RunError HumanDecisionResult)

/-- A running call of `apply_reviewer_decision`, with the identifiers of the two events that it may append. -/
structure Reviewer where
  call : ReviewCall
  recordedId : Str
  followId : Str
  phase : ReviewPhase := .start

def Review.eventId (r : Review) (t : Reviewer) : Str := r.first.elim t.recordedId fun _ => t.followId

/-- The recorded decision first, then the event of a terminal one. -/
def Review.eventType (r : Review) : AuditEventType :=
  r.first.elim .humanDecisionRecorded fun _ => r.action.transition.event.getD .humanDecisionRecorded

/-- The run state that the call saves. -/
def Review.decided (r : Review) (sequence : Nat) : DurableRunState :=
  r.first.elim (ReviewCall.decided r.d r.action sequence) fun n =>
    { ReviewCall.decided r.d r.action n with lastEventSequence := sequence }

/-- The identifiers that the audit store has seen, read from the log when it has seen none. -/
def Review.known (r : Review) (s : RunStore) : List Str := if r.seen = [] then s.events.map (·.eventId) else r.seen

namespace Reviewer

variable [PyReview]

def event (t : Reviewer) (r : Review) (sequence : Nat) : AuditEvent :=
  t.call.event (r.eventId t) sequence r.eventType r.d r.action

/-- What follows a save: the event of a terminal decision, or the answer. -/
def next (t : Reviewer) (r : Review) (sequence : Nat) : ReviewPhase :=
  match r.first, r.action.transition.event with
  | none, some _ => .counting { r with first := some sequence }
  | _, _ => .finished (.ok (t.call.accept r.d r.action sequence))

/-- One step: at most one access to the run's directory. -/
def act (s : RunStore) (t : Reviewer) : RunStore × Reviewer :=
  match t.phase with
  | .start =>
    match loadRun s t.call.runId with
    | .error e => (s, { t with phase := .finished (.ok (t.call.unloaded e)) })
    | .ok d => (s, { t with phase := .loaded d })
  | .loaded d =>
    (s, { t with phase := .verifying d s.events checkedRefs (sequenceGap 1 s.events ++ sequenceMismatch d s.events) })
  | .verifying d log ((label, field) :: pending) issues =>
    (s, { t with phase := .verifying d log pending (issues ++ checkRef s d label field) })
  | .verifying d log [] issues =>
    match t.call.judge d (issues ++ missingEscalation s d ++ missingEvaluation d log) with
    | .error result => (s, { t with phase := .finished (.ok result) })
    | .ok action => (s, { t with phase := .accepted { d, log, action } })
  | .accepted r =>
    match t.call.resolve s r.d with
    | .error e => (s, { t with phase := .finished (.error e) })
    | .ok (.error result) => (s, { t with phase := .finished (.ok result) })
    | .ok (.ok escalationId) => (s, { t with phase := .resolved r escalationId })
  | .resolved r escalationId =>
    (s.apply (.write reviewerDecisionRef.ref (t.call.document r.action escalationId)),
      match recordDecision.humanTransition r.action with
      | .error e => { t with phase := .finished (.ok (t.call.refuse r.d .blocked e.message)) }
      | .ok _ => { t with phase := .counting r })
  | .counting r => (s, { t with phase := .reading r (s.latestSequence + 1) })
  | .reading r sequence =>
    if r.eventId t ∈ r.known s then
      (s, { t with phase := .finished (.error (.persistence ("duplicate event_id: ".toList ++ r.eventId t))) })
    else (s, { t with phase := .comparing { r with seen := r.known s } sequence })
  | .comparing r sequence =>
    if sequence ≠ s.latestSequence + 1 then
      (s, { t with phase := .finished (.error (.persistence ("non-monotonic sequence: expected ".toList ++
        natStr (s.latestSequence + 1) ++ ", got ".toList ++ natStr sequence))) })
    else (s, { t with phase := .appending r sequence })
  | .appending r sequence =>
    (s.apply (.append (t.event r sequence)), { t with phase := .saving { r with seen := r.seen ++ [r.eventId t] } sequence })
  | .saving r sequence => (s.apply (.saveRun (r.decided sequence)), { t with phase := t.next r sequence })
  | .finished _ => (s, t)

end Reviewer

/-- The event of a terminal decision. -/
def AuditEvent.isVerdict (e : AuditEvent) : Bool :=
  e.eventType = AuditEventType.humanApproved.value ∨ e.eventType = AuditEventType.humanRejected.value

/-- What a run's directory says about it, apart from the evidence. -/
structure Ledger where
  state : Option DurableRunState
  events : List AuditEvent

def RunStore.ledger (s : RunStore) : Ledger := ⟨s.state, s.events⟩

/-- The run while decisions on it are under way: the events behind the first ones hold at most one verdict, which the run
state shows. -/
structure Course (start : List AuditEvent) (l : Ledger) (d : DurableRunState) (fresh : List AuditEvent) : Prop where
  state : l.state = some d
  log : l.events = start ++ fresh
  since : start.length ≤ d.lastEventSequence
  behind : d.lastEventSequence ≤ l.events.length
  numbered : l.events.map (·.sequence) = List.range' 1 l.events.length
  verdict : fresh.filter AuditEvent.isVerdict = [] ∨ ∃ e, fresh.filter AuditEvent.isVerdict = [e] ∧
    e.stateAfter = some d.workflowStatus ∧ d.workflowStatus ≠ RunStatus.awaitingHuman.value

/-- A run state that was stored, and still is unless a later event was counted. -/
def WasStored (start : List AuditEvent) (l : Ledger) (d : DurableRunState) : Prop :=
  ∃ now, l.state = some now ∧ start.length ≤ d.lastEventSequence ∧ d.lastEventSequence ≤ now.lastEventSequence ∧
    (d.lastEventSequence = now.lastEventSequence → now = d)

/-- A call that has not appended its decision. -/
structure Undecided (start : List AuditEvent) (l : Ledger) (r : Review) : Prop where
  stored : WasStored start l r.d
  counted : r.d.lastEventSequence = r.log.length
  awaiting : r.d.workflowStatus = RunStatus.awaitingHuman.value
  logged : r.log.length ≤ l.events.length
  first : r.first = none

/-- A call that has saved its decision and not appended the verdict. -/
structure Decided (start : List AuditEvent) (l : Ledger) (r : Review) (n : Nat) : Prop where
  state : l.state = some (ReviewCall.decided r.d r.action n)
  last : n = l.events.length
  terminal : r.action.transition.event.isSome = true
  open_ : ∀ fresh, l.events = start ++ fresh → fresh.filter AuditEvent.isVerdict = []

/-- A call that has appended an event that the run state does not count yet. -/
structure Uncounted (l : Ledger) (r : Review) (sequence : Nat) (d : DurableRunState) : Prop where
  state : l.state = some d
  next : d.lastEventSequence + 1 = sequence
  last : sequence = l.events.length

/-- What a call knows of the run at each place. -/
def Reviewer.Knows (start : List AuditEvent) (l : Ledger) (t : Reviewer) : Prop :=
  match t.phase with
  | .start => True
  | .loaded d => WasStored start l d
  | .verifying d log _ issues =>
    WasStored start l d ∧ log.length ≤ l.events.length ∧ (issues = [] → d.lastEventSequence = log.length)
  | .accepted r | .resolved r _ => Undecided start l r
  | .counting r => r.first.elim (Undecided start l r) (Decided start l r)
  | .reading r sequence | .comparing r sequence | .appending r sequence =>
    r.first.elim (Undecided start l r ∧ r.log.length < sequence ∧ sequence ≤ l.events.length + 1) fun n =>
      Decided start l r n ∧ sequence = n + 1
  | .saving r sequence =>
    r.first.elim (Uncounted l r sequence r.d ∧ r.d.workflowStatus = RunStatus.awaitingHuman.value) fun n =>
      Uncounted l r sequence (ReviewCall.decided r.d r.action n) ∧ r.action.transition.event.isSome = true
  | .finished (.ok result) =>
    result.status = .applied → ∃ d, l.state = some d ∧ d.workflowStatus ≠ RunStatus.awaitingHuman.value
  | .finished (.error _) => True

/-- The call has a decision in the log that it may still be writing, or that it reported as applied. -/
def Reviewer.Decides (t : Reviewer) : Prop :=
  match t.phase with
  | .counting r | .reading r _ | .comparing r _ | .appending r _ => r.first.isSome = true
  | .saving _ _ => True
  | .finished (.ok result) => result.status = .applied
  | _ => False

/-- A decision is appended to the log that the call's consistency check read. -/
def Reviewer.Undisturbed (s : RunStore) (t : Reviewer) : Prop :=
  match t.phase with
  | .appending r _ => r.first = none → s.events = r.log
  | _ => True

instance (s : RunStore) : (t : Reviewer) → Decidable (t.Undisturbed s)
  | ⟨_, _, _, .appending r _⟩ => inferInstanceAs (Decidable (r.first = none → s.events = r.log))
  | ⟨_, _, _, .start⟩ | ⟨_, _, _, .loaded _⟩ | ⟨_, _, _, .verifying ..⟩ | ⟨_, _, _, .accepted _⟩ | ⟨_, _, _, .resolved ..⟩
  | ⟨_, _, _, .counting _⟩ | ⟨_, _, _, .reading ..⟩ | ⟨_, _, _, .comparing ..⟩ | ⟨_, _, _, .saving ..⟩
  | ⟨_, _, _, .finished _⟩ => isTrue trivial

/-- The run awaits a decision, and its state counts the whole log. -/
def Awaits (l : Ledger) : Prop :=
  ∃ d, l.state = some d ∧ d.lastEventSequence = l.events.length ∧ d.workflowStatus = RunStatus.awaitingHuman.value

section Facts

variable {start : List AuditEvent} {l : Ledger} {t : Reviewer} {r : Review} {d : DurableRunState} {n sequence : Nat}

theorem transition_terminal {a : ReviewerAction} (h : a.transition.event.isSome = true) :
    a.transition.next.value ≠ RunStatus.awaitingHuman.value := by
  cases a with
  | approve => decide
  | reject => decide
  | requestChanges => cases h
  | defer => cases h

theorem transition_recorded {a : ReviewerAction} (h : a.transition.event = none) : a.transition.outcome ≠ .applied := by
  cases a with
  | approve => cases h
  | reject => cases h
  | requestChanges => decide
  | defer => decide

/-- A deciding call leaves the run uncounted or decided. -/
theorem Reviewer.Knows.not_awaits (h : t.Knows start l) (ht : t.Decides) : ¬ Awaits l := by
  rintro ⟨d, hd, hlast, hstatus⟩
  obtain ⟨call, recordedId, followId, phase⟩ := t
  have hdecided : ∀ {r : Review} {n : Nat}, Decided start l r n → False := by
    intro r n hr
    cases hd.symm.trans hr.state
    exact transition_terminal hr.terminal hstatus
  have hsome : ∀ {r : Review} {P : Prop} {Q : Nat → Prop}, r.first.isSome = true → r.first.elim P Q →
      ∃ n, Q n := by
    intro r P Q hr hq
    cases hfirst : r.first with
    | none =>
      rw [hfirst] at hr
      cases hr
    | some n =>
      rw [hfirst] at hq
      exact ⟨n, hq⟩
  cases phase with
  | counting r =>
    obtain ⟨n, hn⟩ := hsome ht h
    exact hdecided hn
  | reading r sequence =>
    obtain ⟨n, hn, -⟩ := hsome ht h
    exact hdecided hn
  | comparing r sequence =>
    obtain ⟨n, hn, -⟩ := hsome ht h
    exact hdecided hn
  | appending r sequence =>
    obtain ⟨n, hn, -⟩ := hsome ht h
    exact hdecided hn
  | saving r sequence =>
    have huncounted : ∀ {d'}, Uncounted l r sequence d' → False := by
      intro d' hu
      cases hd.symm.trans hu.state
      have hnext := hu.next
      have hlength := hu.last
      omega
    unfold Reviewer.Knows at h
    dsimp only at h
    cases hfirst : r.first with
    | none =>
      rw [hfirst] at h
      exact huncounted h.1
    | some n =>
      rw [hfirst] at h
      exact huncounted h.1
  | finished result =>
    cases result with
    | error e => exact ht
    | ok result =>
      obtain ⟨d', hd', hnot⟩ := h ht
      cases hd.symm.trans hd'
      exact hnot hstatus
  | start => exact ht
  | loaded d => exact ht
  | verifying d log pending issues => exact ht
  | accepted r => exact ht
  | resolved r escalationId => exact ht

def Ledger.append (l : Ledger) (e : AuditEvent) : Ledger := { l with events := l.events ++ [e] }

def Ledger.save (l : Ledger) (d : DurableRunState) : Ledger := { l with state := some d }

theorem WasStored.save {now : DurableRunState} (h : WasStored start l d) (hnow : l.state = some now)
    {d' : DurableRunState} (hlater : now.lastEventSequence < d'.lastEventSequence) : WasStored start (l.save d') d := by
  obtain ⟨old, hold, hsince, hle, -⟩ := h
  cases hnow.symm.trans hold
  exact ⟨d', rfl, hsince, by omega, fun hsame => by omega⟩

theorem first_none (h : ¬ r.first.isSome = true) : r.first = none := by
  cases hfirst : r.first with
  | none => rfl
  | some n =>
    rw [hfirst] at h
    exact absurd rfl h

theorem Reviewer.Undisturbed.log {s : RunStore} (h : t.Undisturbed s) (hphase : t.phase = .appending r sequence)
    (hfirst : r.first = none) : s.events = r.log := by
  unfold Reviewer.Undisturbed at h
  rw [hphase] at h
  exact h hfirst

/-- What an undecided call knows stays true when the log grows and the run state is replaced by a later one. -/
theorem Reviewer.Knows.change {l' : Ledger} (h : t.Knows start l) (ht : ¬ t.Decides)
    (hstored : ∀ d, WasStored start l d → WasStored start l' d) (hlength : l.events.length ≤ l'.events.length) :
    t.Knows start l' := by
  obtain ⟨call, recordedId, followId, phase⟩ := t
  have hundecided : ∀ {r : Review}, Undecided start l r → Undecided start l' r := fun hr =>
    ⟨hstored _ hr.stored, hr.counted, hr.awaiting, hr.logged.trans hlength, hr.first⟩
  have hnumbered : ∀ {r : Review} {sequence : Nat} {P Q : Nat → Prop}, ¬ r.first.isSome = true →
      r.first.elim (Undecided start l r ∧ r.log.length < sequence ∧ sequence ≤ l.events.length + 1) P →
      r.first.elim (Undecided start l' r ∧ r.log.length < sequence ∧ sequence ≤ l'.events.length + 1) Q := by
    intro r sequence P Q hr hp
    rw [first_none hr] at hp ⊢
    obtain ⟨hknown, hlow, hhigh⟩ := hp
    exact ⟨hundecided hknown, hlow, by omega⟩
  cases phase with
  | start => trivial
  | loaded d => exact hstored d h
  | verifying d log pending issues =>
    obtain ⟨hd, hlogged, hcounted⟩ := h
    exact ⟨hstored d hd, hlogged.trans hlength, hcounted⟩
  | accepted r => exact hundecided h
  | resolved r escalationId => exact hundecided h
  | counting r =>
    unfold Reviewer.Knows at h ⊢
    dsimp only at h ⊢
    rw [first_none ht] at h ⊢
    exact hundecided h
  | reading r sequence => exact hnumbered ht h
  | comparing r sequence => exact hnumbered ht h
  | appending r sequence => exact hnumbered ht h
  | saving r sequence => exact absurd trivial ht
  | finished result =>
    cases result with
    | error e => trivial
    | ok result => exact fun happlied => absurd happlied ht

theorem Reviewer.Knows.append (h : t.Knows start l) (ht : ¬ t.Decides) (e : AuditEvent) : t.Knows start (l.append e) :=
  h.change ht (fun _ hd => hd) (by simp [Ledger.append])

theorem Reviewer.Knows.save {now d' : DurableRunState} (h : t.Knows start l) (ht : ¬ t.Decides) (hnow : l.state = some now)
    (hlater : now.lastEventSequence < d'.lastEventSequence) : t.Knows start (l.save d') :=
  h.change ht (fun _ hd => hd.save hnow hlater) le_rfl

/-- The log an undecided call has checked, if nothing was appended since, is the whole log of a run that awaits it. -/
theorem Undecided.awaits {fresh : List AuditEvent} (h : Undecided start l r) (hcourse : Course start l d fresh)
    (hlog : l.events = r.log) : l.state = some r.d ∧ Awaits l := by
  obtain ⟨now, hnow, -, hle, hsame⟩ := h.stored
  cases hnow.symm.trans hcourse.state
  have hbehind := hcourse.behind
  have hcounted := h.counted
  rw [hlog] at hbehind
  have hd : d = r.d := hsame (by omega)
  rw [← hd] at hcounted ⊢
  refine ⟨hnow, d, hnow, ?_, ?_⟩
  · rw [hlog]
    exact hcounted
  · rw [hd]
    exact h.awaiting

theorem Course.append_next {fresh : List AuditEvent} {e : AuditEvent} (h : Course start l d fresh)
    (he : e.sequence = l.events.length + 1)
    (hverdict : (fresh ++ [e]).filter AuditEvent.isVerdict = [] ∨
      ∃ v, (fresh ++ [e]).filter AuditEvent.isVerdict = [v] ∧ v.stateAfter = some d.workflowStatus ∧
        d.workflowStatus ≠ RunStatus.awaitingHuman.value) : Course start (l.append e) d (fresh ++ [e]) where
  state := h.state
  log := by
    show l.events ++ [e] = _
    rw [h.log, List.append_assoc]
  since := h.since
  behind := by
    have hbehind := h.behind
    have hlength : (l.append e).events.length = l.events.length + 1 := List.length_append
    omega
  numbered := by
    show (l.events ++ [e]).map _ = List.range' 1 (l.events ++ [e]).length
    rw [List.map_append, h.numbered, List.length_append, List.length_singleton, List.range'_concat, List.map_singleton, he,
      Nat.one_mul, Nat.add_comm]
  verdict := hverdict

end Facts

end FailureOrchestrator
