import FailureOrchestrator.ReviewRules
import FailureOrchestrator.SessionRuns

namespace FailureOrchestrator

section Steps

variable {start : List AuditEvent} {s : RunStore} {t : Reviewer} {d : DurableRunState} {fresh : List AuditEvent}

/-- A verdict is what follows a recorded terminal decision. -/
theorem isVerdict_event {r : Review} {sequence n : Nat} (hfirst : r.first = some n)
    (hterminal : r.action.transition.event.isSome = true) : (t.event r sequence).isVerdict = true := by
  have htype : (t.event r sequence).eventType = (r.action.transition.event.getD .humanDecisionRecorded).value := by
    show r.eventType.value = _
    unfold Review.eventType
    rw [hfirst]
    rfl
  unfold AuditEvent.isVerdict
  rw [htype]
  cases haction : r.action with
  | approve => decide
  | reject => decide
  | requestChanges =>
    rw [haction] at hterminal
    cases hterminal
  | defer =>
    rw [haction] at hterminal
    cases hterminal

theorem not_isVerdict_event {r : Review} {sequence : Nat} (hfirst : r.first = none) :
    (t.event r sequence).isVerdict = false := by
  have htype : (t.event r sequence).eventType = AuditEventType.humanDecisionRecorded.value := by
    show r.eventType.value = _
    unfold Review.eventType
    rw [hfirst]
    rfl
  unfold AuditEvent.isVerdict
  rw [htype]
  decide

/-- An appended event keeps the course of the run. -/
theorem Course.appending {r : Review} {sequence : Nat} (hcourse : Course start s.ledger d fresh)
    (hphase : t.phase = .appending r sequence) (hknows : t.Knows start s.ledger) (hc : t.Undisturbed s) :
    Course start (s.ledger.append (t.event r sequence)) d (fresh ++ [t.event r sequence]) := by
  unfold Reviewer.Knows at hknows
  rw [hphase] at hknows
  dsimp only at hknows
  have hsequence : (t.event r sequence).sequence = sequence := rfl
  cases hfirst : r.first with
  | none =>
    rw [hfirst] at hknows
    obtain ⟨hundecided, hlow, hhigh⟩ := hknows
    have hlog : s.ledger.events = r.log := hc.log hphase hfirst
    refine hcourse.append_next ?_ ?_
    · rw [hlog] at hhigh ⊢
      omega
    · rw [List.filter_append, List.filter_singleton, not_isVerdict_event hfirst, cond_false, List.append_nil]
      exact hcourse.verdict
  | some n =>
    rw [hfirst] at hknows
    obtain ⟨hdecided, hnext⟩ := hknows
    refine hcourse.append_next ?_ (.inr ⟨t.event r sequence, ?_, ?_, ?_⟩)
    · rw [hsequence, hnext, hdecided.last]
    · rw [List.filter_append, hdecided.open_ fresh hcourse.log, List.filter_singleton,
        isVerdict_event hfirst hdecided.terminal]
      rfl
    · cases hcourse.state.symm.trans hdecided.state
      rfl
    · cases hcourse.state.symm.trans hdecided.state
      exact transition_terminal hdecided.terminal

/-- A saved decision keeps the course of the run. -/
theorem Course.saving {r : Review} {sequence : Nat} (hcourse : Course start s.ledger d fresh)
    (hphase : t.phase = .saving r sequence) (hknows : t.Knows start s.ledger) :
    Course start (s.ledger.save (r.decided sequence)) (r.decided sequence) fresh := by
  unfold Reviewer.Knows at hknows
  rw [hphase] at hknows
  dsimp only at hknows
  have hlater : ∀ {d'}, Uncounted s.ledger r sequence d' → start.length ≤ sequence ∧ sequence ≤ s.ledger.events.length := by
    rintro d' ⟨hstate, hnext, hlast⟩
    cases hstate.symm.trans hcourse.state
    have hsince := hcourse.since
    omega
  unfold Review.decided
  cases hfirst : r.first with
  | none =>
    rw [hfirst] at hknows
    obtain ⟨huncounted, hstatus⟩ := hknows
    obtain ⟨hlow, hhigh⟩ := hlater huncounted
    refine ⟨rfl, hcourse.log, hlow, hhigh, hcourse.numbered, .inl ?_⟩
    rcases hcourse.verdict with hnone | ⟨e, -, -, hnot⟩
    · exact hnone
    · cases huncounted.state.symm.trans hcourse.state
      exact absurd hstatus hnot
  | some n =>
    rw [hfirst] at hknows
    obtain ⟨huncounted, -⟩ := hknows
    obtain ⟨hlow, hhigh⟩ := hlater huncounted
    refine ⟨rfl, hcourse.log, hlow, hhigh, hcourse.numbered, ?_⟩
    cases huncounted.state.symm.trans hcourse.state
    exact hcourse.verdict

/-- A run state read from the directory is the stored one. -/
theorem wasStored_load (hcourse : Course start s.ledger d fresh) : WasStored start s.ledger d :=
  ⟨d, hcourse.state, hcourse.since, le_rfl, fun _ => rfl⟩

/-- A run state that passes the sequence checks counts the log that they read. -/
theorem counted_of_checked {d' : DurableRunState} (hstart : start ≠ []) (hcourse : Course start s.ledger d fresh)
    (hstored : WasStored start s.ledger d') (h : sequenceMismatch d' s.events = []) :
    d'.lastEventSequence = s.events.length := by
  obtain ⟨-, -, hsince, -, -⟩ := hstored
  have hpositive := List.length_pos_iff.mpr hstart
  have hlatest := latestSequence_range' (s := s) hcourse.numbered
  unfold RunStore.latestSequence at hlatest
  cases hlast : s.events.getLast? with
  | none =>
    have hnil : start ++ fresh = [] := hcourse.log.symm.trans (List.getLast?_eq_none_iff.mp hlast)
    exact absurd (List.append_eq_nil_iff.mp hnil).1 hstart
  | some last =>
    rw [hlast] at hlatest
    rw [eq_sequence_of_sequenceMismatch h hlast (by omega)]
    exact hlatest

/-- What a call with a number knows, whatever the audit store has seen. -/
theorem numbered_seen {r : Review} {sequence : Nat} {seen : List Str}
    (h : r.first.elim (Undecided start s.ledger r ∧ r.log.length < sequence ∧ sequence ≤ s.ledger.events.length + 1) fun n =>
      Decided start s.ledger r n ∧ sequence = n + 1) :
    r.first.elim (Undecided start s.ledger { r with seen } ∧ r.log.length < sequence ∧
      sequence ≤ s.ledger.events.length + 1) fun n => Decided start s.ledger { r with seen } n ∧ sequence = n + 1 := by
  cases hfirst : r.first with
  | none =>
    rw [hfirst] at h
    obtain ⟨hundecided, hnumber⟩ := h
    exact ⟨⟨hundecided.stored, hundecided.counted, hundecided.awaiting, hundecided.logged, rfl⟩, hnumber⟩
  | some n =>
    rw [hfirst] at h
    obtain ⟨hdecided, hnumber⟩ := h
    exact ⟨⟨hdecided.state, hdecided.last, hdecided.terminal, hdecided.open_⟩, hnumber⟩

theorem uncounted_appended {r : Review} {sequence : Nat} {e : AuditEvent} {seen : List Str}
    (hcourse : Course start s.ledger d fresh)
    (hknows : r.first.elim
      (Undecided start s.ledger r ∧ r.log.length < sequence ∧ sequence ≤ s.ledger.events.length + 1) fun n =>
      Decided start s.ledger r n ∧ sequence = n + 1)
    (hc : r.first = none → s.events = r.log) :
    r.first.elim (Uncounted (s.ledger.append e) { r with seen } sequence r.d ∧
        r.d.workflowStatus = RunStatus.awaitingHuman.value) fun n =>
      Uncounted (s.ledger.append e) { r with seen } sequence (ReviewCall.decided r.d r.action n) ∧
        r.action.transition.event.isSome = true := by
  have hlength : (s.ledger.append e).events.length = s.ledger.events.length + 1 := List.length_append
  cases hfirst : r.first with
  | none =>
    rw [hfirst] at hknows
    obtain ⟨hundecided, hlow, hhigh⟩ := hknows
    have hlog : s.ledger.events = r.log := hc hfirst
    have hcounted := hundecided.counted
    obtain ⟨hstate, -⟩ := hundecided.awaits hcourse hlog
    rw [hlog] at hhigh hlength
    exact ⟨⟨hstate, by omega, by omega⟩, hundecided.awaiting⟩
  | some n =>
    rw [hfirst] at hknows
    obtain ⟨hdecided, hnumber⟩ := hknows
    have hlast := hdecided.last
    exact ⟨⟨hdecided.state, hnumber.symm, by omega⟩, hdecided.terminal⟩

/-- After the save of a recorded decision the verdict follows, or the call reports no applied decision. -/
theorem knows_saved {r : Review} {sequence : Nat} (hcourse : Course start s.ledger d fresh)
    (hknows : t.Knows start s.ledger) (hphase : t.phase = .saving r sequence) :
    Reviewer.Knows start (s.ledger.save (r.decided sequence)) { t with phase := t.next r sequence } := by
  unfold Reviewer.Knows at hknows
  rw [hphase] at hknows
  dsimp only at hknows
  unfold Reviewer.next Review.decided
  cases hfirst : r.first with
  | none =>
    rw [hfirst] at hknows
    obtain ⟨huncounted, hstatus⟩ := hknows
    cases hevent : r.action.transition.event with
    | none => exact fun happlied => absurd happlied (transition_recorded hevent)
    | some terminal =>
      refine ⟨rfl, huncounted.last, ?_, ?_⟩
      · show r.action.transition.event.isSome = true
        rw [hevent]
        rfl
      · intro fresh' hfresh
        have hsame : fresh' = fresh := List.append_cancel_left (hfresh.symm.trans hcourse.log)
        rcases hcourse.verdict with hnone | ⟨e, -, -, hnot⟩
        · rw [hsame]
          exact hnone
        · cases huncounted.state.symm.trans hcourse.state
          exact absurd hstatus hnot
  | some n =>
    rw [hfirst] at hknows
    exact fun _ => ⟨_, rfl, transition_terminal hknows.2⟩

variable [PyReview]

/-- What one step does to the ledger of the run. -/
theorem Reviewer.act_ledger (s : RunStore) (t : Reviewer) : (t.act s).1.ledger = s.ledger ∨
    (∃ r sequence, t.phase = .appending r sequence ∧ (t.act s).1.ledger = s.ledger.append (t.event r sequence)) ∨
    ∃ r sequence, t.phase = .saving r sequence ∧ (t.act s).1.ledger = s.ledger.save (r.decided sequence) := by
  obtain ⟨call, recordedId, followId, phase⟩ := t
  cases phase with
  | appending r sequence => exact .inr (.inl ⟨r, sequence, rfl, rfl⟩)
  | saving r sequence => exact .inr (.inr ⟨r, sequence, rfl, rfl⟩)
  | resolved r escalationId => exact .inl rfl
  | verifying d log pending issues =>
    left
    cases pending with
    | nil =>
      unfold Reviewer.act
      dsimp only
      split <;> rfl
    | cons first rest => rfl
  | start =>
    left
    unfold Reviewer.act
    dsimp only
    split <;> rfl
  | accepted r =>
    left
    unfold Reviewer.act
    dsimp only
    split <;> rfl
  | reading r sequence =>
    left
    unfold Reviewer.act
    dsimp only
    split <;> rfl
  | comparing r sequence =>
    left
    unfold Reviewer.act
    dsimp only
    split <;> rfl
  | loaded d => exact .inl rfl
  | counting r => exact .inl rfl
  | finished result => exact .inl rfl

/-- A step leaves the ledger, or appends to it or saves while no other call decides. -/
theorem Reviewer.act_change (hcourse : Course start s.ledger d fresh) (hknows : t.Knows start s.ledger)
    (hc : t.Undisturbed s) : (t.act s).1.ledger = s.ledger ∨
    (∃ e, (t.act s).1.ledger = s.ledger.append e ∧ (t.Decides ∨ Awaits s.ledger)) ∨
    ∃ d', (t.act s).1.ledger = s.ledger.save d' ∧ d.lastEventSequence < d'.lastEventSequence ∧ t.Decides := by
  rcases t.act_ledger s with hsame | ⟨r, sequence, hphase, hledger⟩ | ⟨r, sequence, hphase, hledger⟩
  · exact .inl hsame
  · refine .inr (.inl ⟨_, hledger, ?_⟩)
    unfold Reviewer.Knows at hknows
    unfold Reviewer.Decides
    rw [hphase] at hknows ⊢
    dsimp only at hknows ⊢
    cases hfirst : r.first with
    | some n => exact .inl rfl
    | none =>
      rw [hfirst] at hknows
      exact .inr (hknows.1.awaits hcourse (hc.log hphase hfirst)).2
  · refine .inr (.inr ⟨_, hledger, ?_, ?_⟩)
    · unfold Reviewer.Knows at hknows
      rw [hphase] at hknows
      dsimp only at hknows
      unfold Review.decided
      cases hfirst : r.first with
      | none =>
        rw [hfirst] at hknows
        obtain ⟨hstate, hnext, -⟩ := hknows.1
        cases hstate.symm.trans hcourse.state
        show _ < sequence
        omega
      | some n =>
        rw [hfirst] at hknows
        obtain ⟨hstate, hnext, -⟩ := hknows.1
        cases hstate.symm.trans hcourse.state
        show _ < sequence
        omega
    · unfold Reviewer.Decides
      rw [hphase]
      trivial

theorem Reviewer.act_other {u : Reviewer} (hcourse : Course start s.ledger d fresh) (hknows : t.Knows start s.ledger)
    (hother : u.Knows start s.ledger) (hpair : ¬ (t.Decides ∧ u.Decides)) (hc : t.Undisturbed s) :
    u.Knows start (t.act s).1.ledger := by
  rcases t.act_change hcourse hknows hc with hsame | ⟨e, hledger, hdecides⟩ | ⟨d', hledger, hlater, hdecides⟩
  · rw [hsame]
    exact hother
  · rw [hledger]
    refine hother.append (fun hu => ?_) e
    rcases hdecides with ht | hawaits
    · exact hpair ⟨ht, hu⟩
    · exact hother.not_awaits hu hawaits
  · rw [hledger]
    exact hother.save (fun hu => hpair ⟨hdecides, hu⟩) hcourse.state hlater

theorem Reviewer.act_course (hcourse : Course start s.ledger d fresh) (hknows : t.Knows start s.ledger)
    (hc : t.Undisturbed s) : ∃ d fresh, Course start (t.act s).1.ledger d fresh := by
  rcases t.act_ledger s with hsame | ⟨r, sequence, hphase, hledger⟩ | ⟨r, sequence, hphase, hledger⟩
  · exact ⟨d, fresh, hsame ▸ hcourse⟩
  · exact ⟨d, _, hledger ▸ hcourse.appending hphase hknows hc⟩
  · exact ⟨_, fresh, hledger ▸ hcourse.saving hphase hknows⟩

theorem resolve_refused {c : ReviewCall} {result : HumanDecisionResult} (h : c.resolve s d = .ok (.error result)) :
    result.status ≠ .applied := by
  unfold ReviewCall.resolve at h
  split at h
  · split at h
    · cases h
      nofun
    · cases h
  · split at h
    · cases h
      nofun
    · unfold ReviewCall.resolveWith at h
      obtain ⟨resolved, -, h⟩ := bind_eq_ok h
      obtain ⟨packaged, -, h⟩ := bind_eq_ok h
      have hresult := Except.ok.inj h
      split at hresult
      · cases hresult
        nofun
      · split at hresult
        · cases hresult
          nofun
        · cases hresult

theorem judge_refused {c : ReviewCall} {issues : List ConsistencyIssue} {result : HumanDecisionResult}
    (h : c.judge d issues = .error result) : result.status ≠ .applied := by
  unfold ReviewCall.judge at h
  split at h
  · split at h
    · cases h
      nofun
    · split at h
      · cases h
      · cases h
        nofun
  · cases h
    nofun

/-- What a call knows after its own step. -/
theorem Reviewer.act_own (hstart : start ≠ []) (hcourse : Course start s.ledger d fresh) (hknows : t.Knows start s.ledger)
    (hc : t.Undisturbed s) : (t.act s).2.Knows start (t.act s).1.ledger := by
  obtain ⟨call, recordedId, followId, phase⟩ := t
  cases phase with
  | start =>
    unfold Reviewer.act
    dsimp only
    split
    · exact nofun
    next d' hload =>
      cases (loadRun_state hload).symm.trans hcourse.state
      exact wasStored_load hcourse
  | loaded d' =>
    refine ⟨hknows, le_rfl, fun hnil => ?_⟩
    exact counted_of_checked hstart hcourse hknows (List.append_eq_nil_iff.mp hnil).2
  | verifying d' log pending issues =>
    obtain ⟨hstored, hlogged, hcounted⟩ := hknows
    cases pending with
    | nil =>
      unfold Reviewer.act
      dsimp only
      split
      next result hrefused => exact fun happlied => absurd happlied (judge_refused hrefused)
      next action hjudged =>
        obtain ⟨hissues, hstatus⟩ := judge_ok hjudged
        have hnone : issues = [] := by
          simp only [List.append_eq_nil_iff] at hissues
          exact hissues.1.1
        exact ⟨hstored, hcounted hnone, hstatus, hlogged, rfl⟩
    | cons first rest => exact ⟨hstored, hlogged, fun hnil => hcounted (List.append_eq_nil_iff.mp hnil).1⟩
  | accepted r =>
    unfold Reviewer.act
    dsimp only
    split
    · trivial
    next result hrefused => exact fun happlied => absurd happlied (resolve_refused hrefused)
    · exact hknows
  | resolved r escalationId =>
    unfold Reviewer.act
    dsimp only
    rw [humanTransition_ok]
    show r.first.elim (Undecided start s.ledger r) (Decided start s.ledger r)
    rw [Undecided.first hknows]
    exact hknows
  | counting r =>
    have hlatest : s.latestSequence = s.ledger.events.length := latestSequence_range' hcourse.numbered
    show r.first.elim (Undecided start s.ledger r ∧ r.log.length < s.latestSequence + 1 ∧
      s.latestSequence + 1 ≤ s.ledger.events.length + 1) fun n => Decided start s.ledger r n ∧ s.latestSequence + 1 = n + 1
    unfold Reviewer.Knows at hknows
    dsimp only at hknows
    cases hfirst : r.first with
    | none =>
      rw [hfirst] at hknows
      have hlogged := Undecided.logged hknows
      exact ⟨hknows, by omega, by omega⟩
    | some n =>
      rw [hfirst] at hknows
      have hlast := Decided.last hknows
      exact ⟨hknows, by omega⟩
  | reading r sequence =>
    unfold Reviewer.act
    dsimp only
    split
    · trivial
    · exact numbered_seen (r := r) hknows
  | comparing r sequence =>
    unfold Reviewer.act
    dsimp only
    split
    · trivial
    · exact hknows
  | appending r sequence =>
    exact uncounted_appended (r := r) hcourse hknows hc
  | saving r sequence => exact knows_saved hcourse hknows rfl
  | finished result => exact hknows

/-- A call comes to decide only from the place before its first append. -/
theorem Reviewer.act_decides (hknows : t.Knows start s.ledger) (h : (t.act s).2.Decides) :
    t.Decides ∨ ∃ r sequence, t.phase = .appending r sequence ∧ r.first = none := by
  obtain ⟨call, recordedId, followId, phase⟩ := t
  cases phase with
  | appending r sequence =>
    by_cases hfirst : r.first = none
    · exact .inr ⟨r, sequence, rfl, hfirst⟩
    · exact .inl (Option.isSome_iff_ne_none.mpr hfirst)
  | saving r sequence => exact .inl trivial
  | counting r => exact .inl h
  | finished result => exact .inl h
  | reading r sequence =>
    unfold Reviewer.act at h
    dsimp only at h
    split at h
    · exact h.elim
    · exact .inl h
  | comparing r sequence =>
    unfold Reviewer.act at h
    dsimp only at h
    split at h
    · exact h.elim
    · exact .inl h
  | resolved r escalationId =>
    unfold Reviewer.act at h
    dsimp only at h
    rw [humanTransition_ok] at h
    have hsome : r.first.isSome = true := h
    rw [Undecided.first hknows] at hsome
    cases hsome
  | start =>
    unfold Reviewer.act at h
    dsimp only at h
    split at h
    · exact absurd h (by nofun)
    · exact h.elim
  | loaded d => exact h.elim
  | verifying d log pending issues =>
    cases pending with
    | nil =>
      unfold Reviewer.act at h
      dsimp only at h
      split at h
      next result hrefused => exact absurd h (judge_refused hrefused)
      · exact h.elim
    | cons first rest => exact h.elim
  | accepted r =>
    unfold Reviewer.act at h
    dsimp only at h
    split at h
    · exact h.elim
    next result hrefused => exact absurd h (resolve_refused hrefused)
    · exact h.elim

/-- The decisions on a run do not interfere, as long as each is appended to the log that its call checked. -/
theorem reviews_noninterference (hstart : start ≠ []) :
    Pool.Noninterference Reviewer.act Reviewer.Undisturbed (fun s => ∃ d fresh, Course start s.ledger d fresh)
      (fun s t => t.Knows start s.ledger) (fun t u => ¬ (t.Decides ∧ u.Decides)) where
  symm t u h hboth := h ⟨hboth.2, hboth.1⟩
  shared := by
    rintro s t ⟨d, fresh, hcourse⟩ hknows hc
    exact Reviewer.act_course hcourse hknows hc
  own := by
    rintro s t ⟨d, fresh, hcourse⟩ hknows hc
    exact Reviewer.act_own hstart hcourse hknows hc
  other := by
    rintro s t u ⟨d, fresh, hcourse⟩ hknows hother hpair hc
    exact Reviewer.act_other hcourse hknows hother hpair hc
  pair := by
    rintro s t u ⟨d, fresh, hcourse⟩ hknows hother hpair hc ⟨ht, hu⟩
    rcases Reviewer.act_decides hknows ht with hdecides | ⟨r, sequence, hphase, hfirst⟩
    · exact hpair ⟨hdecides, hu⟩
    · unfold Reviewer.Knows at hknows
      rw [hphase] at hknows
      dsimp only at hknows
      rw [hfirst] at hknows
      exact hother.not_awaits hu (hknows.1.awaits hcourse (hc.log hphase hfirst)).2

/-- The call reported that it applied its decision. -/
def Reviewer.applied (t : Reviewer) : Bool :=
  match t.phase with
  | .finished (.ok result) => result.status = .applied
  | _ => false

/-- Calls on a run that awaits a decision, in any order of their accesses: where each call appends its decision to the log
that its consistency check read, at most one decision is applied, the log takes at most one verdict, and the run state
shows it. -/
theorem reviews_settle_once {ι : Type} [DecidableEq ι] (hd : s.state = some d) (hsync : InSync s d)
    (hstatus : d.workflowStatus = RunStatus.awaitingHuman.value) (calls : ι → Reviewer)
    (hcalls : ∀ i, (calls i).phase = .start) (schedule : List ι)
    (hc : Pool.Along Reviewer.act Reviewer.Undisturbed schedule ⟨s, calls⟩) :
    (∀ i j, ((Pool.run Reviewer.act ⟨s, calls⟩ schedule).task i).applied = true →
      ((Pool.run Reviewer.act ⟨s, calls⟩ schedule).task j).applied = true → i = j) ∧
    ∃ d' fresh, (Pool.run Reviewer.act ⟨s, calls⟩ schedule).shared.state = some d' ∧
      (Pool.run Reviewer.act ⟨s, calls⟩ schedule).shared.events = s.events ++ fresh ∧
      (fresh.filter AuditEvent.isVerdict).length ≤ 1 ∧
      ∀ e ∈ fresh, e.isVerdict = true → e.stateAfter = some d'.workflowStatus := by
  have hstart : s.events ≠ [] := by
    obtain ⟨e, he, -⟩ := hsync.status.evaluated (by rw [hstatus]; decide)
    exact List.ne_nil_of_mem he
  have hfirst : Pool.Holds (fun s' => ∃ d fresh, Course s.events s'.ledger d fresh)
      (fun s' t => t.Knows s.events s'.ledger) (fun t u => ¬ (t.Decides ∧ u.Decides)) (⟨s, calls⟩ : Pool ι RunStore Reviewer) := by
    refine ⟨⟨d, [], hd, (List.append_nil _).symm, hsync.last.ge, hsync.last.le, hsync.sequence, .inl rfl⟩, ?_, ?_⟩
    · intro i
      unfold Reviewer.Knows
      rw [hcalls i]
      trivial
    · rintro i j - ⟨hi, -⟩
      unfold Reviewer.Decides at hi
      rw [show ((⟨s, calls⟩ : Pool ι RunStore Reviewer).task i).phase = .start from hcalls i] at hi
      exact hi
  have hlast := (reviews_noninterference hstart).run schedule hfirst hc
  have hdecides : ∀ t : Reviewer, t.applied = true → t.Decides := by
    intro t happlied
    unfold Reviewer.applied at happlied
    unfold Reviewer.Decides
    split at happlied
    next result hphase =>
      rw [hphase]
      exact of_decide_eq_true happlied
    next => cases happlied
  obtain ⟨d', fresh, hcourse⟩ := hlast.shared
  refine ⟨?_, d', fresh, hcourse.state, hcourse.log, ?_, ?_⟩
  · intro i j hi hj
    by_contra hne
    exact hlast.pair i j hne ⟨hdecides _ hi, hdecides _ hj⟩
  · rcases hcourse.verdict with hnone | ⟨e, hone, -, -⟩
    · rw [hnone]
      exact Nat.zero_le 1
    · rw [hone]
      exact le_rfl
  · intro e he hverdict
    have hmem : e ∈ fresh.filter AuditEvent.isVerdict := List.mem_filter.mpr ⟨he, hverdict⟩
    rcases hcourse.verdict with hnone | ⟨v, hone, hstatus, -⟩
    · rw [hnone] at hmem
      cases hmem
    · rw [hone] at hmem
      cases List.mem_singleton.mp hmem
      exact hstatus

end Steps

/-- A run that awaits a decision. -/
@[reducible] def awaitingRun : DurableRunState :=
  { runId := "run-1".toList, workflowStatus := RunStatus.awaitingHuman.value, lastEventSequence := 1 }

@[reducible] def awaitingStore : RunStore where
  state := some awaitingRun
  events := [{
    eventId := "evt-1".toList, runId := "run-1".toList, sequence := 1,
    eventType := AuditEventType.evaluationCompleted.value, stateBefore := some RunStatus.evaluating.value,
    stateAfter := some RunStatus.evaluated.value }]
  files := [(escalationSummary, .json (.obj [("escalation_id", .text "esc-1")]))]

/-- One reviewer approves, and another one rejects. -/
def twoReviewers (approves : Bool) : Reviewer :=
  if approves then
    { call := { runId := "run-1".toList, action := "approve".toList }
      recordedId := "evt-2".toList, followId := "evt-3".toList }
  else
    { call := { runId := "run-1".toList, action := "reject".toList }
      recordedId := "evt-4".toList, followId := "evt-5".toList }

theorem awaitingStore_inSync : InSync awaitingStore awaitingRun where
  sequence := rfl
  distinct := by decide
  last := rfl
  refs _ hr := nomatch hr
  status := ⟨fun _ => ⟨_, List.mem_cons_self, rfl⟩, fun _ => by decide⟩

theorem twoReviewers_start (approves : Bool) : (twoReviewers approves).phase = .start := by
  cases approves <;> rfl

/-- The decisions one after the other: the second call finds the run approved. -/
def oneAfterTheOther : List Bool := List.replicate 24 true ++ List.replicate 24 false

-- The second reviewer's decision is not applied.
example : ((Pool.run (@Reviewer.act asciiReview) ⟨awaitingStore, twoReviewers⟩ oneAfterTheOther).task false).applied =
    false := by
  decide +kernel

theorem one_decision_applied :
    (∀ i j, ((Pool.run (@Reviewer.act asciiReview) ⟨awaitingStore, twoReviewers⟩ oneAfterTheOther).task i).applied = true →
      ((Pool.run (@Reviewer.act asciiReview) ⟨awaitingStore, twoReviewers⟩ oneAfterTheOther).task j).applied = true →
      i = j) ∧
    ∃ d' fresh,
      (Pool.run (@Reviewer.act asciiReview) ⟨awaitingStore, twoReviewers⟩ oneAfterTheOther).shared.state = some d' ∧
      (Pool.run (@Reviewer.act asciiReview) ⟨awaitingStore, twoReviewers⟩ oneAfterTheOther).shared.events =
        awaitingStore.events ++ fresh ∧
      (fresh.filter AuditEvent.isVerdict).length ≤ 1 ∧
      ∀ e ∈ fresh, e.isVerdict = true → e.stateAfter = some d'.workflowStatus :=
  @reviews_settle_once _ _ asciiReview Bool _ rfl awaitingStore_inSync rfl twoReviewers twoReviewers_start oneAfterTheOther
    (by decide +kernel)

/-- The approval passes the checks; the rejection is applied; the approval goes on. -/
def lateApproval : List Bool := List.replicate 13 true ++ List.replicate 24 false ++ List.replicate 12 true

/-- A decision whose checks came before another decision is applied over it. -/
theorem both_decisions_applied :
    ¬ ∀ (_ : PyReview) (ι : Type) (_ : DecidableEq ι) (s : RunStore) (d : DurableRunState), s.state = some d → InSync s d →
      d.workflowStatus = RunStatus.awaitingHuman.value → ∀ calls : ι → Reviewer, (∀ i, (calls i).phase = .start) →
      ∀ schedule i j, ((Pool.run Reviewer.act ⟨s, calls⟩ schedule).task i).applied = true →
        ((Pool.run Reviewer.act ⟨s, calls⟩ schedule).task j).applied = true → i = j := by
  intro h
  have happroved : ((Pool.run (@Reviewer.act asciiReview) ⟨awaitingStore, twoReviewers⟩ lateApproval).task true).applied =
      true := by decide +kernel
  have hrejected : ((Pool.run (@Reviewer.act asciiReview) ⟨awaitingStore, twoReviewers⟩ lateApproval).task false).applied =
      true := by decide +kernel
  have hsame := h asciiReview Bool inferInstance awaitingStore awaitingRun rfl awaitingStore_inSync rfl twoReviewers
    twoReviewers_start lateApproval true false happroved hrejected
  cases hsame

end FailureOrchestrator
