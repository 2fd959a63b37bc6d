import FailureOrchestrator.WorkerTick

namespace FailureOrchestrator

open Exec WorkerTick

namespace RunStore

/-- The lease expiries in the log of a run. -/
def expiries (s : RunStore) : List AuditEvent :=
  s.events.filter fun e => e.eventType = AuditEventType.workerLeaseExpired.value

/-- A run without a lease expiry, and with no state that is ahead of its log. -/
structure Unrecorded (runId : Str) (s : RunStore) : Prop where
  owned : ∀ d, s.state = some d → d.runId = runId
  behind : ∀ d, s.state = some d → d.lastEventSequence ≤ s.latestSequence
  none : s.expiries = []

/-- One lease expiry is in the log, and the stored state speaks of it. -/
def Recorded (s : RunStore) : Prop :=
  ∃ e d, s.expiries = [e] ∧ s.state = some d ∧ d.stopReason = some workerLeaseExpired ∧
    d.lastEventSequence = e.sequence

variable {runId : Str} {s : RunStore} {d : DurableRunState} {e : AuditEvent}

theorem Unrecorded.not_recorded (h : s.Unrecorded runId) : ¬ s.Recorded := by
  rintro ⟨e, d, hone, -⟩
  rw [h.none] at hone
  cases hone

theorem Unrecorded.save (h : s.Unrecorded runId) (hid : d.runId = runId) (hlast : d.lastEventSequence ≤ s.latestSequence) :
    (s.apply (.saveRun d)).Unrecorded runId where
  owned _ hd' := Option.some.inj hd' ▸ hid
  behind _ hd' := Option.some.inj hd' ▸ hlast
  none := h.none

theorem Unrecorded.write (h : s.Unrecorded runId) (ref : Str) (document : Document) :
    (s.apply (.write ref document)).Unrecorded runId := ⟨h.owned, h.behind, h.none⟩

theorem expiries_append : (s.apply (.append e)).expiries =
    s.expiries ++ if e.eventType = AuditEventType.workerLeaseExpired.value then [e] else [] := by
  unfold expiries
  rw [show (s.apply (.append e)).events = s.events ++ [e] from rfl, List.filter_append, List.filter_singleton]
  by_cases he : e.eventType = AuditEventType.workerLeaseExpired.value
  · rw [decide_eq_true he, if_pos he]
    rfl
  · rw [decide_eq_false he, if_neg he]
    rfl

theorem Unrecorded.append (h : s.Unrecorded runId) (hrefusal : s.refusal (.append e) = Option.none)
    (he : e.eventType ≠ AuditEventType.workerLeaseExpired.value) : (s.apply (.append e)).Unrecorded runId where
  owned := h.owned
  behind d hd := by
    have hbehind := h.behind d hd
    have hsequence := (refusal_append_none_iff.mp hrefusal).2
    rw [latestSequence_append]
    omega
  none := by
    rw [expiries_append, h.none, if_neg he]
    rfl

end RunStore

section Foundation

variable {env : Env} {runId : Str} {j : Journal} {d : DurableRunState} {op : StoreOp}

/-- A foundation at work on a run that has no lease expiry. -/
structure Tended (env : Env) (runId : Str) (j : Journal) : Prop where
  stored : (j.store env).Unrecorded runId
  owned : ∀ d, j.durable = some d → d.runId = runId
  behind : ∀ d, j.durable = some d → d.lastEventSequence ≤ (j.store env).latestSequence

namespace Tended

theorem failed (h : Tended env runId j) (op : StoreOp) : Tended env runId (j.call op false) := by
  have hstore : (j.call op false).store env = j.store env := by rw [Journal.store_call, RunStore.step_failed]
  constructor
  · rw [hstore]
    exact h.stored
  · exact h.owned
  · rw [hstore]
    exact h.behind

theorem hold (h : Tended env runId j) (hid : d.runId = runId)
    (hlast : d.lastEventSequence ≤ (j.store env).latestSequence) : Tended env runId (j.hold d) where
  stored := h.stored
  owned _ hd' := Option.some.inj hd' ▸ hid
  behind _ hd' := Option.some.inj hd' ▸ hlast

theorem done (hstored : ((j.store env).apply op).Unrecorded runId) (hlast : (j.store env).latestSequence ≤
    ((j.store env).apply op).latestSequence) (h : Tended env runId j) : Tended env runId (j.call op true) := by
  have hstore : (j.call op true).store env = (j.store env).apply op := by rw [Journal.store_call]; rfl
  constructor
  · rw [hstore]
    exact hstored
  · exact h.owned
  · intro d hd
    rw [hstore]
    exact (h.behind d hd).trans hlast

theorem saved (h : Tended env runId j) (hd : j.durable = some d) : Tended env runId (j.call (.saveRun d) true) :=
  done (h.stored.save (h.owned d hd) (h.behind d hd)) (Nat.le_refl _) h

/-- An event is appended, and the state in memory counts it. -/
theorem advanced (h : Tended env runId j) (hd : j.durable = some d) {id : Str} {t : AuditEventType}
    {before after : Option Str} {refs : List DurableEvidenceRef} (ht : t ≠ .workerLeaseExpired)
    (hrefusal : (j.store env).refusal (.append (RunPersistence.event id d t before after refs)) = none) :
    Tended env runId ((j.call (.append (RunPersistence.event id d t before after refs)) true).hold
      (RunPersistence.advance d after)) := by
  have htype : t.value ≠ AuditEventType.workerLeaseExpired.value := by
    cases t <;> first | exact absurd rfl ht | decide
  have hsequence := (RunStore.refusal_append_none_iff.mp hrefusal).2
  have hdone := done (h.stored.append hrefusal htype) ?_ h
  · refine hdone.hold (h.owned d hd) ?_
    rw [Journal.store_call]
    show d.lastEventSequence + 1 ≤ ((j.store env).apply (.append _)).latestSequence
    rw [RunStore.latestSequence_append]
    exact Nat.le_refl _
  · rw [RunStore.latestSequence_append, hsequence]
    omega

theorem emit {t : AuditEventType} (ht : t ≠ .workerLeaseExpired) (before after : Option Str)
    (refs : List DurableEvidenceRef) : Triple (Tended env runId) (RunPersistence.emit env t before after refs)
      (fun _ => Tended env runId) (fun _ => Tended env runId) := by
  apply emit_triple
  · exact fun j h _ _ => h
  · exact fun j d event message h _ => h.failed _
  · exact fun j d id message h hd hrefusal => (h.advanced hd ht hrefusal).failed _
  · exact fun j d id h hd hrefusal => (h.advanced hd ht hrefusal).saved rfl

theorem exec (call : PersistenceCall) :
    Triple (Tended env runId) (call.exec env runId) (fun _ => Tended env runId) (fun _ => Tended env runId) := by
  cases call with
  | startRun workflowStatus =>
    let d : DurableRunState := { runId, workflowStatus }
    apply Triple.bind (Q := fun _ => Tended env runId)
    · apply perform_triple
      · exact fun j h _ => done (h.stored.save (d := d) rfl (Nat.zero_le _)) (Nat.le_refl _) h
      · exact fun j message h => h.failed _
    intro _
    apply Triple.bind (Q := fun _ => Tended env runId)
    · exact Triple.update fun j h => h.hold (d := d) rfl (Nat.zero_le _)
    intro _
    exact emit (by decide) _ _ _
  | emit eventType allowed stateBefore stateAfter evidenceRefs => exact emit allowed _ _ _
  | checkpoint c =>
    have hheld : ∀ j d, Tended env runId j → j.durable = some d → Tended env runId (j.hold (c.apply d)) :=
      fun j d h hd => h.hold (h.owned d hd) (h.behind d hd)
    apply checkpoint_triple
    · exact fun j h _ _ => h
    · exact fun j d message h hd => (hheld j d h hd).failed _
    · exact fun j d h hd => (hheld j d h hd).saved rfl
  | write ref document =>
    apply perform_triple
    · exact fun j h _ => done (h.stored.write ref document) (Nat.le_refl _) h
    · exact fun j message h => h.failed _

end Tended

/-- A foundation records no lease expiry. -/
theorem FoundationRun.leaves_unrecorded {s : RunStore} (h : s.Unrecorded runId) (f : FoundationRun) :
    (f.leaves runId s).Unrecorded runId := by
  let env : Env := { store := s, newId := f.newId, fails := f.fails }
  have hcalls : ∀ (calls : List PersistenceCall) (j : Journal), Tended env runId j →
      Tended env runId (calls.foldl (fun j c => (c.exec env runId j).2) j) := by
    intro calls
    induction calls with
    | nil => exact fun j hj => hj
    | cons c calls ih => exact fun j hj => ih _ ((Tended.exec c).after hj)
  exact (hcalls f.calls {} ⟨h, fun _ hd => (nomatch hd), fun _ hd => (nomatch hd)⟩).stored

end Foundation

section Records

variable {P : Type} {w : WorkerTick P} {s : Service P} {job : JobRecord P} {d : DurableRunState}
  {failing call : Option RecordCall}

def Service.hasState (s : Service P) (runId : Str) : Bool := (s.runs runId).state.isSome

/-- The run has no state, or its lease expiry is recorded. -/
def Service.Settled (s : Service P) (runId : Str) : Prop := s.hasState runId = true → (s.runs runId).Recorded

/-- A call of `_record_lease_expiry` raises: the first one, or one behind it for a run with a state. -/
def RecordRaises (failing : Option RecordCall) (present : Bool) : Prop :=
  failing = some .loadRun ∨ failing.isSome = true ∧ present = true

instance (failing : Option RecordCall) (present : Bool) : Decidable (RecordRaises failing present) :=
  inferInstanceAs (Decidable (_ ∨ _))

theorem guard_passes {call : RecordCall} {α : Type} {f : Unit → Exec (Service P) TickError α} (h : failing ≠ some call) :
    (when (failing = some call) (raise .storage) >>= f) s = f () s := by
  unfold when
  rw [if_neg h]
  rfl

theorem guard_raises {call : RecordCall} {α : Type} {f : Unit → Exec (Service P) TickError α}
    (h : failing = some call) : (when (failing = some call) (raise .storage) >>= f) s = (.error .storage, s) := by
  unfold when
  rw [if_pos h]
  rfl

theorem storeCall_done {runId : Str} {op : StoreOp} (h : (s.runs runId).refusal op = none) :
    storeCall runId op s = (.ok (), s.put runId ((s.runs runId).apply op)) := by
  unfold storeCall
  rw [h]

theorem put_runs {runId : Str} {r : RunStore} : (s.put runId r).runs runId = r := Function.update_self ..

theorem put_other {runId other : Str} {r : RunStore} (h : other ≠ runId) : (s.put runId r).runs other = s.runs other :=
  Function.update_of_ne h ..

theorem put_put {runId : Str} {r r' : RunStore} : (s.put runId r).put runId r' = s.put runId r' := by
  unfold Service.put
  rw [Function.update_idem]

/-- The rows of a run after its event. -/
def expiryLogged (w : WorkerTick P) (job : JobRecord P) (d : DurableRunState) (s : Service P) : RunStore :=
  (s.runs job.runId).apply (.append (w.expiryEvent job d (s.runs job.runId)))

/-- The rows of a run after its event and its state. -/
def expiryMarked (w : WorkerTick P) (job : JobRecord P) (d : DurableRunState) (s : Service P) : RunStore :=
  (expiryLogged w job d s).apply (.saveRun { d with
    lastEventSequence := (s.runs job.runId).latestSequence + 1
    stopReason := some workerLeaseExpired })

/-- What `_record_lease_expiry` does for a run with a state, by the call that fails. -/
theorem recordLeaseExpiry_stored (w : WorkerTick P) (failing : Option RecordCall) (hd : (s.runs job.runId).state = some d) (hid : d.runId = job.runId) :
    w.recordLeaseExpiry failing job s =
      match failing with
      | none => (.ok (), s.put job.runId (expiryMarked w job d s))
      | some .saveRun => (.error .storage, s.put job.runId (expiryLogged w job d s))
      | some _ => (.error .storage, s) := by
  have hrefusal : (s.runs job.runId).refusal (.append (w.expiryEvent job d (s.runs job.runId))) = none :=
    RunStore.refusal_append_none_iff.mpr ⟨w.eventId.fresh _, rfl⟩
  have hread : ∀ {f : Service P → Exec (Service P) TickError Unit}, (read >>= f) s = f s s := rfl
  have hsame : ∀ op, storeCall (P := P) d.runId op = storeCall job.runId op := fun op =>
    congrArg (fun runId => storeCall runId op) hid
  unfold recordLeaseExpiry
  by_cases hload : failing = some .loadRun
  · rw [guard_raises hload, hload]
  rw [guard_passes hload, hread, hd]
  dsimp only
  by_cases hlatest : failing = some .latestSequence
  · rw [guard_raises hlatest, hlatest]
  rw [guard_passes hlatest]
  by_cases happend : failing = some .append
  · rw [guard_raises happend, happend]
  rw [guard_passes happend, bind_of_ok (storeCall_done hrefusal), hsame]
  by_cases hsave : failing = some .saveRun
  · rw [guard_raises hsave, hsave]
    rfl
  rw [guard_passes hsave, storeCall_done rfl, put_runs, put_put]
  match failing with
  | none => rfl
  | some .loadRun => exact absurd rfl hload
  | some .latestSequence => exact absurd rfl hlatest
  | some .append => exact absurd rfl happend
  | some .saveRun => exact absurd rfl hsave

theorem recordLeaseExpiry_missing (h : (s.runs job.runId).state = none) :
    w.recordLeaseExpiry failing job s = if failing = some .loadRun then (.error .storage, s) else (.ok (), s) := by
  have hread : ∀ {f : Service P → Exec (Service P) TickError Unit}, (read >>= f) s = f s s := rfl
  unfold recordLeaseExpiry
  by_cases hload : failing = some .loadRun
  · rw [guard_raises hload, if_pos hload]
  · rw [guard_passes hload, if_neg hload, hread, h]
    rfl

theorem expiryLogged_expiries (h : (s.runs job.runId).Unrecorded job.runId) :
    (expiryLogged w job d s).expiries = [w.expiryEvent job d (s.runs job.runId)] := by
  unfold expiryLogged
  have htype : (w.expiryEvent job d (s.runs job.runId)).eventType = AuditEventType.workerLeaseExpired.value := rfl
  rw [RunStore.expiries_append, h.none, if_pos htype]
  rfl

theorem expiryMarked_recorded (h : (s.runs job.runId).Unrecorded job.runId) : (expiryMarked w job d s).Recorded :=
  ⟨w.expiryEvent job d (s.runs job.runId), _, expiryLogged_expiries h, rfl, rfl, rfl⟩

/-- A state that is behind its log does not speak of the event that follows. -/
theorem expiryLogged_not_recorded (h : (s.runs job.runId).Unrecorded job.runId) (hd : (s.runs job.runId).state = some d) :
    ¬ (expiryLogged w job d s).Recorded := by
  rintro ⟨e, d', hone, hd', -, hlast⟩
  rw [expiryLogged_expiries h, List.singleton_inj] at hone
  cases hd.symm.trans hd'
  have hbehind := h.behind d hd
  have hsequence : e.sequence = (s.runs job.runId).latestSequence + 1 := by
    rw [← hone]
    rfl
  omega

theorem recordLeaseExpiry_returns (h : (s.runs job.runId).Unrecorded job.runId)
    (hpass : ¬ RecordRaises failing (s.hasState job.runId)) :
    ∃ s', w.recordLeaseExpiry failing job s = (.ok (), s') ∧ s'.Settled job.runId := by
  have hload : failing ≠ some .loadRun := fun hload => hpass (.inl hload)
  cases hd : (s.runs job.runId).state with
  | none =>
    refine ⟨s, (recordLeaseExpiry_missing hd).trans (if_neg hload), fun hstate => ?_⟩
    unfold Service.hasState at hstate
    rw [hd] at hstate
    cases hstate
  | some d =>
    have hnone : failing = none := by
      cases hfailing : failing with
      | none => rfl
      | some call =>
        refine absurd (.inr ⟨?_, ?_⟩) hpass
        · rw [hfailing]
          rfl
        · unfold Service.hasState
          rw [hd]
          rfl
    refine ⟨_, (recordLeaseExpiry_stored w failing hd (h.owned d hd)).trans (by rw [hnone]), fun _ => ?_⟩
    rw [put_runs]
    exact expiryMarked_recorded h

theorem recordLeaseExpiry_raises (h : (s.runs job.runId).Unrecorded job.runId)
    (hraises : RecordRaises failing (s.hasState job.runId)) :
    ∃ s', w.recordLeaseExpiry failing job s = (.error .storage, s') ∧ ¬ (s'.runs job.runId).Recorded := by
  cases hd : (s.runs job.runId).state with
  | none =>
    have hload : failing = some .loadRun := by
      rcases hraises with hload | ⟨-, hstate⟩
      · exact hload
      · unfold Service.hasState at hstate
        rw [hd] at hstate
        cases hstate
    exact ⟨s, (recordLeaseExpiry_missing hd).trans (if_pos hload), h.not_recorded⟩
  | some d =>
    have hstored := recordLeaseExpiry_stored w failing hd (h.owned d hd)
    cases hfailing : failing with
    | none =>
      rw [hfailing] at hraises
      rcases hraises with hload | ⟨hsome, -⟩
      · cases hload
      · cases hsome
    | some call =>
      rw [hfailing] at hstored
      cases call with
      | saveRun =>
        refine ⟨_, hstored, ?_⟩
        rw [put_runs]
        exact expiryLogged_not_recorded h hd
      | loadRun => exact ⟨s, hstored, h.not_recorded⟩
      | latestSequence => exact ⟨s, hstored, h.not_recorded⟩
      | append => exact ⟨s, hstored, h.not_recorded⟩

/-- Only the rows of the job's run change, and a state neither comes nor goes. -/
theorem recordLeaseExpiry_put (w : WorkerTick P) (failing : Option RecordCall) (h : (s.runs job.runId).Unrecorded job.runId) :
    ∃ r, (w.recordLeaseExpiry failing job s).2 = s.put job.runId r ∧ r.state.isSome = s.hasState job.runId := by
  have hsame : s.put job.runId (s.runs job.runId) = s := by
    unfold Service.put
    rw [Function.update_eq_self]
  unfold Service.hasState
  cases hd : (s.runs job.runId).state with
  | none =>
    refine ⟨s.runs job.runId, ?_, congrArg Option.isSome hd⟩
    rw [recordLeaseExpiry_missing hd, hsame]
    split <;> rfl
  | some d =>
    rw [recordLeaseExpiry_stored w failing hd (h.owned d hd)]
    split
    · exact ⟨_, rfl, rfl⟩
    · exact ⟨_, rfl, congrArg Option.isSome hd⟩
    · exact ⟨_, hsame.symm, congrArg Option.isSome hd⟩

/-- The failure comes at a recovered job, of the given runs, with a run state left to be marked. -/
def Drops (hasState : Str → Bool) (runIds : List Str) : Option TickFailure → Prop
  | some (.record n .loadRun) => ∃ runId ∈ runIds.drop n, hasState runId = true
  | some (.record n _) => ∃ runId, runIds[n]? = some runId ∧ hasState runId = true
  | _ => False

section Position

variable {hasState : Str → Bool} {runId : Str} {runIds : List Str} {failure : Option TickFailure}

theorem drops_raises (h : RecordRaises (failingHere failure) (hasState runId)) :
    Drops hasState (runId :: runIds) failure ↔ ∃ other ∈ runId :: runIds, hasState other = true := by
  match failure, h with
  | some (.record 0 .loadRun), _ => exact Iff.rfl
  | some (.record 0 .latestSequence), .inr ⟨_, hstate⟩ | some (.record 0 .append), .inr ⟨_, hstate⟩
  | some (.record 0 .saveRun), .inr ⟨_, hstate⟩ =>
    exact ⟨fun _ => ⟨runId, List.mem_cons_self, hstate⟩, fun _ => ⟨runId, rfl, hstate⟩⟩

theorem drops_passes (h : ¬ RecordRaises (failingHere failure) (hasState runId)) :
    Drops hasState (runId :: runIds) failure ↔ Drops hasState runIds (failingLater failure) := by
  match failure with
  | none | some (.claim _) | some .complete => exact Iff.rfl
  | some (.record 0 call) =>
    have hcall : call ≠ .loadRun := fun hload => h (.inl (congrArg some hload))
    have hdrops : Drops hasState (runId :: runIds) (some (.record 0 call)) → hasState runId = true := by
      intro hdrops
      cases call with
      | loadRun => exact absurd rfl hcall
      | latestSequence | append | saveRun =>
        obtain ⟨other, hother, hstate⟩ := hdrops
        cases hother
        exact hstate
    exact ⟨fun hdropped => absurd (.inr ⟨rfl, hdrops hdropped⟩) h, False.elim⟩
  | some (.record (n + 1) call) => cases call <;> exact Iff.rfl

end Position

section Loop

variable {jobs : List (JobRecord P)} {failure : Option TickFailure}

theorem Service.hasState_put {runId : Str} {r : RunStore} (h : r.state.isSome = s.hasState runId) :
    (s.put runId r).hasState = s.hasState := by
  funext other
  by_cases hother : other = runId
  · rw [hother]
    unfold Service.hasState
    rw [put_runs]
    exact h
  · unfold Service.hasState
    rw [put_other hother]

/-- One pass of the loop: it ends there, or goes on behind a settled run. -/
theorem recordLeaseExpiries_cons (w : WorkerTick P) (failure : Option TickFailure) (rest : List (JobRecord P)) (h : (s.runs job.runId).Unrecorded job.runId) :
    ∃ r, r.state.isSome = s.hasState job.runId ∧
      if RecordRaises (failingHere failure) (s.hasState job.runId) then
        w.recordLeaseExpiries failure (job :: rest) s = (.error .storage, s.put job.runId r) ∧ ¬ r.Recorded
      else
        w.recordLeaseExpiries failure (job :: rest) s =
          w.recordLeaseExpiries (failingLater failure) rest (s.put job.runId r) ∧
        (s.put job.runId r).Settled job.runId := by
  obtain ⟨r, hput, hstate⟩ := recordLeaseExpiry_put w (failingHere failure) h
  refine ⟨r, hstate, ?_⟩
  split
  next hraises =>
    obtain ⟨s', hrecord, hunrecorded⟩ := recordLeaseExpiry_raises (w := w) h hraises
    rw [hrecord] at hput
    dsimp only at hput
    rw [hput, put_runs] at hunrecorded
    rw [hput] at hrecord
    exact ⟨bind_of_error hrecord, hunrecorded⟩
  next hpass =>
    obtain ⟨s', hrecord, hsettled⟩ := recordLeaseExpiry_returns (w := w) h hpass
    rw [hrecord] at hput
    dsimp only at hput
    rw [hput] at hrecord hsettled
    exact ⟨bind_of_ok hrecord, hsettled⟩

theorem unrecorded_rest {rest : List (JobRecord P)} {r : RunStore}
    (hopen : ∀ job' ∈ job :: rest, (s.runs job'.runId).Unrecorded job'.runId)
    (hfirst : job.runId ∉ rest.map (·.runId)) :
    ∀ job' ∈ rest, ((s.put job.runId r).runs job'.runId).Unrecorded job'.runId := by
  intro job' hjob'
  have hne : job'.runId ≠ job.runId := fun hsame => hfirst (List.mem_map.mpr ⟨job', hjob', hsame⟩)
  rw [put_other hne]
  exact hopen job' (List.mem_cons_of_mem job hjob')

/-- The loop changes the rows of the given runs only. -/
theorem recordLeaseExpiries_frame (w : WorkerTick P) (failure : Option TickFailure) (hopen : ∀ job ∈ jobs, (s.runs job.runId).Unrecorded job.runId)
    (hnodup : (jobs.map (·.runId)).Nodup) :
    (w.recordLeaseExpiries failure jobs s).2.jobs = s.jobs ∧
      (w.recordLeaseExpiries failure jobs s).2.hasState = s.hasState ∧
      ∀ runId ∉ jobs.map (·.runId), (w.recordLeaseExpiries failure jobs s).2.runs runId = s.runs runId := by
  induction jobs generalizing failure s with
  | nil => exact ⟨rfl, rfl, fun _ _ => rfl⟩
  | cons job rest ih =>
    obtain ⟨hfirst, hrest⟩ := List.nodup_cons.mp hnodup
    obtain ⟨r, hstate, hcons⟩ := recordLeaseExpiries_cons w failure rest (hopen job List.mem_cons_self)
    split at hcons
    next hraises =>
      rw [hcons.1]
      refine ⟨rfl, Service.hasState_put hstate, fun runId hrun => put_other ?_⟩
      exact fun hsame => hrun (hsame ▸ List.mem_cons_self)
    next hpass =>
      obtain ⟨hjobs, hstates, hruns⟩ := ih (failingLater failure) (unrecorded_rest hopen hfirst) hrest
      rw [hcons.1]
      refine ⟨hjobs, hstates.trans (Service.hasState_put hstate), fun runId hrun => ?_⟩
      have hne : runId ≠ job.runId := fun hsame => hrun (List.mem_cons.mpr (.inl hsame))
      rw [hruns runId fun hmem => hrun (List.mem_cons_of_mem _ hmem), put_other hne]

/-- Every run with a state is settled exactly when the failure drops none. -/
theorem recordLeaseExpiries_settled_iff (w : WorkerTick P) (failure : Option TickFailure) (hopen : ∀ job ∈ jobs, (s.runs job.runId).Unrecorded job.runId)
    (hnodup : (jobs.map (·.runId)).Nodup) :
    (∀ job ∈ jobs, (w.recordLeaseExpiries failure jobs s).2.Settled job.runId) ↔
      ¬ Drops s.hasState (jobs.map (·.runId)) failure := by
  induction jobs generalizing failure s with
  | nil =>
    refine ⟨fun _ hdrops => ?_, fun _ _ hjob => nomatch hjob⟩
    match failure, hdrops with
    | some (.record n .loadRun), ⟨runId, hmem, _⟩ => simp at hmem
    | some (.record n .latestSequence), ⟨runId, hmem, _⟩ | some (.record n .append), ⟨runId, hmem, _⟩
    | some (.record n .saveRun), ⟨runId, hmem, _⟩ => simp at hmem
  | cons job rest ih =>
    obtain ⟨hfirst, hrest⟩ := List.nodup_cons.mp hnodup
    obtain ⟨r, hstate, hcons⟩ := recordLeaseExpiries_cons w failure rest (hopen job List.mem_cons_self)
    have hstates := Service.hasState_put hstate
    have hopen' := unrecorded_rest (r := r) hopen hfirst
    rw [List.map_cons]
    split at hcons
    next hraises =>
      obtain ⟨hloop, hunrecorded⟩ := hcons
      have hnone : ∀ job' ∈ job :: rest, ¬ ((s.put job.runId r).runs job'.runId).Recorded := by
        intro job' hjob'
        rcases List.mem_cons.mp hjob' with rfl | hjob'
        · rw [put_runs]
          exact hunrecorded
        · exact (hopen' job' hjob').not_recorded
      rw [hloop, drops_raises hraises]
      constructor
      · rintro hsettled ⟨runId, hmem, hpresent⟩
        rw [← List.map_cons] at hmem
        obtain ⟨job', hjob', rfl⟩ := List.mem_map.mp hmem
        exact hnone job' hjob' (hsettled job' hjob' (by rw [hstates]; exact hpresent))
      · intro habsent job' hjob' hpresent
        rw [hstates] at hpresent
        refine absurd ⟨job'.runId, ?_, hpresent⟩ habsent
        rw [← List.map_cons]
        exact List.mem_map_of_mem hjob'
    next hpass =>
      obtain ⟨hloop, hsettled⟩ := hcons
      have hrun := (recordLeaseExpiries_frame w (failingLater failure) hopen' hrest).2.2 job.runId
        hfirst
      rw [hloop, drops_passes hpass, ← hstates, ← ih (failingLater failure) hopen' hrest, List.forall_mem_cons]
      refine and_iff_right ?_
      unfold Service.Settled Service.hasState at hsettled ⊢
      rw [hrun]
      exact hsettled

end Loop

end Records

end FailureOrchestrator
