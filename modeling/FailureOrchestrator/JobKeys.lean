import FailureOrchestrator.JobRuns

namespace FailureOrchestrator

variable {ι P : Type}

def JobTask.call : JobTask P → JobCall P
  | .enqueue c _ => .enqueue c
  | .claim c _ => .claim c
  | .renewLease c _ => .renewLease c
  | .complete c _ => .complete c
  | .recoverStale now _ => .recoverStale now

/-- What no call changes of a job. -/
def JobRecord.request (r : JobRecord P) : Str × Str × Option Str × Str × P :=
  (r.jobId, r.runId, r.idempotencyKey, r.requestSha256, r.payload)

/-- The call has inserted its row. -/
def EnqueuePhase.Wrote : EnqueuePhase P → Prop
  | .inserted | .finished (.ok ⟨_, true⟩) => True
  | _ => False

/-- What the table shows of a call that has come to this phase. -/
def EnqueueCall.Right (digest : P → Str) (c : EnqueueCall P) (t : JobTable P) : EnqueuePhase P → Prop
  | .start | .inserting => True
  | .conflicted => c.key.isSome ∧ ∃ r ∈ t, r.idempotencyKey = c.key
  | .inserted => ∃ r ∈ t, r.request = (c.row digest).request
  | .finished (.ok ⟨job, true⟩) => job.request = (c.row digest).request ∧ ∃ r ∈ t, r.request = job.request
  | .finished (.ok ⟨job, false⟩) => c.key.isSome ∧ job.idempotencyKey = c.key ∧ job.requestSha256 = digest c.payload ∧
    ∃ r ∈ t, r.request = job.request
  | .finished (.error .idempotencyConflict) => c.key.isSome ∧
    ∃ r ∈ t, r.idempotencyKey = c.key ∧ r.requestSha256 ≠ digest c.payload
  | .finished (.error .integrity) => c.key = none
  | .finished (.error _) => False

/-- The identifiers that the calls draw are new, and no two calls draw one. -/
structure DistinctIds (calls : ι → JobCall P) (t : JobTable P) : Prop where
  unused : ∀ i c, calls i = .enqueue c → ∀ r ∈ t, r.jobId ≠ c.jobId ∧ r.runId ≠ c.runId
  distinct : ∀ i j c c', calls i = .enqueue c → calls j = .enqueue c' → i ≠ j → c.jobId ≠ c'.jobId ∧ c.runId ≠ c'.runId

/-- A moment of a run of `calls` that began with the table `t₀`: every other row is that of a call which has inserted it. -/
structure Booked (digest : P → Str) (calls : ι → JobCall P) (t₀ : JobTable P) (q : Pool ι (JobTable P) (JobTask P)) :
    Prop where
  sound : SqlTable.Sound JobRecord.clashes q.shared
  calls : ∀ i, (q.task i).call = calls i
  rows : ∀ r ∈ q.shared, (∃ r₀ ∈ t₀, r.request = r₀.request) ∨
    ∃ i c phase, q.task i = .enqueue c phase ∧ phase.Wrote ∧ r.request = (c.row digest).request
  right : ∀ i c phase, q.task i = .enqueue c phase → c.Right digest q.shared phase

section Requests

variable {digest : P → Str} {t t' : JobTable P} {r r' : JobRecord P}

theorem JobRecord.request_eq (h : r.request = r'.request) : r.jobId = r'.jobId ∧ r.runId = r'.runId ∧
    r.idempotencyKey = r'.idempotencyKey ∧ r.requestSha256 = r'.requestSha256 ∧ r.payload = r'.payload := by
  simpa only [JobRecord.request, Prod.mk.injEq] using h

theorem JobRecord.MovesOn.request (h : r.MovesOn r') : r'.request = r.request := by
  induction h with
  | refl => rfl
  | tail _ hlast ih =>
    refine Eq.trans ?_ ih
    cases hlast <;> rfl

theorem JobTable.Advances.request (h : t.Advances t') (hr : r ∈ t) : ∃ r' ∈ t', r'.request = r.request := by
  obtain ⟨r', hr', hmoves⟩ := h.grows.old r hr
  exact ⟨r', hr', hmoves.request⟩

theorem JobRecord.clashes_iff : r.clashes r' = true ↔
    r.jobId = r'.jobId ∨ r.runId = r'.runId ∨ r.idempotencyKey.isSome ∧ r.idempotencyKey = r'.idempotencyKey := by
  unfold JobRecord.clashes
  rw [Bool.or_eq_true, Bool.or_eq_true, Bool.and_eq_true, decide_eq_true_eq, decide_eq_true_eq, decide_eq_true_eq,
    or_assoc]

end Requests

section Enqueue

variable {digest : P → Str} {t t' : JobTable P} {c : EnqueueCall P} {phase : EnqueuePhase P}

theorem EnqueueCall.key_eq (h : c.key.isSome) : c.key = c.idempotencyKey := by
  unfold EnqueueCall.key at h ⊢
  cases hkey : c.idempotencyKey with
  | none => rfl
  | some k =>
    rw [hkey] at h
    by_cases hk : k = []
    · rw [hk] at h
      cases h
    · exact Option.filter_eq_some_iff.mpr ⟨rfl, decide_eq_true hk⟩

theorem EnqueueCall.stored_some {existing : JobRecord P} (h : c.stored t = some existing) :
    existing ∈ t ∧ c.key.isSome ∧ existing.idempotencyKey = c.key := by
  unfold EnqueueCall.stored at h
  obtain ⟨k, hk, hfound⟩ := Option.bind_eq_some_iff.mp h
  rw [hk]
  exact ⟨List.mem_of_find?_eq_some hfound, rfl, of_decide_eq_true (List.find?_some hfound :)⟩

theorem EnqueueCall.stored_none (hkey : c.key.isSome) (h : c.stored t = none) : ∀ r ∈ t, r.idempotencyKey ≠ c.key := by
  obtain ⟨k, hk⟩ := Option.isSome_iff_exists.mp hkey
  unfold EnqueueCall.stored at h
  rw [hk] at h ⊢
  intro r hr
  exact of_decide_eq_false (Bool.eq_false_iff.mpr (List.find?_eq_none.mp (h : t.byKey k = none) r hr))

theorem EnqueueCall.replay_right {existing : JobRecord P} (h : c.stored t = some existing) :
    c.Right digest t (.finished (c.replay digest existing)) := by
  obtain ⟨hmem, hsome, hkey⟩ := c.stored_some h
  unfold EnqueueCall.replay
  split
  next hdiffers => exact ⟨hsome, existing, hmem, hkey, hdiffers⟩
  next hsame => exact ⟨hsome, hkey, not_not.mp hsame, existing, hmem, rfl⟩

theorem EnqueueCall.Right.advances (h : c.Right digest t phase) (ht : t.Advances t') : c.Right digest t' phase := by
  cases phase with
  | start => trivial
  | inserting => trivial
  | conflicted =>
    obtain ⟨hsome, r, hr, hkey⟩ := h
    obtain ⟨r', hr', hrequest⟩ := ht.request hr
    exact ⟨hsome, r', hr', (JobRecord.request_eq hrequest).2.2.1.trans hkey⟩
  | inserted =>
    obtain ⟨r, hr, hrow⟩ := h
    obtain ⟨r', hr', hrequest⟩ := ht.request hr
    exact ⟨r', hr', hrequest.trans hrow⟩
  | finished result =>
    cases result with
    | ok answer =>
      obtain ⟨job, created⟩ := answer
      cases created with
      | true =>
        obtain ⟨hjob, r, hr, hrow⟩ := h
        obtain ⟨r', hr', hrequest⟩ := ht.request hr
        exact ⟨hjob, r', hr', hrequest.trans hrow⟩
      | false =>
        obtain ⟨hsome, hkey, hdigest, r, hr, hrow⟩ := h
        obtain ⟨r', hr', hrequest⟩ := ht.request hr
        exact ⟨hsome, hkey, hdigest, r', hr', hrequest.trans hrow⟩
    | error e =>
      cases e with
      | idempotencyConflict =>
        obtain ⟨hsome, r, hr, hkey, hdigest⟩ := h
        obtain ⟨r', hr', hrequest⟩ := ht.request hr
        obtain ⟨-, -, hkey', hdigest', -⟩ := JobRecord.request_eq hrequest
        exact ⟨hsome, r', hr', hkey'.trans hkey, hdigest' ▸ hdigest⟩
      | notTerminal status => exact h
      | integrity => exact h
      | overflow => exact h
      | assertion => exact h

theorem EnqueueCall.step_right (ht : SqlTable.Sound JobRecord.clashes t)
    (hfresh : phase = .inserting → ∀ r ∈ t, r.jobId ≠ c.jobId ∧ r.runId ≠ c.runId) (h : c.Right digest t phase) :
    c.Right digest (c.step digest t phase).1 (c.step digest t phase).2 := by
  cases phase with
  | start =>
    unfold EnqueueCall.step
    cases hstored : c.stored t with
    | none => trivial
    | some existing => exact c.replay_right hstored
  | inserting =>
    unfold EnqueueCall.step
    dsimp only
    split
    next t' hinsert =>
      rw [SqlTable.insert_some hinsert]
      exact ⟨c.row digest, List.mem_append_right _ List.mem_cons_self, rfl⟩
    next hrefused =>
      obtain ⟨r, hr, hclash⟩ := SqlTable.insert_none hrefused
      obtain ⟨hid, hrun⟩ := hfresh rfl r hr
      dsimp only
      split
      next hsome =>
        rcases JobRecord.clashes_iff.mp hclash with hsame | hsame | ⟨-, hkey⟩
        · exact absurd hsame.symm hid
        · exact absurd hsame.symm hrun
        · exact ⟨hsome, r, hr, hkey.symm.trans (c.key_eq hsome).symm⟩
      next hnone => exact Option.not_isSome_iff_eq_none.mp hnone
  | conflicted =>
    obtain ⟨hsome, r, hr, hkey⟩ := h
    unfold EnqueueCall.step
    cases hstored : c.stored t with
    | none => exact absurd hkey (c.stored_none hsome hstored r hr)
    | some existing => exact c.replay_right hstored
  | inserted =>
    obtain ⟨r, hr, hrow⟩ := h
    have hget := JobTable.get_of_mem ht hr
    rw [(JobRecord.request_eq hrow).1] at hget
    unfold EnqueueCall.step
    dsimp only
    rw [show t.get c.jobId = some r from hget]
    exact ⟨hrow, r, hr, rfl⟩
  | finished result => exact h

/-- A call that has inserted its row reports that it has created the job. -/
theorem EnqueueCall.step_wrote (ht : SqlTable.Sound JobRecord.clashes t) (h : c.Right digest t phase) (hwrote : phase.Wrote) :
    (c.step digest t phase).2.Wrote := by
  cases phase with
  | start => exact hwrote.elim
  | inserting => exact hwrote.elim
  | conflicted => exact hwrote.elim
  | finished result => exact hwrote
  | inserted =>
    obtain ⟨r, hr, hrow⟩ := h
    have hget := JobTable.get_of_mem ht hr
    rw [(JobRecord.request_eq hrow).1] at hget
    unfold EnqueueCall.step
    dsimp only
    rw [show t.get c.jobId = some r from hget]
    trivial

end Enqueue

section Turns

variable {digest : P → Str} {t : JobTable P}

theorem rows_of_update {c : JobRecord P → Bool} {f : JobRecord P → JobRecord P} (hf : ∀ r, (f r).request = r.request)
    {r' : JobRecord P} (hr' : r' ∈ SqlTable.update c f t) : ∃ r ∈ t, r'.request = r.request := by
  obtain ⟨r, hr, hrow⟩ := SqlTable.mem_of_update hr'
  refine ⟨r, hr, ?_⟩
  rw [← hrow]
  split
  · exact hf r
  · rfl

/-- A turn brings a request into the table only by an insert. -/
theorem JobTask.act_rows (task : JobTask P) {r' : JobRecord P} (hr' : r' ∈ (task.act digest t).1) :
    (∃ r ∈ t, r'.request = r.request) ∨ ∃ c, task = .enqueue c .inserting ∧
      (task.act digest t).2 = .enqueue c .inserted ∧ r' = c.row digest := by
  cases task with
  | enqueue c phase =>
    cases phase with
    | inserting =>
      simp only [JobTask.act, EnqueueCall.step] at hr' ⊢
      split at hr'
      next t' hinsert =>
        rw [SqlTable.insert_some hinsert] at hr'
        rcases List.mem_append.mp hr' with hold | hnew
        · exact .inl ⟨r', hold, rfl⟩
        · exact .inr ⟨c, rfl, rfl, List.mem_singleton.mp hnew⟩
      next => exact .inl ⟨r', hr', rfl⟩
    | start =>
      simp only [JobTask.act, EnqueueCall.step] at hr'
      split at hr' <;> exact .inl ⟨r', hr', rfl⟩
    | conflicted =>
      simp only [JobTask.act, EnqueueCall.step] at hr'
      split at hr' <;> exact .inl ⟨r', hr', rfl⟩
    | inserted =>
      simp only [JobTask.act, EnqueueCall.step] at hr'
      split at hr' <;> exact .inl ⟨r', hr', rfl⟩
    | finished result => exact .inl ⟨r', hr', rfl⟩
  | claim c phase =>
    simp only [JobTask.act] at hr'
    unfold ClaimCall.step at hr'
    split at hr'
    · exact .inl ⟨r', hr', rfl⟩
    · exact .inl ⟨r', hr', rfl⟩
    · split at hr'
      · exact .inl ⟨r', hr', rfl⟩
      · exact .inl (rows_of_update (fun r => by exact rfl) hr')
    · exact .inl ⟨r', hr', rfl⟩
    · exact .inl ⟨r', hr', rfl⟩
  | renewLease c result =>
    simp only [JobTask.act] at hr'
    unfold RenewCall.step at hr'
    split at hr'
    · split at hr'
      · exact .inl ⟨r', hr', rfl⟩
      · exact .inl (rows_of_update (fun r => by exact rfl) hr')
    · exact .inl ⟨r', hr', rfl⟩
  | complete c result =>
    simp only [JobTask.act] at hr'
    unfold CompleteCall.step at hr'
    split at hr'
    · split at hr'
      · exact .inl (rows_of_update (fun r => by exact rfl) hr')
      · exact .inl ⟨r', hr', rfl⟩
    · exact .inl ⟨r', hr', rfl⟩
  | recoverStale now phase =>
    simp only [JobTask.act] at hr'
    unfold recoverStep at hr'
    split at hr'
    · exact .inl ⟨r', hr', rfl⟩
    · exact .inl ⟨r', hr', rfl⟩
    · exact .inl (rows_of_update (fun r => by exact rfl) hr')
    · exact .inl ⟨r', hr', rfl⟩
    · exact .inl ⟨r', hr', rfl⟩

theorem JobTask.act_call (task : JobTask P) : (task.act digest t).2.call = task.call := by
  cases task <;> rfl

theorem JobTask.call_enqueue {task : JobTask P} {c : EnqueueCall P} (h : task.call = .enqueue c) :
    ∃ phase, task = .enqueue c phase := by
  cases task with
  | enqueue c' phase =>
    cases h
    exact ⟨phase, rfl⟩
  | claim | renewLease | complete | recoverStale => cases h

end Turns

section Runs

variable [DecidableEq ι] {digest : P → Str} {calls : ι → JobCall P} {t₀ : JobTable P}
  {q : Pool ι (JobTable P) (JobTask P)}

omit [DecidableEq ι] in
/-- A call that has not inserted its row finds its identifiers nowhere in the table. -/
theorem Booked.fresh (h : Booked digest calls t₀ q) (hids : DistinctIds calls t₀) {i : ι} {c : EnqueueCall P}
    {phase : EnqueuePhase P} (hi : q.task i = .enqueue c phase) (hphase : ¬ phase.Wrote) :
    ∀ r ∈ q.shared, r.jobId ≠ c.jobId ∧ r.runId ≠ c.runId := by
  have hcall : calls i = .enqueue c := by rw [← h.calls i, hi]; rfl
  intro r hr
  rcases h.rows r hr with ⟨r₀, hr₀, hrequest⟩ | ⟨j, c', phase', hj, hwrote, hrequest⟩
  · obtain ⟨hid, hrun, -⟩ := JobRecord.request_eq hrequest
    rw [hid, hrun]
    exact hids.unused i c hcall r₀ hr₀
  · have hcall' : calls j = .enqueue c' := by rw [← h.calls j, hj]; rfl
    have hne : j ≠ i := by
      rintro rfl
      rw [hi] at hj
      cases hj
      exact hphase hwrote
    obtain ⟨hid, hrun, -⟩ := JobRecord.request_eq hrequest
    rw [hid, hrun]
    exact hids.distinct j i c' c hcall' hcall hne

theorem Booked.turn (hids : DistinctIds calls t₀) (h : Booked digest calls t₀ q) (i : ι) :
    Booked digest calls t₀ (q.turn (JobTask.act digest) i) := by
  have hadvances : q.shared.Advances (q.turn (JobTask.act digest) i).shared := JobTask.act_advances digest q.shared (q.task i)
  constructor
  case sound => exact hadvances.sound h.sound
  case calls =>
    intro j
    by_cases hj : j = i
    · rw [hj, Pool.turn_self, JobTask.act_call]
      exact h.calls i
    · rw [Pool.turn_other hj]
      exact h.calls j
  case rows =>
    intro r' hr'
    rcases JobTask.act_rows (q.task i) hr' with ⟨r, hr, hrequest⟩ | ⟨c, hbefore, hafter, hrow⟩
    · rcases h.rows r hr with ⟨r₀, hr₀, hrequest₀⟩ | ⟨j, c, phase, hj, hwrote, hrequest₀⟩
      · exact .inl ⟨r₀, hr₀, hrequest.trans hrequest₀⟩
      · by_cases hji : j = i
        · rw [hji] at hj
          refine .inr ⟨i, c, (c.step digest q.shared phase).2, ?_, ?_, hrequest.trans hrequest₀⟩
          · rw [Pool.turn_self, hj]
            rfl
          · exact c.step_wrote h.sound (h.right i c phase hj) hwrote
        · refine .inr ⟨j, c, phase, ?_, hwrote, hrequest.trans hrequest₀⟩
          rw [Pool.turn_other hji]
          exact hj
    · refine .inr ⟨i, c, .inserted, ?_, trivial, congrArg _ hrow⟩
      rw [Pool.turn_self]
      exact hafter
  case right =>
    intro j c phase hj
    by_cases hji : j = i
    · rw [hji, Pool.turn_self] at hj
      have hcall : (q.task i).call = .enqueue c := by rw [← @JobTask.act_call _ digest q.shared, hj]; rfl
      obtain ⟨phase₀, hi⟩ := JobTask.call_enqueue hcall
      rw [hi] at hj
      have hright := c.step_right h.sound (fun hphase => h.fresh hids hi (by rw [hphase]; exact id)) (h.right i c phase₀ hi)
      have hshared : (q.turn (JobTask.act digest) i).shared = (c.step digest q.shared phase₀).1 := by
        show ((q.task i).act digest q.shared).1 = _
        rw [hi]
        rfl
      rw [hshared]
      cases hj
      exact hright
    · rw [Pool.turn_other hji] at hj
      exact (h.right j c phase hj).advances hadvances

omit [DecidableEq ι] in
theorem booked_start (hsound : SqlTable.Sound JobRecord.clashes t₀) : Booked digest calls t₀ ⟨t₀, fun i => (calls i).start⟩ where
  sound := hsound
  calls i := by
    cases hcall : calls i <;> simp only [hcall] <;> rfl
  rows r hr := .inl ⟨r, hr, rfl⟩
  right i c phase hi := by
    cases hcall : calls i with
    | enqueue c' =>
      simp only [hcall] at hi
      cases hi
      trivial
    | claim | renewLease | complete | recoverStale =>
      simp only [hcall] at hi
      cases hi

omit [DecidableEq ι] in
/-- The call that has inserted the row of a key. -/
theorem Booked.writer (h : Booked digest calls t₀ q) {k : Str} (hunused : ∀ r ∈ t₀, r.idempotencyKey ≠ some k)
    {r : JobRecord P} (hr : r ∈ q.shared) (hkey : r.idempotencyKey = some k) :
    ∃ w c phase, q.task w = .enqueue c phase ∧ phase.Wrote ∧ r.request = (c.row digest).request := by
  rcases h.rows r hr with ⟨r₀, hr₀, hrequest⟩ | hwritten
  · exact absurd ((JobRecord.request_eq hrequest).2.2.1.symm.trans hkey) (hunused r₀ hr₀)
  · exact hwritten

theorem EnqueueCall.Right.row {c : EnqueueCall P} {t : JobTable P} {phase : EnqueuePhase P} (h : c.Right digest t phase)
    (hwrote : phase.Wrote) : ∃ r ∈ t, r.request = (c.row digest).request := by
  cases phase with
  | start => exact hwrote.elim
  | inserting => exact hwrote.elim
  | conflicted => exact hwrote.elim
  | inserted => exact h
  | finished result =>
    cases result with
    | error e => exact hwrote.elim
    | ok answer =>
      obtain ⟨job, created⟩ := answer
      cases created with
      | false => exact hwrote.elim
      | true =>
        obtain ⟨hjob, r, hr, hrow⟩ := h
        exact ⟨r, hr, hrow.trans hjob⟩

omit [DecidableEq ι] in
theorem Booked.row_unique (h : Booked digest calls t₀ q) {k : Str} {r r' : JobRecord P} (hr : r ∈ q.shared)
    (hr' : r' ∈ q.shared) (hkey : r.idempotencyKey = some k) (hkey' : r'.idempotencyKey = some k) : r = r' := by
  refine h.sound.eq JobRecord.clashes_symm hr hr' (JobRecord.clashes_iff.mpr (.inr (.inr ⟨?_, ?_⟩)))
  · rw [hkey]
    rfl
  · rw [hkey, hkey']

theorem EnqueueCall.key_some {c : EnqueueCall P} {k : Str} (hk : k ≠ []) (hkey : c.idempotencyKey = some k) :
    c.key = some k := by
  unfold EnqueueCall.key
  rw [hkey]
  exact Option.filter_eq_some_iff.mpr ⟨rfl, decide_eq_true hk⟩

/-- A call with a key is over only when the table holds a row of the key. -/
theorem EnqueueCall.Right.seen {c : EnqueueCall P} {t : JobTable P} {k : Str} {result : Except QueueError (EnqueueResult P)}
    (h : c.Right digest t (.finished result)) (hk : k ≠ []) (hkey : c.idempotencyKey = some k) :
    ∃ r ∈ t, r.idempotencyKey = some k := by
  have hcall := c.key_some hk hkey
  cases result with
  | ok answer =>
    obtain ⟨job, created⟩ := answer
    cases created with
    | true =>
      obtain ⟨hjob, r, hr, hrequest⟩ := h
      exact ⟨r, hr, (JobRecord.request_eq (hrequest.trans hjob)).2.2.1.trans hkey⟩
    | false =>
      obtain ⟨-, hjob, -, r, hr, hrequest⟩ := h
      exact ⟨r, hr, (JobRecord.request_eq hrequest).2.2.1.trans (hjob.trans hcall)⟩
  | error e =>
    cases e with
    | idempotencyConflict =>
      obtain ⟨-, r, hr, hstored, -⟩ := h
      exact ⟨r, hr, hstored.trans hcall⟩
    | integrity =>
      rw [show c.key = none from h] at hcall
      cases hcall
    | notTerminal status => exact h.elim
    | overflow => exact h.elim
    | assertion => exact h.elim

/-- A finished call with the key of an inserted row: its answer follows from who has inserted the row, and from its payload. -/
theorem EnqueueCall.Right.answer {c cw : EnqueueCall P} {t : JobTable P} {k : Str} {result : Except QueueError (EnqueueResult P)}
    (h : c.Right digest t (.finished result)) (hk : k ≠ []) (hkey : c.idempotencyKey = some k)
    (hrow : ∀ r ∈ t, r.idempotencyKey = some k → r.request = (cw.row digest).request)
    (hother : ¬ (EnqueuePhase.finished result).Wrote) :
    (digest c.payload = digest cw.payload ∧ ∃ job, result = .ok ⟨job, false⟩ ∧ job.request = (cw.row digest).request) ∨
      digest c.payload ≠ digest cw.payload ∧ result = .error .idempotencyConflict := by
  have hcall := c.key_some hk hkey
  cases result with
  | ok answer =>
    obtain ⟨job, created⟩ := answer
    cases created with
    | true => exact absurd trivial hother
    | false =>
      obtain ⟨-, hjob, hdigest, r, hr, hrequest⟩ := h
      have hsame := hrow r hr ((JobRecord.request_eq hrequest).2.2.1.trans (hjob.trans hcall))
      refine .inl ⟨?_, job, rfl, hrequest.symm.trans hsame⟩
      exact hdigest.symm.trans (JobRecord.request_eq (hrequest.symm.trans hsame)).2.2.2.1
  | error e =>
    cases e with
    | idempotencyConflict =>
      obtain ⟨-, r, hr, hstored, hdigest⟩ := h
      have hsame := hrow r hr (hstored.trans hcall)
      refine .inr ⟨fun heq => hdigest ?_, rfl⟩
      exact (JobRecord.request_eq hsame).2.2.2.1.trans heq.symm
    | integrity =>
      rw [show c.key = none from h] at hcall
      cases hcall
    | notTerminal status => exact h.elim
    | overflow => exact h.elim
    | assertion => exact h.elim

/-- Calls of the queue in any order, on a table without the key: at most one row has the key, one call with the key creates
it, and each other call that is over has returned that job, or raised when its payload has another digest. -/
theorem enqueue_idempotent (digest : P → Str) (hsound : SqlTable.Sound JobRecord.clashes t₀) (hids : DistinctIds calls t₀)
    {k : Str} (hk : k ≠ []) (hunused : ∀ r ∈ t₀, r.idempotencyKey ≠ some k) (schedule : List ι) :
    let q := Pool.run (JobTask.act digest) ⟨t₀, fun i => (calls i).start⟩ schedule
    (∀ r ∈ q.shared, ∀ r' ∈ q.shared, r.idempotencyKey = some k → r'.idempotencyKey = some k → r = r') ∧
      ∀ i₀ c₀ result₀, q.task i₀ = .enqueue c₀ (.finished result₀) → c₀.idempotencyKey = some k →
        ∃ w cw, calls w = .enqueue cw ∧ cw.idempotencyKey = some k ∧
          (∃ r ∈ q.shared, r.request = (cw.row digest).request) ∧
          ∀ i c result, q.task i = .enqueue c (.finished result) → c.idempotencyKey = some k →
            (i = w → ∃ job, result = .ok ⟨job, true⟩ ∧ job.request = (cw.row digest).request) ∧
            (i ≠ w → digest c.payload = digest cw.payload →
              ∃ job, result = .ok ⟨job, false⟩ ∧ job.request = (cw.row digest).request) ∧
            (i ≠ w → digest c.payload ≠ digest cw.payload → result = .error .idempotencyConflict) := by
  intro q
  have h : Booked digest calls t₀ q := Pool.run_keeps (fun p i hp => hp.turn hids i) schedule (booked_start hsound)
  have hcalls : ∀ {i c phase}, q.task i = .enqueue c phase → calls i = .enqueue c := by
    intro i c phase hi
    rw [← h.calls i, hi]
    rfl
  refine ⟨fun r hr r' hr' hkey hkey' => h.row_unique hr hr' hkey hkey', fun i₀ c₀ result₀ hi₀ hkey₀ => ?_⟩
  -- The finished call has seen the row of the key, and so one call has inserted it.
  obtain ⟨r₀, hr₀, hstored₀⟩ := (h.right i₀ c₀ _ hi₀).seen hk hkey₀
  obtain ⟨w, cw, phase, hw, hwrote, hrequest₀⟩ := h.writer hunused hr₀ hstored₀
  have hkeyw : cw.idempotencyKey = some k := (JobRecord.request_eq hrequest₀).2.2.1.symm.trans hstored₀
  obtain ⟨rw, hrw, hrequestw⟩ := (h.right w cw phase hw).row hwrote
  have hkeyrw : rw.idempotencyKey = some k := (JobRecord.request_eq hrequestw).2.2.1.trans hkeyw
  have hrow : ∀ r ∈ q.shared, r.idempotencyKey = some k → r.request = (cw.row digest).request := by
    intro r hr hkey
    rw [h.row_unique hr hrw hkey hkeyrw]
    exact hrequestw
  refine ⟨w, cw, hcalls hw, hkeyw, ⟨rw, hrw, hrequestw⟩, fun i c result hi hkey => ?_⟩
  have hanswer : i ≠ w → ¬ (EnqueuePhase.finished result).Wrote := by
    intro hne hwrote'
    obtain ⟨r, hr, hrequest⟩ := (h.right i c _ hi).row hwrote'
    have hsame := hrow r hr ((JobRecord.request_eq hrequest).2.2.1.trans hkey)
    exact (hids.distinct i w c cw (hcalls hi) (hcalls hw) hne).1 (JobRecord.request_eq (hrequest.symm.trans hsame)).1
  refine ⟨fun hiw => ?_, fun hne hsame => ?_, fun hne hother => ?_⟩
  · rw [hiw, hw] at hi
    cases hi
    have hright := h.right w _ _ hw
    cases result with
    | error e => exact hwrote.elim
    | ok answer =>
      obtain ⟨job, created⟩ := answer
      cases created with
      | false => exact hwrote.elim
      | true => exact ⟨job, rfl, hright.1⟩
  · rcases (h.right i c _ hi).answer hk hkey hrow (hanswer hne) with ⟨-, hjob⟩ | ⟨hdiffers, -⟩
    · exact hjob
    · exact absurd hsame hdiffers
  · rcases (h.right i c _ hi).answer hk hkey hrow (hanswer hne) with ⟨hsame, -⟩ | ⟨-, hconflict⟩
    · exact absurd hsame hother
    · exact hconflict

end Runs

section Samples

/-- Submissions with one key; the third one has another body, and the last one never comes. -/
def sampleSubmission (i : Fin 4) : EnqueueCall Bool where
  payload := i = 2
  workflow := "ci".toList
  idempotencyKey := some "key-1".toList
  now := 0
  jobId := (if i = 0 then "job-a" else if i = 1 then "job-b" else if i = 2 then "job-c" else "job-d").toList
  runId := (if i = 0 then "run-a" else if i = 1 then "run-b" else if i = 2 then "run-c" else "run-d").toList

/-- All of them look for the key before the second one inserts its row. -/
def sampleSubmissions : Pool (Fin 4) (JobTable Bool) (JobTask Bool) :=
  Pool.run (JobTask.act fun payload => if payload then ['1'] else ['0'])
    ⟨[], fun i => (JobCall.enqueue (sampleSubmission i)).start⟩ [0, 1, 2, 1, 0, 2, 1, 0, 2]

theorem sampleSubmissions_ids : DistinctIds (fun i => JobCall.enqueue (sampleSubmission i)) [] where
  unused _ _ _ _ hr := nomatch hr
  distinct i j c c' hi hj hne := by
    cases hi
    cases hj
    revert i j
    decide

theorem sampleSubmissions_answered :
    (sampleSubmissions.task 2) = .enqueue (sampleSubmission 2) (.finished (.error .idempotencyConflict)) ∧
      ∃ (w : Fin 4) (cw : EnqueueCall Bool), cw.idempotencyKey = some "key-1".toList ∧
        ∀ i result, sampleSubmissions.task i = .enqueue (sampleSubmission i) (.finished result) → i ≠ w →
          (sampleSubmission i).payload = cw.payload → ∃ job : JobRecord Bool, result = .ok ⟨job, false⟩ ∧ job.jobId = cw.jobId := by
  have hconflict : sampleSubmissions.task 2 =
      .enqueue (sampleSubmission 2) (.finished (.error .idempotencyConflict)) := rfl
  obtain ⟨-, hkeyed⟩ := @enqueue_idempotent (Fin 4) Bool _ (fun i => JobCall.enqueue (sampleSubmission i)) []
    (fun payload => if payload then ['1'] else ['0']) List.Pairwise.nil sampleSubmissions_ids "key-1".toList (by decide)
    (fun _ hr => nomatch hr) [0, 1, 2, 1, 0, 2, 1, 0, 2]
  obtain ⟨w, cw, -, hkey, -, hanswers⟩ := hkeyed 2 _ _ hconflict rfl
  refine ⟨hconflict, w, cw, hkey, fun i result hi hne hpayload => ?_⟩
  obtain ⟨job, hjob, hrequest⟩ := (hanswers i _ result hi rfl).2.1 hne (by rw [hpayload])
  exact ⟨job, hjob, (JobRecord.request_eq hrequest).1⟩

end Samples

end FailureOrchestrator
