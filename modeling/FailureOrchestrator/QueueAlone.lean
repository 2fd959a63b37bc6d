import FailureOrchestrator.JobRules
import Mathlib.Logic.Function.Iterate

namespace FailureOrchestrator

variable {P : Type}

/-- The loop of `recover_stale` over the expired jobs that are left. -/
def recoverRest (now : Int) : List (Str × Option Str) → JobTable P → JobTable P × List (JobRecord P)
  | [], t => (t, [])
  | (jobId, owner) :: stale, t =>
    let t' : JobTable P := SqlTable.update (·.stale jobId now) (·.recover owner now) t
    let rest := recoverRest now stale t'
    (rest.1, if t.countP (·.stale jobId now) = 1 then (t'.get jobId).toList ++ rest.2 else rest.2)

/-- `recover_stale` without another call between its statements: the table and the jobs that it has moved. -/
def recoverStale (now : Int) (t : JobTable P) : JobTable P × List (JobRecord P) := recoverRest now (t.expired now) t

/-- `claim` after `n` of its transactions. -/
def ClaimCall.after (c : ClaimCall) (t : JobTable P) (n : Nat) : JobTable P × ClaimPhase P :=
  (fun p => c.step p.1 p.2)^[n] (t, .start)

/-- What a call may do to a job: one that has ended stays as it is. -/
structure JobRecord.Keeps (r r' : JobRecord P) : Prop where
  id : r'.jobId = r.jobId
  run : r'.runId = r.runId
  ended : r.status.terminal = true → r' = r

/-- A table after calls that insert no job. -/
structure JobTable.Follows (t t' : JobTable P) : Prop where
  sound : SqlTable.Sound JobRecord.clashes t → SqlTable.Sound JobRecord.clashes t'
  grows : SqlTable.Grows JobRecord.Keeps (fun _ => False) t t'

namespace JobRecord

variable {r r' r'' : JobRecord P}

theorem Keeps.refl (r : JobRecord P) : r.Keeps r := ⟨rfl, rfl, fun _ => rfl⟩

theorem Keeps.trans (h : r.Keeps r') (h' : r'.Keeps r'') : r.Keeps r'' where
  id := h'.id.trans h.id
  run := h'.run.trans h.run
  ended hr := by
    have hsame := h.ended hr
    rw [hsame] at h'
    exact h'.ended hr

theorem clashes_of_run (h : r.runId = r'.runId) : r.clashes r' = true := by
  simp [clashes, h]

end JobRecord

namespace JobTable

variable {t t' t'' : JobTable P} {r r' : JobRecord P}

theorem Follows.refl (t : JobTable P) : t.Follows t := ⟨id, .refl JobRecord.Keeps.refl⟩

theorem Follows.trans (h : t.Follows t') (h' : t'.Follows t'') : t.Follows t'' where
  sound ht := h'.sound (h.sound ht)
  grows := h.grows.trans (fun _ _ _ => JobRecord.Keeps.trans) (fun _ _ hfalse _ => hfalse) h'.grows

/-- An update of live jobs that leaves their unique columns. -/
theorem Follows.update {c : JobRecord P → Bool} {f : JobRecord P → JobRecord P}
    (hlive : ∀ r, c r = true → r.status.terminal = false)
    (hf : ∀ r, (f r).jobId = r.jobId ∧ (f r).runId = r.runId ∧ (f r).idempotencyKey = r.idempotencyKey)
    (t : JobTable P) : t.Follows (SqlTable.update c f t) where
  sound ht := by
    refine ht.update fun r r' => ?_
    unfold JobRecord.clashes
    split <;> split <;> simp only [hf]
  grows := by
    refine .update JobRecord.Keeps.refl fun r hr => ⟨(hf r).1, (hf r).2.1, fun hterminal => ?_⟩
    rw [hlive r hr] at hterminal
    cases hterminal

/-- A job that has ended stays in the table. -/
theorem Follows.ended (h : t.Follows t') (hr : r ∈ t) (hterminal : r.status.terminal = true) : r ∈ t' := by
  obtain ⟨r', hr', hkeeps⟩ := h.grows.old r hr
  rw [hkeeps.ended hterminal] at hr'
  exact hr'

/-- A live job was live before. -/
theorem Follows.live (h : t.Follows t') (hr' : r' ∈ t') (hlive : r'.status.terminal = false) :
    ∃ r ∈ t, r.Keeps r' ∧ r.status.terminal = false := by
  rcases h.grows.new r' hr' with ⟨r, hr, hkeeps⟩ | hfalse
  · refine ⟨r, hr, hkeeps, ?_⟩
    by_contra hterminal
    rw [Bool.not_eq_false] at hterminal
    rw [hkeeps.ended hterminal, hterminal] at hlive
    cases hlive
  · exact hfalse.elim

theorem eq_of_id (h : SqlTable.Sound JobRecord.clashes t) (hr : r ∈ t) (hr' : r' ∈ t) (hid : r.jobId = r'.jobId) :
    r = r' :=
  h.eq JobRecord.clashes_symm hr hr' (JobRecord.clashes_of_id hid)

theorem eq_of_run (h : SqlTable.Sound JobRecord.clashes t) (hr : r ∈ t) (hr' : r' ∈ t) (hrun : r.runId = r'.runId) :
    r = r' :=
  h.eq JobRecord.clashes_symm hr hr' (JobRecord.clashes_of_run hrun)

theorem get_of_mem (h : SqlTable.Sound JobRecord.clashes t) (hr : r ∈ t) : t.get r.jobId = some r := by
  cases hget : t.get r.jobId with
  | none => exact absurd rfl (of_decide_eq_false (Bool.eq_false_iff.mpr (List.find?_eq_none.mp hget r hr)))
  | some r' =>
    have hid : r'.jobId = r.jobId := of_decide_eq_true (List.find?_some hget :)
    rw [eq_of_id h (List.mem_of_find?_eq_some hget) hr hid]

theorem mem_of_get {jobId : Str} (h : t.get jobId = some r) : r ∈ t ∧ r.jobId = jobId :=
  ⟨List.mem_of_find?_eq_some h, of_decide_eq_true (List.find?_some h :)⟩

end JobTable

section Recover

variable {now : Int} {t : JobTable P}

theorem stale_iff {jobId : Str} {r : JobRecord P} :
    r.stale jobId now = true ↔ r.jobId = jobId ∧ r.expired now = true := by
  unfold JobRecord.stale
  rw [Bool.and_eq_true, decide_eq_true_eq]

theorem expired_live {r : JobRecord P} (h : r.expired now = true) : r.status.terminal = false := by
  unfold JobRecord.expired at h
  rw [Bool.and_eq_true, decide_eq_true_eq] at h
  rw [h.1]
  rfl

theorem owned_live {jobId workerId : Str} {r : JobRecord P} (h : r.owned jobId workerId = true) :
    r.status.terminal = false := by
  unfold JobRecord.owned at h
  rw [Bool.and_eq_true, Bool.and_eq_true, decide_eq_true_eq, decide_eq_true_eq] at h
  rw [h.1.2]
  rfl

theorem recoverRest_follows (stale : List (Str × Option Str)) (t : JobTable P) :
    t.Follows (recoverRest now stale t).1 := by
  induction stale generalizing t with
  | nil => exact .refl t
  | cons entry stale ih =>
    obtain ⟨jobId, owner⟩ := entry
    have hupdate : t.Follows (SqlTable.update (·.stale jobId now) (·.recover owner now) t) :=
      .update (fun r hr => expired_live (stale_iff.mp hr).2) (fun r => by exact ⟨rfl, rfl, rfl⟩) t
    exact hupdate.trans (ih _)

/-- The statements of `recover_stale`, one after another. -/
theorem recoverRest_steps (stale : List (Str × Option Str)) (t : JobTable P) (recovered : List (JobRecord P)) :
    ∃ n, (fun p => recoverStep now p.1 p.2)^[n] (t, .recovering stale recovered) =
      ((recoverRest now stale t).1, .finished (recovered ++ (recoverRest now stale t).2)) := by
  induction stale generalizing t recovered with
  | nil =>
    refine ⟨1, ?_⟩
    show (t, RecoverPhase.finished recovered) = (t, .finished (recovered ++ []))
    rw [List.append_nil]
  | cons entry stale ih =>
    obtain ⟨jobId, owner⟩ := entry
    let t' : JobTable P := SqlTable.update (·.stale jobId now) (·.recover owner now) t
    let rest := recoverRest now stale t'
    by_cases hmoved : t.countP (·.stale jobId now) = 1
    · obtain ⟨n, hn⟩ := ih t' (recovered ++ (t'.get jobId).toList)
      have hstep : recoverStep now t (.recovering ((jobId, owner) :: stale) recovered) =
          (t', .moved jobId stale recovered) := congrArg (Prod.mk t') (if_pos hmoved)
      refine ⟨n + 1 + 1, ?_⟩
      rw [Function.iterate_succ_apply, hstep, Function.iterate_succ_apply]
      refine hn.trans ?_
      show _ = (rest.1, RecoverPhase.finished (recovered ++ if _ then (t'.get jobId).toList ++ rest.2 else rest.2))
      rw [if_pos hmoved, List.append_assoc]
    · obtain ⟨n, hn⟩ := ih t' recovered
      have hstep : recoverStep now t (.recovering ((jobId, owner) :: stale) recovered) =
          (t', .recovering stale recovered) := congrArg (Prod.mk t') (if_neg hmoved)
      refine ⟨n + 1, ?_⟩
      rw [Function.iterate_succ_apply, hstep]
      refine hn.trans ?_
      show _ = (rest.1, RecoverPhase.finished (recovered ++ if _ then (t'.get jobId).toList ++ rest.2 else rest.2))
      rw [if_neg hmoved]

theorem recoverStale_steps (now : Int) (t : JobTable P) : ∃ n, (fun p => recoverStep now p.1 p.2)^[n] (t, .start) =
    ((recoverStale now t).1, .finished (recoverStale now t).2) := by
  obtain ⟨n, hn⟩ := @recoverRest_steps _ now (t.expired now) t []
  refine ⟨n + 1, ?_⟩
  rw [Function.iterate_succ_apply]
  exact hn

/-- The loop moves each of the given expired jobs. -/
theorem recoverRest_expired (h : SqlTable.Sound JobRecord.clashes t) {l : List (JobRecord P)}
    (hl : ∀ r ∈ l, r ∈ t ∧ r.expired now = true) (hnodup : (l.map (·.jobId)).Nodup) :
    (recoverRest now (l.map fun r => (r.jobId, r.leaseOwner)) t).2 = l.map (fun r => r.recover r.leaseOwner now) ∧
      ∀ r ∈ l, r.recover r.leaseOwner now ∈ (recoverRest now (l.map fun r => (r.jobId, r.leaseOwner)) t).1 := by
  induction l generalizing t with
  | nil => exact ⟨rfl, fun _ hr => nomatch hr⟩
  | cons r l ih =>
    obtain ⟨hr, hexpired⟩ := hl r List.mem_cons_self
    obtain ⟨hfirst, hrest⟩ := List.nodup_cons.mp hnodup
    have hstale : r.stale r.jobId now = true := stale_iff.mpr ⟨rfl, hexpired⟩
    have hone : t.countP (·.stale r.jobId now) = 1 := by
      refine h.countP_one (fun a b ha hb => ?_) hr hstale
      exact JobRecord.clashes_of_id ((stale_iff.mp hb).1.trans (stale_iff.mp ha).1.symm)
    let t' : JobTable P := SqlTable.update (·.stale r.jobId now) (·.recover r.leaseOwner now) t
    have hsound : SqlTable.Sound JobRecord.clashes t' :=
      (@recoverRest_follows _ now [(r.jobId, r.leaseOwner)] t).sound h
    have hmem : r.recover r.leaseOwner now ∈ t' := by
      have hupdated := SqlTable.mem_update (c := (·.stale r.jobId now)) (f := (·.recover r.leaseOwner now)) hr
      rw [if_pos hstale] at hupdated
      exact hupdated
    have hget : t'.get r.jobId = some (r.recover r.leaseOwner now) := JobTable.get_of_mem hsound hmem
    have hothers : ∀ r' ∈ l, r' ∈ t' ∧ r'.expired now = true := by
      intro r' hr'
      obtain ⟨hmem', hexpired'⟩ := hl r' (List.mem_cons_of_mem r hr')
      have hupdated := SqlTable.mem_update (c := (·.stale r.jobId now)) (f := (·.recover r.leaseOwner now)) hmem'
      rw [if_neg] at hupdated
      · exact ⟨hupdated, hexpired'⟩
      · intro hsame
        exact hfirst (List.mem_map.mpr ⟨r', hr', (stale_iff.mp hsame).1⟩)
    obtain ⟨hmoved, hstored⟩ := ih hsound hothers hrest
    constructor
    · show (if _ then (t'.get r.jobId).toList ++ (recoverRest now _ t').2 else _) = _
      rw [if_pos hone, hget, hmoved]
      rfl
    · intro r' hr'
      rcases List.mem_cons.mp hr' with rfl | hr'
      · exact (recoverRest_follows _ t').ended hmem rfl
      · exact hstored r' hr'

theorem recoverStale_follows (now : Int) (t : JobTable P) : t.Follows (recoverStale now t).1 := recoverRest_follows _ t

/-- `recover_stale` moves the jobs that have expired. -/
theorem recoverStale_expired (h : SqlTable.Sound JobRecord.clashes t) :
    (recoverStale now t).2 = (t.filter (·.expired now)).map (fun r => r.recover r.leaseOwner now) ∧
      ∀ r ∈ t, r.expired now = true → r.recover r.leaseOwner now ∈ (recoverStale now t).1 := by
  have hids : ((t.filter (·.expired now)).map (·.jobId)).Nodup := by
    refine List.pairwise_map.mpr ((List.Pairwise.filter _ h).imp fun {a b} hfree hid => ?_)
    rw [JobRecord.clashes_of_id hid.symm] at hfree
    cases hfree
  obtain ⟨hmoved, hstored⟩ := recoverRest_expired h (fun r hr => List.mem_filter.mp hr) hids
  exact ⟨hmoved, fun r hr hexpired => hstored r (List.mem_filter.mpr ⟨hr, hexpired⟩)⟩

end Recover

section Claim

variable {c : ClaimCall} {t : JobTable P} {phase : ClaimPhase P}

/-- The job of a claim is a running one. -/
def ClaimPhase.Running (t : JobTable P) : ClaimPhase P → Prop
  | .claimed jobId => ∃ r ∈ t, r.jobId = jobId ∧ r.status = .running
  | .finished (.ok (some job)) => job ∈ t ∧ job.status = .running
  | _ => True

/-- A bound on the transactions that are left. -/
def ClaimPhase.left : ClaimPhase P → Nat
  | .start => 12
  | .claiming candidates => candidates.length + 1
  | .claimed _ => 1
  | .finished _ => 0

theorem waits_iff {jobId : Str} {r : JobRecord P} : r.waits jobId = true ↔ r.jobId = jobId ∧ r.status = .queued := by
  unfold JobRecord.waits
  rw [Bool.and_eq_true, decide_eq_true_eq, decide_eq_true_eq]

theorem ClaimCall.step_follows : t.Follows (c.step t phase).1 := by
  unfold ClaimCall.step
  split
  · exact .refl t
  · exact .refl t
  next jobId rest =>
    split
    · exact .refl t
    next expiresAt hexpires =>
      refine .update (fun r hr => ?_) (fun r => by exact ⟨rfl, rfl, rfl⟩) t
      rw [(waits_iff.mp hr).2]
      rfl
  · exact .refl t
  · exact .refl t

theorem ClaimCall.step_running (h : SqlTable.Sound JobRecord.clashes t) (hphase : phase.Running t) :
    (c.step t phase).2.Running (c.step t phase).1 := by
  unfold ClaimCall.step
  split
  · trivial
  · trivial
  next jobId rest =>
    split
    · trivial
    next expiresAt hexpires =>
      dsimp only
      split
      next hone =>
        obtain ⟨r, hr, hwaits⟩ := SqlTable.exists_of_countP hone
        have hupdated := SqlTable.mem_update (c := (·.waits jobId)) (f := (·.claim c.workerId c.now expiresAt)) hr
        rw [if_pos hwaits] at hupdated
        exact ⟨_, hupdated, (waits_iff.mp hwaits).1, rfl⟩
      · trivial
  next jobId =>
    obtain ⟨r, hr, hid, hrunning⟩ := hphase
    have hget := JobTable.get_of_mem h hr
    rw [hid] at hget
    dsimp only
    rw [hget]
    exact ⟨hr, hrunning⟩
  · exact hphase

theorem ClaimCall.step_left : (c.step t phase).2.left ≤ phase.left - 1 := by
  cases phase with
  | start =>
    have hten : t.candidates.length ≤ 10 := by
      unfold JobTable.candidates
      rw [List.length_map, List.length_take]
      exact Nat.min_le_left _ _
    show t.candidates.length + 1 ≤ 11
    omega
  | claiming candidates =>
    cases candidates with
    | nil => exact Nat.le_refl 0
    | cons jobId rest =>
      unfold ClaimCall.step
      dsimp only
      split
      · exact Nat.zero_le _
      · dsimp only
        split
        · show 1 ≤ rest.length + 1
          omega
        · exact Nat.le_refl _
  | claimed jobId => exact Nat.le_refl 0
  | finished result => exact Nat.le_refl 0

theorem ClaimCall.after_succ (n : Nat) :
    c.after t (n + 1) = c.step (c.after t n).1 (c.after t n).2 := Function.iterate_succ_apply' _ n _

theorem ClaimCall.after_follows (n : Nat) : t.Follows (c.after t n).1 := by
  induction n with
  | zero => exact .refl t
  | succ n ih =>
    rw [ClaimCall.after_succ]
    exact ih.trans ClaimCall.step_follows

theorem ClaimCall.after_running (h : SqlTable.Sound JobRecord.clashes t) (n : Nat) :
    (c.after t n).2.Running (c.after t n).1 := by
  induction n with
  | zero => trivial
  | succ n ih =>
    rw [ClaimCall.after_succ]
    exact ClaimCall.step_running ((ClaimCall.after_follows n).sound h) ih

/-- A claim that nothing interrupts is over after twelve transactions. -/
theorem ClaimCall.after_finished : ∃ result, (c.after t 12).2 = .finished result := by
  have hleft : ∀ n, (c.after t n).2.left ≤ 12 - n := by
    intro n
    induction n with
    | zero => exact Nat.le_refl 12
    | succ n ih =>
      rw [ClaimCall.after_succ]
      have hstep := @ClaimCall.step_left _ c (c.after t n).1 (c.after t n).2
      omega
  have hnone := hleft 12
  cases hphase : (c.after t 12).2 with
  | finished result => exact ⟨result, rfl⟩
  | start =>
    rw [hphase] at hnone
    cases hnone
  | claiming candidates =>
    rw [hphase] at hnone
    cases hnone
  | claimed jobId =>
    rw [hphase] at hnone
    cases hnone

end Claim

end FailureOrchestrator
