import FailureOrchestrator.JobQueue
import Mathlib.Logic.Relation

namespace FailureOrchestrator

/-- The life of a job. -/
inductive JobStatus.Moves : JobStatus → JobStatus → Prop where
  | claimed : Moves .queued .running
  | ended {s : JobStatus} : s.terminal = true → Moves .running s

variable {P : Type}

/-- What a call may do to a row. -/
inductive JobRecord.Moves (r : JobRecord P) : JobRecord P → Prop where
  | claimed (workerId : Str) (now expiresAt : Int) : r.status = .queued → Moves r (r.claim workerId now expiresAt)
  | renewed (now expiresAt : Int) : r.status = .running → Moves r (r.renew now expiresAt)
  | ended (status : JobStatus) (workflowStatus failureClass error : Option Str) (now : Int) : r.status = .running →
    status.terminal = true → Moves r (r.finish status workflowStatus failureClass error now)

/-- A row of a job that nobody has claimed. -/
def JobRecord.Fresh (r : JobRecord P) : Prop := r.status = .queued ∧ r.claimCount = 0

/-- A job is claimed once, by the time it is no longer queued. -/
def JobRecord.Counted (r : JobRecord P) : Prop := r.claimCount = if r.status = .queued then 0 else 1

/-- The claim has moved the job, or returned it. -/
def JobTask.Obtained (jobId : Str) : JobTask P → Prop
  | .claim _ (.claimed id) => id = jobId
  | .claim _ (.finished (.ok (some job))) => job.jobId = jobId
  | _ => False

/-- The call has ended the job: a completion that returned true, or a recovery that moved it. -/
def JobTask.Settled (jobId : Str) : JobTask P → Prop
  | .complete c (some (.ok true)) => c.jobId = jobId
  | .recoverStale _ (.recovering _ recovered) | .recoverStale _ (.finished recovered) =>
    ∃ job ∈ recovered, job.jobId = jobId
  | .recoverStale _ (.moved id _ recovered) => id = jobId ∨ ∃ job ∈ recovered, job.jobId = jobId
  | _ => False

/-- The worker that claims. -/
def JobTask.claimer : JobTask P → Option Str
  | .claim c _ => some c.workerId
  | _ => none

namespace JobRecord

variable {r r' r'' : JobRecord P}

theorem clashes_symm (r r' : JobRecord P) : r.clashes r' = r'.clashes r := by
  unfold clashes
  rw [Bool.eq_iff_iff]
  simp only [Bool.or_eq_true, Bool.and_eq_true, decide_eq_true_eq]
  constructor
  · rintro ((hid | hrun) | ⟨hsome, hkey⟩)
    · exact .inl (.inl hid.symm)
    · exact .inl (.inr hrun.symm)
    · exact .inr ⟨hkey ▸ hsome, hkey.symm⟩
  · rintro ((hid | hrun) | ⟨hsome, hkey⟩)
    · exact .inl (.inl hid.symm)
    · exact .inl (.inr hrun.symm)
    · exact .inr ⟨hkey ▸ hsome, hkey.symm⟩

theorem clashes_of_id (h : r.jobId = r'.jobId) : r.clashes r' = true := by
  simp [clashes, h]

theorem Moves.same (h : Moves r r') : r'.jobId = r.jobId := by
  cases h <;> rfl

theorem Moves.status (h : Moves r r') : r'.status = r.status ∨ JobStatus.Moves r.status r'.status := by
  cases h with
  | claimed workerId now expiresAt hqueued =>
    rw [hqueued]
    exact .inr .claimed
  | renewed now expiresAt hrunning => exact .inl rfl
  | ended status workflowStatus failureClass error now hrunning hterminal =>
    rw [hrunning]
    exact .inr (.ended hterminal)

theorem Moves.alive (h : Moves r r') : r.status.terminal = false := by
  cases h with
  | claimed workerId now expiresAt hqueued =>
    rw [hqueued]
    rfl
  | renewed now expiresAt hrunning =>
    rw [hrunning]
    rfl
  | ended status workflowStatus failureClass error now hrunning hterminal =>
    rw [hrunning]
    rfl

theorem Moves.claimed_before (h : Moves r r') (hr : r.status ≠ .queued) :
    r'.status ≠ .queued ∧ r'.leaseOwner = r.leaseOwner := by
  cases h with
  | claimed workerId now expiresAt hqueued => exact absurd hqueued hr
  | renewed now expiresAt hrunning => exact ⟨hr, rfl⟩
  | ended status workflowStatus failureClass error now hrunning hterminal =>
    refine ⟨?_, rfl⟩
    rintro rfl
    cases hterminal

theorem Moves.counted (h : Moves r r') (hr : r.Counted) : r'.Counted := by
  unfold Counted at hr ⊢
  cases h with
  | claimed workerId now expiresAt hqueued =>
    rw [if_pos hqueued] at hr
    show r.claimCount + 1 = _
    rw [hr]
    rfl
  | renewed now expiresAt hrunning => exact hr
  | ended status workflowStatus failureClass error now hrunning hterminal =>
    have hended : status ≠ .queued := by
      rintro rfl
      cases hterminal
    rw [hrunning] at hr
    show r.claimCount = if status = .queued then 0 else 1
    rw [if_neg hended, hr]
    rfl

theorem Fresh.counted (h : r.Fresh) : r.Counted := by
  unfold Counted
  rw [if_pos h.1, h.2]

end JobRecord

end FailureOrchestrator
