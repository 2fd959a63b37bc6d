import FailureOrchestrator.SyncedRun

namespace FailureOrchestrator

open Exec RunPersistence

/-- The last event of the calls was appended, and the save of the run state that counts it failed. -/
def LostSave (calls : List StoreStep) : Prop :=
  ∃ before event d, calls = before ++ [⟨.append event, true⟩, ⟨.saveRun d, false⟩]

section Handler

variable {env : Env}

/-- Where the handler of a failed run leaves the store when one of its calls fails. -/
def Unrecorded (env : Env) (j : Journal) : Prop := (j.store env).Consistent ∨ LostSave j.trace

end Handler

namespace Foundation

variable [UnicodeData] {f : Foundation} {env : Env} {event : FailureEvent}

omit [UnicodeData] in
theorem persistenceFailed_reported {e : RunError} {P : World → Prop} :
    Triple P (persistenceFailed e) (fun r _ => r.workflowStatus = "PERSISTENCE_ERROR".toList) (fun _ _ => True) := by
  apply Triple.bind (Q := fun _ w => w.state.workflowStatus = some "PERSISTENCE_ERROR".toList)
  · exact Triple.update fun _ _ => rfl
  intro _
  apply Triple.read_bind
  intro w hw
  apply Triple.ret
  rintro w' rfl
  dsimp only
  rw [hw]
  rfl

end Foundation

end FailureOrchestrator
