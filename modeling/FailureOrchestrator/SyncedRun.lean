import FailureOrchestrator.SyncedStages

namespace FailureOrchestrator

open Exec RunPersistence

variable {f : Foundation} {env : Env}

section Escalation

def Packaged (s : RunStore) : Prop := s.Evaluated ∧ s.isFile escalationSummary = true

theorem Packaged.apply {s : RunStore} (op : StoreOp) (h : Packaged s) : Packaged (s.apply op) :=
  ⟨h.1.apply op, RunStore.isFile_apply h.2 op⟩

theorem Packaged.fits {s : RunStore} (h : Packaged s) (status : Str) : Fits s status := ⟨fun _ => h.1, fun _ => h.2⟩

end Escalation

section Loop

variable [UnicodeData] {event : FailureEvent}

end Loop

section Start

variable {event : FailureEvent}

end Start

end FailureOrchestrator
