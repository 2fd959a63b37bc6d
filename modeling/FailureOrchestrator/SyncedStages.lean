import FailureOrchestrator.RunSync

namespace FailureOrchestrator

open Exec RunPersistence

variable {f : Foundation} {env : Env}

section Evaluation

def Failed (e : RunError) (_ : Journal) : Prop := e.isPersistence = true

end Evaluation

end FailureOrchestrator
