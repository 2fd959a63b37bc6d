import FailureOrchestrator.GatewayRules

namespace FailureOrchestrator

namespace TrustGateway

variable {F : Type} [PyFloat F] [UnicodeCase]

/-- A new run. -/
def begin (budget : RetryBudget) (requested : Nat) (correlationId : Str) : GatewayRun F where
  budget
  requested
  correlationId

/-- `run`, with as many passes of the loop as the budget can pay for and one more. -/
def Gateway.run (g : Gateway F) (correlationId : Str) (humanApproved : Bool) (budget : RetryBudget) (requested : Nat) :
    Except GatewayError (Ending F) × GatewayRun F :=
  (do
    event g .requestReceived
    loop g humanApproved (budget.rounds + 1)) (begin budget requested correlationId)

/-- Runs one after the other, on one budget and one stream of proposals. -/
def Gateway.runs (g : Gateway F) : List (Str × Bool) → RetryBudget → Nat →
    List (Bool × Except GatewayError (Ending F) × GatewayRun F)
  | [], _, _ => []
  | (correlationId, humanApproved) :: rest, budget, requested =>
    let r := g.run correlationId humanApproved budget requested
    (humanApproved, r) :: g.runs rest r.2.budget r.2.requested

variable {g : Gateway F} {b : RetryBudget}

omit [UnicodeCase] in
theorem kept_begin (requested : Nat) (correlationId : Str) :
    Kept g b (begin b requested correlationId : GatewayRun F) where
  first := rfl
  path := List.isChain_singleton _
  last := rfl
  limits := ⟨rfl, rfl⟩
  within := .inl ⟨rfl, rfl⟩
  attempts := Nat.le_refl _
  cost := by
    show b.totalCost + 0 ≤ b.totalCost
    linarith
  authorized before n p after h := absurd (congrArg List.length h) (by simp [begin])
  distinct := List.nodup_nil
  known _ hq := nomatch hq

section Samples

def sampleProposal (provider path : String) : RepairProposal Unit where
  proposalId := path.toList
  problem := []
  tool := "file.repair".toList
  operation := "write".toList
  arguments := ⟨[("path".toList, .str path.toList)], rfl⟩
  expectedEffect := []
  riskLevel := "low".toList
  rollback := []
  verification := []
  provider := provider.toList
  dataClassification := none
  reasonForRetry := some "the last attempt failed".toList
  changedAssumption := some "another file".toList

/-- A gateway whose executor fails. -/
def sampleGateway (proposals : Nat → RepairProposal Unit)
    (policy : TrustContext Unit → Except TrustError PolicyResult) : Gateway Unit where
  sha256 := id
  proposals
  contextBuilder := ⟨fun _ => none, fun _ _ => .ok unknownNetwork, fun _ _ => .ok ⟨[], JsonDict.nil_ordered⟩⟩
  policy _ := policy
  clock _ _ := 0
  sandbox _ := .ok ()
  removal _ := .ok ()
  audit _ _ := none
  executor _ _ := .error (.caught ⟨"ValueError".toList, []⟩)
  evaluator _ _ execution := ⟨execution.commandSuccess, 0, [], none⟩
  verifier _ _ := ⟨true, 1, [], none⟩

def sampleAllow : TrustContext Unit → Except TrustError PolicyResult := fun _ =>
  .ok ⟨.allow, "ALLOW_ALL".toList, [], "low".toList, []⟩

end Samples

end TrustGateway

end FailureOrchestrator
