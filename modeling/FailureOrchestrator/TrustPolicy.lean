import FailureOrchestrator.AuditRecord

namespace FailureOrchestrator

namespace TrustGateway

/-- What the components of the gateway raise. -/
inductive TrustError where
  | valueError (message : Str)
  | keyError (key : Str)
  | typeError (message : Str)
  | runtimeError (message : Str)
  | other (typeName message : Str)
  deriving DecidableEq

inductive DataClassification where
  | unknown
  | publicData
  | internal
  | confidential
  | restricted
  deriving DecidableEq

namespace DataClassification

def value : DataClassification → String
  | unknown => "UNKNOWN"
  | publicData => "PUBLIC"
  | internal => "INTERNAL"
  | confidential => "CONFIDENTIAL"
  | restricted => "RESTRICTED"

def parse [UnicodeCase] : Option Str → Except TrustError DataClassification
  | none => .ok unknown
  | some value =>
    if strip value = [] then .ok unknown
    else
      match [unknown, publicData, internal, confidential, restricted].find? fun c =>
          c.value.toList = UnicodeCase.upper (strip value) with
      | some c => .ok c
      | none => .error (.valueError ("unsupported data classification: ".toList ++ value))

end DataClassification

structure ProviderMetadata where
  provider : Str
  company : Option Str := none
  serviceType : Option Str := none
  jurisdictions : List Str := []
  dataResidencyConfigurable : Option Bool := none
  externalProvider : Option Bool := none
  dataLeavesHost : Option Bool := none
  knownEndpoints : List Str := []
  known : Bool := true

structure TrustContext (F : Type) where
  provider : Str
  providerType : Option Str
  providerKnown : Bool
  jurisdictions : List Str
  dataResidency : Option Str
  dataClassification : DataClassification
  destinationHost : Option Str
  destinationCountry : Option Str
  externalProvider : Option Bool
  dataLeavesHost : Option Bool
  networkCapabilities : JsonDict F
  dependencyProvenance : JsonDict F
  requestedTool : Str
  requestedOperation : Str
  destructive : Bool
  humanApproved : Bool := false

structure ContextRequest where
  provider : Str
  tool : Str
  operation : Str
  dataClassification : Option Str := none
  dataResidency : Option Str := none
  destinationHost : Option Str := none
  destinationCountry : Option Str := none
  destructive : Bool := false
  packageName : Option Str := none
  humanApproved : Bool := false

section Context

variable {F : Type}

def TrustContext.probe (c : TrustContext F) (name : String) : Option (JsonValue F) :=
  c.networkCapabilities.entries.lookup name.toList

def TrustContext.networkReady (c : TrustContext F) : Bool :=
  match c.externalProvider with
  | some false => true
  | none => false
  | some true => ["dns", "tcp", "tls", "http"].all fun name =>
      match c.probe name with
      | some (.str s) => s = "pass".toList
      | _ => false

/-- The registry, and the network discovery and the provenance evaluation at each of their calls. -/
structure TrustContextBuilder (F : Type) where
  registry : Str → Option ProviderMetadata
  discover : Nat → Str → Except TrustError (JsonDict F)
  evaluateProvenance : Nat → Str → Except TrustError (JsonDict F)

def destructiveOperations : List String := ["delete", "destroy", "drop", "force_push", "terminate"]

def ProviderMetadata.unknown (name : Str) : ProviderMetadata where
  provider := name
  known := false

def unknownNetwork : JsonDict F where
  entries := [("status".toList, .str "unknown".toList)]
  ordered := by rfl

def TrustContextBuilder.build [UnicodeCase] (b : TrustContextBuilder F) (n : Nat) (request : ContextRequest) :
    Except TrustError (TrustContext F) := do
  if strip request.provider = [] ∨ strip request.tool = [] ∨ strip request.operation = [] then
    throw (.valueError "provider, tool, and operation are required".toList)
  let provider := (b.registry request.provider).getD (ProviderMetadata.unknown request.provider)
  let destination :=
    match request.destinationHost, provider.knownEndpoints with
    | none, [endpoint] => some endpoint
    | host, _ => host
  let network ←
    match destination with
    | none | some [] => pure unknownNetwork
    | some host => b.discover n host
  let package :=
    match request.packageName with
    | none | some [] => request.tool
    | some name => name
  let provenance ← b.evaluateProvenance n package
  let classification ← DataClassification.parse request.dataClassification
  let operation := UnicodeData.lower request.operation
  return {
    provider := request.provider
    providerType := provider.serviceType
    providerKnown := provider.known
    jurisdictions := provider.jurisdictions
    dataResidency := request.dataResidency
    dataClassification := classification
    destinationHost := destination
    destinationCountry := request.destinationCountry
    externalProvider := provider.externalProvider
    dataLeavesHost := provider.dataLeavesHost
    networkCapabilities := network
    dependencyProvenance := provenance
    requestedTool := request.tool
    requestedOperation := operation
    destructive := request.destructive || inSet operation destructiveOperations
    humanApproved := request.humanApproved }

end Context

inductive TrustDecision where
  | allow
  | deny
  | requireApproval
  deriving DecidableEq

def TrustDecision.value : TrustDecision → String
  | .allow => "ALLOW"
  | .deny => "DENY"
  | .requireApproval => "REQUIRE_APPROVAL"

/-- `TrustDecision(configured)`. -/
def TrustDecision.parse (configured : Str) : Except TrustError TrustDecision :=
  match [TrustDecision.allow, .deny, .requireApproval].find? fun d => d.value.toList = configured with
  | some d => .ok d
  | none => .error (.valueError ('\'' :: (configured ++ "' is not a valid TrustDecision".toList)))

/-- A fact that rules are matched against. -/
inductive Fact where
  | null
  | bool (b : Bool)
  | str (s : Str)
  | strs (xs : List Str)
  deriving DecidableEq

namespace Fact

def ofBool (b : Option Bool) : Fact := b.elim null bool

def ofStr (s : Option Str) : Fact := s.elim null str

/-- `fact == expected`, where the truth values are the numbers one and zero; a configuration holds no tuples. -/
def equals : Fact → JsonValue ℚ → Bool
  | null, .null => true
  | bool b, .bool c => b = c
  | bool b, .int n => n = if b then 1 else 0
  | bool b, .float x => x = if b then 1 else 0
  | str s, .str t => s = t
  | _, _ => false

/-- `fact in expected`. -/
def isIn (fact : Fact) : JsonValue ℚ → Except TrustError Bool
  | .arr items => .ok (items.any fact.equals)
  | .obj entries => .ok (entries.any fun e => fact.equals (.str e.1))
  | .str text =>
    match fact with
    | str s => .ok (hasSub text s)
    | _ => .error (.typeError "'in <string>' requires string as left operand".toList)
  | _ => .error (.typeError "argument is not iterable".toList)

end Fact

structure PolicyRule where
  id : Option Str := none
  conditions : List (Str × JsonValue ℚ) := []
  decision : Option Str := none
  decisionFromSetting : Option Str := none
  reason : Option Str := none
  severity : Option Str := none

structure PolicyResult where
  decision : TrustDecision
  ruleId : Str
  reason : Str
  severity : Str
  evidence : List (Str × Fact)

structure TrustPolicyEngine where
  rules : List PolicyRule
  settings : List (Str × Str) := []

namespace TrustPolicyEngine

variable {F : Type}

def facts (context : TrustContext F) : List (Str × Fact) :=
  [("provider_known".toList, .bool context.providerKnown),
    ("classification".toList, .str context.dataClassification.value.toList),
    ("external_provider".toList, .ofBool context.externalProvider),
    ("data_leaves_host".toList, .ofBool context.dataLeavesHost),
    ("operation".toList, .str context.requestedOperation),
    ("destructive".toList, .bool context.destructive),
    ("network_ready".toList, .bool context.networkReady),
    ("jurisdictions".toList, .strs context.jurisdictions),
    ("data_residency".toList, .ofStr context.dataResidency),
    ("destination_country".toList, .ofStr context.destinationCountry),
    ("residency_aligned".toList,
      match context.destinationCountry, context.dataResidency with
      | some country, some residency => .bool (decide (country = residency))
      | _, _ => .null)]

/-- `facts.get(key)`. -/
def fact (facts : List (Str × Fact)) (key : Str) : Fact := (facts.lookup key).getD .null

def conditionsMatch (facts : List (Str × Fact)) : List (Str × JsonValue ℚ) → Except TrustError Bool
  | [] => .ok true
  | (key, expected) :: rest => do
    let holds ←
      if endsWith key "_in".toList then (fact facts (key.take (key.length - 3))).isIn expected
      else .ok ((fact facts key).equals expected)
    if holds then conditionsMatch facts rest else return false

/-- `rule[key]`. -/
def required (key : String) (value : Option Str) : Except TrustError Str :=
  match value with
  | some v => .ok v
  | none => .error (.keyError key.toList)

def configured (settings : List (Str × Str)) (rule : PolicyRule) : Option Str :=
  rule.decision.or (rule.decisionFromSetting.bind fun name => settings.lookup name)

/-- The result of the rule that matches. -/
def apply (settings : List (Str × Str)) (facts : List (Str × Fact)) (humanApproved : Bool) (rule : PolicyRule) :
    Except TrustError PolicyResult :=
  match configured settings rule with
  | none => .error (.valueError ("policy rule has no decision: ".toList ++ rule.id.getD "None".toList))
  | some configured => do
    let decision ← TrustDecision.parse configured
    let id ← required "id" rule.id
    if decision = .requireApproval ∧ humanApproved = true then
      return ⟨.allow, id ++ "_APPROVED".toList, "Human approval satisfies the protected policy decision.".toList,
        rule.severity.getD "medium".toList,
        facts ++ [("approval_for_rule".toList, .str id), ("human_approved".toList, .bool true)]⟩
    let reason ← required "reason" rule.reason
    return ⟨decision, id, reason, rule.severity.getD "medium".toList, facts⟩

def evaluateRules (settings : List (Str × Str)) (facts : List (Str × Fact)) (humanApproved : Bool) :
    List PolicyRule → Except TrustError PolicyResult
  | [] => .error (.runtimeError "policy configuration has no matching default rule".toList)
  | rule :: rest => do
    if ← conditionsMatch facts rule.conditions then apply settings facts humanApproved rule
    else evaluateRules settings facts humanApproved rest

def evaluate (engine : TrustPolicyEngine) (context : TrustContext F) : Except TrustError PolicyResult :=
  evaluateRules engine.settings (facts context) context.humanApproved engine.rules

/-- The decision of the engine were there no approval. -/
def needsApproval (engine : TrustPolicyEngine) (context : TrustContext F) : Bool :=
  match engine.evaluate { context with humanApproved := false } with
  | .ok result => result.decision = .requireApproval
  | .error _ => false

end TrustPolicyEngine

end TrustGateway

end FailureOrchestrator
