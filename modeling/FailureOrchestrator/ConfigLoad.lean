import FailureOrchestrator.SanitizedEvidence
import FailureOrchestrator.Verification
import FailureOrchestrator.YamlValues

namespace FailureOrchestrator

def qualityGates : List String := ["lint", "typecheck", "security", "build"]

def waivableGates : List String := "coverage" :: qualityGates ++ ["behavioral_invariants"]

def configKeys : List String :=
  "regression" :: qualityGates ++ ["invariants", "waive", "affected_tests", "coverage_tolerance", "test_command"]

/-- A loaded `VerificationConfig`, with the float that its tolerance was given as. -/
structure LoadedConfig (F : Type) where
  regression : List Str
  lint : List Str
  typecheck : List Str
  security : List Str
  build : List Str
  invariants : List Invariant
  waivers : List (Str × Str)
  affectedTests : List (Str × List Str)
  coverageTolerance : F
  testCommand : Option Str

namespace LoadedConfig

variable {F : Type}

def strList (xs : List Str) : YamlValue F := .list (xs.map fun x => .scalar (.str x))

def invariantDict (i : Invariant) : YamlValue F :=
  .dict [(.str "name".toList, .scalar (.str i.name)), (.str "command".toList, .scalar (.str i.command))]

/-- The config in the shape that `loadVerificationConfig` takes. -/
def toDict (config : LoadedConfig F) : YamlDict F :=
  [(.str "regression".toList, strList config.regression),
    (.str "lint".toList, strList config.lint),
    (.str "typecheck".toList, strList config.typecheck),
    (.str "security".toList, strList config.security),
    (.str "build".toList, strList config.build),
    (.str "invariants".toList, .list (config.invariants.map invariantDict)),
    (.str "waive".toList, .dict (config.waivers.map fun w => (.str w.1, .scalar (.str w.2)))),
    (.str "affected_tests".toList, .dict (config.affectedTests.map fun a => (.str a.1, strList a.2))),
    (.str "coverage_tolerance".toList, .scalar (.float config.coverageTolerance)),
    (.str "test_command".toList, .scalar (config.testCommand.elim .null .str))]

end LoadedConfig

section

variable {F : Type}

/-- A string that is not blank, stripped. -/
def command (v : YamlValue F) : Option Str :=
  match v.asStr with
  | some s => if strip s = [] then none else some (strip s)
  | none => none

def commandItems (items : List (YamlValue F)) (key : Str) : Except LoadError (List Str) :=
  match items.mapM command with
  | some commands => .ok commands
  | none =>
    .error (.verificationConfigError ("verification config '".toList ++ key ++
      "' must be a command or a list of commands".toList))

def commands (value : Option (YamlValue F)) (key : Str) : Except LoadError (List Str) :=
  match value with
  | none => .ok []
  | some (.scalar .null) => .ok []
  | some (.list items) => commandItems items key
  | some v => commandItems [v] key

end

section

variable [UnicodeData] {F : Type} [YamlFloat F]

omit [UnicodeData] [YamlFloat F] in
def unknownKeys (data : YamlDict F) : List (YamlScalar F) :=
  (data.map Prod.fst).filter fun key => !key.asStr.elim false fun s => inSet s configKeys

def checkKeys (data : YamlDict F) : Except LoadError Unit := do
  let unknown ← pySorted YamlScalar.lt (unknownKeys data)
  if unknown.isEmpty then pure ()
  else match unknown.mapM YamlScalar.repr with
    | some texts =>
      .error (.verificationConfigError ("unknown verification config keys: [".toList ++ joinWith ", ".toList texts ++ [']']))
    | none => .error tooLong

/-- `str(item.get(key) or "").strip()` of a mapping. -/
def fieldText (item : YamlValue F) (key : String) : Except LoadError Str :=
  match item with
  | .dict entries =>
    match (YamlValue.getOr key (.scalar (.str [])) entries).text with
    | some text => .ok (strip text)
    | none => .error tooLong
  | _ => .ok []

def loadInvariants (idx : Nat) : List (YamlValue F) → List Invariant → Except LoadError (List Invariant)
  | [], invariants => .ok invariants
  | item :: items, invariants => do
    let name ← fieldText item "name"
    let command ← fieldText item "command"
    if name = [] ∨ command = [] then
      .error (.verificationConfigError ("invariant #".toList ++ natStr idx ++ " needs a name and a command".toList))
    else if invariants.any (·.name = name) then
      .error (.verificationConfigError ("duplicate invariant name: ".toList ++ name))
    else loadInvariants (idx + 1) items (invariants ++ [⟨name, command⟩])

omit [UnicodeData] [YamlFloat F] in
/-- A gate that can be waived. -/
def waivedGate (gate : YamlScalar F) : Option Str := gate.asStr.filter fun s => inSet s waivableGates

def loadWaivers : YamlDict F → List (Str × Str) → Except LoadError (List (Str × Str))
  | [], waivers => .ok waivers
  | (gate, reason) :: entries, waivers =>
    match waivedGate gate with
    | none =>
      match gate.text with
      | some text =>
        .error (.verificationConfigError ("cannot waive '".toList ++ text ++ "'; waivable gates: ".toList ++
          "['behavioral_invariants', 'build', 'coverage', 'lint', 'security', 'typecheck']".toList))
      | none => .error tooLong
    | some name =>
      match command reason with
      | none => .error (.verificationConfigError ("waiver for '".toList ++ name ++ "' needs a reason".toList))
      | some text => loadWaivers entries (setEntry name text waivers)

def loadAffected : YamlDict F → List (Str × List Str) → Except LoadError (List (Str × List Str))
  | [], affected => .ok affected
  | (src, tests) :: entries, affected =>
    match src.text with
    | none => .error tooLong
    | some path => do
      let paths ← commands (some tests) ("affected_tests.".toList ++ path)
      loadAffected entries (setEntry path paths affected)

def rawInvariants (data : YamlDict F) : Except LoadError (List (YamlValue F)) :=
  match YamlValue.getOr "invariants" (.list []) data with
  | .list items => .ok items
  | _ => .error (.verificationConfigError "verification config 'invariants' must be a list".toList)

def rawWaivers (data : YamlDict F) : Except LoadError (YamlDict F) :=
  match YamlValue.getOr "waive" (.dict []) data with
  | .dict entries => .ok entries
  | _ => .error (.verificationConfigError "verification config 'waive' must map a gate to a reason".toList)

def rawAffected (data : YamlDict F) : Except LoadError (YamlDict F) :=
  match YamlValue.getOr "affected_tests" (.dict []) data with
  | .dict entries => .ok entries
  | _ => .error (.verificationConfigError
      "verification config 'affected_tests' must map a source path to test paths".toList)

def toleranceError : LoadError := .verificationConfigError "coverage_tolerance must be a number >= 0".toList

def loadTolerance (value : Option (YamlValue F)) : Except LoadError F :=
  match value with
  | none => .ok YamlFloat.half
  | some (.scalar (.int n)) =>
    if n < 0 then .error toleranceError
    else match YamlFloat.ofInt n with
      | some x => .ok x
      | none => .error (.overflowError "int too large to convert to float".toList)
  | some (.scalar (.float x)) => if YamlFloat.negative x then .error toleranceError else .ok x
  | some _ => .error toleranceError

def loadTestCommand (value : Option (YamlValue F)) : Except LoadError (Option Str) :=
  match value with
  | none => .ok none
  | some (.scalar .null) => .ok none
  | some v =>
    match command v with
    | some text => .ok (some text)
    | none => .error (.verificationConfigError "test_command must be a command string".toList)

/-- Validates a mapping, `None` for none; `regression` are further regression commands. -/
def loadVerificationConfig (data : Option (YamlDict F)) (regression : List Str) :
    Except LoadError (LoadedConfig F) := do
  let data := data.getD []
  checkKeys data
  let invariants ← loadInvariants 1 (← rawInvariants data) []
  let waivers ← loadWaivers (← rawWaivers data) []
  let affected ← loadAffected (← rawAffected data) []
  let tolerance ← loadTolerance (YamlValue.get "coverage_tolerance" data)
  let testCommand ← loadTestCommand (YamlValue.get "test_command" data)
  let own ← commands (YamlValue.get "regression" data) "regression".toList
  let lint ← commands (YamlValue.get "lint" data) "lint".toList
  let typecheck ← commands (YamlValue.get "typecheck" data) "typecheck".toList
  let security ← commands (YamlValue.get "security" data) "security".toList
  let build ← commands (YamlValue.get "build" data) "build".toList
  pure ⟨own ++ (regression.map strip).filter (· ≠ []), lint, typecheck, security, build, invariants, waivers, affected,
    tolerance, testCommand⟩

end

end FailureOrchestrator
