import FailureOrchestrator.CommandLine
import FailureOrchestrator.DiffRisk
import FailureOrchestrator.TestEvidence

namespace FailureOrchestrator

/-- What running a command in a worktree can end in. -/
inductive CommandOutcome where
  | completed (returncode : Int) (stdout stderr : Str)
  | timedOut (stdout stderr : Str)
  | notRunnable (message : Str)

structure VerificationStep where
  name : Str
  returncode : Int
  stdout : Str
  stderr : Str
  deriving DecidableEq, Repr

def VerificationStep.passed (s : VerificationStep) : Bool := s.returncode = 0

/-- `f"{s.stdout}\n{s.stderr}"`. -/
def VerificationStep.output (s : VerificationStep) : Str := s.stdout ++ ['\n'] ++ s.stderr

def maxOutputChars : Nat := 20000

/-- `s[-n:]` of a positive `n`. -/
def lastChars (n : Nat) (s : Str) : Str := s.drop (s.length - n)

abbrev NamedCommand := Str × List Str

def runStep (execute : Str → List Str → CommandOutcome) (command : NamedCommand) : VerificationStep :=
  match execute command.1 command.2 with
  | .completed returncode stdout stderr =>
    ⟨command.1, returncode, lastChars maxOutputChars stdout, lastChars maxOutputChars stderr⟩
  | .timedOut stdout stderr =>
    ⟨command.1, 124, lastChars maxOutputChars stdout,
      lastChars maxOutputChars (stderr ++ "\nverification_timeout".toList)⟩
  | .notRunnable message => ⟨command.1, 127, [], "command_not_runnable: ".toList ++ message⟩

/-- The repository and the machine that a verification runs on: the tracked files that git lists, the executables on
the path, whether the two worktrees come up, and what the commands do in them. -/
structure Checkout where
  lsTree : Str
  which : Str → Option Str
  baseCreated : Bool
  patchApplies : Bool
  executeBase : Str → List Str → CommandOutcome
  executePatched : Str → List Str → CommandOutcome

/-- `_run_worktree` at the base commit. -/
def Checkout.runBase (c : Checkout) (commands : List NamedCommand) : Option (List VerificationStep) :=
  if commands = [] then some []
  else if c.baseCreated then some (commands.map (runStep c.executeBase))
  else none

/-- `_run_worktree` with the patch; a blank patch is not applied. -/
def Checkout.runPatched (c : Checkout) (patch : Str) (commands : List NamedCommand) :
    Option (List VerificationStep) :=
  if commands = [] then some []
  else if strip patch ≠ [] ∧ c.patchApplies then some (commands.map (runStep c.executePatched))
  else none

/-- The result of a command, looked up by name. -/
def stepOf (steps : List VerificationStep) (name : Str) : Option VerificationStep :=
  steps.reverse.find? fun s => s.name = name

structure Invariant where
  name : Str
  command : Str

structure VerificationConfig where
  regression : List Str := []
  lint : List Str := []
  typecheck : List Str := []
  security : List Str := []
  build : List Str := []
  invariants : List Invariant := []
  waivers : List (Str × Str) := []
  affectedTests : List (Str × List Str) := []
  coverageTolerance : WithTop ℚ := ((1 / 2 : ℚ) : WithTop ℚ)
  testCommand : Option Str := none

/-- The gates whose commands are compared before and after the patch. -/
inductive Gate where
  | regression
  | lint
  | typecheck
  | security
  | build
  deriving DecidableEq, Repr

def Gate.name : Gate → String
  | .regression => "regression"
  | .lint => "lint"
  | .typecheck => "typecheck"
  | .security => "security"
  | .build => "build"

def Gate.all : List Gate := [.regression, .lint, .typecheck, .security, .build]

def VerificationConfig.commands (config : VerificationConfig) : Gate → List Str
  | .regression => config.regression
  | .lint => config.lint
  | .typecheck => config.typecheck
  | .security => config.security
  | .build => config.build

structure VerifyCommand where
  name : Str
  display : Str
  argv : List Str

def maxTargetTests : Nat := 20

/-- `f"{stem}-{idx}"`. -/
def commandName (stem : String) (idx : Nat) : Str := stem.toList ++ ['-'] ++ natStr idx

/-- The names of `count` numbered commands. -/
def commandNames (stem : String) (count : Nat) : List Str := (List.range count).map fun i => commandName stem (i + 1)

def numberedCommands (which : Str → Option Str) (stem : String) : Nat → List Str → Except PyError (List NamedCommand)
  | _, [] => .ok []
  | idx, command :: rest => do
    let argv ← splitCommand which command
    let more ← numberedCommands which stem (idx + 1) rest
    return (commandName stem idx, argv) :: more

/-- The commands that run both before and after the patch. -/
def sharedCommands (which : Str → Option Str) (config : VerificationConfig) : Except PyError (List NamedCommand) := do
  let gates ← Gate.all.mapM fun gate => numberedCommands which gate.name 1 (config.commands gate)
  let invariants ← numberedCommands which "invariant" 1 (config.invariants.map (·.command))
  return gates.flatten ++ invariants

/-- A command passed in this run. -/
def passedIn (steps : List VerificationStep) (name : Str) : Bool := (stepOf steps name).any (·.passed)

def commandGate (names : List Str) (before after : List VerificationStep) : GateStatus :=
  if names.isEmpty then .notRun
  else if names.any fun name => (stepOf after name).isNone then .notRun
  else if names.all (passedIn after) then .passed
  else if names.any fun name => !passedIn after name && passedIn before name then .failed
  else .failedPreexisting

/-- `sorted(after - before - ignore)`. -/
def newFailures (before after ignore : List Str) : List Str :=
  sortStrs (fromKeys (after.filter fun t => !before.contains t && !ignore.contains t))

def testGate (names : List Str) (before after : List VerificationStep) (beforeSum afterSum : TestRunSummary)
    (ignore : List Str) : GateStatus × List Str :=
  let status := commandGate names before after
  let new := newFailures beforeSum.failedIds afterSum.failedIds ignore
  if status = .failedPreexisting ∧ new ≠ [] then (.failed, new)
  else (status, if status = .failed then new else [])

/-- What rerunning exactly the failed tests showed. -/
inductive ExactRerun where
  | notAvailable
  | notReproducibleInIsolation
  | targetMissing
  | passed
  | failed
  deriving DecidableEq, Repr

/-- A percentage after the patch is lower than the one before by more than the tolerance. -/
def coverageLost (before after tolerance : WithTop ℚ) : Bool :=
  match after, before, tolerance with
  | (a : ℚ), (b : ℚ), (t : ℚ) =>
    let bound := (nearestDouble (b - t).num.natAbs (b - t).den).untopD 0
    a < if b < t then -bound else bound
  | (_ : ℚ), ⊤, (_ : ℚ) => true
  | _, _, _ => false

def coverageGate (before after : TestRunSummary) (tolerance : WithTop ℚ) (worktreesOk : Bool) : GateStatus :=
  match before.coveragePercent, after.coveragePercent, worktreesOk with
  | some b, some a, true => if coverageLost b a tolerance then .failed else .passed
  | _, _, _ => .notRun

/-- The gate of all invariants from the gate of each. -/
def aggregateInvariants (statuses : List GateStatus) : GateStatus :=
  if statuses.isEmpty then .notRun
  else if statuses.any (· = .failed) then .failed
  else if statuses.all (· = .passed) then .passed
  else if statuses.any (· = .failedPreexisting) then .failedPreexisting
  else .notRun

/-- A gate that was not run can be waived; a waiver never hides another status. -/
def waivable (config : VerificationConfig) (gate : String) (status : GateStatus) : GateStatus :=
  if status = .notRun ∧ (config.waivers.lookup gate.toList).isSome then .waived else status

section

variable [UnicodeData]

def summaryOf (names : List Str) (steps : List VerificationStep) : Except PyError TestRunSummary := do
  let items ← (names.filterMap (stepOf steps)).mapM fun s => parseTestOutput s.output
  return combineSummaries items

/-- Whether the failure was reproduced, its local fingerprint, and the command that failed. -/
def reproduction (baseline : List VerificationStep) (ciFailureLog : Option Str) :
    Except PyError (Option Bool × FailureFingerprint × Option VerificationStep) := do
  let failing := baseline.find? fun s => !s.passed
  let localFailure ← fingerprintFailure (failing.elim [] (·.output))
  let ci ← match ciFailureLog with
    | none | some [] => pure none
    | some log => some <$> fingerprintFailure log
  let reproduced := match failing, ci with
    | none, _ => some false
    | some _, none => some true
    | some _, some ci => sameFailure ci localFailure
  return (reproduced, localFailure, failing)

/-- `_risk`: the level with its reasons. -/
def combinedRisk (patch : Str) (policyRisk : Option Str) : Except PyError (Str × List Str) := do
  let (level, reasons) ← scoreDiffRisk patch
  let policyLevel := if policyRisk = some "CRITICAL".toList then some riskHigh else policyRisk
  let combined := match policyLevel with
    | none | some [] => level
    | some policyLevel => DiffRisk.maxLevel [level, policyLevel]
  return (combined, reasons ++
    if policyLevel = some riskHigh then ["policy risk ".toList ++ policyRisk.getD []] else [])

/-- `_integrity`: the codes of the findings that reject. -/
def integrityCodes (patch : Str) : Except PyError (List Str) := do
  let findings ← analyzePatch patch
  return sortStrs (fromKeys ((findings.filter fun f => f.severity = .reject).map fun f => f.code.value.toList))

/-- The part of a node ID before the first `::`. -/
def nodeFile : Str → Str
  | ':' :: ':' :: _ => []
  | [] => []
  | c :: rest => c :: nodeFile rest

structure VerificationInput where
  patch : Str
  commands : List VerifyCommand
  baseline : List VerificationStep
  config : VerificationConfig
  ciFailureLog : Option Str := none
  policyOutcome : Option Str := none
  policyRisk : Option Str := none
  humanApproved : Bool := false

def trackedFiles (c : Checkout) : List Str := (splitlines c.lsTree).filter fun line => !line.isEmpty

/-- The originally failing tests that are rerun: those in tracked files, at most twenty. -/
def targetTests (c : Checkout) (localFailure : FailureFingerprint) : List Str :=
  (localFailure.failedTests.filter fun t => (trackedFiles c).contains (nodeFile t)).take maxTargetTests

/-- The commands of the two runs, with the node IDs of the tests that failed originally. -/
structure VerificationPlan where
  targetIds : List Str
  before : List NamedCommand
  after : List NamedCommand

def pytestTail : List Str := ["-p".toList, "no:cacheprovider".toList]

def targetName : Str := "target".toList

def affectedName : Str := "affected".toList

/-- The pytest call of the failing command, or else of the configured test command. -/
def pytestCommand (c : Checkout) (v : VerificationInput) (failing : Option VerificationStep) :
    Except PyError (Option (List Str)) :=
  let failingCommand := failing.bind fun step => v.commands.find? fun command => command.name = step.name
  match failingCommand.bind fun command => pytestPrefix command.argv, v.config.testCommand with
  | none, some (ch :: rest) => pytestPrefix <$> splitCommand c.which (ch :: rest)
  | found, _ => .ok found

/-- The extra run of some tests, if there are any and a pytest call is known. -/
def pytestRun (pytest : Option (List Str)) (name : Str) (tests : List Str) : List NamedCommand :=
  match pytest with
  | none => []
  | some argv => if tests = [] then [] else [(name, argv ++ tests ++ pytestTail)]

def verificationPlan (c : Checkout) (v : VerificationInput) (localFailure : FailureFingerprint)
    (failing : Option VerificationStep) : Except PyError VerificationPlan := do
  let found ← parseUnifiedDiff v.patch
  let diffs := found.filter fun d => !d.path.isEmpty
  let removed := (diffs.filter (·.deleted)).map (·.path) ++ (diffs.map (·.renamedFrom)).filter fun p => !p.isEmpty
  let tracked := trackedFiles c
  let patched := (tracked ++ (diffs.filter fun d => !d.deleted).map (·.path)).filter fun p => !removed.contains p
  let pytest ← pytestCommand c v failing
  let targetIds := targetTests c localFailure
  let candidates := affectedTestCandidates (diffs.map (·.path)) v.config.affectedTests
  let shared ← sharedCommands c.which v.config
  return {
    targetIds
    before := pytestRun pytest targetName targetIds ++ shared ++
      pytestRun pytest affectedName (candidates.filter fun t => tracked.contains t)
    after := pytestRun pytest targetName targetIds ++ shared ++
      pytestRun pytest affectedName (candidates.filter fun t => patched.contains t) }

def exactRerun (before after : List VerificationStep) : Except PyError ExactRerun :=
  match stepOf before targetName, stepOf after targetName with
  | some b, some a => do
    let sum ← parseTestOutput a.output
    return if b.returncode ≠ pytestTestsFailed then .notReproducibleInIsolation
      else if a.returncode = pytestUsageError ∨ a.returncode = pytestNoTestsCollected ∨
          (sum.parsed ∧ sum.total = 0) then .targetMissing
      else if a.passed ∧ 1 ≤ sum.passed then .passed
      else .failed
  | _, _ => .ok .notAvailable

/-- The gate of the affected tests; without any it mirrors the regression suite. -/
def affectedGate (before after : List VerificationStep) (beforeSum afterSum : TestRunSummary) (ignore : List Str)
    (regression : GateStatus) : GateStatus × List Str :=
  match stepOf before affectedName, stepOf after affectedName with
  | some _, some _ => testGate [affectedName] before after beforeSum afterSum ignore
  | none, some a =>
    if a.passed then (.passed, []) else (.failed, newFailures [] afterSum.failedIds ignore)
  | _, none => (regression, [])

structure VerificationReport where
  result : VerificationResult
  decision : RemediationDecision

/-- The gate of a configured gate's commands, before any waiver. -/
def gateStatus (config : VerificationConfig) (gate : Gate) (before after : List VerificationStep)
    (worktreesOk : Bool) : GateStatus :=
  if worktreesOk then commandGate (commandNames gate.name (config.commands gate).length) before after else .notRun

def invariantStatus (config : VerificationConfig) (before after : List VerificationStep) (worktreesOk : Bool) :
    GateStatus :=
  aggregateInvariants ((commandNames "invariant" config.invariants.length).map fun name =>
    if worktreesOk then commandGate [name] before after else .notRun)

/-- The evidence of the two runs; `none` is a run without its worktree. -/
def assess (v : VerificationInput) (reproduced : Option Bool) (codes : List Str) (risk : Str × List Str)
    (targetIds : List Str) (beforeRun afterRun : Option (List VerificationStep)) : Except PyError VerificationReport := do
  let worktreesOk := beforeRun.isSome && afterRun.isSome
  let before := beforeRun.getD []
  let after := afterRun.getD []
  let exact ← exactRerun before after
  let names := commandNames Gate.regression.name v.config.regression.length
  let regBefore ← summaryOf names before
  let regAfter ← summaryOf names after
  let suite := testGate names before after regBefore regAfter targetIds
  let regression := if worktreesOk then suite.1 else .notRun
  let affBefore ← summaryOf [affectedName] before
  let affAfter ← summaryOf [affectedName] after
  let affected := affectedGate before after affBefore affAfter targetIds regression
  let countsKnown := !names.isEmpty && worktreesOk && regBefore.parsed && regAfter.parsed
  let quality := fun gate : Gate => waivable v.config gate.name (gateStatus v.config gate before after worktreesOk)
  let result : VerificationResult := {
    repairProposed := true
    patchApplied := true
    originalFailureReproduced := reproduced
    originalFailureResolved := some (exact != .failed && exact != .targetMissing)
    targetedTestPassed := some (exact != .failed)
    targetTestMissing := exact == .targetMissing
    affectedTests := affected.1
    regressionSuite := regression
    newTestFailures := sortStrs (fromKeys (suite.2 ++ affected.2))
    testCountDecreased := if countsKnown then some (regAfter.total < regBefore.total) else none
    skippedTestsIncreased :=
      if countsKnown then
        some (regBefore.skipped + regBefore.xfailed + regBefore.deselected <
          regAfter.skipped + regAfter.xfailed + regAfter.deselected)
      else none
    coverage := waivable v.config "coverage" (coverageGate regBefore regAfter v.config.coverageTolerance worktreesOk)
    lint := quality .lint
    typecheck := quality .typecheck
    security := quality .security
    build := quality .build
    behavioralInvariants :=
      waivable v.config "behavioral_invariants" (invariantStatus v.config before after worktreesOk)
    forbiddenDiffDetected := !codes.isEmpty
    forbiddenDiffCodes := codes
    policyOutcome := v.policyOutcome
    humanApproved := v.humanApproved
    riskLevel := risk.1
    riskReasons := risk.2 }
  return { result, decision := decideRemediation result }

/-- `collect_verification`: the result and the decision of verifying a patch whose verify commands passed. -/
def collectVerification (c : Checkout) (v : VerificationInput) : Except PyError VerificationReport := do
  let (reproduced, localFailure, failing) ← reproduction v.baseline v.ciFailureLog
  let codes ← integrityCodes v.patch
  let risk ← combinedRisk v.patch v.policyRisk
  let plan ← verificationPlan c v localFailure failing
  assess v reproduced codes risk plan.targetIds (c.runBase plan.before) (c.runPatched v.patch plan.after)

end

end FailureOrchestrator
