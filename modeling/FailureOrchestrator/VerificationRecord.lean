import FailureOrchestrator.AuditRecord
import FailureOrchestrator.JsonEvidence
import FailureOrchestrator.Remediation

namespace FailureOrchestrator

/-- True if the gate is satisfied, none if it was not run, otherwise false. -/
def GateStatus.passedFlag (g : GateStatus) : Option Bool :=
  if g.satisfied then some true else if g = .notRun then none else some false

def GateStatus.all : List GateStatus := [.passed, .failed, .failedPreexisting, .notRun, .waived]

/-- `GateStatus(raw)` of a text. -/
def GateStatus.ofValue (raw : Str) : Option GateStatus := GateStatus.all.find? fun g => g.value.toList == raw

theorem GateStatus.ofValue_value (g : GateStatus) : GateStatus.ofValue g.value.toList = some g := by
  cases g with
  | passed | failed | failedPreexisting | notRun | waived => rfl

def VerificationResult.coverageRegressed (v : VerificationResult) : Option Bool :=
  if v.coverage = .failed then some true else if v.coverage.satisfied then some false else none

section

variable {F : Type}

def jsonFlag (o : Option Bool) : JsonValue F := o.elim .null .bool

def jsonGate (g : GateStatus) : JsonValue F := .str g.value.toList

def jsonTexts (texts : List Str) : JsonValue F := .arr (texts.map .str)

/-- The entries of a result's dict: the fields and then the derived flags. -/
def VerificationResult.items (v : VerificationResult) : List (Str × JsonValue F) := [
  ("repair_proposed".toList, .bool v.repairProposed),
  ("patch_applied".toList, .bool v.patchApplied),
  ("original_failure_reproduced".toList, jsonFlag v.originalFailureReproduced),
  ("original_failure_resolved".toList, jsonFlag v.originalFailureResolved),
  ("targeted_test_passed".toList, jsonFlag v.targetedTestPassed),
  ("target_test_missing".toList, .bool v.targetTestMissing),
  ("affected_tests".toList, jsonGate v.affectedTests),
  ("regression_suite".toList, jsonGate v.regressionSuite),
  ("new_test_failures".toList, jsonTexts v.newTestFailures),
  ("test_count_decreased".toList, jsonFlag v.testCountDecreased),
  ("skipped_tests_increased".toList, jsonFlag v.skippedTestsIncreased),
  ("coverage".toList, jsonGate v.coverage),
  ("lint".toList, jsonGate v.lint),
  ("typecheck".toList, jsonGate v.typecheck),
  ("security".toList, jsonGate v.security),
  ("build".toList, jsonGate v.build),
  ("behavioral_invariants".toList, jsonGate v.behavioralInvariants),
  ("forbidden_diff_detected".toList, .bool v.forbiddenDiffDetected),
  ("forbidden_diff_codes".toList, jsonTexts v.forbiddenDiffCodes),
  ("policy_outcome".toList, jsonOption v.policyOutcome),
  ("human_approved".toList, .bool v.humanApproved),
  ("real_ci_passed".toList, jsonFlag v.realCiPassed),
  ("risk_level".toList, .str v.riskLevel),
  ("risk_reasons".toList, jsonTexts v.riskReasons),
  ("affected_tests_passed".toList, jsonFlag v.affectedTests.passedFlag),
  ("regression_suite_passed".toList, jsonFlag v.regressionSuite.passedFlag),
  ("coverage_regressed".toList, jsonFlag v.coverageRegressed),
  ("lint_passed".toList, jsonFlag v.lint.passedFlag),
  ("typecheck_passed".toList, jsonFlag v.typecheck.passedFlag),
  ("security_checks_passed".toList, jsonFlag v.security.passedFlag),
  ("build_passed".toList, jsonFlag v.build.passedFlag),
  ("behavioral_invariants_passed".toList, jsonFlag v.behavioralInvariants.passedFlag)]

/-- The entries of `to_dict`. -/
def VerificationResult.entries (v : VerificationResult) : List (Str × JsonValue F) := dictOf v.items

def VerificationResult.toDict (v : VerificationResult) : JsonValue F := .obj v.entries

def boolField (d : List (Str × JsonValue F)) (key : String) (default : Bool) : Except RecordError Bool :=
  match d.lookup key.toList with
  | none => .ok default
  | some (.bool b) => .ok b
  | some _ => .error .unmodelled

def flagField (d : List (Str × JsonValue F)) (key : String) : Except RecordError (Option Bool) :=
  match d.lookup key.toList with
  | none | some .null => .ok none
  | some (.bool b) => .ok (some b)
  | some _ => .error .unmodelled

/-- A value that is no gate status is a `ValueError`. -/
def gateField (d : List (Str × JsonValue F)) (key : String) : Except RecordError GateStatus :=
  match d.lookup key.toList with
  | none => .ok .notRun
  | some (.str s) => (GateStatus.ofValue s).elim (.error .malformed) .ok
  | some _ => .error .malformed

def textField (d : List (Str × JsonValue F)) (key : String) (default : Str) : Except RecordError Str :=
  match d.lookup key.toList with
  | none => .ok default
  | some (.str s) => .ok s
  | some _ => .error .unmodelled

variable [UnicodeData]

mutual

/-- `repr` of a value in a list; lists of texts hold no floats and no dicts. -/
def JsonValue.reprText : JsonValue F → Except RecordError Str
  | .null => .ok "None".toList
  | .bool b => .ok (if b then "True".toList else "False".toList)
  | .int n => .ok (writeInt n)
  | .str s => .ok (pyRepr s)
  | .arr items => do return ['['] ++ joinWith ", ".toList (← JsonValue.reprTexts items) ++ [']']
  | .float _ | .obj _ => .error .unmodelled

def JsonValue.reprTexts : List (JsonValue F) → Except RecordError (List Str)
  | [] => .ok []
  | x :: xs => do return (← x.reprText) :: (← JsonValue.reprTexts xs)

end

/-- An item of a list of texts, as the f-strings that use it write it. -/
def JsonValue.itemText : JsonValue F → Except RecordError Str
  | .str s => .ok s
  | v => v.reprText

/-- `tuple(raw or ())`. -/
def textsField (d : List (Str × JsonValue F)) (key : String) : Except RecordError (List Str) :=
  match d.lookup key.toList with
  | none => .ok []
  | some (.arr items) => items.mapM JsonValue.itemText
  | some v => if v.isFalsy then .ok [] else .error .unmodelled

/-- `VerificationResult.from_dict`: unknown keys are ignored and missing ones left at their defaults. -/
def VerificationResult.fromDict : JsonValue F → Except RecordError VerificationResult
  | .obj d => do
    let repairProposed ← boolField d "repair_proposed" false
    let patchApplied ← boolField d "patch_applied" false
    let originalFailureReproduced ← flagField d "original_failure_reproduced"
    let originalFailureResolved ← flagField d "original_failure_resolved"
    let targetedTestPassed ← flagField d "targeted_test_passed"
    let targetTestMissing ← boolField d "target_test_missing" false
    let affectedTests ← gateField d "affected_tests"
    let regressionSuite ← gateField d "regression_suite"
    let newTestFailures ← textsField d "new_test_failures"
    let testCountDecreased ← flagField d "test_count_decreased"
    let skippedTestsIncreased ← flagField d "skipped_tests_increased"
    let coverage ← gateField d "coverage"
    let lint ← gateField d "lint"
    let typecheck ← gateField d "typecheck"
    let security ← gateField d "security"
    let build ← gateField d "build"
    let behavioralInvariants ← gateField d "behavioral_invariants"
    let forbiddenDiffDetected ← boolField d "forbidden_diff_detected" false
    let forbiddenDiffCodes ← textsField d "forbidden_diff_codes"
    let policyOutcome ← optionalField d "policy_outcome"
    let humanApproved ← boolField d "human_approved" false
    let realCiPassed ← flagField d "real_ci_passed"
    let riskLevel ← textField d "risk_level" riskHigh
    let riskReasons ← textsField d "risk_reasons"
    return { repairProposed, patchApplied, originalFailureReproduced, originalFailureResolved, targetedTestPassed,
             targetTestMissing, affectedTests, regressionSuite, newTestFailures, testCountDecreased,
             skippedTestsIncreased, coverage, lint, typecheck, security, build, behavioralInvariants,
             forbiddenDiffDetected, forbiddenDiffCodes, policyOutcome, humanApproved, realCiPassed, riskLevel,
             riskReasons }
  | _ => .error .uncaught

end

/-- A result with its texts and the items of its lists changed. -/
def VerificationResult.mapTexts (text item : Str → Str) (v : VerificationResult) : VerificationResult :=
  { v with
    newTestFailures := v.newTestFailures.map item
    forbiddenDiffCodes := v.forbiddenDiffCodes.map item
    policyOutcome := v.policyOutcome.map text
    riskLevel := text v.riskLevel
    riskReasons := v.riskReasons.map item }

section ReadBack

variable {F : Type} {f : JsonValue F → JsonValue F} {text item : Str → Str} {d : List (Str × JsonValue F)} {key : String}

/-- A change of JSON values that a result's fields survive, up to its texts and the items of its lists. -/
structure Transport [UnicodeData] (f : JsonValue F → JsonValue F) (text item : Str → Str) : Prop where
  null : f .null = .null
  bool : ∀ b, f (.bool b) = .bool b
  gate : ∀ g, f (jsonGate g) = jsonGate g
  str : ∀ s, f (.str s) = .str (text s)
  texts : ∀ texts, ∃ items, f (jsonTexts texts) = .arr items ∧ items.mapM JsonValue.itemText = .ok (texts.map item)

theorem Transport.boolField [UnicodeData] (hf : Transport f text item) {b default : Bool}
    (h : d.lookup key.toList = some (f (.bool b))) : boolField d key default = .ok b := by
  rw [hf.bool] at h
  unfold FailureOrchestrator.boolField
  rw [h]

theorem Transport.flagField [UnicodeData] (hf : Transport f text item) {o : Option Bool}
    (h : d.lookup key.toList = some (f (jsonFlag o))) : flagField d key = .ok o := by
  unfold FailureOrchestrator.flagField
  rw [h]
  cases o with
  | none =>
    rw [show f (jsonFlag none) = .null from hf.null]
  | some b =>
    rw [show f (jsonFlag (some b)) = .bool b from hf.bool b]

theorem Transport.gateField [UnicodeData] (hf : Transport f text item) {g : GateStatus}
    (h : d.lookup key.toList = some (f (jsonGate g))) : gateField d key = .ok g := by
  rw [hf.gate] at h
  unfold FailureOrchestrator.gateField
  rw [h]
  show (GateStatus.ofValue g.value.toList).elim _ _ = _
  rw [GateStatus.ofValue_value]
  rfl

theorem Transport.textField [UnicodeData] (hf : Transport f text item) {s default : Str}
    (h : d.lookup key.toList = some (f (.str s))) : textField d key default = .ok (text s) := by
  rw [hf.str] at h
  unfold FailureOrchestrator.textField
  rw [h]

theorem Transport.optionalField [UnicodeData] (hf : Transport f text item) {o : Option Str}
    (h : d.lookup key.toList = some (f (jsonOption o))) : optionalField d key = .ok (o.map text) := by
  unfold FailureOrchestrator.optionalField
  rw [h]
  cases o with
  | none =>
    rw [show f (jsonOption none) = .null from hf.null]
    rfl
  | some s =>
    rw [show f (jsonOption (some s)) = .str (text s) from hf.str s]
    rfl

theorem Transport.textsField [UnicodeData] (hf : Transport f text item) {texts : List Str}
    (h : d.lookup key.toList = some (f (jsonTexts texts))) : textsField d key = .ok (texts.map item) := by
  obtain ⟨items, hitems, hread⟩ := hf.texts texts
  unfold FailureOrchestrator.textsField
  rw [h, hitems]
  exact hread

variable {v : VerificationResult}

theorem VerificationResult.lookup_entries {value : JsonValue F} (h : v.items.reverse.lookup key.toList = some value) :
    v.entries.lookup key.toList = some value := (lookup_dictOf _).trans h

/-- The fields of a result are read from its dict, changed as the values of the dict were. -/
theorem Transport.fromDict [UnicodeData] (hf : Transport f text item)
    (h : ∀ k, ¬ truncationMark <:+ k → d.lookup k = (v.entries.lookup k).map f) :
    VerificationResult.fromDict (.obj d) = .ok (v.mapTexts text item) := by
  have hread : ∀ (key : String) {value : JsonValue F}, v.items.reverse.lookup key.toList = some value →
      ¬ truncationMark <:+ key.toList → d.lookup key.toList = some (f value) := by
    intro key value hitem hmark
    rw [h key.toList hmark, VerificationResult.lookup_entries hitem]
    rfl
  rw [VerificationResult.fromDict,
    hf.boolField (hread "repair_proposed" rfl (by decide)),
    hf.boolField (hread "patch_applied" rfl (by decide)),
    hf.flagField (hread "original_failure_reproduced" rfl (by decide)),
    hf.flagField (hread "original_failure_resolved" rfl (by decide)),
    hf.flagField (hread "targeted_test_passed" rfl (by decide)),
    hf.boolField (hread "target_test_missing" rfl (by decide)),
    hf.gateField (hread "affected_tests" rfl (by decide)),
    hf.gateField (hread "regression_suite" rfl (by decide)),
    hf.textsField (hread "new_test_failures" rfl (by decide)),
    hf.flagField (hread "test_count_decreased" rfl (by decide)),
    hf.flagField (hread "skipped_tests_increased" rfl (by decide)),
    hf.gateField (hread "coverage" rfl (by decide)),
    hf.gateField (hread "lint" rfl (by decide)),
    hf.gateField (hread "typecheck" rfl (by decide)),
    hf.gateField (hread "security" rfl (by decide)),
    hf.gateField (hread "build" rfl (by decide)),
    hf.gateField (hread "behavioral_invariants" rfl (by decide)),
    hf.boolField (hread "forbidden_diff_detected" rfl (by decide)),
    hf.textsField (hread "forbidden_diff_codes" rfl (by decide)),
    hf.optionalField (hread "policy_outcome" rfl (by decide)),
    hf.boolField (hread "human_approved" rfl (by decide)),
    hf.flagField (hread "real_ci_passed" rfl (by decide)),
    hf.textField (hread "risk_level" rfl (by decide)),
    hf.textsField (hread "risk_reasons" rfl (by decide))]
  rfl

theorem VerificationResult.fromDict_of_lookup [UnicodeData] (h : ∀ k, d.lookup k = v.entries.lookup k) :
    VerificationResult.fromDict (.obj d) = .ok v := by
  have hsame : Transport (F := F) id id id := by
    refine ⟨rfl, fun _ => rfl, fun _ => rfl, fun _ => rfl, fun texts => ⟨texts.map .str, rfl, ?_⟩⟩
    rw [List.map_id]
    induction texts with
    | nil => rfl
    | cons s texts ih =>
      rw [List.map_cons, List.mapM_cons, ih]
      rfl
  have hlookup : ∀ k, ¬ truncationMark <:+ k → d.lookup k = (v.entries.lookup k).map id := by
    intro k _
    rw [Option.map_id, id_eq]
    exact h k
  refine (hsame.fromDict hlookup).trans (congrArg Except.ok ?_)
  cases v
  simp only [VerificationResult.mapTexts, List.map_id_fun, id_eq, Option.map_id_fun]

/-- `VerificationResult.from_dict` inverts `to_dict`. -/
theorem VerificationResult.fromDict_toDict [UnicodeData] (v : VerificationResult) :
    VerificationResult.fromDict (v.toDict (F := F)) = .ok v := VerificationResult.fromDict_of_lookup fun _ => rfl

end ReadBack

end FailureOrchestrator
