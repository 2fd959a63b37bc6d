import FailureOrchestrator.Models
import FailureOrchestrator.Regex

namespace FailureOrchestrator

open Regex

inductive ErrorClass where
  | typeError
  | buildError
  | networkError
  | dependencyError
  | testAssertion
  | flakyTest
  | packageError
  | deploymentError
  | securityError
  | runtimeError
  | timeout
  | configError
  | environmentMismatch
  | unknown
  deriving DecidableEq, Repr

def ErrorClass.value : ErrorClass → String
  | .typeError => "TYPE_ERROR"
  | .buildError => "BUILD_ERROR"
  | .networkError => "NETWORK_ERROR"
  | .dependencyError => "DEPENDENCY_ERROR"
  | .testAssertion => "TEST_ASSERTION"
  | .flakyTest => "FLAKY_TEST"
  | .packageError => "PACKAGE_ERROR"
  | .deploymentError => "DEPLOYMENT_ERROR"
  | .securityError => "SECURITY_ERROR"
  | .runtimeError => "RUNTIME_ERROR"
  | .timeout => "TIMEOUT"
  | .configError => "CONFIG_ERROR"
  | .environmentMismatch => "ENVIRONMENT_MISMATCH"
  | .unknown => "UNKNOWN"

/-- The classes that an Actions step can be given. -/
inductive StepClass where
  | lint
  | formatting
  | typing
  | workflowSyntax
  | unitTestFailure
  | unknown
  deriving DecidableEq, Repr

def StepClass.value : StepClass → String
  | .lint => "lint"
  | .formatting => "formatting"
  | .typing => "typing"
  | .workflowSyntax => "workflow_syntax"
  | .unitTestFailure => "unit_test_failure"
  | .unknown => "unknown"

/-- `_MAP`. -/
def ErrorClass.category : ErrorClass → String
  | .typeError => "type_failure"
  | .buildError => "build_failure"
  | .networkError => "network_failure"
  | .dependencyError => "dependency_failure"
  | .testAssertion => "test_failure"
  | .flakyTest => "flaky_failure"
  | .packageError => "dependency_failure"
  | .deploymentError => "infrastructure_failure"
  | .securityError => "security_scan_failure"
  | .runtimeError => "infrastructure_failure"
  | .timeout => "timeout_failure"
  | .configError => "configuration_failure"
  | .environmentMismatch => "environment_failure"
  | .unknown => "unknown"

def StepClass.category : StepClass → String
  | .lint => "lint_failure"
  | .formatting => "lint_failure"
  | .typing => "type_failure"
  | .workflowSyntax => "configuration_failure"
  | .unitTestFailure => "test_failure"
  | .unknown => "unknown"

def environmentClasses : List ErrorClass :=
  [.dependencyError, .networkError, .packageError, .deploymentError, .timeout, .environmentMismatch]

def sourceQuotingSteps : List StepClass := [.lint, .formatting, .typing]

-- The doubles that the literals 0.9, 0.35, 0.8, 0.7 and 0.85 denote.
def tableConfidence : ℚ := 8106479329266893 / 9007199254740992

def unknownConfidence : ℚ := 3152519739159347 / 9007199254740992

def securityConfidence : ℚ := 3602879701896397 / 4503599627370496

def stepConfidence : ℚ := 3152519739159347 / 4503599627370496

def flakyConfidence : ℚ := 7656119366529843 / 9007199254740992

/-- A class of the table with its patterns. -/
structure ErrorRow where
  errorType : ErrorClass
  patterns : List Regex

/-- The rows of `PATTERNS` before the one for security. -/
def earlierRows : List ErrorRow :=
  [⟨.typeError, [lit "incompatible type", lit "mypy", lit "type error", lit "cannot assign"]⟩,
    ⟨.buildError, [lit "build failed", lit "compilation failed", lit "compiler error"]⟩,
    ⟨.networkError, [lit "connection reset", lit "dns", lit "network unreachable", lit "connection refused"]⟩,
    ⟨.dependencyError, [lit "module not found", lit "no module named", lit "dependency",
      cat [lit "package ", many dot, lit " not found"]]⟩,
    ⟨.testAssertion, [lit "assertionerror", cat [lit "test", opt (chr 's'), lit " failed"],
      cat [lit "expected ", many dot, lit " got"]]⟩,
    ⟨.flakyTest, [lit "flaky", lit "timed out", lit "intermittent"]⟩,
    ⟨.packageError, [lit "artifact not found", lit "package failed", cat [lit "wheel ", many dot, lit " not found"]]⟩,
    ⟨.deploymentError, [cat [lit "deploy", opt (lit "ment"), lit " failed"], lit "rollout failed", lit "release failed"]⟩]

def securityRow : ErrorRow :=
  ⟨.securityError, [lit "vulnerabilit", lit "security scan failed", lit "secret detected"]⟩

def runtimeRow : ErrorRow :=
  ⟨.runtimeError, [lit "runtimeerror", lit "500 internal server error", lit "smoke test failed"]⟩

/-- `PATTERNS`. -/
def errorRows : List ErrorRow := earlierRows ++ [securityRow, runtimeRow]

section

variable [UnicodeData]

def ErrorRow.hits (row : ErrorRow) (normalized : Str) : Bool := row.patterns.any fun pattern => found pattern normalized

/-- The first matching error type and its confidence. -/
def classifyError (message : Str) : ErrorClass × ℚ :=
  match errorRows.find? fun row => row.hits (UnicodeData.lower message) with
  | some row => (row.errorType, tableConfidence)
  | none => (.unknown, unknownConfidence)

/-- `_FALLBACK_PATTERNS`. -/
def fallbackRows : List (ErrorClass × Regex) :=
  [(.environmentMismatch, ilits ["requires a different python", "the engine \"node\" is incompatible", "code ebadengine",
      "has been compiled by a more recent version of the java runtime", "unsupported major.minor version"]),
    (.networkError, ilits ["name or service not known", "temporary failure in name resolution",
      "could not resolve host", "getaddrinfo", "failed to establish a new connection", "network is unreachable"]),
    (.dependencyError, anyOf [cat [ilit "cannot import name '", some1 (noneOf "'"), ilit "' from '", some1 (noneOf "'"),
        chr '\''], ilit "conflicting dependencies", ilit "resolutionimpossible", ilit "no matching distribution found",
      ilit "could not find a version that satisfies"]),
    (.timeout, ilits ["exceeded the maximum execution time", "has timed out", "timeouterror", "timeout expired",
      "deadline exceeded"]),
    (.configError, anyOf [ilit "configerror", ilit "configurationerror",
      cat [ilit "invalid config", opt (ilit "uration"), .wordB], ilit "configuration error",
      cat [ilit "unknown ", anyOf [ilit "setting", cat [ilit "config", opt (ilit "uration"), ilit " key"]]],
      cat [ilit "missing required ", ilits ["setting", "config", "environment variable"]]])]

def timedOut : Regex := ilit "timed out"

def explicitlyFlaky : Regex := ilits ["flaky", "intermittent"]

/-- The error table, and classes of its own where that finds nothing. -/
def classifyText (text : Str) : ErrorClass × ℚ :=
  let (errorClass, confidence) := classifyError text
  if errorClass = .flakyTest && found timedOut text && !found explicitlyFlaky text then (.timeout, confidence)
  else if errorClass ≠ .unknown then (errorClass, confidence)
  else
    match fallbackRows.find? fun row => found row.2 text with
    | some row => (row.1, tableConfidence)
    | none => (errorClass, confidence)

/-- A result line of `pytest -v`. -/
def testResult : Regex :=
  cat [.bol, .grp 1 (cat [some1 notSpace, lit "::", some1 (.cls fun c => !isSpace c && c != '[')]),
    opt (.grp 2 (cat [chr '[', some1 digit, chr '-', some1 digit, chr ']'])), chr ' ',
    .grp 3 (lits ["PASSED", "FAILED"]), .wordB]

/-- Tests that a log reports as both passed and failed. -/
def intermittentTests (text : Str) : List Str :=
  let results := (finditer testResult text).map fun m => ((m.group 1).getD [], (m.group 3).getD [])
  (fromKeys (results.map (·.1))).filter fun test =>
    results.contains (test, "PASSED".toList) && results.contains (test, "FAILED".toList)

def pytestSummary : Regex :=
  .alt (lit "short test summary info") (cat [.alt .bol space, lit "failed ", some1 notSpace, lit ".py::", notSpace])

/-- Maps common job and step names to stable classes. -/
def classifyCiStep (workflow job failedStep logExcerpt : Str) : StepClass :=
  let haystack := UnicodeData.lower (workflow ++ ' ' :: job ++ ' ' :: failedStep ++ ' ' :: logExcerpt)
  let has (needle : String) : Bool := hasSub haystack needle.toList
  if has "ruff" || has "flake8" || has "lint" then .lint
  else if has "black" || has "format" then .formatting
  else if has "mypy" || has "pyright" || has "type check" then .typing
  else if has "workflow" && (has "yaml" || has "syntax") then .workflowSyntax
  else if has "pytest" || hasSub (UnicodeData.lower failedStep) "test".toList || found pytestSummary haystack then
    .unitTestFailure
  else .unknown

omit [UnicodeData] in
theorem earlierRows_not_security : ∀ row ∈ earlierRows, row.errorType ≠ .securityError := by
  unfold earlierRows
  simp only [List.forall_mem_cons, List.not_mem_nil, false_implies, implies_true, and_true]
  decide

/-- The table gives the security class exactly when its row is the first that matches. -/
theorem classifyError_security_iff (message : Str) : (classifyError message).1 = .securityError ↔
    securityRow.hits (UnicodeData.lower message) = true ∧
      ∀ row ∈ earlierRows, row.hits (UnicodeData.lower message) = false := by
  unfold classifyError errorRows
  rw [List.find?_append]
  cases hearlier : earlierRows.find? fun row => row.hits (UnicodeData.lower message) with
  | some row =>
    have hmem := List.mem_of_find?_eq_some hearlier
    have hhits := List.find?_some hearlier
    refine iff_of_false (earlierRows_not_security row hmem) fun h => ?_
    rw [h.2 row hmem] at hhits
    cases hhits
  | none =>
    have hnone : ∀ row ∈ earlierRows, row.hits (UnicodeData.lower message) = false := fun row hrow => by
      simpa using List.find?_eq_none.mp hearlier row hrow
    rw [and_iff_left hnone, Option.none_or, List.find?_cons]
    cases hsecurity : securityRow.hits (UnicodeData.lower message) with
    | true => exact iff_of_true rfl rfl
    | false =>
      refine iff_of_false ?_ Bool.false_ne_true
      rw [List.find?_cons]
      cases runtimeRow.hits (UnicodeData.lower message) with
      | true => exact nofun
      | false => exact nofun

/-- What the text is classified as beyond the table is never the security class. -/
theorem classifyText_security_iff (text : Str) :
    (classifyText text).1 = .securityError ↔ (classifyError text).1 = .securityError := by
  unfold classifyText
  split
  next errorClass confidence heq =>
    rw [heq]
    split
    next hflaky =>
      simp only [Bool.and_eq_true, decide_eq_true_eq] at hflaky
      rw [hflaky.1.1]
      exact iff_of_false nofun nofun
    next =>
      split
      next => exact Iff.rfl
      next hunknown =>
        obtain rfl : errorClass = .unknown := not_not.mp hunknown
        refine iff_of_false ?_ nofun
        split
        next row hrow =>
          have hother : ∀ row ∈ fallbackRows, row.1 ≠ .securityError := by
            unfold fallbackRows
            simp only [List.forall_mem_cons, List.not_mem_nil, false_implies, implies_true, and_true]
            decide
          exact hother row (List.mem_of_find?_eq_some hrow)
        next => exact nofun

end

end FailureOrchestrator
