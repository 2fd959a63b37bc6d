import FailureOrchestrator.Sanitization
import FailureOrchestrator.UnifiedDiff

namespace FailureOrchestrator

section

open Regex

inductive IntegritySeverity where
  | reject
  | escalate
  deriving DecidableEq, Repr

/-- Kinds of verification weakening a patch can introduce. -/
inductive IntegrityCode where
  | testFileDeleted
  | testFileRenamedOutOfDiscovery
  | testCaseRemoved
  | testSkipped
  | testFocused
  | testDeselected
  | assertionRemoved
  | assertionWeakened
  | testResultOverridden
  | coverageThresholdLowered
  | ciConfigDeleted
  | ciCheckRemoved
  | ciFailureIgnored
  | qualityGateDisabled
  | reviewControlModified
  | exceptionSwallowed
  | testEnvironmentSpecialCase
  | testExpectationChanged
  | checkSuppressedInline
  | ciEnvironmentBranch
  deriving DecidableEq, Repr

def IntegrityCode.value : IntegrityCode → String
  | .testFileDeleted => "TEST_FILE_DELETED"
  | .testFileRenamedOutOfDiscovery => "TEST_FILE_RENAMED_OUT_OF_DISCOVERY"
  | .testCaseRemoved => "TEST_CASE_REMOVED"
  | .testSkipped => "TEST_SKIPPED"
  | .testFocused => "TEST_FOCUSED"
  | .testDeselected => "TEST_DESELECTED"
  | .assertionRemoved => "ASSERTION_REMOVED"
  | .assertionWeakened => "ASSERTION_WEAKENED"
  | .testResultOverridden => "TEST_RESULT_OVERRIDDEN"
  | .coverageThresholdLowered => "COVERAGE_THRESHOLD_LOWERED"
  | .ciConfigDeleted => "CI_CONFIG_DELETED"
  | .ciCheckRemoved => "CI_CHECK_REMOVED"
  | .ciFailureIgnored => "CI_FAILURE_IGNORED"
  | .qualityGateDisabled => "QUALITY_GATE_DISABLED"
  | .reviewControlModified => "REVIEW_CONTROL_MODIFIED"
  | .exceptionSwallowed => "EXCEPTION_SWALLOWED"
  | .testEnvironmentSpecialCase => "TEST_ENVIRONMENT_SPECIAL_CASE"
  | .testExpectationChanged => "TEST_EXPECTATION_CHANGED"
  | .checkSuppressedInline => "CHECK_SUPPRESSED_INLINE"
  | .ciEnvironmentBranch => "CI_ENVIRONMENT_BRANCH"

def IntegrityCode.severity : IntegrityCode → IntegritySeverity
  | .testExpectationChanged | .checkSuppressedInline | .ciEnvironmentBranch => .escalate
  | _ => .reject

def IntegrityCode.message : IntegrityCode → String
  | .testFileDeleted => "test file deleted"
  | .testFileRenamedOutOfDiscovery => "test file renamed so the test runner no longer finds it"
  | .testCaseRemoved => "test cases removed"
  | .testSkipped => "test skip or xfail marker added"
  | .testFocused => "focused test (.only) added; other tests stop running"
  | .testDeselected => "tests excluded from collection"
  | .assertionRemoved => "assertions removed from tests"
  | .assertionWeakened => "strict assertion replaced by a weaker one"
  | .testResultOverridden => "test runner exit status forced"
  | .coverageThresholdLowered => "coverage threshold lowered or removed"
  | .ciConfigDeleted => "CI configuration file deleted"
  | .ciCheckRemoved => "verification command removed from CI"
  | .ciFailureIgnored => "CI step allowed to fail"
  | .qualityGateDisabled => "lint, type or security check disabled in configuration"
  | .reviewControlModified => "code review controls modified"
  | .exceptionSwallowed => "broad exception silently swallowed in production code"
  | .testEnvironmentSpecialCase => "production code behaves differently under the test runner"
  | .testExpectationChanged => "existing test expectation changed"
  | .checkSuppressedInline => "inline lint, type or security suppression added"
  | .ciEnvironmentBranch => "production code branches on the CI environment"

/-- One verification weakening found in one file of a patch. -/
structure IntegrityFinding where
  code : IntegrityCode
  path : Str
  evidence : Str := []
  deriving DecidableEq, Repr

def IntegrityFinding.severity (f : IntegrityFinding) : IntegritySeverity := f.code.severity

def IntegrityFinding.message (f : IntegrityFinding) : String := f.code.message

def IntegrityFinding.describe (f : IntegrityFinding) : Str :=
  f.code.value.toList ++ [' '] ++ f.path ++ if f.evidence.isEmpty then [] else ": ".toList ++ f.evidence

/-- `while p.startswith("./"): p = p[2:]`. -/
def dropDotSlash : Str → Str
  | '.' :: '/' :: rest => dropDotSlash rest
  | p => p

def maxEvidenceChars : Nat := 160

def testDirs : List String := ["tests", "test", "__tests__", "spec", "testing"]

def ciBasenames : List String :=
  ["jenkinsfile", ".gitlab-ci.yml", "azure-pipelines.yml", "bitbucket-pipelines.yml", ".travis.yml"]

def buildScriptBasenames : List String := ["makefile", "justfile", "tox.ini", "noxfile.py", "package.json"]

def sourceSuffixes : List String :=
  [".py", ".js", ".jsx", ".ts", ".tsx", ".mjs", ".cjs", ".go", ".java", ".kt", ".cs", ".rb", ".rs"]

def proseSuffixes : List String := [".md", ".rst", ".txt", ".adoc"]

variable [UnicodeData]

def norm (path : Str) : Str := UnicodeData.lower (dropDotSlash (replaceChar '\\' '/' path))

def basename (path : Str) : Str := afterLast '/' (norm path)

def isTestPath (path : Str) : Bool :=
  let segments := splitChar '/' (norm path)
  (matchStart testBasenameRe (segments.getLastD [])).isSome || segments.dropLast.any fun s => inSet s testDirs

/-- Runners collect by file name, so a helper module under `tests/` is not a collected test. -/
def isDiscoverableTest (path : Str) : Bool :=
  basename path != "conftest.py".toList && (matchStart testBasenameRe (basename path)).isSome

def isCiPath (path : Str) : Bool :=
  startsWithAny (norm path) [".github/workflows/", ".circleci/"] || inSet (basename path) ciBasenames

def isBuildScript (path : Str) : Bool :=
  isCiPath path || inSet (basename path) buildScriptBasenames || endsWithAny (basename path) [".sh", ".ps1"]

def isQualityConfig (path : Str) : Bool := (matchStart qualityConfigRe (basename path)).isSome

def isProductionSource (path : Str) : Bool := endsWithAny (norm path) sourceSuffixes && !isTestPath path

def isProse (path : Str) : Bool :=
  endsWithAny (norm path) proseSuffixes || startsWith (norm path) "docs/".toList

def countLines (lines : List Str) (pattern : Regex) : Nat := lines.countP (found pattern)

def firstLine (lines : List Str) (pattern : Regex) : Str := (lines.find? (found pattern)).getD []

def evidenceOf (line : Str) : Str :=
  let text := (sanitizeText (strip line)).1
  if text.length ≤ maxEvidenceChars then text else text.take (maxEvidenceChars - 3) ++ "...".toList

/-- The first added line that matches, when more lines that match were added than removed. -/
def netAdded (diff : FileDiff) (pattern : Regex) : Option Str :=
  if countLines diff.removed pattern < countLines diff.added pattern then
    some (firstLine diff.added pattern)
  else none

/-- `found.setdefault(key, []).append(value)`. -/
def appendAt (table : List (Str × List (WithTop ℚ))) (key : Str) (value : WithTop ℚ) :
    List (Str × List (WithTop ℚ)) :=
  match table with
  | [] => [(key, [value])]
  | (k, vs) :: rest => if k = key then (k, vs ++ [value]) :: rest else (k, vs) :: appendAt rest key value

/-- The coverage thresholds that lines set, by key, in the order of the keys' first use. -/
def thresholds (lines : List Str) (useJestKeys : Bool) : List (Str × List (WithTop ℚ)) :=
  lines.foldl
    (fun table line =>
      let named := thresholdRes.foldl
        (fun table entry => (finditer entry.2 line).foldl
          (fun table m => appendAt table entry.1.toList (pyFloat ((m.group 1).getD []))) table) table
      if useJestKeys then
        (finditer jestThresholdRe line).foldl
          (fun table m => appendAt table ((m.group 1).getD []) (pyFloat ((m.group 2).getD []))) named
      else named) []

/-- Whether `min(news) < max(olds)`; a threshold that is gone counts as lowered. -/
def thresholdLowered (olds news : List (WithTop ℚ)) : Bool :=
  news.isEmpty || olds.any fun old => news.any fun new => decide (new < old)

/-- The first added handler that swallows a broad exception, from the given hunk lines on. -/
def swallowingExcepts : List (Char × Str) → Str
  | [] => []
  | (marker, text) :: rest =>
    if marker != '+' then swallowingExcepts rest
    else
      match matchStart pyBroadExceptRe text with
      | some m =>
        let body := strip ((m.group 1).getD [])
        if !body.isEmpty then
          if (matchStart swallowBodyRe body).isSome then text else swallowingExcepts rest
        else
          match rest with
          | ('+', next) :: _ =>
            if (matchStart swallowBodyRe (strip next)).isSome then strip text ++ [' '] ++ strip next
            else swallowingExcepts rest
          | _ => swallowingExcepts rest
      | none => if found swallowInlineRe text then text else swallowingExcepts rest

def flag (path : Str) (code : IntegrityCode) (line : Str) : List IntegrityFinding :=
  [{ code, path, evidence := evidenceOf line }]

def flagNet (diff : FileDiff) (code : IntegrityCode) (pattern : Regex) : List IntegrityFinding :=
  (netAdded diff pattern).elim [] (flag diff.path code)

/-- Lines with a strict comparison that is not a comparison of a name with itself. -/
def strongLines (lines : List Str) : Nat :=
  lines.countP fun line => found strongRe line && !(matchStart tautologyRe line).isSome

def testFindings (diff : FileDiff) : List IntegrityFinding :=
  let removedAsserts := diff.removed.filter (found assertionRe)
  let addedAsserts := diff.added.filter (found assertionRe)
  (if countLines diff.added testDefRe < countLines diff.removed testDefRe then
    flag diff.path .testCaseRemoved (firstLine diff.removed testDefRe) else []) ++
  (if addedAsserts.length < removedAsserts.length then
    flag diff.path .assertionRemoved (removedAsserts.headD []) else []) ++
  (if countLines removedAsserts weakRe < countLines addedAsserts weakRe ∧
      strongLines addedAsserts < strongLines removedAsserts then
    flag diff.path .assertionWeakened (firstLine addedAsserts weakRe) else []) ++
  (if removedAsserts.isEmpty then [] else
    flag diff.path .testExpectationChanged (removedAsserts.headD [])) ++
  flagNet diff .testResultOverridden exitOverrideRe

/-- Only the first threshold that went down is reported. -/
def thresholdFindings (diff : FileDiff) : List IntegrityFinding :=
  let before := thresholds diff.removed (isQualityConfig diff.path)
  let after := thresholds diff.added (isQualityConfig diff.path)
  match before.find? fun entry => thresholdLowered entry.2 ((after.lookup entry.1).getD []) with
  | some (key, _) => flag diff.path .coverageThresholdLowered (firstLine diff.removed (text key))
  | none => []

/-- A removed line whose check tool no added line names. -/
def toolRemoved (addedText : Str) (line : Str) : Bool :=
  match search checkToolRe line with
  | some m => !hasSub addedText ((m.group 1).getD [])
  | none => false

def ciFindings (diff : FileDiff) : List IntegrityFinding :=
  let addedText := joinWith ['\n'] diff.added
  (diff.removed.find? (toolRemoved addedText)).elim [] (flag diff.path .ciCheckRemoved)

def precommitHook (line : Str) : Option Str := (matchStart precommitHookRe line).map fun m => (m.group 1).getD []

def qualityFindings (diff : FileDiff) : List IntegrityFinding :=
  let kept := diff.added.filterMap precommitHook
  let dropped := fun line => (precommitHook line).any fun hook => !kept.contains hook
  flagNet diff .qualityGateDisabled gateDisabledRe ++
    (diff.removed.find? dropped).elim [] (flag diff.path .qualityGateDisabled)

def productionFindings (diff : FileDiff) : List IntegrityFinding :=
  let swallowed := swallowingExcepts diff.lines
  (if swallowed.isEmpty then [] else flag diff.path .exceptionSwallowed swallowed) ++
  flagNet diff .testEnvironmentSpecialCase testRunnerSniffRe ++
  flagNet diff .ciEnvironmentBranch ciSniffRe

/-- The checks of the added and removed lines. -/
def contentFindings (diff : FileDiff) : List IntegrityFinding :=
  flagNet diff .testSkipped skipRe ++
  flagNet diff .testFocused focusRe ++
  flagNet diff .testDeselected deselectRe ++
  (if isTestPath diff.path then testFindings diff else []) ++
  thresholdFindings diff ++
  (if isBuildScript diff.path then flagNet diff .ciFailureIgnored ciIgnoreRe else []) ++
  (if isCiPath diff.path then ciFindings diff else []) ++
  (if isQualityConfig diff.path then qualityFindings diff else []) ++
  flagNet diff .checkSuppressedInline inlineSuppressionRe ++
  (if isProductionSource diff.path then productionFindings diff else [])

def reviewFindings (diff : FileDiff) : List IntegrityFinding :=
  if found reviewControlRe (norm diff.path) then flag diff.path .reviewControlModified [] else []

def renamedOutOfDiscovery (diff : FileDiff) : Bool :=
  !diff.renamedFrom.isEmpty && isDiscoverableTest diff.renamedFrom && !isDiscoverableTest diff.path

def renameFindings (diff : FileDiff) : List IntegrityFinding :=
  if renamedOutOfDiscovery diff then
    flag diff.path .testFileRenamedOutOfDiscovery (diff.renamedFrom ++ " -> ".toList ++ diff.path)
  else []

def analyzeFile (diff : FileDiff) : List IntegrityFinding :=
  if isProse diff.path then []
  else if diff.deleted && isTestPath diff.path then
    reviewFindings diff ++ flag diff.path .testFileDeleted []
  else if diff.deleted && isCiPath diff.path then
    reviewFindings diff ++ renameFindings diff ++ flag diff.path .ciConfigDeleted []
  else reviewFindings diff ++ renameFindings diff ++ contentFindings diff

def analyzePatch (patch : Str) : Except PyError (List IntegrityFinding) :=
  return (← parseUnifiedDiff patch).flatMap analyzeFile

end

/-- Some finding of the list has the code. -/
def HasCode (findings : List IntegrityFinding) (code : IntegrityCode) : Prop := ∃ f ∈ findings, f.code = code

section

variable {code code' : IntegrityCode}

@[simp] theorem hasCode_nil : ¬ HasCode [] code := by
  rintro ⟨f, hf, -⟩
  cases hf

@[simp] theorem hasCode_append {fs gs : List IntegrityFinding} :
    HasCode (fs ++ gs) code ↔ HasCode fs code ∨ HasCode gs code := by
  simp [HasCode, or_and_right, exists_or]

@[simp] theorem hasCode_ite {p : Prop} [Decidable p] {fs gs : List IntegrityFinding} :
    HasCode (if p then fs else gs) code ↔ if p then HasCode fs code else HasCode gs code := by
  split <;> rfl

variable [UnicodeData]

@[simp] theorem hasCode_flag {path line : Str} : HasCode (flag path code' line) code ↔ code' = code := by
  simp [HasCode, flag]

@[simp] theorem hasCode_flagNet {diff : FileDiff} {pattern : Regex} :
    HasCode (flagNet diff code' pattern) code ↔ code' = code ∧ (netAdded diff pattern).isSome = true := by
  unfold flagNet
  cases netAdded diff pattern <;> simp

theorem hasCode_elim {line : Option Str} {path : Str} :
    HasCode (line.elim [] (flag path code')) code ↔ code' = code ∧ line.isSome = true := by
  cases line <;> simp

theorem hasCode_thresholdFindings {diff : FileDiff} (h : HasCode (thresholdFindings diff) code) :
    code = .coverageThresholdLowered := by
  unfold thresholdFindings at h
  dsimp only at h
  split at h
  · exact (hasCode_flag.mp h).symm
  · exact absurd h hasCode_nil

theorem hasCode_reviewFindings {diff : FileDiff} (h : HasCode (reviewFindings diff) code) :
    code = .reviewControlModified := by
  unfold reviewFindings at h
  split at h
  · exact (hasCode_flag.mp h).symm
  · exact absurd h hasCode_nil

theorem hasCode_renameFindings {diff : FileDiff} (h : HasCode (renameFindings diff) code) :
    code = .testFileRenamedOutOfDiscovery := by
  unfold renameFindings at h
  split at h
  · exact (hasCode_flag.mp h).symm
  · exact absurd h hasCode_nil

/-- The file is looked into at all: it is no prose, and neither a deleted test nor a deleted CI
file. -/
def Inspected (diff : FileDiff) : Prop :=
  isProse diff.path = false ∧ ¬ (diff.deleted = true ∧ (isTestPath diff.path = true ∨ isCiPath diff.path = true))

/-- A code that only the content of a file gives rise to. -/
theorem hasCode_analyzeFile_iff (diff : FileDiff)
    (hcode : code ∉ [IntegrityCode.reviewControlModified, .testFileRenamedOutOfDiscovery, .testFileDeleted,
      .ciConfigDeleted]) :
    HasCode (analyzeFile diff) code ↔ Inspected diff ∧ HasCode (contentFindings diff) code := by
  simp only [List.mem_cons, List.not_mem_nil, or_false, not_or] at hcode
  obtain ⟨hreview, hrename, htest, hci⟩ := hcode
  have noReview : ¬ HasCode (reviewFindings diff) code := fun h => hreview (hasCode_reviewFindings h)
  have noRename : ¬ HasCode (renameFindings diff) code := fun h => hrename (hasCode_renameFindings h)
  unfold analyzeFile Inspected
  by_cases hprose : isProse diff.path = true
  · simp [hprose]
  rw [if_neg hprose]
  by_cases hdeletedTest : (diff.deleted && isTestPath diff.path) = true
  · rw [if_pos hdeletedTest]
    simp only [Bool.and_eq_true] at hdeletedTest
    simp [noReview, Ne.symm htest, hdeletedTest]
  rw [if_neg hdeletedTest]
  by_cases hdeletedCi : (diff.deleted && isCiPath diff.path) = true
  · rw [if_pos hdeletedCi]
    simp only [Bool.and_eq_true] at hdeletedCi
    simp [noReview, noRename, Ne.symm hci, hdeletedCi]
  rw [if_neg hdeletedCi]
  simp only [Bool.and_eq_true] at hdeletedTest hdeletedCi
  simp only [hasCode_append, noReview, noRename, false_or, Bool.not_eq_true] at *
  tauto

end

end FailureOrchestrator
