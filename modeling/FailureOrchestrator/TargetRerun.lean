import FailureOrchestrator.PatchChecks

namespace FailureOrchestrator

/-- How pytest reports one test. -/
inductive TestOutcome where
  | passed
  | failed
  | error
  | skipped
  | xfailed
  | xpassed
  | deselected
  deriving DecidableEq, Repr

/-- What pytest reported on each test of a run; a test without an entry was left out. -/
abbrev TestReport := Str → Option TestOutcome

def TestReport.Failed (r : TestReport) (t : Str) : Prop := r t = some .failed ∨ r t = some .error

instance (r : TestReport) (t : Str) : Decidable (r.Failed t) := inferInstanceAs (Decidable (_ ∨ _))

/-- The number of tests that failed or erred. -/
def TestReport.failedCount (r : TestReport) (ids : List Str) : Nat := (ids.filter fun t => r.Failed t).length

def TestReport.passedCount (r : TestReport) (ids : List Str) : Nat := (ids.filter fun t => r t = some .passed).length

theorem TestReport.failedCount_eq {r : TestReport} {ids : List Str} :
    r.failedCount ids = ids.length ↔ ∀ t ∈ ids, r.Failed t := by
  unfold TestReport.failedCount
  rw [List.length_filter_eq_length_iff]
  simp

theorem TestReport.passedCount_eq {r : TestReport} {ids : List Str} :
    r.passedCount ids = ids.length ↔ ∀ t ∈ ids, r t = some .passed := by
  unfold TestReport.passedCount
  rw [List.length_filter_eq_length_iff]
  simp

theorem TestReport.passedCount_le (r : TestReport) (ids : List Str) : r.passedCount ids ≤ ids.length :=
  List.length_filter_le _ _

section

variable [UnicodeData]

/-- pytest's documented exit codes and its result line, for a run of the tests `ids`. -/
structure PytestRun (ids : List Str) (report : TestReport) (step : VerificationStep) : Prop where
  onlyNamed : ∀ t, report t ≠ none → t ∈ ids
  allPassed : step.returncode = 0 → ∀ t, ¬ report.Failed t
  someFailed : step.returncode = pytestTestsFailed → ∃ t ∈ ids, report.Failed t
  resultLine : step.returncode = 0 → ∃ s, parseTestOutput step.output = .ok s ∧ s.parsed = true ∧
    s.passed = report.passedCount ids

/-- The originally failing tests that the baseline's output names, in tracked files. -/
def failingTests (c : Checkout) (v : VerificationInput) : Except PyError (List Str) := do
  let (_, localFailure, _) ← reproduction v.baseline v.ciFailureLog
  return localFailure.failedTests.filter fun t => (trackedFiles c).contains (nodeFile t)

/-- The steps of the two runs of `collect_verification`. -/
def verificationRuns (c : Checkout) (v : VerificationInput) :
    Except PyError (List VerificationStep × List VerificationStep) := do
  let (_, localFailure, failing) ← reproduction v.baseline v.ciFailureLog
  let plan ← verificationPlan c v localFailure failing
  return ((c.runBase plan.before).getD [], (c.runPatched v.patch plan.after).getD [])

/-- `evidence["targeted_validation"]["exact_test_rerun"]` of a report. -/
def exactTestRerun (c : Checkout) (v : VerificationInput) : Except PyError ExactRerun := do
  let (before, after) ← verificationRuns c v
  exactRerun before after

variable {c : Checkout} {v : VerificationInput} {report : VerificationReport} {ids : List Str}

/-- The report of a verification goes by the rerun of the failing tests. -/
theorem exactTestRerun_report (h : collectVerification c v = .ok report) :
    ∃ exact, exactTestRerun c v = .ok exact ∧ report.result.targetedTestPassed = some (exact != .failed) ∧
      report.result.targetTestMissing = (exact == .targetMissing) := by
  obtain ⟨⟨reproduced, localFailure, failing⟩, hrepro, h⟩ := bind_eq_ok h
  obtain ⟨codes, -, h⟩ := bind_eq_ok h
  obtain ⟨risk, -, h⟩ := bind_eq_ok h
  obtain ⟨plan, hplan, h⟩ := bind_eq_ok h
  obtain ⟨exact, hexact, h⟩ := bind_eq_ok h
  obtain ⟨regBefore, -, h⟩ := bind_eq_ok h
  obtain ⟨regAfter, -, h⟩ := bind_eq_ok h
  obtain ⟨affBefore, -, h⟩ := bind_eq_ok h
  obtain ⟨affAfter, -, h⟩ := bind_eq_ok h
  cases h
  refine ⟨exact, ?_, rfl, rfl⟩
  unfold exactTestRerun verificationRuns
  rw [hrepro]
  dsimp only [bind, Except.bind]
  rw [hplan]
  exact hexact

theorem fingerprintFailure_nodup {text : Str} {f : FailureFingerprint} (h : fingerprintFailure text = .ok f) :
    f.failedTests.Nodup := by
  obtain ⟨s, -, h⟩ := bind_eq_ok h
  cases h
  exact (List.perm_insertionSort _ _).nodup_iff.mpr (nodup_fromKeys _)

theorem failingTests_nodup (h : failingTests c v = .ok ids) : ids.Nodup := by
  obtain ⟨⟨reproduced, localFailure, failing⟩, hrepro, h⟩ := bind_eq_ok h
  cases h
  obtain ⟨found, hfound, hrepro⟩ := bind_eq_ok hrepro
  dsimp only at hrepro
  split at hrepro
  all_goals
    obtain ⟨ci, -, hrepro⟩ := bind_eq_ok hrepro
    cases hrepro
    exact (fingerprintFailure_nodup hfound).filter _

/-- When the rerun says passed: one exit code for each run and one test that passed. -/
theorem exactRerun_passed {before after : List VerificationStep} {b a : VerificationStep}
    (hb : stepOf before targetName = some b) (ha : stepOf after targetName = some a) :
    exactRerun before after = .ok .passed ↔ ∃ s, parseTestOutput a.output = .ok s ∧ b.returncode = pytestTestsFailed ∧
      a.returncode = 0 ∧ 1 ≤ s.passed := by
  unfold exactRerun
  rw [hb, ha]
  dsimp only
  cases hparse : parseTestOutput a.output with
  | error e => simp [bind, Except.bind]
  | ok s =>
    have htotal : 1 ≤ s.passed → s.total ≠ 0 := by
      unfold TestRunSummary.total
      omega
    constructor
    · intro h
      have hcases := Except.ok.inj h
      split_ifs at hcases with hfailed hmissing hpassed
      exact ⟨s, rfl, not_not.mp hfailed, of_decide_eq_true hpassed.1, hpassed.2⟩
    · rintro ⟨s', hs', hcode, hzero, hpassed⟩
      cases hs'
      have hmissing : ¬ (a.returncode = pytestUsageError ∨ a.returncode = pytestNoTestsCollected ∨
          (s.parsed = true ∧ s.total = 0)) := by
        rintro (h | h | ⟨-, h⟩)
        · exact absurd (hzero.symm.trans h) (by decide)
        · exact absurd (hzero.symm.trans h) (by decide)
        · exact htotal hpassed h
      refine congrArg Except.ok ?_
      rw [if_neg (not_not.mpr hcode), if_neg hmissing, if_pos ⟨decide_eq_true hzero, hpassed⟩]

/-- The two target runs of a verification, with what pytest reported on the originally failing tests. -/
structure TargetRuns (c : Checkout) (v : VerificationInput) (ids : List Str) (b a : VerificationStep)
    (before after : TestReport) : Prop where
  failing : failingTests c v = .ok ids
  runs : ∃ runs, verificationRuns c v = .ok runs ∧ stepOf runs.1 targetName = some b ∧ stepOf runs.2 targetName = some a
  base : PytestRun (ids.take maxTargetTests) before b
  patched : PytestRun (ids.take maxTargetTests) after a

/-- The rerun says passed only of tests that all failed before and all passed after, exactly when the two runs account
for as many tests as failed originally. -/
theorem exactTestRerun_passed_iff {b a : VerificationStep} {before after : TestReport}
    (h : TargetRuns c v ids b a before after) :
    (exactTestRerun c v = .ok .passed → ∀ t ∈ ids, before.Failed t ∧ after t = some .passed) ↔
      (b.returncode = pytestTestsFailed → a.returncode = 0 → 1 ≤ after.passedCount (ids.take maxTargetTests) →
        before.failedCount (ids.take maxTargetTests) = ids.length ∧
          after.passedCount (ids.take maxTargetTests) = ids.length) := by
  obtain ⟨runs, hruns, hb, ha⟩ := h.runs
  have hexact : exactTestRerun c v = exactRerun runs.1 runs.2 := by
    unfold exactTestRerun
    rw [hruns]
    rfl
  rw [hexact, exactRerun_passed hb ha]
  constructor
  · intro hall hcode hzero hpassed
    obtain ⟨s, hparse, -, hcount⟩ := h.patched.resultLine hzero
    have hall := hall ⟨s, hparse, hcode, hzero, hcount ▸ hpassed⟩
    have hnamed : ∀ t ∈ ids, t ∈ ids.take maxTargetTests := by
      intro t ht
      refine h.patched.onlyNamed t ?_
      rw [(hall t ht).2]
      exact nofun
    have htake : ids.take maxTargetTests = ids :=
      (List.take_sublist _ _).eq_of_length_le (List.subperm_of_subset (failingTests_nodup h.failing) hnamed).length_le
    rw [htake, TestReport.failedCount_eq, TestReport.passedCount_eq]
    exact ⟨fun t ht => (hall t ht).1, fun t ht => (hall t ht).2⟩
  · rintro hcounts ⟨s, hparse, hcode, hzero, hpassed⟩
    obtain ⟨s', hparse', -, hcount⟩ := h.patched.resultLine hzero
    cases hparse.symm.trans hparse'
    obtain ⟨hfailed, hpassed⟩ := hcounts hcode hzero (hcount ▸ hpassed)
    have hle : ids.length ≤ (ids.take maxTargetTests).length := hpassed ▸ after.passedCount_le _
    have htake : ids.take maxTargetTests = ids := (List.take_sublist _ _).eq_of_length_le hle
    rw [htake, TestReport.failedCount_eq] at hfailed
    rw [htake, TestReport.passedCount_eq] at hpassed
    exact fun t ht => ⟨hfailed t ht, hpassed t ht⟩

end

def testX : Str := "tests/test_b.py::test_x".toList

def testY : Str := "tests/test_b.py::test_y".toList

def bothFailed : Str :=
  "FAILED tests/test_b.py::test_x\nFAILED tests/test_b.py::test_y\n== 2 failed in 0.10s ==\n".toList

/-- Two tests failed; with the patch one of them passes and the other one is skipped. -/
@[reducible] def skippedAfter : Checkout where
  lsTree := "src/a.py\ntests/test_b.py\n".toList
  which := fun _ => none
  baseCreated := true
  patchApplies := true
  executeBase := fun _ _ => .completed 1 bothFailed []
  executePatched := fun _ _ => .completed 0 "== 1 passed, 1 skipped in 0.10s ==\n".toList []

@[reducible] def failingSuite : VerificationInput where
  patch := "diff --git a/src/a.py b/src/a.py\n--- a/src/a.py\n+++ b/src/a.py\n@@ -1 +1 @@\n-x = 1\n+x = 2\n".toList
  commands := [⟨"verify-1".toList, "pytest".toList, ["pytest".toList]⟩]
  baseline := [⟨"verify-1".toList, 1, bothFailed, []⟩]
  config := {}

def failedBefore : TestReport := fun t => if t = testX ∨ t = testY then some .failed else none

def passedOrSkipped : TestReport := fun t => if t = testX then some .passed else if t = testY then some .skipped else none

def beforeStep : VerificationStep := ⟨targetName, 1, bothFailed, []⟩

def afterStep : VerificationStep := ⟨targetName, 0, "== 1 passed, 1 skipped in 0.10s ==\n".toList, []⟩

theorem skippedAfter_runs : @TargetRuns asciiData skippedAfter failingSuite [testX, testY] beforeStep afterStep
    failedBefore passedOrSkipped := by
  have hruns : @verificationRuns asciiData skippedAfter failingSuite = .ok ([beforeStep], [afterStep]) := by
    decide +kernel
  have hsum : (@parseTestOutput asciiData afterStep.output).map (fun s => (s.parsed, s.passed)) = .ok (true, 1) := by
    decide +kernel
  obtain ⟨s, hs, hshown⟩ := ok_of_map hsum
  have htake : [testX, testY].take maxTargetTests = [testX, testY] := rfl
  have hbase : @PytestRun asciiData [testX, testY] failedBefore beforeStep := by
    refine @PytestRun.mk asciiData _ _ _ ?_ (fun h => nomatch h) (fun _ => ⟨testX, by simp, .inl rfl⟩) (fun h => nomatch h)
    intro t ht
    by_contra hnot
    refine ht (if_neg ?_)
    simpa using hnot
  have hpatched : @PytestRun asciiData [testX, testY] passedOrSkipped afterStep := by
    refine @PytestRun.mk asciiData _ _ _ ?_ ?_ (fun h => nomatch h) (fun _ => ⟨s, hs, ?_, ?_⟩)
    · intro t ht
      by_contra hnot
      simp only [List.mem_cons, List.not_mem_nil, or_false, not_or] at hnot
      exact ht ((if_neg hnot.1).trans (if_neg hnot.2))
    · intro _ t ht
      unfold TestReport.Failed passedOrSkipped at ht
      split_ifs at ht <;> rcases ht with ht | ht <;> cases ht
    · exact congrArg Prod.fst hshown
    · exact congrArg Prod.snd hshown
  exact @TargetRuns.mk asciiData _ _ _ _ _ _ _ (by decide +kernel) ⟨_, hruns, by decide, by decide⟩ hbase hpatched

theorem skippedAfter_rerun : (@exactTestRerun asciiData skippedAfter failingSuite = .ok .passed →
      ∀ t ∈ [testX, testY], failedBefore.Failed t ∧ passedOrSkipped t = some .passed) ↔
    (beforeStep.returncode = pytestTestsFailed → afterStep.returncode = 0 →
      1 ≤ passedOrSkipped.passedCount ([testX, testY].take maxTargetTests) →
      failedBefore.failedCount ([testX, testY].take maxTargetTests) = 2 ∧
        passedOrSkipped.passedCount ([testX, testY].take maxTargetTests) = 2) :=
  @exactTestRerun_passed_iff asciiData _ _ _ _ _ _ _ skippedAfter_runs

/-- A test that is only skipped with the patch counts as passed. -/
theorem skippedAfter_passed : ∃ report ids b a before after,
    @collectVerification asciiData skippedAfter failingSuite = .ok report ∧
    @TargetRuns asciiData skippedAfter failingSuite ids b a before after ∧
    @exactTestRerun asciiData skippedAfter failingSuite = .ok .passed ∧
    ¬ ∀ t ∈ ids, before.Failed t ∧ after t = some .passed := by
  have hstate : (@collectVerification asciiData skippedAfter failingSuite).map (·.result.targetedTestPassed) =
      .ok (some true) := by decide +kernel
  obtain ⟨report, hreport, -⟩ := ok_of_map hstate
  refine ⟨report, _, _, _, _, _, hreport, skippedAfter_runs, by decide +kernel, ?_⟩
  intro hall
  have hpassed := (hall testY (by decide)).2
  cases hpassed

end FailureOrchestrator
