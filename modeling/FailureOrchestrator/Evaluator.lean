import FailureOrchestrator.Fingerprint

namespace FailureOrchestrator

/-- A tool result with its metadata. -/
structure CommandResult extends ToolResult where
  metadata : List (String × Json) := []

structure SandboxRun extends SandboxResult where
  commandResults : List CommandResult := []

structure RunProposal extends RepairProposal where
  runId : Str

structure Evaluation extends EvaluationResult where
  regressionsDetected : Bool
  evidence : List Str

/-- Raised when a proposal cannot be evaluated. -/
structure EvaluationError where
  text : Str

def forbiddenMarkers : List String := ["secrets/", ".env", "id_rsa"]

/-- `c.metadata.get("step") == "relevant_tests"`. -/
def CommandResult.isRelevantTests (c : CommandResult) : Bool :=
  match c.metadata.lookup "step" with
  | some (.str step) => step = "relevant_tests".toList
  | _ => false

/-- The check of the first matching result, or of its absence. -/
def firstCheck (name : String) (absent : CheckStatus) (note : String) (width : Nat) :
    Option CommandResult → EvaluationCheck
  | none => ⟨name.toList, absent, note.toList⟩
  | some hit => ⟨name.toList, if hit.success then .passed else .failed, hit.stdout.take width⟩

/-- `sandbox.error or "applied"`. -/
def SandboxRun.applyDetail (sandbox : SandboxRun) : Str :=
  match sandbox.error with
  | none | some [] => "applied".toList
  | some error => error

namespace LocalEvaluator

variable [UnicodeData]

def isForbidden (path : Str) : Bool :=
  forbiddenMarkers.any fun marker => hasSub (UnicodeData.lower (replaceChar '\\' '/' path)) marker.toList

/-- `sandbox.changed_files or proposal.files_changed`. -/
def changedPaths (proposal : RunProposal) (sandbox : SandboxRun) : List Str :=
  if sandbox.changedFiles.isEmpty then proposal.filesChanged else sandbox.changedFiles

def target (sandbox : SandboxRun) : Option CommandResult :=
  sandbox.commandResults.find? fun c => c.toolName = "test_runner"

def relevant (sandbox : SandboxRun) : Option CommandResult :=
  sandbox.commandResults.find? CommandResult.isRelevantTests

def hit (sandbox : SandboxRun) (key : String) : Option CommandResult :=
  sandbox.commandResults.find? fun c => c.toolName = key

/-- Checks the applied patch, the target and relevant tests, the changed files, lint and type results. -/
def evaluate (proposal : RunProposal) (sandbox : SandboxRun) : Except EvaluationError Evaluation :=
  if proposal.runId.isEmpty then .error ⟨"proposal.run_id required".toList⟩ else
  let patchApplied := sandbox.patchApplied && sandbox.error.isNone
  let target := target sandbox
  let targetStatus : CheckStatus := match target with
    | none => .notRun
    | some c => if c.success then .passed else .failed
  let forbidden := (changedPaths proposal sandbox).any isForbidden
  let regressions := if target.any fun c => !c.success then true
    else sandbox.timeout || target.any fun c => !c.success && patchApplied
  let passed := patchApplied && !forbidden && !sandbox.timeout && target.all (·.success) && sandbox.error.isNone
  .ok
    { runId := proposal.runId
      passed := if target.isNone then false else passed
      patchApplied := patchApplied
      targetVerificationPassed := target.any (·.success)
      regressionsDetected := regressions
      forbiddenChangesDetected := forbidden
      checks :=
        [⟨"PATCH_APPLIED".toList, if patchApplied then .passed else .failed, sandbox.applyDetail⟩,
          firstCheck "TARGET_TEST_PASSED" .notRun "no_test_runner_result" 200 target,
          firstCheck "RELEVANT_TESTS_PASSED" .unavailable "not_configured" 200 (relevant sandbox),
          ⟨"NO_FORBIDDEN_FILES_CHANGED".toList, if forbidden then .failed else .passed,
            if forbidden then "forbidden_detected".toList else "ok".toList⟩,
          firstCheck "NO_NEW_LINT_ERRORS" .skipped "not_run" 120 (hit sandbox "lint"),
          firstCheck "NO_NEW_TYPE_ERRORS" .skipped "not_run" 120 (hit sandbox "typecheck")]
      evidence :=
        ["patch_applied=".toList ++ boolStr patchApplied,
          "target_verification=".toList ++ targetStatus.value.toList,
          "forbidden_changes=".toList ++ boolStr forbidden,
          "regressions_detected=".toList ++ boolStr regressions] ++
        if target.isNone then ["fail_closed_missing_target_verification".toList] else [] }

/-- What the verdict looks at. -/
structure Accepts (proposal : RunProposal) (sandbox : SandboxRun) : Prop where
  patchApplied : sandbox.patchApplied = true
  noError : sandbox.error = none
  inTime : sandbox.timeout = false
  allowed : ∀ path ∈ changedPaths proposal sandbox, isForbidden path = false
  tested : ∃ c, target sandbox = some c ∧ c.success = true

/-- The results that name a check of the evaluation. -/
def Verifies (c : CommandResult) : Prop :=
  c.toolName = "test_runner" ∨ c.toolName = "lint" ∨ c.toolName = "typecheck" ∨ c.isRelevantTests = true

/-- The results of checks that the verdict does not look at: every one but the first test run. -/
def overlooked (sandbox : SandboxRun) : List CommandResult :=
  (sandbox.commandResults.filter fun c => c.toolName = "test_runner").tail ++
    sandbox.commandResults.filter fun c => c.toolName = "lint" || c.toolName = "typecheck" || c.isRelevantTests

variable {proposal : RunProposal} {sandbox : SandboxRun} {result : Evaluation}

omit [UnicodeData] in
theorem firstCheck_failed_iff {name note : String} {absent : CheckStatus} {width : Nat} {hit : Option CommandResult}
    (habsent : absent ≠ .failed) :
    (firstCheck name absent note width hit).status = .failed ↔ ∃ c, hit = some c ∧ c.success = false := by
  cases hit with
  | none => simp [firstCheck, habsent]
  | some c => cases h : c.success <;> simp [firstCheck, h]

omit [UnicodeData] in
theorem head_filter {p : CommandResult → Bool} {results : List CommandResult} {c : CommandResult}
    (h : results.find? p = some c) : results.filter p = c :: (results.filter p).tail := by
  rw [← List.head?_filter] at h
  exact (List.cons_head?_tail h).symm

/-- Besides the accepted test run, the overlooked results are all the results of checks. -/
theorem succeeded_iff (haccepts : Accepts proposal sandbox) :
    (∀ c ∈ sandbox.commandResults, Verifies c → c.success = true) ↔ ∀ c ∈ overlooked sandbox, c.success = true := by
  obtain ⟨first, hfirst, hsuccess⟩ := haccepts.tested
  have hruns := head_filter hfirst
  constructor
  · intro h c hc
    obtain htail | hother := List.mem_append.mp hc
    · have hmem := List.mem_filter.mp (List.mem_of_mem_tail htail)
      exact h c hmem.1 (.inl (of_decide_eq_true hmem.2))
    · obtain ⟨hmem, hkind⟩ := List.mem_filter.mp hother
      simp only [Bool.or_eq_true, decide_eq_true_eq, or_assoc] at hkind
      exact h c hmem (.inr hkind)
  · intro h c hmem hverifies
    obtain hrun | hother := hverifies
    · have hc : c ∈ sandbox.commandResults.filter fun c => c.toolName = "test_runner" :=
        List.mem_filter.mpr ⟨hmem, decide_eq_true hrun⟩
      rw [hruns] at hc
      obtain rfl | htail := List.mem_cons.mp hc
      · exact hsuccess
      · exact h c (List.mem_append_left _ htail)
    · refine h c (List.mem_append_right _ (List.mem_filter.mpr ⟨hmem, ?_⟩))
      simpa only [Bool.or_eq_true, decide_eq_true_eq, or_assoc] using hother

theorem passed_iff (h : evaluate proposal sandbox = .ok result) :
    result.passed = true ↔ Accepts proposal sandbox := by
  unfold evaluate at h
  split at h
  next => cases h
  next =>
    cases h
    constructor
    · intro hpassed
      cases htarget : target sandbox with
      | none => simp [htarget] at hpassed
      | some c =>
        simp only [htarget, Option.isNone_some, Bool.false_eq_true, if_false, Option.all_some, Bool.and_eq_true,
          Bool.not_eq_true', Option.isNone_iff_eq_none, List.any_eq_false, Bool.not_eq_true] at hpassed
        obtain ⟨⟨⟨⟨⟨hpatch, herror⟩, hallowed⟩, htime⟩, hsuccess⟩, -⟩ := hpassed
        exact ⟨hpatch, herror, htime, hallowed, c, htarget, hsuccess⟩
    · intro haccepts
      obtain ⟨c, htarget, hsuccess⟩ := haccepts.tested
      have hallowed : (changedPaths proposal sandbox).any isForbidden = false :=
        List.any_eq_false.mpr fun path hpath => by simp [haccepts.allowed path hpath]
      simp [htarget, hsuccess, hallowed, haccepts.patchApplied, haccepts.noError, haccepts.inTime]

theorem noRegressions (h : evaluate proposal sandbox = .ok result) (haccepts : Accepts proposal sandbox) :
    result.regressionsDetected = false := by
  obtain ⟨c, htarget, hsuccess⟩ := haccepts.tested
  unfold evaluate at h
  split at h
  next => cases h
  next =>
    cases h
    simp [htarget, hsuccess, haccepts.inTime]

theorem checks_not_failed (h : evaluate proposal sandbox = .ok result) (haccepts : Accepts proposal sandbox)
    (hall : ∀ c ∈ overlooked sandbox, c.success = true) : ∀ check ∈ result.checks, check.status ≠ .failed := by
  obtain ⟨first, htarget, hsuccess⟩ := haccepts.tested
  have hallowed : (changedPaths proposal sandbox).any isForbidden = false :=
    List.any_eq_false.mpr fun path hpath => by simp [haccepts.allowed path hpath]
  have hlate {p : CommandResult → Bool} {c : CommandResult} (hfind : sandbox.commandResults.find? p = some c)
      (hkind : ∀ c, p c = true → (c.toolName = "lint" || c.toolName = "typecheck" || c.isRelevantTests) = true) :
      c.success = true :=
    hall c (List.mem_append_right _
      (List.mem_filter.mpr ⟨List.mem_of_find?_eq_some hfind, hkind c (List.find?_some hfind)⟩))
  unfold evaluate at h
  split at h
  next => cases h
  next =>
    cases h
    simp only [List.forall_mem_cons, List.not_mem_nil, false_implies, implies_true, and_true]
    refine ⟨?applied, ?tests, ?relevant, ?files, ?lint, ?types⟩
    case applied => simp [haccepts.patchApplied, haccepts.noError]
    case tests =>
      rw [Ne, firstCheck_failed_iff (by decide), htarget]
      rintro ⟨c, hc, hfailed⟩
      cases hc
      exact Bool.false_ne_true (hfailed.symm.trans hsuccess)
    case files => simp [hallowed]
    all_goals
      rw [Ne, firstCheck_failed_iff (by decide)]
      rintro ⟨c, hc, hfailed⟩
      refine Bool.false_ne_true (hfailed.symm.trans (hlate hc fun c hkind => ?_))
      simp_all

theorem evaluate_total (hrun : proposal.runId ≠ []) : ∃ result, evaluate proposal sandbox = .ok result :=
  ⟨_, if_neg (by simpa only [List.isEmpty_iff] using hrun)⟩

/-- A passing evaluation is all right exactly when the results that the verdict overlooks succeeded. -/
theorem evaluate_sound_iff (hrun : proposal.runId ≠ []) :
    (∀ result, evaluate proposal sandbox = .ok result → result.passed = true →
      (∀ check ∈ result.checks, check.status ≠ .failed) ∧
      (∀ c ∈ sandbox.commandResults, Verifies c → c.success = true) ∧ result.regressionsDetected = false) ↔
    (Accepts proposal sandbox → ∀ c ∈ overlooked sandbox, c.success = true) := by
  constructor
  · intro h haccepts
    obtain ⟨result, hresult⟩ : ∃ result, evaluate proposal sandbox = .ok result := evaluate_total hrun
    have hsound := h result hresult ((passed_iff hresult).mpr haccepts)
    exact (succeeded_iff haccepts).mp hsound.2.1
  · intro h result hresult hpassed
    have haccepts := (passed_iff hresult).mp hpassed
    exact ⟨checks_not_failed hresult haccepts (h haccepts), (succeeded_iff haccepts).mpr (h haccepts),
      noRegressions hresult haccepts⟩

end LocalEvaluator

open LocalEvaluator

def tracedProposal : RunProposal :=
  { proposalId := "p".toList, runId := "r".toList, filesChanged := ["src/a.py".toList], patch := "diff".toList }

def testedRun : SandboxRun :=
  { runId := "r".toList, proposalId := "p".toList, success := true, patchApplied := true,
    changedFiles := ["src/a.py".toList],
    commandResults := [{ toolName := "test_runner", success := true, stdout := "PASS".toList }] }

theorem testedRun_sound : tracedProposal.runId ≠ [] ∧
    ∀ result, @evaluate asciiData tracedProposal testedRun = .ok result → result.passed = true →
    (∀ check ∈ result.checks, check.status ≠ .failed) ∧
    (∀ c ∈ testedRun.commandResults, Verifies c → c.success = true) ∧ result.regressionsDetected = false :=
  ⟨by decide, (@evaluate_sound_iff asciiData tracedProposal testedRun (by decide)).mpr fun _ => by decide⟩

def lintFailure : CommandResult := { toolName := "lint", success := false, exitCode := 1, stdout := "F401".toList }

/-- The target test passes and the lint after it fails. -/
def unlintedRun : SandboxRun := { testedRun with commandResults := testedRun.commandResults ++ [lintFailure] }

theorem unlintedRun_accepted : @Accepts asciiData tracedProposal unlintedRun :=
  @Accepts.mk asciiData _ _ rfl rfl rfl (by decide +kernel)
    ⟨{ toolName := "test_runner", success := true, stdout := "PASS".toList }, rfl, rfl⟩

theorem unlintedRun_passes :
    ¬ ∀ result, @evaluate asciiData tracedProposal unlintedRun = .ok result → result.passed = true →
      (∀ check ∈ result.checks, check.status ≠ .failed) ∧
      (∀ c ∈ unlintedRun.commandResults, Verifies c → c.success = true) ∧ result.regressionsDetected = false := by
  intro h
  obtain ⟨result, hresult⟩ := @evaluate_total asciiData tracedProposal unlintedRun (by decide)
  have hpassed := (@passed_iff asciiData _ _ _ hresult).mpr unlintedRun_accepted
  have hlint : lintFailure.success = true :=
    (h result hresult hpassed).2.1 lintFailure (by simp [unlintedRun]) (.inr (.inl rfl))
  cases hlint

end FailureOrchestrator
