import FailureOrchestrator.PatchChecks

namespace FailureOrchestrator

section

variable [UnicodeData] {c : Checkout} {v : VerificationInput} {report : VerificationReport}

/-- The same verification without any waiver. -/
def VerificationInput.withoutWaivers (v : VerificationInput) : VerificationInput :=
  { v with config := { v.config with waivers := [] } }

omit [UnicodeData] in
/-- A waived gate is not run when its waiver is taken away. -/
theorem notRun_of_waivers_nil {config w : VerificationConfig} {gate : String} {status : GateStatus}
    (hstatus : status ≠ .waived) (h : waivable config gate status = .waived) (hnone : w.waivers = []) :
    waivable w gate status = .notRun := by
  rw [notRun_of_waived hstatus h]
  unfold waivable
  rw [hnone]
  rfl

omit [UnicodeData] in
theorem gateStatus_ne_waived {config : VerificationConfig} {gate : Gate} {before after : List VerificationStep}
    {worktreesOk : Bool} : gateStatus config gate before after worktreesOk ≠ .waived := by
  unfold gateStatus
  split
  · exact commandGate_ne_waived
  · exact nofun

theorem assess_withoutWaivers {reproduced : Option Bool} {codes : List Str} {risk : Str × List Str} {targetIds : List Str}
    {before after : Option (List VerificationStep)}
    (h : assess v reproduced codes risk targetIds before after = .ok report) :
    ∃ unwaived, assess v.withoutWaivers reproduced codes risk targetIds before after = .ok unwaived ∧
      ∀ g ∈ report.result.gates, g.2 = .waived → (g.1, GateStatus.notRun) ∈ unwaived.result.gates := by
  obtain ⟨exact, hexact, h⟩ := bind_eq_ok h
  obtain ⟨regBefore, hregBefore, h⟩ := bind_eq_ok h
  obtain ⟨regAfter, hregAfter, h⟩ := bind_eq_ok h
  obtain ⟨affBefore, haffBefore, h⟩ := bind_eq_ok h
  obtain ⟨affAfter, haffAfter, h⟩ := bind_eq_ok h
  cases h
  refine ⟨_, bind_ok hexact (bind_ok hregBefore (bind_ok hregAfter (bind_ok haffBefore (bind_ok haffAfter rfl)))), ?_⟩
  have hsuite : (if (before.isSome && after.isSome) = true then
      (testGate (commandNames Gate.regression.name v.config.regression.length) (before.getD []) (after.getD []) regBefore
        regAfter targetIds).1 else GateStatus.notRun) ≠ .waived := by
    split
    · exact testGate_ne_waived
    · exact nofun
  intro g hg hwaived
  simp only [VerificationResult.gates, List.mem_cons, List.not_mem_nil, or_false] at hg ⊢
  rcases hg with rfl | rfl | rfl | rfl | rfl | rfl | rfl | rfl
  · exact absurd hwaived (affectedGate_ne_waived hsuite)
  · exact absurd hwaived hsuite
  · have hnone := notRun_of_waivers_nil (w := v.withoutWaivers.config) coverageGate_ne_waived hwaived rfl
    exact .inr (.inr (.inl (Prod.ext rfl hnone.symm)))
  · have hnone := notRun_of_waivers_nil (w := v.withoutWaivers.config) gateStatus_ne_waived hwaived rfl
    exact .inr (.inr (.inr (.inl (Prod.ext rfl hnone.symm))))
  · have hnone := notRun_of_waivers_nil (w := v.withoutWaivers.config) gateStatus_ne_waived hwaived rfl
    exact .inr (.inr (.inr (.inr (.inl (Prod.ext rfl hnone.symm)))))
  · have hnone := notRun_of_waivers_nil (w := v.withoutWaivers.config) gateStatus_ne_waived hwaived rfl
    exact .inr (.inr (.inr (.inr (.inr (.inl (Prod.ext rfl hnone.symm))))))
  · have hnone := notRun_of_waivers_nil (w := v.withoutWaivers.config) gateStatus_ne_waived hwaived rfl
    exact .inr (.inr (.inr (.inr (.inr (.inr (.inl (Prod.ext rfl hnone.symm)))))))
  · have hnone := notRun_of_waivers_nil (w := v.withoutWaivers.config) aggregateInvariants_ne_waived hwaived rfl
    exact .inr (.inr (.inr (.inr (.inr (.inr (.inr (Prod.ext rfl hnone.symm)))))))

theorem collectVerification_withoutWaivers (h : collectVerification c v = .ok report) :
    ∃ unwaived, collectVerification c v.withoutWaivers = .ok unwaived ∧
      ∀ g ∈ report.result.gates, g.2 = .waived → (g.1, GateStatus.notRun) ∈ unwaived.result.gates := by
  obtain ⟨repro, hrepro, h⟩ := bind_eq_ok h
  obtain ⟨codes, hcodes, h⟩ := bind_eq_ok h
  obtain ⟨risk, hrisk, h⟩ := bind_eq_ok h
  obtain ⟨plan, hplan, h⟩ := bind_eq_ok h
  obtain ⟨unwaived, hassess, hgates⟩ := assess_withoutWaivers h
  exact ⟨unwaived, bind_ok hrepro (bind_ok hcodes (bind_ok hrisk (bind_ok hplan hassess))), hgates⟩

/-- A patch that breaks a configured check is not approved, and a waiver only stands in for a gate that did not run. -/
theorem broken_check_blocked (h : collectVerification c v = .ok report) (hbase : c.baseCreated = true)
    (hpatch : strip v.patch ≠ [] ∧ c.patchApplies = true) :
    (∀ shared, sharedCommands c.which v.config = .ok shared →
      ∀ command ∈ shared, c.Breaks command → report.decision.Blocked) ∧
    (∀ regression t, numberedCommands c.which Gate.regression.name 1 v.config.regression = .ok regression →
      c.NewlyFails regression t →
      (∀ reproduced localFailure failing, reproduction v.baseline v.ciFailureLog =
        .ok (reproduced, localFailure, failing) → t ∉ targetTests c localFailure) → report.decision.Blocked) ∧
    ∃ unwaived, collectVerification c v.withoutWaivers = .ok unwaived ∧
      ∀ g ∈ report.result.gates, g.2 = .waived → (g.1, GateStatus.notRun) ∈ unwaived.result.gates := by
  refine ⟨?_, ?_, collectVerification_withoutWaivers h⟩
  · intro shared hshared command hcommand hbreaks
    exact blocked_of_breaks h hbase hpatch hshared hcommand hbreaks
  · intro regression t hregression hnew htarget
    exact blocked_of_newlyFails h hbase hpatch hregression hnew htarget

end

def samplePatch : Str :=
  "diff --git a/src/a.py b/src/a.py\n--- a/src/a.py\n+++ b/src/a.py\n@@ -1 +1 @@\n-x = 1\n+x = 2\n".toList

/-- What pytest prints and returns when one test failed. -/
def failedTest (t : String) : CommandOutcome := .completed 1 ("FAILED ".toList ++ t.toList) []

/-- Two regression commands; the patch makes the first one fail at the test the second one failed at before. -/
@[reducible] def shiftedFailure : Checkout where
  lsTree := "src/a.py\n".toList
  which := fun _ => none
  baseCreated := true
  patchApplies := true
  executeBase := fun name _ => if name = "regression-1".toList then failedTest "a.py::x" else failedTest "b.py::y"
  executePatched := fun _ _ => failedTest "b.py::y"

@[reducible] def twoSuites : VerificationInput where
  patch := samplePatch
  commands := []
  baseline := []
  config := { regression := ["pytest a.py".toList, "pytest b.py".toList] }
  policyOutcome := some "APPROVE".toList

/-- A lint command that the patch breaks. -/
@[reducible] def brokenLint : Checkout where
  lsTree := "src/a.py\n".toList
  which := fun _ => none
  baseCreated := true
  patchApplies := true
  executeBase := fun _ _ => .completed 0 [] []
  executePatched := fun _ _ => .completed 1 [] []

@[reducible] def lintOnly : VerificationInput where
  patch := samplePatch
  commands := []
  baseline := []
  config := { lint := ["ruff check".toList], waivers := [("coverage".toList, "none measured".toList)] }
  policyOutcome := some "APPROVE".toList

theorem brokenLint_blocked : ∃ report unwaived, @collectVerification asciiData brokenLint lintOnly = .ok report ∧
    report.decision.Blocked ∧ @collectVerification asciiData brokenLint lintOnly.withoutWaivers = .ok unwaived ∧
    ∀ g ∈ report.result.gates, g.2 = .waived → (g.1, GateStatus.notRun) ∈ unwaived.result.gates := by
  have hstate : (@collectVerification asciiData brokenLint lintOnly).map (·.decision.state) =
      .ok .regressionDetected := by decide +kernel
  obtain ⟨report, hreport, -⟩ := ok_of_map hstate
  obtain ⟨hblocked, -, unwaived, hunwaived, hgates⟩ :=
    @broken_check_blocked asciiData brokenLint lintOnly report hreport rfl ⟨by decide +kernel, rfl⟩
  have hshared : sharedCommands brokenLint.which lintOnly.config =
      .ok [("lint-1".toList, ["ruff".toList, "check".toList])] := by decide +kernel
  have hbreaks : brokenLint.Breaks ("lint-1".toList, ["ruff".toList, "check".toList]) := by
    exact ⟨rfl, rfl⟩
  exact ⟨report, unwaived, hreport, hblocked _ hshared _ List.mem_cons_self hbreaks, hunwaived, hgates⟩

/-- The first command fails in both runs and reports a test it did not report before; the patch is approved. -/
theorem shiftedFailure_approved : ∃ report regression command t,
    @collectVerification asciiData shiftedFailure twoSuites = .ok report ∧
    shiftedFailure.baseCreated = true ∧ strip twoSuites.patch ≠ [] ∧ shiftedFailure.patchApplies = true ∧
    numberedCommands shiftedFailure.which Gate.regression.name 1 twoSuites.config.regression = .ok regression ∧
    command ∈ regression ∧
    (runStep shiftedFailure.executeBase command).passed = false ∧
    (runStep shiftedFailure.executePatched command).passed = false ∧
    @VerificationStep.Reports asciiData (runStep shiftedFailure.executePatched command) t ∧
    ¬ @VerificationStep.Reports asciiData (runStep shiftedFailure.executeBase command) t ∧
    (∀ reproduced localFailure failing, @reproduction asciiData twoSuites.baseline twoSuites.ciFailureLog =
      .ok (reproduced, localFailure, failing) → t ∉ @targetTests shiftedFailure localFailure) ∧
    ¬ report.decision.Blocked := by
  have hstate : (@collectVerification asciiData shiftedFailure twoSuites).map (·.decision.state) =
      .ok .policyApproved := by decide +kernel
  have hcommands : numberedCommands shiftedFailure.which Gate.regression.name 1 twoSuites.config.regression =
      .ok [("regression-1".toList, ["pytest".toList, "a.py".toList]),
        ("regression-2".toList, ["pytest".toList, "b.py".toList])] := by decide +kernel
  have hbefore : (@parseTestOutput asciiData (runStep shiftedFailure.executeBase
      ("regression-1".toList, ["pytest".toList, "a.py".toList])).output).map (·.failedIds) =
      .ok ["a.py::x".toList] := by decide +kernel
  have hafter : (@parseTestOutput asciiData (runStep shiftedFailure.executePatched
      ("regression-1".toList, ["pytest".toList, "a.py".toList])).output).map (·.failedIds) =
      .ok ["b.py::y".toList] := by decide +kernel
  have hlocal : (@reproduction asciiData twoSuites.baseline twoSuites.ciFailureLog).map (·.2.1.failedTests) =
      .ok [] := by decide +kernel
  obtain ⟨report, hreport, happroved⟩ := ok_of_map hstate
  obtain ⟨sumBefore, hsumBefore, hidsBefore⟩ := ok_of_map hbefore
  obtain ⟨sumAfter, hsumAfter, hidsAfter⟩ := ok_of_map hafter
  refine ⟨report, _, _, "b.py::y".toList, hreport, rfl, by decide +kernel, rfl, hcommands, List.mem_cons_self, rfl, rfl,
    ?_, ?_, ?_, ?_⟩
  · refine ⟨sumAfter, hsumAfter, ?_⟩
    rw [hidsAfter]
    exact List.mem_cons_self
  · rintro ⟨s, hs, hmem⟩
    cases hsumBefore.symm.trans hs
    rw [hidsBefore] at hmem
    exact absurd (List.mem_singleton.mp hmem) (by decide +kernel)
  · intro reproduced localFailure failing hrepro
    rw [hrepro] at hlocal
    unfold targetTests
    rw [show localFailure.failedTests = [] from Except.ok.inj hlocal]
    exact nofun
  · rintro (h | h | h) <;> cases happroved.symm.trans h

end FailureOrchestrator
