import FailureOrchestrator.BrokenChecks

namespace FailureOrchestrator

/-- What all of a list loses is at most what all of it gains when the sum does not drop. -/
theorem sum_losses_le_sum_gains {α : Type} {f g : α → Nat} {xs : List α} (h : (xs.map f).sum ≤ (xs.map g).sum) :
    (xs.map fun x => f x - g x).sum ≤ (xs.map fun x => g x - f x).sum := by
  have hbalance : (xs.map fun x => f x - g x).sum + (xs.map g).sum = (xs.map fun x => g x - f x).sum + (xs.map f).sum := by
    clear h
    induction xs with
    | nil => rfl
    | cons x xs ih =>
      simp only [List.map_cons, List.sum_cons]
      omega
  omega

theorem map_zip_fst {α β : Type} {xs ys : List α} (f : α → β) (h : xs.length = ys.length) :
    ((xs.zip ys).map fun p => f p.1) = xs.map f := by
  calc ((xs.zip ys).map fun p => f p.1) = ((xs.zip ys).map Prod.fst).map f := List.map_map.symm
    _ = xs.map f := by rw [List.map_fst_zip h.le]

theorem map_zip_snd {α β : Type} {xs ys : List α} (f : α → β) (h : xs.length = ys.length) :
    ((xs.zip ys).map fun p => f p.2) = ys.map f := by
  calc ((xs.zip ys).map fun p => f p.2) = ((xs.zip ys).map Prod.snd).map f := List.map_map.symm
    _ = ys.map f := by rw [List.map_snd_zip h.ge]

/-- Tests that were collected but not run, or expected to fail. -/
def TestRunSummary.notChecked (s : TestRunSummary) : Nat := s.skipped + s.xfailed + s.deselected

/-- The last coverage that some runs report. -/
def lastCoverage (items : List TestRunSummary) : Option (WithTop ℚ) := items.reverse.findSome? (·.coveragePercent)

theorem total_combineSummaries (items : List TestRunSummary) :
    (combineSummaries items).total = (items.map TestRunSummary.total).sum := by
  induction items with
  | nil => rfl
  | cons s items ih =>
    simp only [TestRunSummary.total, combineSummaries, List.map_cons, List.sum_cons] at ih ⊢
    omega

theorem notChecked_combineSummaries (items : List TestRunSummary) :
    (combineSummaries items).notChecked = (items.map TestRunSummary.notChecked).sum := by
  induction items with
  | nil => rfl
  | cons s items ih =>
    simp only [TestRunSummary.notChecked, combineSummaries, List.map_cons, List.sum_cons] at ih ⊢
    omega

/-- The difference of a percentage and the tolerance is not rounded. -/
def ExactDifference (b t : ℚ) : Prop := nearestDouble (b - t).num.natAbs (b - t).den = ((|b - t| : ℚ) : WithTop ℚ)

theorem le_of_not_coverageLost {b a t : ℚ} (h : coverageLost b a t = false) (hexact : ExactDifference b t) : b - t ≤ a := by
  have hlost : ¬ a < if b < t then -|b - t| else |b - t| := by
    have hbound : (nearestDouble (b - t).num.natAbs (b - t).den).untopD 0 = |b - t| := by
      rw [hexact]
      rfl
    rw [← hbound]
    simpa only [coverageLost, decide_eq_false_iff_not] using h
  split at hlost
  next hlt =>
    rw [abs_of_neg (sub_neg.mpr hlt), neg_neg] at hlost
    exact not_lt.mp hlost
  next hge =>
    rw [abs_of_nonneg (sub_nonneg.mpr (not_lt.mp hge))] at hlost
    exact not_lt.mp hlost

theorem Checkout.runBase_eq {c : Checkout} {commands : List NamedCommand} {steps : List VerificationStep}
    (h : c.runBase commands = some steps) : steps = commands.map (runStep c.executeBase) := by
  unfold Checkout.runBase at h
  split at h
  next hnil =>
    cases h
    rw [hnil, List.map_nil]
  next =>
    split at h
    next =>
      cases h
      rfl
    next => cases h

theorem Checkout.runPatched_eq {c : Checkout} {patch : Str} {commands : List NamedCommand} {steps : List VerificationStep}
    (h : c.runPatched patch commands = some steps) : steps = commands.map (runStep c.executePatched) := by
  unfold Checkout.runPatched at h
  split at h
  next hnil =>
    cases h
    rw [hnil, List.map_nil]
  next =>
    split at h
    next =>
      cases h
      rfl
    next => cases h

theorem coverageGate_passed {config : VerificationConfig} {before after : TestRunSummary}
    (h : waivable config "coverage" (coverageGate before after config.coverageTolerance true) = .passed) :
    ∃ b a, before.coveragePercent = some b ∧ after.coveragePercent = some a ∧
      coverageLost b a config.coverageTolerance = false := by
  unfold waivable at h
  split at h
  next => cases h
  next =>
    unfold coverageGate at h
    split at h
    next b a hb ha _ =>
      split at h
      next => cases h
      next hlost => exact ⟨b, a, hb, ha, by simpa using hlost⟩
    next => cases h

section

variable [UnicodeData] {c : Checkout} {v : VerificationInput} {report : VerificationReport}

/-- What `assess` reads off the regression commands once their counts are known. -/
theorem assess_counts {reproduced : Option Bool} {codes : List Str} {risk : Str × List Str} {targetIds : List Str}
    {beforeRun afterRun : Option (List VerificationStep)} {decreased : Bool}
    (h : assess v reproduced codes risk targetIds beforeRun afterRun = .ok report)
    (hcount : report.result.testCountDecreased = some decreased) :
    ∃ before after regBefore regAfter, beforeRun = some before ∧ afterRun = some after ∧
      summaryOf (commandNames Gate.regression.name v.config.regression.length) before = .ok regBefore ∧
      summaryOf (commandNames Gate.regression.name v.config.regression.length) after = .ok regAfter ∧
      decreased = decide (regAfter.total < regBefore.total) ∧
      report.result.skippedTestsIncreased = some (decide (regBefore.notChecked < regAfter.notChecked)) ∧
      report.result.coverage =
        waivable v.config "coverage" (coverageGate regBefore regAfter v.config.coverageTolerance true) := by
  obtain ⟨exact, -, h⟩ := bind_eq_ok h
  obtain ⟨regBefore, hbefore, h⟩ := bind_eq_ok h
  obtain ⟨regAfter, hafter, h⟩ := bind_eq_ok h
  obtain ⟨affBefore, -, h⟩ := bind_eq_ok h
  obtain ⟨affAfter, -, h⟩ := bind_eq_ok h
  cases h
  dsimp only at hcount ⊢
  split at hcount
  next hknown =>
    cases hcount
    cases beforeRun with
    | none => simp at hknown
    | some before =>
      cases afterRun with
      | none => simp at hknown
      | some after =>
        rw [if_pos hknown]
        exact ⟨before, after, regBefore, regAfter, rfl, rfl, hbefore, hafter, rfl, rfl, rfl⟩
  next => cases hcount

theorem summaryOf_run {execute : Str → List Str → CommandOutcome} {commands run : List NamedCommand} {sum : TestRunSummary}
    (hnodup : (run.map Prod.fst).Nodup) (hsub : ∀ command ∈ commands, command ∈ run)
    (h : summaryOf (commands.map Prod.fst) (run.map (runStep execute)) = .ok sum) :
    ∃ items, List.Forall₂ (fun command s => parseTestOutput (runStep execute command).output = .ok s) commands items ∧
      sum = combineSummaries items := by
  obtain ⟨items, hitems, h⟩ := bind_eq_ok h
  cases h
  rw [steps_of_names hnodup hsub] at hitems
  exact ⟨items, List.forall₂_map_left_iff.mp (mapM_ok_forall₂ hitems), rfl⟩

/-- When the counts are said not to be worse and the coverage to be kept, the regression commands together lose at most
the tests that they gain, leave out at most the tests that they check again, and the last coverage is kept. -/
theorem suite_not_worse (h : collectVerification c v = .ok report) (hcount : report.result.testCountDecreased = some false)
    (hskipped : report.result.skippedTestsIncreased = some false) (hcoverage : report.result.coverage = .passed) :
    ∃ regression before after, numberedCommands c.which Gate.regression.name 1 v.config.regression = .ok regression ∧
      List.Forall₂ (fun command s => parseTestOutput (runStep c.executeBase command).output = .ok s) regression before ∧
      List.Forall₂ (fun command s => parseTestOutput (runStep c.executePatched command).output = .ok s) regression after ∧
      ((before.zip after).map fun p => p.1.total - p.2.total).sum ≤
        ((before.zip after).map fun p => p.2.total - p.1.total).sum ∧
      ((before.zip after).map fun p => p.2.notChecked - p.1.notChecked).sum ≤
        ((before.zip after).map fun p => p.1.notChecked - p.2.notChecked).sum ∧
      ∃ b a, lastCoverage before = some b ∧ lastCoverage after = some a ∧
        coverageLost b a v.config.coverageTolerance = false ∧
        ∀ b' a' t : ℚ, b = b' → a = a' → v.config.coverageTolerance = t → ExactDifference b' t → b' - t ≤ a' := by
  obtain ⟨⟨reproduced, localFailure, failing⟩, -, h⟩ := bind_eq_ok h
  obtain ⟨codes, -, h⟩ := bind_eq_ok h
  obtain ⟨risk, -, h⟩ := bind_eq_ok h
  obtain ⟨plan, hplan, h⟩ := bind_eq_ok h
  obtain ⟨shared, hshared, -, hmem, hbeforeNodup, hafterNodup⟩ := verificationPlan_ok hplan
  obtain ⟨S⟩ := exists_shared hshared
  obtain ⟨beforeSteps, afterSteps, regBefore, regAfter, hbeforeRun, hafterRun, hregBefore, hregAfter, hless, hmore, hkept⟩ :=
    assess_counts h hcount
  have hnames : (S.gates .regression).map Prod.fst = commandNames Gate.regression.name v.config.regression.length :=
    S.names_gate .regression
  rw [c.runBase_eq hbeforeRun, ← hnames] at hregBefore
  rw [c.runPatched_eq hafterRun, ← hnames] at hregAfter
  obtain ⟨before, hbefore, rfl⟩ := summaryOf_run hbeforeNodup (fun command hin => (hmem command (S.mem_gate hin)).1) hregBefore
  obtain ⟨after, hafter, rfl⟩ := summaryOf_run hafterNodup (fun command hin => (hmem command (S.mem_gate hin)).2) hregAfter
  have hlength : before.length = after.length := hbefore.length_eq.symm.trans hafter.length_eq
  refine ⟨S.gates .regression, before, after, S.numbered .regression, hbefore, hafter, ?_, ?_, ?_⟩
  · have htotal : ¬ (combineSummaries after).total < (combineSummaries before).total := of_decide_eq_false hless.symm
    rw [total_combineSummaries, total_combineSummaries] at htotal
    apply sum_losses_le_sum_gains
    rw [map_zip_fst _ hlength, map_zip_snd _ hlength]
    exact not_lt.mp htotal
  · have hleft : ¬ (combineSummaries before).notChecked < (combineSummaries after).notChecked :=
      of_decide_eq_false (Option.some.inj (hmore.symm.trans hskipped))
    rw [notChecked_combineSummaries, notChecked_combineSummaries] at hleft
    apply sum_losses_le_sum_gains
    rw [map_zip_fst _ hlength, map_zip_snd _ hlength]
    exact not_lt.mp hleft
  · rw [hkept] at hcoverage
    obtain ⟨b, a, hb, ha, hlost⟩ := coverageGate_passed hcoverage
    refine ⟨b, a, hb, ha, hlost, ?_⟩
    rintro b' a' t rfl rfl ht hexact
    rw [ht] at hlost
    exact le_of_not_coverageLost hlost hexact

end

/-- What a suite with coverage prints. -/
def suiteOutput (counts : String) : CommandOutcome :=
  .completed 0 ("TOTAL 9 1 90%\n".toList ++ counts.toList ++ " in 0.1s".toList) []

/-- The patch takes a test from the first command, and the second command has one more. -/
@[reducible] def shiftedTests : Checkout where
  lsTree := "src/a.py\n".toList
  which := fun _ => none
  baseCreated := true
  patchApplies := true
  executeBase := fun name _ => suiteOutput (if name = "regression-1".toList then "2 passed" else "1 passed")
  executePatched := fun name _ => suiteOutput (if name = "regression-1".toList then "1 passed" else "2 passed")

theorem shiftedTests_report : ∃ report, @collectVerification asciiData shiftedTests twoSuites = .ok report ∧
    report.result.testCountDecreased = some false ∧ report.result.skippedTestsIncreased = some false ∧
    report.result.coverage = .passed := by
  have hflags : (@collectVerification asciiData shiftedTests twoSuites).map (fun report =>
      (report.result.testCountDecreased, report.result.skippedTestsIncreased, report.result.coverage)) =
      .ok (some false, some false, .passed) := by decide +kernel
  obtain ⟨report, hreport, hvalues⟩ := ok_of_map hflags
  exact ⟨report, hreport, congrArg Prod.fst hvalues, congrArg (fun x => x.2.1) hvalues, congrArg (fun x => x.2.2) hvalues⟩

theorem shiftedTests_not_worse : ∃ regression before after,
    numberedCommands shiftedTests.which Gate.regression.name 1 twoSuites.config.regression = .ok regression ∧
    List.Forall₂ (fun command s => @parseTestOutput asciiData (runStep shiftedTests.executeBase command).output = .ok s)
      regression before ∧
    List.Forall₂ (fun command s => @parseTestOutput asciiData (runStep shiftedTests.executePatched command).output = .ok s)
      regression after ∧
    ((before.zip after).map fun p => p.1.total - p.2.total).sum ≤
      ((before.zip after).map fun p => p.2.total - p.1.total).sum := by
  obtain ⟨report, hreport, hcount, hskipped, hcoverage⟩ := shiftedTests_report
  obtain ⟨regression, before, after, hnumbered, hbefore, hafter, htotal, -⟩ :=
    @suite_not_worse asciiData _ _ report hreport hcount hskipped hcoverage
  exact ⟨regression, before, after, hnumbered, hbefore, hafter, htotal⟩

/-- The first of two commands loses a test, and the test that the second one gains hides it. -/
theorem shiftedTests_masked : ¬ ∀ (c : Checkout) (v : VerificationInput) (report : VerificationReport)
    (regression : List NamedCommand) (command : NamedCommand) (before after : TestRunSummary),
    @collectVerification asciiData c v = .ok report → report.result.testCountDecreased = some false →
    report.result.skippedTestsIncreased = some false → report.result.coverage = .passed →
    numberedCommands c.which Gate.regression.name 1 v.config.regression = .ok regression → command ∈ regression →
    @parseTestOutput asciiData (runStep c.executeBase command).output = .ok before →
    @parseTestOutput asciiData (runStep c.executePatched command).output = .ok after → before.parsed = true →
    after.parsed = true → before.total ≤ after.total ∧ after.notChecked ≤ before.notChecked ∧
      ∀ b a, before.coveragePercent = some b → after.coveragePercent = some a →
        coverageLost b a v.config.coverageTolerance = false := by
  intro h
  have hcommands : numberedCommands shiftedTests.which Gate.regression.name 1 twoSuites.config.regression =
      .ok [("regression-1".toList, ["pytest".toList, "a.py".toList]),
        ("regression-2".toList, ["pytest".toList, "b.py".toList])] := by decide +kernel
  have hbefore : (@parseTestOutput asciiData (runStep shiftedTests.executeBase
      ("regression-1".toList, ["pytest".toList, "a.py".toList])).output).map (fun s => (s.parsed, s.total)) =
      .ok (true, 2) := by decide +kernel
  have hafter : (@parseTestOutput asciiData (runStep shiftedTests.executePatched
      ("regression-1".toList, ["pytest".toList, "a.py".toList])).output).map (fun s => (s.parsed, s.total)) =
      .ok (true, 1) := by decide +kernel
  obtain ⟨report, hreport, hcount, hskipped, hcoverage⟩ := shiftedTests_report
  obtain ⟨before, hparsed, hvalues⟩ := ok_of_map hbefore
  obtain ⟨after, hparsed', hvalues'⟩ := ok_of_map hafter
  have hkept := (h _ _ report _ _ before after hreport hcount hskipped hcoverage hcommands List.mem_cons_self hparsed hparsed'
    (congrArg Prod.fst hvalues) (congrArg Prod.fst hvalues')).1
  have hbeforeTotal : before.total = 2 := congrArg Prod.snd hvalues
  have hafterTotal : after.total = 1 := congrArg Prod.snd hvalues'
  omega

end FailureOrchestrator
