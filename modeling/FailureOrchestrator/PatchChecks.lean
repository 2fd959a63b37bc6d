import FailureOrchestrator.VerificationGates

namespace FailureOrchestrator

def VerificationResult.gate (v : VerificationResult) : Gate → GateStatus
  | .regression => v.regressionSuite
  | .lint => v.lint
  | .typecheck => v.typecheck
  | .security => v.security
  | .build => v.build

variable [UnicodeData] {c : Checkout} {v : VerificationInput} {report : VerificationReport}

theorem blocked_of_failed_gate {r : VerificationResult} {g : Str × GateStatus} (hg : g ∈ r.gates) (hfailed : g.2 = .failed) :
    (decideRemediation r).Blocked := by
  have hreg : regressionReasons r ≠ [] := fun h => (regressionReasons_eq_nil.mp h).2 g hg hfailed
  unfold RemediationDecision.Blocked decideRemediation
  by_cases hrej : rejectedReasons r = []
  · by_cases hfix : notFixedReasons r = []
    · simp [hrej, hfix, hreg]
    · simp [hrej, hfix]
  · simp [hrej]

omit [UnicodeData] in
theorem gate_mem_gates (r : VerificationResult) (gate : Gate) : ∃ name, (name, r.gate gate) ∈ r.gates := by
  cases gate with
  | regression => exact ⟨"regression_suite".toList, by simp [VerificationResult.gates, VerificationResult.gate]⟩
  | lint => exact ⟨"lint".toList, by simp [VerificationResult.gates, VerificationResult.gate]⟩
  | typecheck => exact ⟨"typecheck".toList, by simp [VerificationResult.gates, VerificationResult.gate]⟩
  | security => exact ⟨"security".toList, by simp [VerificationResult.gates, VerificationResult.gate]⟩
  | build => exact ⟨"build".toList, by simp [VerificationResult.gates, VerificationResult.gate]⟩

theorem blocked_of_gate {r : VerificationResult} (gate : Gate) (h : r.gate gate = .failed) :
    (decideRemediation r).Blocked := by
  obtain ⟨name, hmem⟩ := gate_mem_gates r gate
  exact blocked_of_failed_gate hmem h

theorem blocked_of_invariants {r : VerificationResult} (h : r.behavioralInvariants = .failed) :
    (decideRemediation r).Blocked :=
  blocked_of_failed_gate (g := ("behavioral_invariants".toList, r.behavioralInvariants))
    (by simp [VerificationResult.gates]) h

/-- What `assess` reads off two runs that both came up. -/
theorem assess_ok {reproduced : Option Bool} {codes : List Str} {risk : Str × List Str} {targetIds : List Str}
    {before after : List VerificationStep}
    (h : assess v reproduced codes risk targetIds (some before) (some after) = .ok report) :
    ∃ regBefore regAfter,
      summaryOf (commandNames Gate.regression.name v.config.regression.length) before = .ok regBefore ∧
      summaryOf (commandNames Gate.regression.name v.config.regression.length) after = .ok regAfter ∧
      report.decision = decideRemediation report.result ∧
      report.result.regressionSuite = (testGate (commandNames Gate.regression.name v.config.regression.length) before
        after regBefore regAfter targetIds).1 ∧
      (∀ gate, gate ≠ .regression → report.result.gate gate =
        waivable v.config gate.name (gateStatus v.config gate before after true)) ∧
      report.result.behavioralInvariants =
        waivable v.config "behavioral_invariants" (invariantStatus v.config before after true) := by
  obtain ⟨exact, -, h⟩ := bind_eq_ok h
  obtain ⟨regBefore, hbefore, h⟩ := bind_eq_ok h
  obtain ⟨regAfter, hafter, h⟩ := bind_eq_ok h
  obtain ⟨affBefore, -, h⟩ := bind_eq_ok h
  obtain ⟨affAfter, -, h⟩ := bind_eq_ok h
  cases h
  refine ⟨regBefore, regAfter, hbefore, hafter, rfl, rfl, ?_, rfl⟩
  intro gate hgate
  cases gate with
  | regression => exact absurd rfl hgate
  | lint => rfl
  | typecheck => rfl
  | security => rfl
  | build => rfl

/-- A command that passed at the base commit and fails with the patch. -/
def Checkout.Breaks (c : Checkout) (command : NamedCommand) : Prop :=
  (runStep c.executeBase command).passed = true ∧ (runStep c.executePatched command).passed = false

/-- The output of a step names the test as failed. -/
def VerificationStep.Reports (s : VerificationStep) (t : Str) : Prop :=
  ∃ sum, parseTestOutput s.output = .ok sum ∧ t ∈ sum.failedIds

/-- A regression command that fails in both runs reports a failed test that no regression command reported before. -/
def Checkout.NewlyFails (c : Checkout) (regression : List NamedCommand) (t : Str) : Prop :=
  (∃ command ∈ regression, (runStep c.executeBase command).passed = false ∧
    (runStep c.executePatched command).passed = false ∧ (runStep c.executePatched command).Reports t) ∧
  ∀ command ∈ regression, ¬ (runStep c.executeBase command).Reports t

section

variable {execute : Str → List Str → CommandOutcome} {names : List Str} {commands run : List NamedCommand}

omit [UnicodeData] in
theorem passedIn_runStep {command : NamedCommand} (hnodup : (run.map Prod.fst).Nodup) (hmem : command ∈ run) :
    passedIn (run.map (runStep execute)) command.1 = (runStep execute command).passed := by
  unfold passedIn
  rw [stepOf_runStep hnodup hmem]
  rfl

omit [UnicodeData] in
theorem steps_of_names (hnodup : (run.map Prod.fst).Nodup) (hsub : ∀ command ∈ commands, command ∈ run) :
    (commands.map Prod.fst).filterMap (stepOf (run.map (runStep execute))) = commands.map (runStep execute) := by
  rw [List.filterMap_map]
  calc commands.filterMap (stepOf (run.map (runStep execute)) ∘ Prod.fst)
      = commands.filterMap (some ∘ runStep execute) :=
        List.filterMap_congr fun command hcommand => stepOf_runStep hnodup (hsub command hcommand)
    _ = commands.map (runStep execute) := by rw [List.filterMap_eq_map]

/-- The summary of some commands of a run reports what one of them reports. -/
theorem mem_summaryOf {t : Str} {sum : TestRunSummary} (hnodup : (run.map Prod.fst).Nodup)
    (hsub : ∀ command ∈ commands, command ∈ run)
    (h : summaryOf (commands.map Prod.fst) (run.map (runStep execute)) = .ok sum) :
    t ∈ sum.failedIds ↔ ∃ command ∈ commands, (runStep execute command).Reports t := by
  obtain ⟨items, hitems, h⟩ := bind_eq_ok h
  cases h
  rw [steps_of_names hnodup hsub] at hitems
  obtain ⟨hforth, hback⟩ := mapM_mem hitems
  rw [mem_combineSummaries]
  constructor
  · rintro ⟨s, hs, ht⟩
    obtain ⟨step, hstep, hparse⟩ := hback s hs
    obtain ⟨command, hcommand, rfl⟩ := List.mem_map.mp hstep
    exact ⟨command, hcommand, s, hparse, ht⟩
  · rintro ⟨command, hcommand, s, hparse, ht⟩
    obtain ⟨s', hs', hparse'⟩ := hforth _ (List.mem_map_of_mem hcommand)
    cases hparse.symm.trans hparse'
    exact ⟨s, hs', ht⟩

end

/-- The two runs of a verification whose worktrees came up. -/
theorem collectVerification_ok (h : collectVerification c v = .ok report) (hbase : c.baseCreated = true)
    (hpatch : strip v.patch ≠ [] ∧ c.patchApplies = true) :
    ∃ reproduced localFailure failing codes risk plan, reproduction v.baseline v.ciFailureLog =
        .ok (reproduced, localFailure, failing) ∧
      verificationPlan c v localFailure failing = .ok plan ∧
      assess v reproduced codes risk plan.targetIds (some (plan.before.map (runStep c.executeBase)))
        (some (plan.after.map (runStep c.executePatched))) = .ok report := by
  obtain ⟨⟨reproduced, localFailure, failing⟩, hrepro, h⟩ := bind_eq_ok h
  obtain ⟨codes, -, h⟩ := bind_eq_ok h
  obtain ⟨risk, -, h⟩ := bind_eq_ok h
  obtain ⟨plan, hplan, h⟩ := bind_eq_ok h
  have hbefore : c.runBase plan.before = some (plan.before.map (runStep c.executeBase)) := by
    unfold Checkout.runBase
    split
    next hnil => rw [hnil, List.map_nil]
    next => rfl
  have hafter : c.runPatched v.patch plan.after = some (plan.after.map (runStep c.executePatched)) := by
    unfold Checkout.runPatched
    split
    next hnil => rw [hnil, List.map_nil]
    next => rfl
  rw [hbefore, hafter] at h
  exact ⟨reproduced, localFailure, failing, codes, risk, plan, hrepro, hplan, h⟩

omit [UnicodeData] in
theorem gate_failed_of_breaks {plan : VerificationPlan} {shared : List NamedCommand} {gate : Gate}
    (S : Shared c.which v.config shared) (hshared : ∀ command ∈ shared, command ∈ plan.before ∧ command ∈ plan.after)
    (hbefore : (plan.before.map Prod.fst).Nodup) (hafter : (plan.after.map Prod.fst).Nodup) {command : NamedCommand}
    (hcommand : command ∈ S.gates gate) (hbreaks : c.Breaks command) :
    commandGate (commandNames gate.name (v.config.commands gate).length) (plan.before.map (runStep c.executeBase))
      (plan.after.map (runStep c.executePatched)) = .failed := by
  have hmem := hshared command (S.mem_gate hcommand)
  rw [← S.names_gate gate]
  apply commandGate_failed command.1
  · intro name hname
    obtain ⟨other, hother, rfl⟩ := List.mem_map.mp hname
    rw [stepOf_runStep hafter (hshared other (S.mem_gate hother)).2]
    rfl
  · exact List.mem_map_of_mem hcommand
  · rw [passedIn_runStep hbefore hmem.1]
    exact hbreaks.1
  · rw [passedIn_runStep hafter hmem.2]
    exact hbreaks.2

omit [UnicodeData] in
theorem invariant_failed_of_breaks {plan : VerificationPlan} {shared : List NamedCommand}
    (S : Shared c.which v.config shared) (hshared : ∀ command ∈ shared, command ∈ plan.before ∧ command ∈ plan.after)
    (hbefore : (plan.before.map Prod.fst).Nodup) (hafter : (plan.after.map Prod.fst).Nodup) {command : NamedCommand}
    (hcommand : command ∈ S.invariants) (hbreaks : c.Breaks command) :
    invariantStatus v.config (plan.before.map (runStep c.executeBase)) (plan.after.map (runStep c.executePatched)) true =
      .failed := by
  have hmem := hshared command (S.mem_invariants hcommand)
  apply aggregateInvariants_failed
  rw [← S.names_invariants]
  refine List.mem_map.mpr ⟨command.1, List.mem_map_of_mem hcommand, ?_⟩
  rw [if_pos rfl]
  apply commandGate_failed command.1
  · intro name hname
    rw [List.mem_singleton.mp hname, stepOf_runStep hafter hmem.2]
    rfl
  · exact List.mem_singleton_self _
  · rw [passedIn_runStep hbefore hmem.1]
    exact hbreaks.1
  · rw [passedIn_runStep hafter hmem.2]
    exact hbreaks.2

/-- A command that the patch breaks blocks the repair. -/
theorem blocked_of_breaks {shared : List NamedCommand} {command : NamedCommand}
    (h : collectVerification c v = .ok report) (hbase : c.baseCreated = true)
    (hpatch : strip v.patch ≠ [] ∧ c.patchApplies = true) (hshared : sharedCommands c.which v.config = .ok shared)
    (hcommand : command ∈ shared) (hbreaks : c.Breaks command) : report.decision.Blocked := by
  obtain ⟨reproduced, localFailure, failing, codes, risk, plan, -, hplan, hassess⟩ := collectVerification_ok h hbase hpatch
  obtain ⟨shared', hshared', -, hmem, hbefore, hafter⟩ := verificationPlan_ok hplan
  cases hshared.symm.trans hshared'
  obtain ⟨regBefore, regAfter, -, -, hdecision, hsuite, hquality, hinvariants⟩ := assess_ok hassess
  obtain ⟨S⟩ := exists_shared hshared
  rw [hdecision]
  rcases S.mem_cases hcommand with ⟨gate, hgate⟩ | hinvariant
  · have hfailed := gate_failed_of_breaks S hmem hbefore hafter hgate hbreaks
    apply blocked_of_gate gate
    by_cases hregression : gate = .regression
    · subst hregression
      exact hsuite.trans (testGate_failed hfailed)
    · rw [hquality gate hregression]
      show waivable v.config gate.name (commandGate _ _ _) = .failed
      rw [hfailed, waivable_failed]
  · apply blocked_of_invariants
    rw [hinvariants, invariant_failed_of_breaks S hmem hbefore hafter hinvariant hbreaks, waivable_failed]

/-- A new failed test of a regression command blocks the repair. -/
theorem blocked_of_newlyFails {regression : List NamedCommand} {t : Str}
    (h : collectVerification c v = .ok report) (hbase : c.baseCreated = true)
    (hpatch : strip v.patch ≠ [] ∧ c.patchApplies = true)
    (hregression : numberedCommands c.which Gate.regression.name 1 v.config.regression = .ok regression)
    (hnew : c.NewlyFails regression t)
    (htarget : ∀ reproduced localFailure failing, reproduction v.baseline v.ciFailureLog =
      .ok (reproduced, localFailure, failing) → t ∉ targetTests c localFailure) : report.decision.Blocked := by
  obtain ⟨reproduced, localFailure, failing, codes, risk, plan, hrepro, hplan, hassess⟩ :=
    collectVerification_ok h hbase hpatch
  obtain ⟨shared, hshared, htargets, hmem, hbefore, hafter⟩ := verificationPlan_ok hplan
  obtain ⟨regBefore, regAfter, hsumBefore, hsumAfter, hdecision, hsuite, -, -⟩ := assess_ok hassess
  obtain ⟨S⟩ := exists_shared hshared
  have hgates : S.gates .regression = regression := Except.ok.inj ((S.numbered .regression).symm.trans hregression)
  have hnames : commandNames Gate.regression.name v.config.regression.length = regression.map Prod.fst :=
    (S.names_gate .regression).symm.trans (congrArg _ hgates)
  have hin : ∀ command ∈ regression, command ∈ plan.before ∧ command ∈ plan.after :=
    fun command hcommand => hmem command (S.mem_gate (hgates ▸ hcommand))
  obtain ⟨⟨command, hcommand, -, hfails, hreports⟩, hold⟩ := hnew
  rw [hnames] at hsumBefore hsumAfter hsuite
  rw [hdecision]
  apply blocked_of_gate .regression
  show report.result.regressionSuite = .failed
  rw [hsuite]
  apply testGate_newFailure (t := t)
  · apply commandGate_failing command.1
    · intro name hname
      obtain ⟨other, hother, rfl⟩ := List.mem_map.mp hname
      rw [stepOf_runStep hafter (hin other hother).2]
      rfl
    · exact List.mem_map_of_mem hcommand
    · rw [passedIn_runStep hafter (hin command hcommand).2]
      exact hfails
  · exact (mem_summaryOf hafter (fun other hother => (hin other hother).2) hsumAfter).mpr ⟨command, hcommand, hreports⟩
  · intro hmember
    obtain ⟨other, hother, hother'⟩ := (mem_summaryOf hbefore (fun other hother => (hin other hother).1) hsumBefore).mp
      hmember
    exact hold other hother hother'
  · rw [htargets]
    exact htarget _ _ _ hrepro

end FailureOrchestrator
