import FailureOrchestrator.VerifiedFix

namespace FailureOrchestrator

/-- The entries of the audit trail's summary, by their names. -/
structure AuditChecks where
  originalFailureReproduced : Option Bool
  targetedValidation : String
  regressionValidation : String
  qualityGatePreserved : String
  securityValidation : String
  realCiValidation : String
  deriving DecidableEq, Repr

/-- `("coverage", *QUALITY_GATES)`. -/
def VerificationResult.qualityGates (v : VerificationResult) : List GateStatus :=
  [v.coverage, v.lint, v.typecheck, v.security, v.build]

/-- A verification result as one status for each check. -/
def auditChecks (result : VerificationResult) : AuditChecks :=
  let targeted :=
    if result.targetedTestPassed = some false ∨ result.originalFailureResolved = some false ∨
        result.targetTestMissing = true then "FAILED"
    else if result.targetedTestPassed = some true ∧ result.originalFailureResolved = some true then "PASSED"
    else "NOT_RUN"
  let regression := if result.newTestFailures ≠ [] then "FAILED" else result.regressionSuite.value
  let weakened := result.forbiddenDiffDetected || decide (result.testCountDecreased = some true) ||
    decide (result.skippedTestsIncreased = some true) || result.qualityGates.any fun g => decide (g = .failed)
  let complete := result.qualityGates.all GateStatus.satisfied
  { originalFailureReproduced := result.originalFailureReproduced
    targetedValidation := targeted
    regressionValidation := regression
    qualityGatePreserved := if weakened then "FAILED" else if complete then "PASSED" else "INCOMPLETE"
    securityValidation := result.security.value
    realCiValidation :=
      match result.realCiPassed with
      | some true => "PASSED"
      | some false => "FAILED"
      | none => "PENDING" }

namespace AuditChecks

/-- The entries that hold a status. -/
def statuses (c : AuditChecks) : List String :=
  [c.targetedValidation, c.regressionValidation, c.qualityGatePreserved, c.securityValidation, c.realCiValidation]

end AuditChecks

theorem GateStatus.value_eq_failed {g : GateStatus} : g.value = "FAILED" ↔ g = .failed := by
  cases g <;> simp [GateStatus.value]

theorem GateStatus.value_of_satisfied {g : GateStatus} (h : g.satisfied = true) :
    g.value = "PASSED" ∨ g.value = "WAIVED" := by
  cases g <;> simp_all [GateStatus.satisfied, GateStatus.value]

theorem qualityGates_subset {v : VerificationResult} {p : GateStatus → Prop} (h : ∀ g ∈ v.gates, p g.2) :
    ∀ g ∈ v.qualityGates, p g := by
  obtain ⟨-, -, hcoverage, hlint, htypecheck, hsecurity, hbuild, -⟩ := forall_gates_iff.mp h
  simp [VerificationResult.qualityGates, hcoverage, hlint, htypecheck, hsecurity, hbuild]

section

variable {v : VerificationResult}

theorem targetedValidation_failed (h : (auditChecks v).targetedValidation = "FAILED") :
    notFixedReasons v ≠ [] ∨ rejectedReasons v ≠ [] := by
  by_contra hn
  push Not at hn
  obtain ⟨-, -, htargeted, hresolved⟩ := notFixedReasons_eq_nil.mp hn.1
  obtain ⟨-, -, htarget, -⟩ := rejectedReasons_eq_nil.mp hn.2
  unfold auditChecks at h
  dsimp only at h
  split_ifs at h with hfail hpass
  · rcases hfail with hf | hf | hf
    · exact htargeted hf
    · exact hresolved hf
    · rw [htarget] at hf
      cases hf
  · exact absurd h (by decide)
  · exact absurd h (by decide)

theorem regressionValidation_failed (h : (auditChecks v).regressionValidation = "FAILED") :
    regressionReasons v ≠ [] := by
  intro hn
  obtain ⟨hnew, hgates⟩ := regressionReasons_eq_nil.mp hn
  have hregression := (forall_gates_iff (p := (· ≠ .failed))).mp hgates
  unfold auditChecks at h
  dsimp only at h
  rw [if_neg (by simp [hnew]), GateStatus.value_eq_failed] at h
  exact hregression.2.1 h

theorem qualityGatePreserved_failed (h : (auditChecks v).qualityGatePreserved = "FAILED") :
    rejectedReasons v ≠ [] ∨ regressionReasons v ≠ [] := by
  by_contra hn
  push Not at hn
  obtain ⟨-, hforbidden, -, hcount, hskip, -⟩ := rejectedReasons_eq_nil.mp hn.1
  have hgates := qualityGates_subset (p := (· ≠ .failed)) (regressionReasons_eq_nil.mp hn.2).2
  have hany : (v.qualityGates.any fun g => decide (g = .failed)) = false := by
    rw [List.any_eq_false]
    intro g hg
    simpa using hgates g hg
  unfold auditChecks at h
  dsimp only at h
  rw [hforbidden, hany] at h
  simp only [hcount, hskip, decide_false, Bool.or_false, Bool.false_eq_true, if_false] at h
  split_ifs at h <;> exact absurd h (by decide)

theorem securityValidation_failed (h : (auditChecks v).securityValidation = "FAILED") :
    regressionReasons v ≠ [] := by
  intro hn
  have hgates := (forall_gates_iff (p := (· ≠ .failed))).mp (regressionReasons_eq_nil.mp hn).2
  exact hgates.2.2.2.2.2.1 (GateStatus.value_eq_failed.mp h)

theorem realCiValidation_failed [UnicodeData] (h : (auditChecks v).realCiValidation = "FAILED") :
    reviewReasons v ≠ [] := by
  intro hn
  have hci := (reviewReasons_eq_nil.mp hn).2.2
  unfold auditChecks at h
  dsimp only at h
  split at h
  · exact absurd h (by decide)
  · next hreal => exact hci hreal
  · exact absurd h (by decide)

/-- A failed entry keeps the result from clearing every stage of the decision. -/
theorem not_cleared_of_failed [UnicodeData] (h : "FAILED" ∈ (auditChecks v).statuses) : ¬ Cleared v := by
  intro hc
  simp only [AuditChecks.statuses, List.mem_cons, List.not_mem_nil, or_false] at h
  rcases h with h | h | h | h | h
  · exact (targetedValidation_failed h.symm).elim (fun hn => hn hc.notFixed) fun hn => hn hc.rejected
  · exact regressionValidation_failed h.symm hc.regressions
  · exact (qualityGatePreserved_failed h.symm).elim (fun hn => hn hc.rejected) fun hn => hn hc.regressions
  · exact securityValidation_failed h.symm hc.regressions
  · exact realCiValidation_failed h.symm hc.review

theorem auditChecks_of_isVerifiedFix (h : isVerifiedFix v = true) :
    (auditChecks v).originalFailureReproduced = some true ∧ (auditChecks v).targetedValidation = "PASSED" ∧
    (auditChecks v).qualityGatePreserved = "PASSED" ∧ (auditChecks v).realCiValidation = "PASSED" ∧
    ((auditChecks v).regressionValidation = "PASSED" ∨ (auditChecks v).regressionValidation = "WAIVED") ∧
    ((auditChecks v).securityValidation = "PASSED" ∨ (auditChecks v).securityValidation = "WAIVED") := by
  obtain ⟨-, -, hrep, hres, htgt, htarget, hnew, hcnt, hskip, hsat, hforbidden, -, -, hreal⟩ := isVerifiedFix_iff.mp h
  have hgates := (forall_gates_iff (p := (·.satisfied = true))).mp hsat
  have hquality := qualityGates_subset (p := (·.satisfied = true)) hsat
  have hany : (v.qualityGates.any fun g => decide (g = .failed)) = false := by
    rw [List.any_eq_false]
    intro g hg
    simpa using ((GateStatus.satisfied_iff g).mp (hquality g hg)).1
  have hall : v.qualityGates.all GateStatus.satisfied = true := List.all_eq_true.mpr hquality
  unfold auditChecks
  dsimp only
  refine ⟨hrep, ?_, ?_, ?_, ?_, GateStatus.value_of_satisfied hgates.2.2.2.2.2.1⟩
  · simp [htgt, hres, htarget]
  · simp [hforbidden, hcnt, hskip, hany, hall]
  · rw [hreal]
  · rw [if_neg (by simp [hnew])]
    exact GateStatus.value_of_satisfied hgates.2.1

end

/-- The summary never contradicts the decision: a failed entry stands only beside a blocked or
reviewed repair, and a verified repair has every entry passed or, for two of them, waived. -/
theorem auditChecks_agree [UnicodeData] (v : VerificationResult) :
    ("FAILED" ∈ (auditChecks v).statuses →
      (decideRemediation v).state = .policyRejected ∨ (decideRemediation v).state = .notFixed ∨
      (decideRemediation v).state = .regressionDetected ∨ (decideRemediation v).state = .humanReviewRequired) ∧
    ((decideRemediation v).state = .verifiedFixed →
      (auditChecks v).originalFailureReproduced = some true ∧ (auditChecks v).targetedValidation = "PASSED" ∧
      (auditChecks v).qualityGatePreserved = "PASSED" ∧ (auditChecks v).realCiValidation = "PASSED" ∧
      ((auditChecks v).regressionValidation = "PASSED" ∨ (auditChecks v).regressionValidation = "WAIVED") ∧
      ((auditChecks v).securityValidation = "PASSED" ∨ (auditChecks v).securityValidation = "WAIVED")) := by
  constructor
  · intro hfailed
    exact decideRemediation_of_not_cleared (not_cleared_of_failed hfailed)
  · intro hs
    exact auditChecks_of_isVerifiedFix ((state_verifiedFixed_iff v).mp hs).1

end FailureOrchestrator
