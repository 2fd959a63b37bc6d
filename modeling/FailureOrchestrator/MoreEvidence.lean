import FailureOrchestrator.VerifiedFix
import Mathlib.Data.List.Forall2

namespace FailureOrchestrator

/-- An item that was missing and is now the passing value, or is as it was. -/
def Supplied (passing : Bool) (o o' : Option Bool) : Prop := o' = o ∨ o = none ∧ o' = some passing

/-- A gate that could not vouch for the repair and now does, or is as it was. -/
def GateSupplied (g g' : GateStatus) : Prop := g' = g ∨ g.silent = true ∧ g'.satisfied = true

theorem Supplied.failing_iff {passing : Bool} {o o' : Option Bool} (h : Supplied passing o o') :
    o' = some (!passing) ↔ o = some (!passing) := by
  rcases h with rfl | ⟨rfl, rfl⟩
  · rfl
  · cases passing <;> simp

theorem Supplied.passing {passing : Bool} {o o' : Option Bool} (h : Supplied passing o o') (ho : o = some passing) :
    o' = some passing := by
  rcases h with rfl | ⟨rfl, rfl⟩
  · exact ho
  · rfl

theorem GateSupplied.failed_iff {g g' : GateStatus} (h : GateSupplied g g') : g' = .failed ↔ g = .failed := by
  rcases h with rfl | ⟨hg, hg'⟩
  · rfl
  · cases g <;> cases g' <;> simp_all [GateStatus.silent, GateStatus.satisfied]

theorem GateSupplied.satisfied {g g' : GateStatus} (h : GateSupplied g g') (hg : g.satisfied = true) :
    g'.satisfied = true := by
  rcases h with rfl | ⟨_, hg'⟩
  · exact hg
  · exact hg'

/-- `v'` is `v` with any set of missing items supplied favourably. A failure that was not
reproduced counts as missing evidence like one nobody tried to reproduce. -/
structure Supplements (v v' : VerificationResult) : Prop where
  reproduced : v'.originalFailureReproduced = v.originalFailureReproduced ∨
    v.originalFailureReproduced ≠ some true ∧ v'.originalFailureReproduced = some true
  resolved : Supplied true v.originalFailureResolved v'.originalFailureResolved
  targeted : Supplied true v.targetedTestPassed v'.targetedTestPassed
  testCount : Supplied false v.testCountDecreased v'.testCountDecreased
  skips : Supplied false v.skippedTestsIncreased v'.skippedTestsIncreased
  realCi : Supplied true v.realCiPassed v'.realCiPassed
  gates : List.Forall₂ (fun g g' => g'.1 = g.1 ∧ GateSupplied g.2 g'.2) v.gates v'.gates
  humanApproved : v.humanApproved = true → v'.humanApproved = true
  repairProposed : v'.repairProposed = v.repairProposed
  patchApplied : v'.patchApplied = v.patchApplied
  targetTestMissing : v'.targetTestMissing = v.targetTestMissing
  newTestFailures : v'.newTestFailures = v.newTestFailures
  forbiddenDiffDetected : v'.forbiddenDiffDetected = v.forbiddenDiffDetected
  forbiddenDiffCodes : v'.forbiddenDiffCodes = v.forbiddenDiffCodes
  policyOutcome : v'.policyOutcome = v.policyOutcome
  riskLevel : v'.riskLevel = v.riskLevel
  riskReasons : v'.riskReasons = v.riskReasons

/-- What holds of every gate of one list holds of the gate at its place in the other. -/
theorem forall_gates_of_forall₂ {R : Str × GateStatus → Str × GateStatus → Prop} {p q : GateStatus → Prop}
    (hpq : ∀ g g', R g g' → p g.2 → q g'.2) {gs gs' : List (Str × GateStatus)} (h : List.Forall₂ R gs gs')
    (hall : ∀ g ∈ gs, p g.2) : ∀ g' ∈ gs', q g'.2 := by
  induction h with
  | nil => exact fun g' hg' => absurd hg' List.not_mem_nil
  | cons hr _ ih =>
    rw [List.forall_mem_cons] at hall ⊢
    exact ⟨hpq _ _ hr hall.1, ih hall.2⟩

namespace Supplements

variable {v v' : VerificationResult}

theorem rejectedReasons_eq_nil_iff (h : Supplements v v') : rejectedReasons v' = [] ↔ rejectedReasons v = [] := by
  have hcount : v'.testCountDecreased = some true ↔ v.testCountDecreased = some true := h.testCount.failing_iff
  have hskips : v'.skippedTestsIncreased = some true ↔ v.skippedTestsIncreased = some true := h.skips.failing_iff
  rw [rejectedReasons_eq_nil, rejectedReasons_eq_nil, h.forbiddenDiffCodes, h.forbiddenDiffDetected,
    h.targetTestMissing, h.policyOutcome]
  simp only [ne_eq, hcount, hskips]

theorem notFixedReasons_eq_nil_iff (h : Supplements v v') : notFixedReasons v' = [] ↔ notFixedReasons v = [] := by
  have htargeted : v'.targetedTestPassed = some false ↔ v.targetedTestPassed = some false := h.targeted.failing_iff
  have hresolved : v'.originalFailureResolved = some false ↔ v.originalFailureResolved = some false :=
    h.resolved.failing_iff
  rw [notFixedReasons_eq_nil, notFixedReasons_eq_nil, h.repairProposed, h.patchApplied]
  simp only [ne_eq, htargeted, hresolved]

theorem regressionReasons_eq_nil_iff (h : Supplements v v') :
    regressionReasons v' = [] ↔ regressionReasons v = [] := by
  have hgates : (∀ g ∈ v'.gates, g.2 ≠ .failed) ↔ ∀ g ∈ v.gates, g.2 ≠ .failed := by
    constructor
    · exact forall_gates_of_forall₂ (p := (· ≠ .failed)) (q := (· ≠ .failed))
        (fun g' g hr => mt hr.2.failed_iff.mpr) h.gates.flip
    · exact forall_gates_of_forall₂ (p := (· ≠ .failed)) (q := (· ≠ .failed))
        (fun g g' hr => mt hr.2.failed_iff.mp) h.gates
  rw [regressionReasons_eq_nil, regressionReasons_eq_nil, h.newTestFailures, hgates]

theorem policySatisfied (h : Supplements v v') (hv : policySatisfied v = true) :
    FailureOrchestrator.policySatisfied v' = true := by
  simp only [FailureOrchestrator.policySatisfied, decide_eq_true_eq] at hv ⊢
  exact hv.imp (fun ho => h.policyOutcome.trans ho) h.humanApproved

theorem riskSatisfied (h : Supplements v v') (hv : riskSatisfied v = true) :
    FailureOrchestrator.riskSatisfied v' = true := by
  simp only [FailureOrchestrator.riskSatisfied, decide_eq_true_eq] at hv ⊢
  exact hv.imp (fun hr => h.riskLevel.trans hr) (.imp (fun hr => h.riskLevel.trans hr) h.humanApproved)

theorem isVerifiedFix (h : Supplements v v') (hv : isVerifiedFix v = true) :
    FailureOrchestrator.isVerifiedFix v' = true := by
  obtain ⟨hproposed, happlied, hrep, hres, htgt, htarget, hnew, hcnt, hskip, hsat, hforbidden, hpol, hrisk, hreal⟩ :=
    isVerifiedFix_iff.mp hv
  have hrep' : v'.originalFailureReproduced = some true := by
    rcases h.reproduced with heq | ⟨_, heq⟩
    · exact heq.trans hrep
    · exact heq
  have hskip' : v'.skippedTestsIncreased ≠ some true := mt h.skips.failing_iff.mp hskip
  have hsat' : ∀ g ∈ v'.gates, g.2.satisfied = true :=
    forall_gates_of_forall₂ (p := (·.satisfied = true)) (q := (·.satisfied = true))
      (fun g g' hr => hr.2.satisfied) h.gates hsat
  exact isVerifiedFix_iff.mpr ⟨h.repairProposed.trans hproposed, h.patchApplied.trans happlied, hrep',
    h.resolved.passing hres, h.targeted.passing htgt, h.targetTestMissing.trans htarget,
    h.newTestFailures.trans hnew, h.testCount.passing hcnt, hskip', hsat',
    h.forbiddenDiffDetected.trans hforbidden, h.policySatisfied hpol, h.riskSatisfied hrisk, h.realCi.passing hreal⟩

variable [UnicodeData]

theorem reviewReasons_eq_nil (h : Supplements v v') (hv : reviewReasons v = []) : reviewReasons v' = [] := by
  obtain ⟨hrisk, hpol, hci⟩ := FailureOrchestrator.reviewReasons_eq_nil.mp hv
  exact FailureOrchestrator.reviewReasons_eq_nil.mpr
    ⟨h.riskSatisfied hrisk, h.policySatisfied hpol, mt h.realCi.failing_iff.mp hci⟩

end Supplements

section Decision

variable [UnicodeData] {v : VerificationResult}

theorem state_policyRejected_iff : (decideRemediation v).state = .policyRejected ↔ rejectedReasons v ≠ [] := by
  unfold decideRemediation
  split_ifs <;> simp_all

theorem state_notFixed_iff :
    (decideRemediation v).state = .notFixed ↔ rejectedReasons v = [] ∧ notFixedReasons v ≠ [] := by
  unfold decideRemediation
  split_ifs <;> simp_all

theorem state_regressionDetected_iff :
    (decideRemediation v).state = .regressionDetected ↔
      rejectedReasons v = [] ∧ notFixedReasons v = [] ∧ regressionReasons v ≠ [] := by
  unfold decideRemediation
  split_ifs <;> simp_all

theorem state_humanReviewRequired_iff :
    (decideRemediation v).state = .humanReviewRequired ↔
      rejectedReasons v = [] ∧ notFixedReasons v = [] ∧ regressionReasons v = [] ∧ reviewReasons v ≠ [] := by
  unfold decideRemediation
  split_ifs <;> simp_all

/-- More evidence neither lifts nor causes a block, keeps a verified fix and never calls for a
review that was not called for before. -/
theorem decideRemediation_supplemented (v v' : VerificationResult) (h : Supplements v v') :
    (∀ state ∈ [RemediationState.policyRejected, .notFixed, .regressionDetected],
      (decideRemediation v').state = state ↔ (decideRemediation v).state = state) ∧
    ((decideRemediation v).state = .verifiedFixed → (decideRemediation v').state = .verifiedFixed) ∧
    ((decideRemediation v').state = .humanReviewRequired → (decideRemediation v).state = .humanReviewRequired) := by
  have hrej := h.rejectedReasons_eq_nil_iff
  have hfix := h.notFixedReasons_eq_nil_iff
  have hreg := h.regressionReasons_eq_nil_iff
  refine ⟨?_, ?_, ?_⟩
  · simp only [List.forall_mem_cons, List.not_mem_nil, false_imp_iff, implies_true, and_true,
      state_policyRejected_iff, state_notFixed_iff, state_regressionDetected_iff, ne_eq, hrej, hfix, hreg]
  · rw [state_verifiedFixed_iff, state_verifiedFixed_iff]
    rintro ⟨hverified, hcodes, hpolicy⟩
    exact ⟨h.isVerifiedFix hverified, h.forbiddenDiffCodes.trans hcodes, h.policyOutcome ▸ hpolicy⟩
  · rw [state_humanReviewRequired_iff, state_humanReviewRequired_iff, hrej, hfix, hreg]
    rintro ⟨hr, hf, hg, hreview⟩
    exact ⟨hr, hf, hg, mt h.reviewReasons_eq_nil hreview⟩

end Decision

/-- The repair whose regression suite was not run, after it was waived, approved and green in real CI. -/
def suppliedRegressionSuite : VerificationResult :=
  { unrunRegressionSuite with regressionSuite := .waived, humanApproved := true, realCiPassed := some true }

theorem regressionSuite_supplied :
    (∀ state ∈ [RemediationState.policyRejected, .notFixed, .regressionDetected],
      (@decideRemediation asciiData suppliedRegressionSuite).state = state ↔
        (@decideRemediation asciiData unrunRegressionSuite).state = state) ∧
    ((@decideRemediation asciiData unrunRegressionSuite).state = .verifiedFixed →
      (@decideRemediation asciiData suppliedRegressionSuite).state = .verifiedFixed) ∧
    ((@decideRemediation asciiData suppliedRegressionSuite).state = .humanReviewRequired →
      (@decideRemediation asciiData unrunRegressionSuite).state = .humanReviewRequired) := by
  refine @decideRemediation_supplemented asciiData unrunRegressionSuite suppliedRegressionSuite {
    reproduced := .inl rfl
    resolved := .inl rfl
    targeted := .inl rfl
    testCount := .inl rfl
    skips := .inl rfl
    realCi := .inr ⟨rfl, rfl⟩
    gates := ?_
    humanApproved := fun _ => rfl
    repairProposed := rfl
    patchApplied := rfl
    targetTestMissing := rfl
    newTestFailures := rfl
    forbiddenDiffDetected := rfl
    forbiddenDiffCodes := rfl
    policyOutcome := rfl
    riskLevel := rfl
    riskReasons := rfl }
  have hkept : ∀ g : Str × GateStatus, g.1 = g.1 ∧ GateSupplied g.2 g.2 := fun g => ⟨rfl, .inl rfl⟩
  have hwaived : GateSupplied .notRun .waived := .inr ⟨rfl, rfl⟩
  exact .cons (hkept _) (.cons ⟨rfl, hwaived⟩ (.cons (hkept _) (.cons (hkept _) (.cons (hkept _)
    (.cons (hkept _) (.cons (hkept _) (.cons (hkept _) .nil)))))))

end FailureOrchestrator
