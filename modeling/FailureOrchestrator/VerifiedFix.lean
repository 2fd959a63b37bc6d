import FailureOrchestrator.Remediation

namespace FailureOrchestrator

theorem noteIf_eq_nil {b : Bool} {text : String} : noteIf b text = [] ↔ b = false := by
  cases b <;> simp [noteIf]

theorem mem_noteIf {b : Bool} {text : String} (hb : b = true) : text.toList ∈ noteIf b text := by
  rw [noteIf, if_pos hb]
  exact List.mem_singleton_self _

/-- A three-valued item that was collected and is not `!b` is `b`. -/
theorem eq_some_of_ne {o : Option Bool} {b : Bool} (hn : o ≠ none) (hb : o ≠ some (!b)) : o = some b := by
  obtain ⟨c, rfl⟩ := Option.ne_none_iff_exists'.mp hn
  cases b <;> cases c <;> simp_all

/-- A gate vouches for the repair unless it failed or is silent. -/
theorem GateStatus.satisfied_iff (g : GateStatus) : g.satisfied = true ↔ g ≠ .failed ∧ g.silent = false := by
  cases g <;> simp [GateStatus.satisfied, GateStatus.silent]

theorem forall_gates_iff {v : VerificationResult} {p : GateStatus → Prop} :
    (∀ g ∈ v.gates, p g.2) ↔ p v.affectedTests ∧ p v.regressionSuite ∧ p v.coverage ∧ p v.lint ∧
      p v.typecheck ∧ p v.security ∧ p v.build ∧ p v.behavioralInvariants := by
  simp [VerificationResult.gates]

theorem rejectedReasons_eq_nil {v : VerificationResult} :
    rejectedReasons v = [] ↔ v.forbiddenDiffCodes = [] ∧ v.forbiddenDiffDetected = false ∧
      v.targetTestMissing = false ∧ v.testCountDecreased ≠ some true ∧
      v.skippedTestsIncreased ≠ some true ∧ v.policyOutcome ≠ some "REJECT".toList := by
  simp only [rejectedReasons, List.append_eq_nil_iff, noteIf_eq_nil, List.map_eq_nil_iff, decide_eq_false_iff_not,
    and_assoc]
  constructor
  · rintro ⟨hcodes, hforbidden, hrest⟩
    exact ⟨hcodes, by simpa [hcodes] using hforbidden, hrest⟩
  · rintro ⟨hcodes, hforbidden, hrest⟩
    exact ⟨hcodes, by simp [hforbidden], hrest⟩

theorem notFixedReasons_eq_nil {v : VerificationResult} :
    notFixedReasons v = [] ↔ v.repairProposed = true ∧ v.patchApplied = true ∧
      v.targetedTestPassed ≠ some false ∧ v.originalFailureResolved ≠ some false := by
  simp [notFixedReasons, noteIf_eq_nil, and_assoc]

theorem regressionReasons_eq_nil {v : VerificationResult} :
    regressionReasons v = [] ↔ v.newTestFailures = [] ∧ ∀ g ∈ v.gates, g.2 ≠ .failed := by
  simp only [regressionReasons, List.append_eq_nil_iff, List.map_eq_nil_iff, List.filter_eq_nil_iff,
    decide_eq_true_eq, ne_eq]

theorem missingEvidence_eq_nil {v : VerificationResult} :
    missingEvidence v = [] ↔ v.originalFailureReproduced = some true ∧ v.originalFailureResolved ≠ none ∧
      v.targetedTestPassed ≠ none ∧ v.testCountDecreased ≠ none ∧ (∀ g ∈ v.gates, g.2.silent = false) ∧
      v.realCiPassed ≠ none := by
  simp only [missingEvidence, List.append_eq_nil_iff, noteIf_eq_nil, List.map_eq_nil_iff, List.filter_eq_nil_iff,
    decide_eq_false_iff_not, Bool.not_eq_true, ne_eq, not_not, and_assoc]

theorem isVerifiedFix_iff {v : VerificationResult} :
    isVerifiedFix v = true ↔ v.repairProposed = true ∧ v.patchApplied = true ∧
      v.originalFailureReproduced = some true ∧ v.originalFailureResolved = some true ∧
      v.targetedTestPassed = some true ∧ v.targetTestMissing = false ∧ v.newTestFailures = [] ∧
      v.testCountDecreased = some false ∧ v.skippedTestsIncreased ≠ some true ∧
      (∀ g ∈ v.gates, g.2.satisfied = true) ∧ v.forbiddenDiffDetected = false ∧
      policySatisfied v = true ∧ riskSatisfied v = true ∧ v.realCiPassed = some true := by
  have hgates := forall_gates_iff (v := v) (p := fun g => g.satisfied = true)
  simp only [hgates, isVerifiedFix, Bool.and_eq_true, decide_eq_true_eq, Bool.not_eq_true', List.isEmpty_iff]
  tauto

/-- Every evidence item but the real CI result was collected and passes; a run without a skip count has
`skippedTestsIncreased = none`. -/
structure EvidenceIn (v : VerificationResult) : Prop where
  reproduced : v.originalFailureReproduced = some true
  resolved : v.originalFailureResolved = some true
  targeted : v.targetedTestPassed = some true
  testCount : v.testCountDecreased = some false
  skips : v.skippedTestsIncreased ≠ some true
  gates : ∀ g ∈ v.gates, g.2 ≠ .notRun ∧ g.2 ≠ .failedPreexisting

theorem GateStatus.silent_eq_false_iff (g : GateStatus) : g.silent = false ↔ g ≠ .notRun ∧ g ≠ .failedPreexisting := by
  cases g <;> simp [GateStatus.silent]

/-- Without a real CI result, the missing evidence names that result alone when all else was collected. -/
theorem missingEvidence_eq_realCi_iff {v : VerificationResult} (hreal : v.realCiPassed = none) :
    missingEvidence v = ["real_ci_passed".toList] ↔
      v.originalFailureReproduced = some true ∧ v.originalFailureResolved ≠ none ∧ v.targetedTestPassed ≠ none ∧
      v.testCountDecreased ≠ none ∧ ∀ g ∈ v.gates, g.2.silent = false := by
  have hlast : noteIf (decide (v.realCiPassed = none)) "real_ci_passed" = ["real_ci_passed".toList] := by
    simp [noteIf, hreal]
  have hsingle : ∀ xs : List Str, xs ++ ["real_ci_passed".toList] = ["real_ci_passed".toList] ↔ xs = [] := by
    intro xs
    constructor
    · intro h
      have hlen := congrArg List.length h
      rw [List.length_append] at hlen
      exact List.eq_nil_of_length_eq_zero (by omega)
    · intro h
      rw [h, List.nil_append]
  rw [missingEvidence, hlast, hsingle]
  simp only [List.append_eq_nil_iff, noteIf_eq_nil, List.map_eq_nil_iff, List.filter_eq_nil_iff,
    decide_eq_false_iff_not, Bool.not_eq_true, ne_eq, not_not, and_assoc]

section Decision

variable [UnicodeData]

theorem reviewReasons_eq_nil {v : VerificationResult} :
    reviewReasons v = [] ↔ riskSatisfied v = true ∧ policySatisfied v = true ∧ v.realCiPassed ≠ some false := by
  cases hr : riskSatisfied v <;> cases hp : policySatisfied v <;> simp [reviewReasons, noteIf_eq_nil, hr, hp]

/-- The result passes the rejection, not-fixed, regression and review stages. -/
structure Cleared (v : VerificationResult) : Prop where
  rejected : rejectedReasons v = []
  notFixed : notFixedReasons v = []
  regressions : regressionReasons v = []
  review : reviewReasons v = []

theorem decideRemediation_missingEvidence (v : VerificationResult) :
    (decideRemediation v).missingEvidence = missingEvidence v := by
  unfold decideRemediation
  split_ifs <;> rfl

theorem decideRemediation_of_not_cleared {v : VerificationResult} (h : ¬ Cleared v) :
    (decideRemediation v).state = .policyRejected ∨ (decideRemediation v).state = .notFixed ∨
      (decideRemediation v).state = .regressionDetected ∨ (decideRemediation v).state = .humanReviewRequired := by
  unfold decideRemediation
  by_cases hrej : rejectedReasons v = []
  · by_cases hfix : notFixedReasons v = []
    · by_cases hreg : regressionReasons v = []
      · have hrev : reviewReasons v ≠ [] := fun hrev => h ⟨hrej, hfix, hreg, hrev⟩
        simp [hrej, hfix, hreg, hrev]
      · simp [hrej, hfix, hreg]
    · simp [hrej, hfix]
  · simp [hrej]

theorem decideRemediation_of_cleared {v : VerificationResult} (h : Cleared v) :
    (decideRemediation v).state =
      if v.realCiPassed = none then .policyApproved
      else if isVerifiedFix v = false then .ciGreenButUnverified else .verifiedFixed := by
  unfold decideRemediation
  simp only [h.rejected, h.notFixed, h.regressions, h.review, ne_eq, not_true_eq_false, if_false]
  split_ifs <;> rfl

/-- The three last states are the cleared ones. -/
theorem cleared_of_state {v : VerificationResult}
    (h : (decideRemediation v).state = .policyApproved ∨ (decideRemediation v).state = .ciGreenButUnverified ∨
      (decideRemediation v).state = .verifiedFixed) : Cleared v := by
  by_contra hn
  rcases decideRemediation_of_not_cleared hn with hs | hs | hs | hs <;> simp [hs] at h

/-- On cleared results the two separately written predicates agree. -/
theorem Cleared.isVerifiedFix_iff_missing {v : VerificationResult} (h : Cleared v) :
    isVerifiedFix v = true ↔ missingEvidence v = [] := by
  obtain ⟨-, hforbidden, htarget, hcount, hskip, -⟩ := rejectedReasons_eq_nil.mp h.rejected
  obtain ⟨hproposed, happlied, htargeted, hresolved⟩ := notFixedReasons_eq_nil.mp h.notFixed
  obtain ⟨hnew, hfailed⟩ := regressionReasons_eq_nil.mp h.regressions
  obtain ⟨hrisk, hpolicy, hci⟩ := reviewReasons_eq_nil.mp h.review
  rw [isVerifiedFix_iff, missingEvidence_eq_nil]
  constructor
  · rintro ⟨-, -, hrep, hres, htgt, -, -, hcnt, -, hsat, -, -, -, hreal⟩
    refine ⟨hrep, by simp [hres], by simp [htgt], by simp [hcnt], ?_, by simp [hreal]⟩
    intro g hg
    exact ((GateStatus.satisfied_iff g.2).mp (hsat g hg)).2
  · rintro ⟨hrep, hres, htgt, hcnt, hsilent, hreal⟩
    have hsat : ∀ g ∈ v.gates, g.2.satisfied = true := fun g hg =>
      (GateStatus.satisfied_iff g.2).mpr ⟨hfailed g hg, hsilent g hg⟩
    exact ⟨hproposed, happlied, hrep, eq_some_of_ne hres hresolved, eq_some_of_ne htgt htargeted, htarget, hnew,
      eq_some_of_ne hcnt hcount, hskip, hsat, hforbidden, hpolicy, hrisk, eq_some_of_ne hreal hci⟩

/-- A verified result without codes or a policy rejection clears every stage. -/
theorem cleared_of_isVerifiedFix {v : VerificationResult} (h : isVerifiedFix v = true)
    (hcodes : v.forbiddenDiffCodes = []) (hpolicy : v.policyOutcome ≠ some "REJECT".toList) : Cleared v := by
  obtain ⟨hproposed, happlied, -, hres, htgt, htarget, hnew, hcnt, hskip, hsat, hforbidden, hpol, hrisk, hreal⟩ :=
    isVerifiedFix_iff.mp h
  refine ⟨?_, ?_, ?_, ?_⟩
  · exact rejectedReasons_eq_nil.mpr ⟨hcodes, hforbidden, htarget, by simp [hcnt], hskip, hpolicy⟩
  · exact notFixedReasons_eq_nil.mpr ⟨hproposed, happlied, by simp [htgt], by simp [hres]⟩
  · exact regressionReasons_eq_nil.mpr ⟨hnew, fun g hg => ((GateStatus.satisfied_iff g.2).mp (hsat g hg)).1⟩
  · exact reviewReasons_eq_nil.mpr ⟨hrisk, hpol, by simp [hreal]⟩

theorem state_verifiedFixed_iff (v : VerificationResult) :
    (decideRemediation v).state = .verifiedFixed ↔
      isVerifiedFix v = true ∧ v.forbiddenDiffCodes = [] ∧ v.policyOutcome ≠ some "REJECT".toList := by
  constructor
  · intro hs
    have hc := cleared_of_state (.inr (.inr hs))
    rw [decideRemediation_of_cleared hc] at hs
    obtain ⟨hcodes, -, -, -, -, hpolicy⟩ := rejectedReasons_eq_nil.mp hc.rejected
    refine ⟨?_, hcodes, hpolicy⟩
    split_ifs at hs with hnone hfix
    simpa using hfix
  · rintro ⟨hfix, hcodes, hpolicy⟩
    rw [decideRemediation_of_cleared (cleared_of_isVerifiedFix hfix hcodes hpolicy)]
    have hreal := (isVerifiedFix_iff.mp hfix).2.2.2.2.2.2.2.2.2.2.2.2.2
    simp [hreal, hfix]

/-- `VERIFIED_FIXED` is exactly a verified fix that was not rejected, and the missing evidence of the decision
tells it from `CI_GREEN_BUT_UNVERIFIED`. -/
theorem decideRemediation_verified_iff (v : VerificationResult) :
    ((decideRemediation v).state = .verifiedFixed ↔
      isVerifiedFix v = true ∧ v.forbiddenDiffCodes = [] ∧ v.policyOutcome ≠ some "REJECT".toList) ∧
    ((decideRemediation v).state = .verifiedFixed → (decideRemediation v).missingEvidence = []) ∧
    ((decideRemediation v).state = .ciGreenButUnverified → (decideRemediation v).missingEvidence ≠ []) ∧
    (Cleared v → v.realCiPassed = some true →
      ((decideRemediation v).missingEvidence = [] ↔ (decideRemediation v).state = .verifiedFixed)) := by
  rw [decideRemediation_missingEvidence]
  refine ⟨state_verifiedFixed_iff v, ?_, ?_, ?_⟩
  · intro hs
    exact (cleared_of_state (.inr (.inr hs))).isVerifiedFix_iff_missing.mp ((state_verifiedFixed_iff v).mp hs).1
  · intro hs hmissing
    have hc := cleared_of_state (.inr (.inl hs))
    have hfix := hc.isVerifiedFix_iff_missing.mpr hmissing
    rw [decideRemediation_of_cleared hc] at hs
    split_ifs at hs with hnone hunfixed
    rw [hfix] at hunfixed
    exact absurd hunfixed (by decide)
  · intro hc hreal
    rw [← hc.isVerifiedFix_iff_missing, decideRemediation_of_cleared hc]
    cases hfix : isVerifiedFix v <;> simp [hreal]

theorem Cleared.evidenceIn_iff {v : VerificationResult} (h : Cleared v) :
    EvidenceIn v ↔ v.originalFailureReproduced = some true ∧ v.originalFailureResolved ≠ none ∧
      v.targetedTestPassed ≠ none ∧ v.testCountDecreased ≠ none ∧ ∀ g ∈ v.gates, g.2.silent = false := by
  obtain ⟨-, -, -, hcount, hskip, -⟩ := rejectedReasons_eq_nil.mp h.rejected
  obtain ⟨-, -, htargeted, hresolved⟩ := notFixedReasons_eq_nil.mp h.notFixed
  constructor
  · intro he
    exact ⟨he.reproduced, by simp [he.resolved], by simp [he.targeted], by simp [he.testCount],
      fun g hg => (GateStatus.silent_eq_false_iff g.2).mpr (he.gates g hg)⟩
  · rintro ⟨hrep, hres, htgt, hcnt, hsilent⟩
    exact ⟨hrep, eq_some_of_ne hres hresolved, eq_some_of_ne htgt htargeted, eq_some_of_ne hcnt hcount, hskip,
      fun g hg => (GateStatus.silent_eq_false_iff g.2).mp (hsilent g hg)⟩

theorem Cleared.realCiPassed_of_policyApproved {v : VerificationResult} (h : Cleared v)
    (hs : (decideRemediation v).state = .policyApproved) : v.realCiPassed = none := by
  rw [decideRemediation_of_cleared h] at hs
  split_ifs at hs with hnone
  exact hnone

/-- `VERIFIED_FIXED` has all evidence in. `POLICY_APPROVED` has nothing that failed, names every item that was not
collected in its missing evidence, and has all local evidence in exactly when only the real CI result is named. -/
theorem decideRemediation_evidence (v : VerificationResult) :
    ((decideRemediation v).state = .verifiedFixed → EvidenceIn v) ∧
    ((decideRemediation v).state = .policyApproved →
      (v.originalFailureResolved ≠ some false ∧ v.targetedTestPassed ≠ some false ∧
        v.testCountDecreased ≠ some true ∧ v.skippedTestsIncreased ≠ some true ∧ ∀ g ∈ v.gates, g.2 ≠ .failed) ∧
      (v.originalFailureReproduced ≠ some true →
        "original_failure_reproduced".toList ∈ (decideRemediation v).missingEvidence) ∧
      (v.originalFailureResolved = none →
        "original_failure_resolved".toList ∈ (decideRemediation v).missingEvidence) ∧
      (v.targetedTestPassed = none → "targeted_test_passed".toList ∈ (decideRemediation v).missingEvidence) ∧
      (v.testCountDecreased = none → "test_count_comparison".toList ∈ (decideRemediation v).missingEvidence) ∧
      (∀ g ∈ v.gates, g.2 = .notRun ∨ g.2 = .failedPreexisting →
        g.1 ++ ":".toList ++ g.2.value.toList ∈ (decideRemediation v).missingEvidence) ∧
      ((decideRemediation v).missingEvidence = ["real_ci_passed".toList] ↔ EvidenceIn v)) := by
  rw [decideRemediation_missingEvidence]
  constructor
  · intro hs
    have hc := cleared_of_state (.inr (.inr hs))
    obtain ⟨hrep, hres, htgt, hcnt, hsilent, -⟩ := missingEvidence_eq_nil.mp
      (hc.isVerifiedFix_iff_missing.mp ((state_verifiedFixed_iff v).mp hs).1)
    exact hc.evidenceIn_iff.mpr ⟨hrep, hres, htgt, hcnt, hsilent⟩
  · intro hs
    have hc := cleared_of_state (.inl hs)
    have hreal := hc.realCiPassed_of_policyApproved hs
    obtain ⟨-, -, -, hcount, hskip, -⟩ := rejectedReasons_eq_nil.mp hc.rejected
    obtain ⟨-, -, htargeted, hresolved⟩ := notFixedReasons_eq_nil.mp hc.notFixed
    obtain ⟨-, hfailed⟩ := regressionReasons_eq_nil.mp hc.regressions
    refine ⟨⟨hresolved, htargeted, hcount, hskip, hfailed⟩, ?_, ?_, ?_, ?_, ?_,
      (missingEvidence_eq_realCi_iff hreal).trans hc.evidenceIn_iff.symm⟩ <;>
      simp only [missingEvidence, List.mem_append, or_assoc]
    · intro hrep
      exact .inl (mem_noteIf (decide_eq_true hrep))
    · intro hres
      exact .inr (.inl (mem_noteIf (decide_eq_true hres)))
    · intro htgt
      exact .inr (.inr (.inl (mem_noteIf (decide_eq_true htgt))))
    · intro hcnt
      exact .inr (.inr (.inr (.inl (mem_noteIf (decide_eq_true hcnt)))))
    · intro g hg hsilent
      have hmem : g ∈ v.gates.filter fun g => g.2.silent :=
        List.mem_filter.mpr ⟨hg, decide_eq_true hsilent⟩
      exact .inr (.inr (.inr (.inr (.inl (List.mem_map.mpr ⟨g, hmem, rfl⟩)))))

end Decision

/-- A repair whose regression suite was not configured, before real CI has reported. -/
def unrunRegressionSuite : VerificationResult where
  repairProposed := true
  patchApplied := true
  originalFailureReproduced := some true
  originalFailureResolved := some true
  targetedTestPassed := some true
  affectedTests := .passed
  testCountDecreased := some false
  skippedTestsIncreased := some false
  coverage := .waived
  lint := .passed
  typecheck := .passed
  security := .passed
  build := .passed
  behavioralInvariants := .passed
  policyOutcome := some "APPROVE".toList
  riskLevel := riskLow

theorem policyApproved_without_regressionSuite :
    (@decideRemediation asciiData unrunRegressionSuite).state = .policyApproved ∧
      ¬ ((unrunRegressionSuite.originalFailureReproduced = some true ∧
        unrunRegressionSuite.originalFailureResolved = some true ∧
        unrunRegressionSuite.targetedTestPassed = some true ∧
        unrunRegressionSuite.testCountDecreased = some false ∧
        unrunRegressionSuite.skippedTestsIncreased = some false) ∧
        ∀ g ∈ unrunRegressionSuite.gates, g.2 ≠ .notRun ∧ g.2 ≠ .failedPreexisting) := by
  refine ⟨rfl, ?_⟩
  rintro ⟨-, hgates⟩
  have hmem : ("regression_suite".toList, GateStatus.notRun) ∈ unrunRegressionSuite.gates :=
    List.mem_cons_of_mem _ List.mem_cons_self
  exact (hgates _ hmem).1 rfl

end FailureOrchestrator
