import FailureOrchestrator.PolicyEngine

namespace FailureOrchestrator

/-- A rule that changes nothing or leaves a reason, and never takes a reason away. -/
structure Raises (rule : Escalation → Escalation) : Prop where
  keeps : ∀ st, st.reasons ≠ [] → (rule st).reasons ≠ []
  fires : ∀ st, rule st = st ∨ (rule st).reasons ≠ []

theorem raises_fireIf (p : Escalation → Bool) (rule : PolicyRule) (reason : String) :
    Raises fun st => st.fireIf (p st) rule reason where
  keeps st h := by
    unfold Escalation.fireIf
    split
    · simp [Escalation.fire]
    · exact h
  fires st := by
    unfold Escalation.fireIf
    split
    · right
      simp [Escalation.fire]
    · left
      rfl

theorem Raises.comp {f g : Escalation → Escalation} (hf : Raises f) (hg : Raises g) :
    Raises fun st => g (f st) where
  keeps st h := hg.keeps _ (hf.keeps st h)
  fires st := by
    rcases hf.fires st with hs | hs
    · rw [hs]
      exact hg.fires st
    · right
      exact hg.keeps _ hs

theorem foldl_rules_keep {rules : List (Escalation → Escalation)} (h : ∀ r ∈ rules, Raises r) {st : Escalation}
    (hst : st.reasons ≠ []) : (rules.foldl (fun st rule => rule st) st).reasons ≠ [] := by
  induction rules generalizing st with
  | nil => exact hst
  | cons r rules ih => exact ih (fun x hx => h x (by simp [hx])) ((h r (by simp)).keeps st hst)

/-- A run of rules leaves no reason exactly when every rule is silent on its own. -/
theorem foldl_rules_silent {rules : List (Escalation → Escalation)} (h : ∀ r ∈ rules, Raises r) :
    (rules.foldl (fun st rule => rule st) ({} : Escalation)).reasons = [] ↔ ∀ r ∈ rules, r {} = {} := by
  induction rules with
  | nil => simp
  | cons r rules ih =>
    have htail : ∀ x ∈ rules, Raises x := fun x hx => h x (by simp [hx])
    rw [List.foldl_cons]
    rcases (h r (by simp)).fires {} with hr | hr
    · rw [hr, ih htail]
      simp [hr]
    · have hne : r {} ≠ {} := by
        intro heq
        rw [heq] at hr
        exact hr rfl
      constructor
      · intro hnil
        exact absurd hnil (foldl_rules_keep htail hr)
      · intro hall
        exact absurd (hall r (by simp)) hne

theorem fireIf_start {cond : Bool} {rule : PolicyRule} {reason : String} :
    Escalation.fireIf {} cond rule reason = {} ↔ cond = false := by
  cases cond <;> simp [Escalation.fireIf, Escalation.fire]

theorem fromKeys_ne_nil {α : Type*} [DecidableEq α] {xs : List α} (h : xs ≠ []) : fromKeys xs ≠ [] := by
  obtain ⟨x, hx⟩ := List.exists_mem_of_ne_nil xs h
  exact List.ne_nil_of_mem (mem_fromKeys.mpr hx)

namespace PolicyContext

theorem raises_verificationReviewRule (findings : List IntegrityFinding) :
    Raises (verificationReviewRule findings) where
  keeps st h := by
    unfold verificationReviewRule
    dsimp only
    split
    · exact h
    · simp [h]
  fires st := by
    unfold verificationReviewRule
    dsimp only
    split
    · left
      rfl
    · next hne =>
      right
      have hkeys : fromKeys ((reviewFindingsOf findings).map fun f => "verification_change:" ++ f.code.value) ≠ [] :=
        fromKeys_ne_nil (by simpa using hne)
      simp [hkeys]

theorem raises_classificationRule (context : PolicyContext) (cfg : PolicyConfig) :
    Raises (context.classificationRule cfg) := by
  unfold classificationRule
  cases context.classification with
  | none => exact ⟨fun st _ => by simp [Escalation.fire], fun st => Or.inr (by simp [Escalation.fire])⟩
  | some c =>
    have first := raises_fireIf (fun _ => cfg.escalationFailureCategories.contains c.category)
      .failureCategory ("failure_category:" ++ c.category)
    have second := raises_fireIf (fun _ => decide (c.confidence < cfg.minClassificationConfidence))
      .lowConfidence "low_classification_confidence"
    exact first.comp second

theorem raises_unknownRule (context : PolicyContext) : Raises context.unknownRule := by
  unfold unknownRule
  split
  · exact ⟨fun st _ => by simp, fun st => Or.inr (by simp)⟩
  · exact ⟨fun _ h => h, fun _ => Or.inl rfl⟩

theorem verificationReviewRule_silent (findings : List IntegrityFinding) :
    verificationReviewRule findings {} = {} ↔ reviewFindingsOf findings = [] := by
  unfold verificationReviewRule
  dsimp only
  split
  · next h => simpa using h
  · next h => simpa using h

theorem classificationRule_silent (context : PolicyContext) (cfg : PolicyConfig) :
    context.classificationRule cfg {} = {} ↔
      ∃ c, context.classification = some c ∧ c.category ∉ cfg.escalationFailureCategories ∧
        cfg.minClassificationConfidence ≤ c.confidence := by
  unfold classificationRule
  cases context.classification with
  | none => simp [Escalation.fire]
  | some c =>
    by_cases hcat : cfg.escalationFailureCategories.contains c.category = true
    · have hmem : c.category ∈ cfg.escalationFailureCategories := by simpa using hcat
      have hfired := ((raises_fireIf (fun _ => decide (c.confidence < cfg.minClassificationConfidence))
        .lowConfidence "low_classification_confidence").keeps (Escalation.fire {} .failureCategory
          ("failure_category:" ++ c.category)) (by simp [Escalation.fire]))
      constructor
      · intro heq
        simp only [Escalation.fireIf, hcat, ↓reduceIte] at heq hfired
        rw [heq] at hfired
        exact absurd rfl hfired
      · rintro ⟨d, hd, hnot, _⟩
        cases hd
        exact absurd hmem hnot
    · have hnot : c.category ∉ cfg.escalationFailureCategories := by simpa using hcat
      have hfalse : cfg.escalationFailureCategories.contains c.category = false := by simpa using hcat
      dsimp only
      rw [hfalse]
      have hskip : Escalation.fireIf {} false .failureCategory ("failure_category:" ++ c.category) = {} := rfl
      rw [hskip, fireIf_start, decide_eq_false_iff_not, not_lt]
      simp [hnot]

theorem unknownRule_silent (context : PolicyContext) :
    context.unknownRule {} = {} ↔ context.hasCategory .unknown = false := by
  unfold unknownRule
  split
  · next h => simp [h]
  · next h => simpa using h

variable [UnicodeData]

theorem raises_authRule (context : PolicyContext) (cfg : PolicyConfig) : Raises (context.authRule cfg) := by
  unfold authRule
  split
  · exact ⟨fun st _ => by simp [Escalation.fire], fun st => Or.inr (by simp [Escalation.fire])⟩
  · exact raises_fireIf _ _ _

theorem raises_escalationRules (context : PolicyContext) (cfg : PolicyConfig) (findings : List IntegrityFinding) :
    ∀ r ∈ context.escalationRules cfg findings, Raises r := by
  simp only [escalationRules, List.forall_mem_cons, List.not_mem_nil, false_imp_iff, implies_true, and_true]
  exact ⟨raises_verificationReviewRule findings, context.raises_classificationRule cfg,
    context.raises_authRule cfg, raises_fireIf _ _ _, raises_fireIf _ _ _, raises_fireIf _ _ _,
    raises_fireIf _ _ _, raises_fireIf _ _ _, raises_fireIf _ _ _, raises_fireIf _ _ _, raises_fireIf _ _ _,
    context.raises_unknownRule⟩

theorem escalation_silent_iff (context : PolicyContext) (cfg : PolicyConfig) (findings : List IntegrityFinding) :
    (context.escalation cfg findings).reasons = [] ↔
      ∀ r ∈ context.escalationRules cfg findings, r {} = {} :=
  foldl_rules_silent (context.raises_escalationRules cfg findings)

theorem authRule_silent (context : PolicyContext) (cfg : PolicyConfig) :
    context.authRule cfg {} = {} ↔
      context.filesOf .auth = [] ∧ pathContainsMarkers context.changedFiles cfg.securityPathMarkers = false := by
  unfold authRule
  split
  · next h =>
    have hne : context.filesOf .auth ≠ [] := by simpa using h
    simp [Escalation.fire, hne]
  · next h =>
    have hnil : context.filesOf .auth = [] := by simpa using h
    rw [fireIf_start]
    simp [hnil]

end PolicyContext

/-- No normalized file contains a normalized pattern. -/
def NoneContains [UnicodeData] (files : List Str) (patterns : List String) : Prop :=
  ∀ f ∈ files, ∀ pat ∈ patterns, ¬ normalizePath pat.toList <:+: normalizePath f

theorem pathMatches_iff [UnicodeData] (patterns : List String) (f : Str) :
    pathMatches patterns f = true ↔ ∃ pat ∈ patterns, normalizePath pat.toList <:+: normalizePath f := by
  unfold pathMatches
  rw [List.any_eq_true]
  refine exists_congr fun pat => and_congr_right fun _ => ?_
  dsimp only
  rw [Bool.or_eq_true, Bool.or_eq_true, hasSub_iff, startsWith_iff, beq_iff_eq]
  constructor
  · rintro ((h | h) | h)
    · rw [h]
    · exact h.isInfix
    · exact h
  · exact Or.inr

theorem matchingPaths_eq_nil_iff [UnicodeData] (files : List Str) (patterns : List String) :
    matchingPaths files patterns = [] ↔ NoneContains files patterns := by
  unfold matchingPaths NoneContains
  rw [List.filter_eq_nil_iff]
  refine forall₂_congr fun f _ => ?_
  rw [pathMatches_iff]
  simp only [not_exists, not_and]

theorem pathContainsMarkers_eq_false_iff [UnicodeData] (files : List Str) (markers : List String) :
    pathContainsMarkers files markers = false ↔ NoneContains files markers := by
  unfold pathContainsMarkers NoneContains
  simp only [List.any_eq_false, Bool.not_eq_true, List.any_eq_false]
  refine forall₂_congr fun f _ => forall₂_congr fun m _ => ?_
  rw [← hasSub_iff, Bool.not_eq_true]

end FailureOrchestrator
