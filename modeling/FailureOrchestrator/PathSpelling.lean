import FailureOrchestrator.PolicyMonotone
import Mathlib.Data.List.Dedup
import Mathlib.Data.List.Perm.Basic
import Mathlib.Logic.Function.Basic

namespace FailureOrchestrator

/-- A function that reads no more than `g` keeps two lists alike that `g` maps to
permutations of one another. -/
theorem map_perm_of_factorsThrough {α β γ : Type*} {f : α → β} {g : α → γ} (h : Function.FactorsThrough f g)
    {xs ys : List α} (hp : (xs.map g).Perm (ys.map g)) : (xs.map f).Perm (ys.map f) := by
  cases xs with
  | nil =>
    have hys : ys = [] := by simpa using hp.symm.eq_nil
    rw [hys]
  | cons x xs =>
    have hf : ∀ zs : List α, zs.map f = (zs.map g).map (Function.extend g f fun _ => f x) := by
      intro zs
      rw [List.map_map]
      exact List.map_congr_left fun z _ => (h.extend_apply _ z).symm
    rw [hf, hf]
    exact hp.map _

theorem distinctCount_perm {xs ys : List Str} (h : xs.Perm ys) : distinctCount xs = distinctCount ys :=
  h.dedup.length_eq

theorem any_perm {xs ys : List Bool} (h : xs.Perm ys) : xs.any id = ys.any id := by
  rw [Bool.eq_iff_iff, List.any_eq_true, List.any_eq_true]
  simp only [h.mem_iff]

/-- Two decisions that say the same, but for the texts that quote the paths. -/
structure PolicyDecision.Agrees (d d' : PolicyDecision) : Prop where
  outcome : d.outcome = d'.outcome
  reasons : d.reasons = d'.reasons
  matchedRules : d.matchedRules = d'.matchedRules
  riskLevel : d.riskLevel = d'.riskLevel

theorem decision_agrees (outcome : PolicyOutcome) (matched : List PolicyRule)
    (violations violations' : List PolicyViolation) (reasons : List String) (risk : GovernanceRiskLevel)
    (evidence evidence' : List String) (detail detail' : String) :
    (decision outcome matched violations reasons risk evidence detail).Agrees
      (decision outcome matched violations' reasons risk evidence' detail') :=
  ⟨rfl, rfl, rfl, rfl⟩

theorem PolicyDecision.Agrees.refl (d : PolicyDecision) : d.Agrees d := ⟨rfl, rfl, rfl, rfl⟩

section

variable [UnicodeData]

/-- The same files in another order and another spelling. -/
def SamePaths (files files' : List Str) : Prop := (files.map normalizePath).Perm (files'.map normalizePath)

/-- What is decided about a path from its normalized spelling alone. -/
abbrev SpellingBlind {β : Type*} (f : Str → β) : Prop := Function.FactorsThrough f normalizePath

theorem spellingBlind_classifyFile : SpellingBlind classifyFile := by
  intro a b h
  unfold classifyFile
  rw [h]

theorem spellingBlind_criticalPath : SpellingBlind criticalPath := by
  intro a b h
  unfold criticalPath
  rw [h]

theorem spellingBlind_pathMatches (patterns : List String) : SpellingBlind (pathMatches patterns) := by
  intro a b h
  unfold pathMatches
  rw [h]

theorem spellingBlind_markers (markers : List String) :
    SpellingBlind fun f => markers.any fun m => hasSub (normalizePath f) (normalizePath m.toList) := by
  intro a b h
  dsimp only
  rw [h]

namespace SamePaths

variable {files files' : List Str}

theorem length_eq (h : SamePaths files files') : files.length = files'.length := by
  simpa using List.Perm.length_eq h

theorem isEmpty_eq (h : SamePaths files files') : files.isEmpty = files'.isEmpty := by
  rw [Bool.eq_iff_iff, List.isEmpty_iff_length_eq_zero, List.isEmpty_iff_length_eq_zero, h.length_eq]

theorem map_perm (h : SamePaths files files') {β : Type*} {f : Str → β} (hf : SpellingBlind f) :
    (files.map f).Perm (files'.map f) :=
  map_perm_of_factorsThrough hf h

theorem any_eq (h : SamePaths files files') {p : Str → Bool} (hp : SpellingBlind p) : files.any p = files'.any p := by
  have hany := any_perm (h.map_perm hp)
  rw [List.any_map, List.any_map] at hany
  exact hany

theorem matchingPaths_isEmpty (h : SamePaths files files') (patterns : List String) :
    (matchingPaths files patterns).isEmpty = (matchingPaths files' patterns).isEmpty := by
  have hany := h.any_eq (spellingBlind_pathMatches patterns)
  unfold matchingPaths
  rw [Bool.eq_iff_iff, List.isEmpty_iff, List.isEmpty_iff, List.filter_eq_nil_iff, List.filter_eq_nil_iff]
  rw [← not_iff_not, Bool.eq_iff_iff, List.any_eq_true, List.any_eq_true] at *
  simpa using hany

theorem pathContainsMarkers_eq (h : SamePaths files files') (markers : List String) :
    pathContainsMarkers files markers = pathContainsMarkers files' markers :=
  h.any_eq (spellingBlind_markers markers)

theorem classifyScope_eq (h : SamePaths files files') (smallMax moderateMax : Int) :
    classifyScope files smallMax moderateMax = classifyScope files' smallMax moderateMax := by
  have hdirs := distinctCount_perm ((List.Perm.filter (·.contains '/') h).map (beforeLast '/'))
  unfold classifyScope
  dsimp only
  rw [hdirs, h.length_eq]

theorem classifyRisk_eq (h : SamePaths files files') (scope : ChangeScope) (toolRisks : List ToolRiskLevel) :
    classifyRisk (files.map classifyFile) scope toolRisks files =
      classifyRisk (files'.map classifyFile) scope toolRisks files' := by
  have hcat := h.map_perm spellingBlind_classifyFile
  have hcritical := h.any_eq spellingBlind_criticalPath
  unfold classifyRisk
  simp only [hcat.mem_iff, hcritical]

end SamePaths

namespace PolicyContext

/-- Two contexts that tell the rules the same. -/
structure Alike (context context' : PolicyContext) : Prop where
  paths : SamePaths context.changedFiles context'.changedFiles
  built : context.Built
  built' : context'.Built
  evaluation : context.evaluation = context'.evaluation
  patch : context.proposal.patch = context'.proposal.patch
  classification : context.classification = context'.classification
  toolRiskLevels : context.toolRiskLevels = context'.toolRiskLevels
  attemptCount : context.attemptCount = context'.attemptCount
  changeScope : context.changeScope = context'.changeScope
  riskLevel : context.riskLevel = context'.riskLevel

namespace Alike

variable {context context' : PolicyContext}

theorem categories (h : Alike context context') : context.fileCategories.Perm context'.fileCategories := by
  rw [h.built, h.built']
  exact h.paths.map_perm spellingBlind_classifyFile

theorem hasCategory_eq (h : Alike context context') (c : FileCategory) :
    context.hasCategory c = context'.hasCategory c := by
  unfold hasCategory
  rw [Bool.eq_iff_iff, List.contains_iff_mem, List.contains_iff_mem, h.categories.mem_iff]

theorem filesOf_isEmpty (h : Alike context context') (c : FileCategory) :
    (context.filesOf c).isEmpty = (context'.filesOf c).isEmpty := by
  rw [Bool.eq_iff_iff, List.isEmpty_iff, List.isEmpty_iff, filesOf_eq_nil_iff h.built, filesOf_eq_nil_iff h.built',
    ← hasCategory_eq_false_iff h.built, ← hasCategory_eq_false_iff h.built', h.hasCategory_eq]

theorem escalationRules_eq (h : Alike context context') (cfg : PolicyConfig) (findings : List IntegrityFinding) :
    context.escalationRules cfg findings = context'.escalationRules cfg findings := by
  have hclass : context.classificationRule cfg = context'.classificationRule cfg := by
    funext st
    unfold classificationRule
    rw [h.classification]
  have hauth : context.authRule cfg = context'.authRule cfg := by
    funext st
    unfold authRule
    rw [h.filesOf_isEmpty, h.paths.pathContainsMarkers_eq]
  have hsecurity : context.securityRule = context'.securityRule := by
    funext st
    unfold securityRule
    rw [h.filesOf_isEmpty]
  have hci : context.ciRule cfg = context'.ciRule cfg := by
    funext st
    unfold ciRule
    rw [h.filesOf_isEmpty, h.paths.matchingPaths_isEmpty]
  have hdependency : context.dependencyRule = context'.dependencyRule := by
    funext st
    unfold dependencyRule
    rw [h.filesOf_isEmpty]
  have hinfra : context.infraRule = context'.infraRule := by
    funext st
    unfold infraRule
    rw [h.hasCategory_eq, h.hasCategory_eq]
  have hpath : context.escalationPathRule cfg = context'.escalationPathRule cfg := by
    funext st
    unfold escalationPathRule
    rw [h.paths.matchingPaths_isEmpty]
  have htool : context.restrictedToolRule cfg = context'.restrictedToolRule cfg := by
    funext st
    unfold restrictedToolRule
    rw [h.toolRiskLevels, h.changeScope]
  have hbroad : context.broadScopeRule = context'.broadScopeRule := by
    funext st
    unfold broadScopeRule
    rw [h.changeScope]
  have hretry : context.retryCountRule cfg = context'.retryCountRule cfg := by
    funext st
    unfold retryCountRule attemptCountReached
    rw [h.attemptCount]
  have hunknown : context.unknownRule = context'.unknownRule := by
    funext st
    unfold unknownRule
    rw [h.hasCategory_eq]
  unfold escalationRules
  rw [hclass, hauth, hsecurity, hci, hdependency, hinfra, hpath, htool, hbroad, hretry, hunknown]

theorem escalation_eq (h : Alike context context') (cfg : PolicyConfig) (findings : List IntegrityFinding) :
    context.escalation cfg findings = context'.escalation cfg findings := by
  unfold escalation
  rw [h.escalationRules_eq]

theorem eligibleAutoApprove_eq (h : Alike context context') (cfg : PolicyConfig) :
    context.eligibleAutoApprove cfg = context'.eligibleAutoApprove cfg := by
  have hempty : context.fileCategories.isEmpty = context'.fileCategories.isEmpty := h.categories.isEmpty_eq
  have hall : context.fileCategories.all cfg.autoApproveCategories.contains =
      context'.fileCategories.all cfg.autoApproveCategories.contains := by
    rw [Bool.eq_iff_iff, List.all_eq_true, List.all_eq_true]
    simp only [h.categories.mem_iff]
  unfold eligibleAutoApprove
  rw [h.riskLevel, h.paths.length_eq, h.changeScope, hempty, hall]

end Alike

end PolicyContext

namespace StaticPolicyEngine

theorem decideUnrejected_agrees (engine : StaticPolicyEngine) {context context' : PolicyContext}
    (h : context.Alike context') (findings : List IntegrityFinding) :
    (engine.decideUnrejected context findings).Agrees (engine.decideUnrejected context' findings) := by
  unfold decideUnrejected
  dsimp only
  rw [h.escalation_eq, h.eligibleAutoApprove_eq, h.riskLevel]
  split
  · exact decision_agrees ..
  · split
    · exact decision_agrees ..
    · exact decision_agrees ..

theorem evaluate_agrees (engine : StaticPolicyEngine) {context context' : PolicyContext}
    (h : context.Alike context') : (engine.evaluate context).Agrees (engine.evaluate context') := by
  unfold evaluate evaluateRules
  dsimp only
  rw [h.evaluation, h.patch, h.paths.isEmpty_eq, h.paths.matchingPaths_isEmpty]
  by_cases hpass : (!context'.evaluation.passed) = true
  · rw [if_pos hpass, if_pos hpass]
    unfold rejectEvaluation
    rw [h.riskLevel]
    exact decision_agrees ..
  rw [if_neg hpass, if_neg hpass]
  by_cases hempty : (context'.changedFiles.isEmpty || (strip context'.proposal.patch).isEmpty) = true
  · rw [if_pos hempty, if_pos hempty]
    exact decision_agrees ..
  rw [if_neg hempty, if_neg hempty]
  by_cases hhits : (!(matchingPaths context'.changedFiles engine.config.forbiddenPaths).isEmpty) = true
  · rw [if_pos hhits, if_pos hhits]
    exact decision_agrees ..
  rw [if_neg hhits, if_neg hhits]
  cases analyzePatch context'.proposal.patch with
  | error e => exact .refl _
  | ok findings =>
    by_cases hweak : (!(weakeningOf findings).isEmpty) = true
    · simp only [bind, Except.bind, hweak, ↓reduceIte]
      exact decision_agrees ..
    · simp only [bind, Except.bind, hweak, Bool.false_eq_true, ↓reduceIte]
      exact engine.decideUnrejected_agrees h findings

/-- The policy decision depends neither on the order of the changed files nor on how their
paths are spelled. -/
theorem evaluate_samePaths (engine : StaticPolicyEngine) (proposal : RepairProposal) (evaluation : EvaluationResult)
    (classification : Option FailureClassification) (toolsUsed : List String)
    (toolRiskLevels : List ToolRiskLevel) (attemptCount : Int) (config : PolicyConfig) (files : List Str)
    (h : SamePaths proposal.filesChanged files) :
    (engine.evaluate (buildPolicyContext proposal evaluation classification toolsUsed toolRiskLevels attemptCount
        config)).Agrees
      (engine.evaluate (buildPolicyContext { proposal with filesChanged := files } evaluation classification toolsUsed
        toolRiskLevels attemptCount config)) := by
  have hscope := h.classifyScope_eq config.smallScopeMaxFiles config.moderateScopeMaxFiles
  refine engine.evaluate_agrees {
    paths := h
    built := rfl
    built' := rfl
    evaluation := rfl
    patch := rfl
    classification := rfl
    toolRiskLevels := rfl
    attemptCount := rfl
    changeScope := hscope
    riskLevel := ?_ }
  unfold buildPolicyContext
  dsimp only
  rw [← hscope]
  exact h.classifyRisk_eq _ _

end StaticPolicyEngine

end

theorem evaluate_samePaths_windows :
    (@StaticPolicyEngine.evaluate asciiData defaultEngine (@buildPolicyContext asciiData
        (sampleProposal [".\\SRC\\Main.py".toList, "tests/test_main.py".toList] "+x".toList) passedEvaluation none
        [] [] 1 {})).Agrees
      (@StaticPolicyEngine.evaluate asciiData defaultEngine (@buildPolicyContext asciiData
        { sampleProposal [".\\SRC\\Main.py".toList, "tests/test_main.py".toList] "+x".toList with
          filesChanged := ["Tests/test_main.py".toList, "src/main.py".toList] } passedEvaluation none [] [] 1 {})) :=
  @StaticPolicyEngine.evaluate_samePaths asciiData defaultEngine
    (sampleProposal [".\\SRC\\Main.py".toList, "tests/test_main.py".toList] "+x".toList) passedEvaluation none [] []
    1 {} ["Tests/test_main.py".toList, "src/main.py".toList] (by unfold SamePaths sampleProposal; decide +kernel)

end FailureOrchestrator
