import FailureOrchestrator.DiffAppend
import FailureOrchestrator.Policy
import FailureOrchestrator.PolicyApproval
import Mathlib.Data.List.Dedup
import Mathlib.Data.List.Perm.Subperm
import Mathlib.Tactic.SplitIfs

namespace FailureOrchestrator

/-- Every file of the first list occurs in the second at least as often. -/
def FilesWithin (files files' : List Str) : Prop := ∀ f, files.count f ≤ files'.count f

theorem FilesWithin.subset {files files' : List Str} (h : FilesWithin files files') : files ⊆ files' := by
  intro f hf
  exact List.count_pos_iff.mp (Nat.lt_of_lt_of_le (List.count_pos_iff.mpr hf) (h f))

theorem FilesWithin.length_le {files files' : List Str} (h : FilesWithin files files') :
    files.length ≤ files'.length :=
  (List.subperm_ext_iff.mpr fun f _ => h f).length_le

/-- From a small change to one that is everywhere. -/
def ChangeScope.breadth : ChangeScope → Nat
  | .small => 0
  | .moderate => 1
  | .broad => 2

theorem ChangeScope.breadth_eq_zero {scope : ChangeScope} : scope.breadth = 0 ↔ scope = .small := by
  cases scope <;> decide

theorem distinctCount_mono {xs ys : List Str} (h : xs ⊆ ys) : distinctCount xs ≤ distinctCount ys := by
  refine ((List.nodup_dedup xs).subperm fun x hx => ?_).length_le
  exact List.mem_dedup.mpr (h (List.mem_dedup.mp hx))

section

variable [UnicodeData]

/-- The directories that `classifyScope` counts. -/
def directoriesOf (files : List Str) : List Str :=
  ((files.map normalizePath).filter (·.contains '/')).map (beforeLast '/')

theorem directoriesOf_subset {files files' : List Str} (h : files ⊆ files') :
    directoriesOf files ⊆ directoriesOf files' :=
  List.map_subset _ (List.filter_subset _ (List.map_subset _ h))

/-- A change that gets larger is never classified as a smaller one. -/
theorem classifyScope_mono {files files' : List Str} (hne : files ≠ []) (h : FilesWithin files files')
    (smallMax moderateMax : Int) :
    (classifyScope files smallMax moderateMax).breadth ≤ (classifyScope files' smallMax moderateMax).breadth := by
  have hlen := h.length_le
  have hpos := List.length_pos_iff.mpr hne
  have hdirs : distinctCount (directoriesOf files) ≤ distinctCount (directoriesOf files') :=
    distinctCount_mono (directoriesOf_subset h.subset)
  unfold directoriesOf at hdirs
  unfold classifyScope
  dsimp only
  split_ifs <;> first | decide | omega

end

/-- A rung of a ladder whose lower rungs are no worse. -/
theorem rung_mono {p q : Prop} [Decidable p] [Decidable q] {a x y : GovernanceRiskLevel} (hpq : p → q)
    (hbelow : x.order ≤ a.order) (hrest : ¬ q → x.order ≤ y.order) :
    (if p then a else x).order ≤ (if q then a else y).order := by
  by_cases hq : q
  · rw [if_pos hq]
    split
    · exact Nat.le_refl _
    · exact hbelow
  · rw [if_neg hq, if_neg (mt hpq hq)]
    exact hrest hq

/-- More files and a broader scope never lower the risk. -/
theorem classifyRisk_mono [UnicodeData] {files files' : List Str} (h : files ⊆ files') {scope scope' : ChangeScope}
    (hscope : scope.breadth ≤ scope'.breadth) (toolRisks : List ToolRiskLevel) :
    (classifyRisk (files.map classifyFile) scope toolRisks files).order ≤
      (classifyRisk (files'.map classifyFile) scope' toolRisks files').order := by
  have hcat : ∀ {c}, c ∈ files.map classifyFile → c ∈ files'.map classifyFile := fun hc => List.map_subset _ h hc
  unfold classifyRisk
  refine rung_mono hcat (by split_ifs <;> decide) fun _ => ?_
  refine rung_mono ?_ (by split_ifs <;> decide) fun _ => ?_
  · rw [List.any_eq_true, List.any_eq_true]
    rintro ⟨f, hf, hc⟩
    exact ⟨f, h hf, hc⟩
  refine rung_mono (Or.imp hcat hcat) (by split_ifs <;> decide) fun _ => ?_
  refine rung_mono (Or.imp hcat hcat) (by split_ifs <;> decide) fun _ => ?_
  refine rung_mono hcat (by split_ifs <;> decide) fun _ => ?_
  refine rung_mono (And.imp_right fun hs hs' => ?_) (by split_ifs <;> decide) fun _ => ?_
  · subst hs'
    exact hs (ChangeScope.breadth_eq_zero.mp (Nat.le_zero.mp hscope))
  refine rung_mono (Or.imp hcat fun hs => ?_) (by split_ifs <;> decide) fun hbroad => ?_
  · subst hs
    cases scope' <;> first | rfl | (revert hscope; decide)
  refine rung_mono (fun hs => ?_) (by split_ifs <;> decide) fun _ => ?_
  · subst hs
    cases hs' : scope' with
    | small => rw [hs'] at hscope; revert hscope; decide
    | moderate => rfl
    | broad => exact absurd (Or.inr hs') hbroad
  by_cases hplain : ∀ c ∈ files'.map classifyFile, c = .source ∨ c = .test ∨ c = .documentation
  · rw [if_pos hplain, if_pos fun c hc => hplain c (hcat hc)]
  · rw [if_neg hplain]
    split_ifs <;> decide

def PolicyOutcome.strictness : PolicyOutcome → Nat
  | .approve => 0
  | .escalate => 1
  | .reject => 2

theorem NoneContains.of_subset [UnicodeData] {files files' : List Str} {patterns : List String}
    (h : NoneContains files' patterns) (hs : files ⊆ files') : NoneContains files patterns :=
  fun f hf => h f (hs hf)

/-- The patch `after` is `before`, whose last line is ended, followed by nothing or by more
sections of git. -/
def AppendsTo (before after : Str) : Prop :=
  (∃ body, before = body ++ ['\n']) ∧
    ∃ q, after = before ++ q ∧ (q = [] ∨ startsWith q "diff --git ".toList = true)

/-- A proposal that changes more: it keeps every file, and its patch goes on after the patch
of the first one. -/
structure RepairProposal.Enlarges (after before : RepairProposal) : Prop where
  files : before.filesChanged ≠ []
  within : FilesWithin before.filesChanged after.filesChanged
  patch : strip before.patch ≠ []
  appended : AppendsTo before.patch after.patch

theorem strip_appended {before after : Str} (h : AppendsTo before after) (hb : strip before ≠ []) :
    strip after ≠ [] := by
  obtain ⟨-, q, rfl, -⟩ := h
  intro hnil
  have hall := (strip_eq_nil_iff _).mp hnil
  exact hb ((strip_eq_nil_iff _).mpr fun c hc => hall c (List.mem_append_left _ hc))

section

variable [UnicodeData]

/-- What the analysis finds in a patch it also finds in every continuation that it can read. -/
theorem analyzePatch_appended {before after : Str} (h : AppendsTo before after) :
    (∀ e, analyzePatch before = .error e → analyzePatch after = .error e) ∧
    ∀ fs fs', analyzePatch before = .ok fs → analyzePatch after = .ok fs' → fs <+: fs' := by
  obtain ⟨hbefore, q, rfl, hq⟩ := h
  rcases hq with rfl | hq
  · rw [List.append_nil]
    refine ⟨fun e he => he, fun fs fs' hfs hfs' => ?_⟩
    cases hfs.symm.trans hfs'
    exact List.prefix_rfl
  · rw [analyzePatch_sections (Or.inr hbefore) hq]
    cases analyzePatch before with
    | error e => exact ⟨fun e' he => he, fun fs _ hfs => by cases hfs⟩
    | ok fs =>
      refine ⟨fun e he => (by cases he), fun fs' gs hfs hgs => ?_⟩
      cases hfs
      cases hq : analyzePatch q with
      | error e => rw [hq] at hgs; cases hgs
      | ok more =>
        rw [hq] at hgs
        cases hgs
        exact List.prefix_append fs more

/-- A hard rejection stays one in a larger change, unless it rests on findings alone and the
larger patch cannot be read. -/
theorem HardReject.of_enlarged {cfg : PolicyConfig} {context context' : PolicyContext}
    (heval : context'.evaluation = context.evaluation) (hfiles : context.changedFiles ⊆ context'.changedFiles)
    (hne : context.changedFiles ≠ []) (hpatch : strip context.proposal.patch ≠ [])
    (happ : AppendsTo context.proposal.patch context'.proposal.patch) (h : HardReject cfg context) :
    HardReject cfg context' ∨
      (∃ fs, analyzePatch context.proposal.patch = .ok fs ∧ ∃ f ∈ fs, f.severity = .reject) ∧
        ∃ e, analyzePatch context'.proposal.patch = .error e := by
  rcases h with h | h | h | ⟨f, hf, pat, hp, hin⟩ | ⟨fs, hfs, f, hf, hsev⟩
  · exact Or.inl (Or.inl (heval ▸ h))
  · exact absurd h hne
  · exact absurd h hpatch
  · exact Or.inl (Or.inr (Or.inr (Or.inr (Or.inl ⟨f, hfiles hf, pat, hp, hin⟩))))
  · cases ha : analyzePatch context'.proposal.patch with
    | error e => exact Or.inr ⟨⟨fs, hfs, f, hf, hsev⟩, e, rfl⟩
    | ok fs' =>
      have hsub := ((analyzePatch_appended happ).2 fs fs' hfs ha).subset
      exact Or.inl (Or.inr (Or.inr (Or.inr (Or.inr ⟨fs', ha, f, hsub hf, hsev⟩))))

namespace StaticPolicyEngine

/-- With escalation as the default only a hard rejection rejects. -/
theorem evaluate_reject_iff (engine : StaticPolicyEngine) (hdefault : engine.config.defaultOutcome = .escalate)
    (context : PolicyContext) :
    (engine.evaluate context).outcome = .reject ↔ HardReject engine.config context := by
  refine ⟨fun h => ?_, engine.evaluate_of_hardReject⟩
  by_contra hr
  rcases engine.evaluate_of_not_hardReject hr with ⟨e, _, heq⟩ | ⟨findings, _, _, heq⟩
  · rw [heq] at h
    cases h
  · rw [heq, engine.decideUnrejected_outcome, hdefault] at h
    split_ifs at h

/-- What a larger change needs for its approval the smaller one has as well. -/
theorem approvable_of_enlarged {cfg : PolicyConfig}
    (hclosed : ∀ a b : GovernanceRiskLevel, a.order ≤ b.order → b ∈ cfg.autoApproveRiskLevels →
      a ∈ cfg.autoApproveRiskLevels)
    (evaluation : EvaluationResult) (classification : Option FailureClassification) (toolsUsed : List String)
    (toolRiskLevels : List ToolRiskLevel) (attemptCount : Int) (config : PolicyConfig)
    {before after : RepairProposal} (h : after.Enlarges before)
    (happ : Approvable cfg (buildPolicyContext after evaluation classification toolsUsed toolRiskLevels
      attemptCount config)) :
    Approvable cfg (buildPolicyContext before evaluation classification toolsUsed toolRiskLevels
      attemptCount config) := by
  have hsub : before.filesChanged ⊆ after.filesChanged := h.within.subset
  have hscope := classifyScope_mono h.files h.within config.smallScopeMaxFiles config.moderateScopeMaxFiles
  have hrisk := classifyRisk_mono hsub hscope toolRiskLevels
  have hsmall : classifyScope after.filesChanged config.smallScopeMaxFiles config.moderateScopeMaxFiles = .small :=
    happ.scope
  have hquiet : analyzePatch before.patch = .ok [] := by
    obtain ⟨herr, hok⟩ := analyzePatch_appended h.appended
    have hnone : analyzePatch after.patch = .ok [] := happ.noFinding
    cases hb : analyzePatch before.patch with
    | error e =>
      rw [herr e hb] at hnone
      cases hnone
    | ok fs => rw [List.prefix_nil.mp (hok fs [] hb hnone)]
  exact {
    passed := happ.passed
    files := h.files
    patch := h.patch
    notForbidden := happ.notForbidden.of_subset hsub
    noFinding := hquiet
    classified := happ.classified
    ordinary := fun f hf => happ.ordinary f (hsub hf)
    noMarker := happ.noMarker.of_subset hsub
    noCiPath := happ.noCiPath.of_subset hsub
    noEscalationPath := happ.noEscalationPath.of_subset hsub
    attempts := happ.attempts
    scope := ChangeScope.breadth_eq_zero.mp (Nat.le_zero.mp (hscope.trans_eq (by rw [hsmall]; rfl)))
    fileCount := (Int.ofNat_le.mpr h.within.length_le).trans happ.fileCount
    risk := hclosed _ _ hrisk happ.risk
    allowed := fun f hf => happ.allowed f (hsub hf) }

/-- A larger change is judged at least as strictly. The one exception fails closed: what the
findings of the smaller patch reject is escalated when the larger patch cannot be read. -/
theorem evaluate_not_softened (engine : StaticPolicyEngine) (hdefault : engine.config.defaultOutcome = .escalate)
    (hclosed : ∀ a b : GovernanceRiskLevel, a.order ≤ b.order → b ∈ engine.config.autoApproveRiskLevels →
      a ∈ engine.config.autoApproveRiskLevels)
    (evaluation : EvaluationResult) (classification : Option FailureClassification) (toolsUsed : List String)
    (toolRiskLevels : List ToolRiskLevel) (attemptCount : Int) (config : PolicyConfig)
    (before after : RepairProposal) (h : after.Enlarges before) :
    let outcome := fun proposal => (engine.evaluate (buildPolicyContext proposal evaluation classification toolsUsed
      toolRiskLevels attemptCount config)).outcome
    (outcome before).strictness ≤ (outcome after).strictness ∨
      outcome after = .escalate ∧ (∃ e, analyzePatch after.patch = .error e) ∧
        ∃ fs, analyzePatch before.patch = .ok fs ∧ ∃ f ∈ fs, f.severity = .reject := by
  intro outcome
  let context := fun proposal => buildPolicyContext proposal evaluation classification toolsUsed toolRiskLevels
    attemptCount config
  have hb : ∀ proposal, (context proposal).Built := fun _ => rfl
  by_cases hr : HardReject engine.config (context before)
  · have hreject : outcome before = .reject := engine.evaluate_of_hardReject hr
    by_cases hr' : HardReject engine.config (context after)
    · have hreject' : outcome after = .reject := engine.evaluate_of_hardReject hr'
      exact Or.inl (by rw [hreject, hreject'])
    · have hfiles : (context before).changedFiles ⊆ (context after).changedFiles := h.within.subset
      have heval : (context after).evaluation = (context before).evaluation := rfl
      rcases hr.of_enlarged heval hfiles h.files h.patch h.appended with hr'' | ⟨hfind, e, he⟩
      · exact absurd hr'' hr'
      · rcases engine.evaluate_of_not_hardReject hr' with ⟨e', _, heq⟩ | ⟨fs, hfs, _⟩
        · exact Or.inr ⟨congrArg PolicyDecision.outcome heq, ⟨e, he⟩, hfind⟩
        · rw [he] at hfs
          cases hfs
  · have hbefore : outcome before ≠ .reject := fun ho => hr ((engine.evaluate_reject_iff hdefault _).mp ho)
    refine Or.inl ?_
    cases ho : outcome before with
    | approve => exact Nat.zero_le _
    | reject => exact absurd ho hbefore
    | escalate =>
      have hafter : outcome after ≠ .approve := by
        intro ha
        have happ' : Approvable engine.config (context after) := (engine.outcome_approve_iff (hb after)).mp ha
        have happ : Approvable engine.config (context before) := approvable_of_enlarged hclosed evaluation
          classification toolsUsed toolRiskLevels attemptCount config h happ'
        have hsame : outcome before = .approve := (engine.outcome_approve_iff (hb before)).mpr happ
        rw [ho] at hsame
        cases hsame
      cases ha : outcome after with
      | approve => exact absurd ha hafter
      | escalate => exact Nat.le_refl _
      | reject => decide

end StaticPolicyEngine

end

/-! ## A patch that can no longer be read -/

def sampleProposal (filesChanged : List Str) (patch : Str) : RepairProposal :=
  { proposalId := "proposal-1".toList, filesChanged, patch }

def passedEvaluation : EvaluationResult :=
  { passed := true, patchApplied := true, targetVerificationPassed := true, forbiddenChangesDetected := false }

theorem defaultConfig_accepted : @PolicyConfig.validate asciiData {} = .ok () := by
  unfold PolicyConfig.validate
  rw [if_neg (by decide), if_neg (by decide), if_neg (by decide), if_neg (by decide), if_neg (by decide),
    if_neg (by norm_num)]
  rfl

def defaultEngine : @StaticPolicyEngine asciiData :=
  @StaticPolicyEngine.mk asciiData {} defaultConfig_accepted

def deletedTestPatch : Str :=
  "diff --git a/tests/test_a.py b/tests/test_a.py\ndeleted file mode 100644\n".toList

theorem deletedTestPatch_terminated :
    deletedTestPatch = "diff --git a/tests/test_a.py b/tests/test_a.py\ndeleted file mode 100644".toList ++ ['\n'] := by
  decide

/-- One more digit than `int` converts. -/
def vastHeader : Str := "@@ -".toList ++ hunkRange 1 (10 ^ maxStrDigits) ++ " +".toList ++ hunkRange 1 1 ++ " @@".toList

def vastSection : Str :=
  "diff --git ".toList ++ "a/src/b.py b/src/b.py".toList ++ '\n' :: (vastHeader ++ ['\n'])

theorem vastSection_appended : AppendsTo deletedTestPatch (deletedTestPatch ++ vastSection) := by
  refine ⟨⟨_, deletedTestPatch_terminated⟩, vastSection, rfl, Or.inr (List.isPrefixOf_iff_prefix.mpr ?_)⟩
  exact ⟨_, (List.append_assoc _ _ _).symm⟩

theorem vastHeader_error [UnicodeData] : ∃ e, hunkCounts vastHeader = .error e := by
  obtain ⟨m, hm, h1, h2⟩ := matchStart_counts 1 (10 ^ maxStrDigits) 1 1 []
  rw [List.append_nil] at hm
  exact hunkCounts_error hm h1 h2 fun hc => Nat.lt_irrefl _ hc.1

theorem vastHeader_mem : vastHeader ∈ splitlines (deletedTestPatch ++ vastSection) := by
  have hu : Unbroken vastHeader := by
    have hopen := Unbroken.append (s := "@@ -".toList) (by decide) (hunkRange_unbroken 1 (10 ^ maxStrDigits))
    have hplus := hopen.append (t := " +".toList) (by decide)
    exact (hplus.append (hunkRange_unbroken 1 1)).append (t := " @@".toList) (by decide)
  have hsection : splitlines vastSection = ["diff --git ".toList ++ "a/src/b.py b/src/b.py".toList, vastHeader] := by
    unfold vastSection
    rw [splitlines_line (by decide), splitlines_line hu]
    rfl
  rw [deletedTestPatch_terminated, List.append_assoc, List.singleton_append, splitlines_append, hsection]
  simp

theorem vastPatch_unreadable : ∃ e, @analyzePatch asciiData (deletedTestPatch ++ vastSection) = .error e := by
  obtain ⟨e, he⟩ := @vastHeader_error asciiData
  obtain ⟨e', he'⟩ := @parseUnifiedDiff_error_of_mem asciiData _ _ vastHeader_mem
    (@diffStep_header_error asciiData _ _ he)
  exact ⟨e', by unfold analyzePatch; rw [he']; rfl⟩

theorem sampleProposal_enlarges (f g : Str) {patch patch' : Str} (h : strip patch ≠ [])
    (happ : AppendsTo patch patch') : (sampleProposal [f, g] patch').Enlarges (sampleProposal [f] patch) where
  files := List.cons_ne_nil _ _
  within := fun x => (List.sublist_append_left [f] [g]).count_le x
  patch := h
  appended := happ

/-- The outcome of the default engine for a passing run. -/
def defaultOutcome (proposal : RepairProposal) : PolicyOutcome :=
  (@StaticPolicyEngine.evaluate asciiData defaultEngine
    (@buildPolicyContext asciiData proposal passedEvaluation none [] [] 1 {})).outcome

theorem deletedTest_rejected (f : Str) : defaultOutcome (sampleProposal [f] deletedTestPatch) = .reject := by
  refine @StaticPolicyEngine.evaluate_of_hardReject asciiData defaultEngine _ ?_
  exact Or.inr (Or.inr (Or.inr (Or.inr ⟨_, rfl, _, List.mem_singleton.mpr rfl, rfl⟩)))

theorem vastProposal_escalated {f g : Str}
    (hclean : @NoneContains asciiData [f, g] (@StaticPolicyEngine.config asciiData defaultEngine).forbiddenPaths) :
    defaultOutcome (sampleProposal [f, g] (deletedTestPatch ++ vastSection)) = .escalate := by
  obtain ⟨e, he⟩ := vastPatch_unreadable
  have hr : ¬ @HardReject asciiData (@StaticPolicyEngine.config asciiData defaultEngine)
      (@buildPolicyContext asciiData (sampleProposal [f, g] (deletedTestPatch ++ vastSection)) passedEvaluation
        none [] [] 1 {}) := by
    rintro (h | h | h | ⟨x, hx, pat, hp, hin⟩ | ⟨fs, hfs, -⟩)
    · cases h
    · cases h
    · exact strip_appended vastSection_appended (by decide) h
    · exact hclean x hx pat hp hin
    · cases he.symm.trans hfs
  rcases @StaticPolicyEngine.evaluate_of_not_hardReject asciiData defaultEngine _ hr with ⟨e', _, heq⟩ | ⟨fs, hfs, _⟩
  · exact congrArg PolicyDecision.outcome heq
  · cases he.symm.trans hfs

theorem lowRisk_closed : ∀ a b : GovernanceRiskLevel, a.order ≤ b.order → b ∈ [GovernanceRiskLevel.low] →
    a ∈ [GovernanceRiskLevel.low] := by
  intro a b hle hb
  rw [List.mem_singleton.mp hb] at hle
  cases a with
  | low => exact List.mem_singleton.mpr rfl
  | medium | high | critical => exact absurd hle (by decide)

theorem samplePaths_allowed : @NoneContains asciiData ["tests/test_a.py".toList, "src/b.py".toList]
    (@StaticPolicyEngine.config asciiData defaultEngine).forbiddenPaths :=
  (@matchingPaths_eq_nil_iff asciiData _ _).mp rfl

/-- The section whose count cannot be read turns the rejection of a deleted test into an
escalation. -/
theorem evaluate_softened : ¬ ∀ (u : UnicodeData) (engine : @StaticPolicyEngine u),
    (@StaticPolicyEngine.config u engine).defaultOutcome = .escalate →
    (∀ a b : GovernanceRiskLevel, a.order ≤ b.order →
      b ∈ (@StaticPolicyEngine.config u engine).autoApproveRiskLevels →
      a ∈ (@StaticPolicyEngine.config u engine).autoApproveRiskLevels) →
    ∀ before after : RepairProposal, after.Enlarges before →
      (@StaticPolicyEngine.evaluate u engine
        (@buildPolicyContext u before passedEvaluation none [] [] 1 {})).outcome.strictness ≤
      (@StaticPolicyEngine.evaluate u engine
        (@buildPolicyContext u after passedEvaluation none [] [] 1 {})).outcome.strictness := by
  intro h
  have hle : ∀ before after : RepairProposal, after.Enlarges before →
      (defaultOutcome before).strictness ≤ (defaultOutcome after).strictness :=
    h asciiData defaultEngine rfl lowRisk_closed
  have hsoft := hle _ _
    (sampleProposal_enlarges "tests/test_a.py".toList "src/b.py".toList (by decide) vastSection_appended)
  rw [deletedTest_rejected, vastProposal_escalated samplePaths_allowed] at hsoft
  exact absurd hsoft (by decide)

/-- A harmless new file beside the deleted test. -/
theorem deletedTest_not_softened :
    (defaultOutcome (sampleProposal ["tests/test_a.py".toList] deletedTestPatch)).strictness ≤
      (defaultOutcome (sampleProposal ["tests/test_a.py".toList, "src/b.py".toList]
        (deletedTestPatch ++ "diff --git a/src/b.py b/src/b.py\nnew file mode 100644\n".toList))).strictness := by
  have happ : AppendsTo deletedTestPatch
      (deletedTestPatch ++ "diff --git a/src/b.py b/src/b.py\nnew file mode 100644\n".toList) :=
    ⟨⟨_, deletedTestPatch_terminated⟩, _, rfl, Or.inr rfl⟩
  rcases @StaticPolicyEngine.evaluate_not_softened asciiData defaultEngine rfl lowRisk_closed passedEvaluation none
    [] [] 1 {} _ _ (sampleProposal_enlarges "tests/test_a.py".toList "src/b.py".toList (by decide) happ)
    with hle | ⟨-, ⟨e, he⟩, -⟩
  · exact hle
  · cases he

end FailureOrchestrator
