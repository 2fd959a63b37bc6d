import FailureOrchestrator.EscalationRules

namespace FailureOrchestrator

theorem findings_split (findings : List IntegrityFinding) :
    weakeningOf findings = [] ∧ reviewFindingsOf findings = [] ↔ findings = [] := by
  constructor
  · rintro ⟨hw, hr⟩
    rw [List.eq_nil_iff_forall_not_mem]
    intro f hf
    cases hs : f.severity with
    | reject => exact List.filter_eq_nil_iff.mp hw f hf (by simp [hs])
    | escalate => exact List.filter_eq_nil_iff.mp hr f hf (by simp [hs])
  · rintro rfl
    exact ⟨rfl, rfl⟩

variable [UnicodeData]

/-- The categories that always need a person. -/
def sensitiveCategories : List FileCategory :=
  [.auth, .security, .ci, .dependency, .infrastructure, .migration, .unknown]

/-- What hard-rejects a proposal. -/
def HardReject (cfg : PolicyConfig) (context : PolicyContext) : Prop :=
  context.evaluation.passed = false ∨ context.changedFiles = [] ∨ strip context.proposal.patch = [] ∨
    (∃ f ∈ context.changedFiles, ∃ pat ∈ cfg.forbiddenPaths, normalizePath pat.toList <:+: normalizePath f) ∨
    ∃ findings, analyzePatch context.proposal.patch = .ok findings ∧ ∃ f ∈ findings, f.severity = .reject

/-- What an unattended approval rests on. -/
structure Approvable (cfg : PolicyConfig) (context : PolicyContext) : Prop where
  passed : context.evaluation.passed = true
  files : context.changedFiles ≠ []
  patch : strip context.proposal.patch ≠ []
  notForbidden : NoneContains context.changedFiles cfg.forbiddenPaths
  noFinding : analyzePatch context.proposal.patch = .ok []
  classified : ∃ c, context.classification = some c ∧ c.category ∉ cfg.escalationFailureCategories ∧
    cfg.minClassificationConfidence ≤ c.confidence
  ordinary : ∀ f ∈ context.changedFiles, classifyFile f ∉ sensitiveCategories
  noMarker : NoneContains context.changedFiles cfg.securityPathMarkers
  noCiPath : NoneContains context.changedFiles cfg.ciPathPrefixes
  noEscalationPath : NoneContains context.changedFiles cfg.escalationPaths
  attempts : ¬ (cfg.escalateWhenAttemptsAtMax = true ∧ cfg.maxAttemptsForEscalation ≤ context.attemptCount)
  scope : context.changeScope = .small
  fileCount : (context.changedFiles.length : Int) ≤ cfg.autoApproveMaxFiles
  risk : context.riskLevel ∈ cfg.autoApproveRiskLevels
  allowed : ∀ f ∈ context.changedFiles, classifyFile f ∈ cfg.autoApproveCategories

namespace PolicyContext

/-- A context whose categories are those of its files, as `buildPolicyContext` makes it. -/
def Built (context : PolicyContext) : Prop := context.fileCategories = context.changedFiles.map classifyFile

theorem filesOf_eq_nil_iff {context : PolicyContext} (h : context.Built) (c : FileCategory) :
    context.filesOf c = [] ↔ ∀ f ∈ context.changedFiles, classifyFile f ≠ c := by
  have hzip : context.changedFiles.zip context.fileCategories =
      context.changedFiles.map fun f => (f, classifyFile f) := by
    rw [h, List.zip, List.zipWith_map_right, List.zipWith_self]
  unfold filesOf
  rw [hzip]
  simp [List.filter_eq_nil_iff]

theorem hasCategory_eq_false_iff {context : PolicyContext} (h : context.Built) (c : FileCategory) :
    context.hasCategory c = false ↔ ∀ f ∈ context.changedFiles, classifyFile f ≠ c := by
  unfold hasCategory
  rw [h]
  simp

/-- The mandatory rules are silent exactly on these proposals. -/
structure Unescalated (context : PolicyContext) (cfg : PolicyConfig) (findings : List IntegrityFinding) : Prop where
  noReview : reviewFindingsOf findings = []
  classified : ∃ c, context.classification = some c ∧ c.category ∉ cfg.escalationFailureCategories ∧
    cfg.minClassificationConfidence ≤ c.confidence
  ordinary : ∀ f ∈ context.changedFiles, classifyFile f ∉ sensitiveCategories
  noMarker : NoneContains context.changedFiles cfg.securityPathMarkers
  noCiPath : NoneContains context.changedFiles cfg.ciPathPrefixes
  noEscalationPath : NoneContains context.changedFiles cfg.escalationPaths
  tools : ¬ (cfg.escalateOnRestrictedTools = true ∧ .restricted ∈ context.toolRiskLevels ∧
    context.changeScope ≠ .small)
  scope : context.changeScope ≠ .broad
  attempts : ¬ (cfg.escalateWhenAttemptsAtMax = true ∧ cfg.maxAttemptsForEscalation ≤ context.attemptCount)

theorem escalation_nil_iff {context : PolicyContext} (h : context.Built) (cfg : PolicyConfig)
    (findings : List IntegrityFinding) :
    (context.escalation cfg findings).reasons = [] ↔ context.Unescalated cfg findings := by
  rw [escalation_silent_iff]
  simp only [escalationRules, List.forall_mem_cons, List.not_mem_nil, false_imp_iff, implies_true, and_true,
    verificationReviewRule_silent, classificationRule_silent, authRule_silent, unknownRule_silent]
  simp only [securityRule, ciRule, dependencyRule, infraRule, escalationPathRule, restrictedToolRule,
    broadScopeRule, retryCountRule, attemptCountReached, fireIf_start, Bool.or_eq_false_iff,
    hasCategory_eq_false_iff h, filesOf_eq_nil_iff h, pathContainsMarkers_eq_false_iff]
  have security : (!(context.filesOf .security).isEmpty && !(([] : List PolicyRule).contains PolicyRule.securitySensitive)) = false ↔
      ∀ f ∈ context.changedFiles, classifyFile f ≠ .security := by
    rw [← filesOf_eq_nil_iff h]
    simp
  have paths : ∀ pats, (!(matchingPaths context.changedFiles pats).isEmpty) = false ↔
      NoneContains context.changedFiles pats := by
    intro pats
    rw [← matchingPaths_eq_nil_iff]
    simp
  have category : ∀ c, (!(context.filesOf c).isEmpty) = false ↔
      ∀ f ∈ context.changedFiles, classifyFile f ≠ c := by
    intro c
    rw [← filesOf_eq_nil_iff h]
    simp
  have escalationPath : (!(matchingPaths context.changedFiles cfg.escalationPaths).isEmpty &&
      ([] : List String).isEmpty) = false ↔ NoneContains context.changedFiles cfg.escalationPaths := by
    rw [List.isEmpty_nil, Bool.and_true, paths]
  rw [security, escalationPath]
  simp only [paths, category]
  constructor
  · rintro ⟨hreview, hclass, ⟨hauth, hmark⟩, hsec, ⟨hci, hcip⟩, hdep, ⟨hinf, hmig⟩, hesc, htool, hbroad, hatt, hunk⟩
    refine ⟨hreview, hclass, fun f hf hmem => ?_, hmark, hcip, hesc, ?_, ?_, ?_⟩
    · simp only [sensitiveCategories, List.mem_cons, List.not_mem_nil, or_false] at hmem
      rcases hmem with hm | hm | hm | hm | hm | hm | hm
      · exact hauth f hf hm
      · exact hsec f hf hm
      · exact hci f hf hm
      · exact hdep f hf hm
      · exact hinf f hf hm
      · exact hmig f hf hm
      · exact hunk f hf hm
    · simpa using htool
    · simpa using hbroad
    · simpa using hatt
  · rintro ⟨hreview, hclass, hord, hmark, hcip, hesc, htool, hbroad, hatt⟩
    have hnot : ∀ c ∈ sensitiveCategories, ∀ f ∈ context.changedFiles, classifyFile f ≠ c := by
      intro c hc f hf heq
      exact hord f hf (heq ▸ hc)
    exact ⟨hreview, hclass, ⟨hnot _ (by decide), hmark⟩, hnot _ (by decide), ⟨hnot _ (by decide), hcip⟩,
      hnot _ (by decide), ⟨hnot _ (by decide), hnot _ (by decide)⟩, hesc, by simpa using htool,
      by simpa using hbroad, by simpa using hatt, hnot _ (by decide)⟩

theorem eligibleAutoApprove_iff {context : PolicyContext} (h : context.Built) (cfg : PolicyConfig) :
    context.eligibleAutoApprove cfg = true ↔
      context.riskLevel ∈ cfg.autoApproveRiskLevels ∧
      (context.changedFiles.length : Int) ≤ cfg.autoApproveMaxFiles ∧ context.changeScope = .small ∧
      context.changedFiles ≠ [] ∧ ∀ f ∈ context.changedFiles, classifyFile f ∈ cfg.autoApproveCategories := by
  unfold eligibleAutoApprove
  rw [h]
  simp [and_assoc]

end PolicyContext

namespace StaticPolicyEngine

theorem defaultOutcome_ne_approve (engine : StaticPolicyEngine) : engine.config.defaultOutcome ≠ .approve := by
  intro heq
  have hacc := engine.accepted
  unfold PolicyConfig.validate at hacc
  rw [if_pos heq] at hacc
  cases hacc

theorem evaluate_of_hardReject (engine : StaticPolicyEngine) {context : PolicyContext}
    (h : HardReject engine.config context) : (engine.evaluate context).outcome = .reject := by
  unfold evaluate evaluateRules
  by_cases hpass : context.evaluation.passed = true
  swap
  · rw [if_pos (by simpa using hpass)]
    rfl
  rw [if_neg (by simp [hpass])]
  by_cases hempty : (context.changedFiles.isEmpty || (strip context.proposal.patch).isEmpty) = true
  · rw [if_pos hempty]
    rfl
  rw [if_neg hempty]
  dsimp only
  by_cases hhits : matchingPaths context.changedFiles engine.config.forbiddenPaths = []
  swap
  · rw [if_pos (by simpa using hhits)]
    rfl
  rw [if_neg (by simp [hhits])]
  have hfiles : context.changedFiles ≠ [] ∧ strip context.proposal.patch ≠ [] := by simpa using hempty
  rcases h with h | h | h | ⟨f, hf, pat, hp, hin⟩ | ⟨findings, hfind, f, hf, hsev⟩
  · rw [hpass] at h
    cases h
  · exact absurd h hfiles.1
  · exact absurd h hfiles.2
  · exact absurd hin ((matchingPaths_eq_nil_iff _ _).mp hhits f hf pat hp)
  · have hweak : weakeningOf findings ≠ [] := by
      intro hnil
      exact List.filter_eq_nil_iff.mp hnil f hf (by simp [hsev])
    rw [hfind]
    have hne : (!(weakeningOf findings).isEmpty) = true := by simpa using hweak
    simp only [bind, Except.bind, hne, ↓reduceIte]
    rfl

/-- Past the hard rejections only an error of the analysis stands before the other rules. -/
theorem evaluate_of_not_hardReject (engine : StaticPolicyEngine) {context : PolicyContext}
    (h : ¬ HardReject engine.config context) :
    (∃ e, analyzePatch context.proposal.patch = .error e ∧ engine.evaluate context = engineFailureDecision e) ∨
    ∃ findings, analyzePatch context.proposal.patch = .ok findings ∧ weakeningOf findings = [] ∧
      engine.evaluate context = engine.decideUnrejected context findings := by
  unfold HardReject at h
  push Not at h
  obtain ⟨hpass, hfiles, hpatch, hforb, hfind⟩ := h
  have hhits : matchingPaths context.changedFiles engine.config.forbiddenPaths = [] :=
    (matchingPaths_eq_nil_iff _ _).mpr hforb
  have hnonempty : (context.changedFiles.isEmpty || (strip context.proposal.patch).isEmpty) = false := by
    simp [hfiles, hpatch]
  have hpassed : context.evaluation.passed = true := by simpa using hpass
  unfold evaluate evaluateRules
  rw [if_neg (by simp [hpassed]), if_neg (by simp [hnonempty])]
  dsimp only
  rw [if_neg (by simp [hhits])]
  cases hpatch : analyzePatch context.proposal.patch with
  | error e => exact Or.inl ⟨e, rfl, rfl⟩
  | ok findings =>
    have hweak : weakeningOf findings = [] := by
      refine List.filter_eq_nil_iff.mpr fun f hf => ?_
      have := hfind findings hpatch f hf
      simpa using this
    refine Or.inr ⟨findings, rfl, hweak, ?_⟩
    simp only [bind, Except.bind, hweak, List.isEmpty_nil, Bool.not_true, Bool.false_eq_true, ↓reduceIte]
    rfl

theorem decideUnrejected_outcome (engine : StaticPolicyEngine) (context : PolicyContext)
    (findings : List IntegrityFinding) :
    (engine.decideUnrejected context findings).outcome =
      if (context.escalation engine.config findings).reasons = [] then
        if context.eligibleAutoApprove engine.config then .approve else engine.config.defaultOutcome
      else .escalate := by
  unfold decideUnrejected
  by_cases hesc : (context.escalation engine.config findings).reasons = []
  · simp only [hesc, List.isEmpty_nil, Bool.not_true, Bool.false_eq_true, ↓reduceIte]
    split <;> rfl
  · have hne : (!(context.escalation engine.config findings).reasons.isEmpty) = true := by simpa using hesc
    simp only [hne, ↓reduceIte, hesc]
    rfl

theorem not_hardReject_of_approvable {cfg : PolicyConfig} {context : PolicyContext} (h : Approvable cfg context) :
    ¬ HardReject cfg context := by
  rintro (hr | hr | hr | ⟨f, hf, pat, hp, hin⟩ | ⟨findings, hfind, f, hf, _⟩)
  · rw [h.passed] at hr
    cases hr
  · exact h.files hr
  · exact h.patch hr
  · exact h.notForbidden f hf pat hp hin
  · rw [h.noFinding] at hfind
    cases hfind
    simp at hf

theorem approvable_of_unescalated {cfg : PolicyConfig} {context : PolicyContext} (hb : context.Built)
    (hr : ¬ HardReject cfg context) {findings : List IntegrityFinding}
    (hp : analyzePatch context.proposal.patch = .ok findings) (hweak : weakeningOf findings = [])
    (hu : context.Unescalated cfg findings) (he : context.eligibleAutoApprove cfg = true) :
    Approvable cfg context := by
  obtain ⟨hrisk, hcount, hscope, hfiles, hallowed⟩ := (PolicyContext.eligibleAutoApprove_iff hb cfg).mp he
  have hnone : findings = [] := (findings_split findings).mp ⟨hweak, hu.noReview⟩
  unfold HardReject at hr
  push Not at hr
  obtain ⟨hpass, _, hpatch, hforb, _⟩ := hr
  exact {
    passed := by simpa using hpass
    files := hfiles
    patch := hpatch
    notForbidden := hforb
    noFinding := hnone ▸ hp
    classified := hu.classified
    ordinary := hu.ordinary
    noMarker := hu.noMarker
    noCiPath := hu.noCiPath
    noEscalationPath := hu.noEscalationPath
    attempts := hu.attempts
    scope := hscope
    fileCount := hcount
    risk := hrisk
    allowed := hallowed }

theorem unescalated_of_approvable {cfg : PolicyConfig} {context : PolicyContext} (h : Approvable cfg context) :
    context.Unescalated cfg [] where
  noReview := rfl
  classified := h.classified
  ordinary := h.ordinary
  noMarker := h.noMarker
  noCiPath := h.noCiPath
  noEscalationPath := h.noEscalationPath
  tools := fun ht => ht.2.2 h.scope
  scope := by
    rw [h.scope]
    decide
  attempts := h.attempts

theorem outcome_approve_iff (engine : StaticPolicyEngine) {context : PolicyContext} (hb : context.Built) :
    (engine.evaluate context).outcome = .approve ↔ Approvable engine.config context := by
  constructor
  · intro happ
    have hr : ¬ HardReject engine.config context := by
      intro hr
      rw [engine.evaluate_of_hardReject hr] at happ
      cases happ
    rcases engine.evaluate_of_not_hardReject hr with ⟨e, _, heq⟩ | ⟨findings, hp, hweak, heq⟩
    · rw [heq] at happ
      cases happ
    · rw [heq, engine.decideUnrejected_outcome] at happ
      split at happ
      · next hnil =>
        split at happ
        · next helig =>
          exact approvable_of_unescalated hb hr hp hweak ((PolicyContext.escalation_nil_iff hb _ _).mp hnil) helig
        · exact absurd happ engine.defaultOutcome_ne_approve
      · cases happ
  · intro happ
    have hr := not_hardReject_of_approvable happ
    rcases engine.evaluate_of_not_hardReject hr with ⟨e, he, _⟩ | ⟨findings, hp, _, heq⟩
    · rw [happ.noFinding] at he
      cases he
    · have hnone : findings = [] := by
        rw [happ.noFinding] at hp
        exact (Except.ok.inj hp).symm
      have hquiet := (PolicyContext.escalation_nil_iff hb engine.config []).mpr (unescalated_of_approvable happ)
      have helig := (PolicyContext.eligibleAutoApprove_iff hb engine.config).mpr
        ⟨happ.risk, happ.fileCount, happ.scope, happ.files, happ.allowed⟩
      rw [heq, hnone, engine.decideUnrejected_outcome, if_pos hquiet, if_pos helig]

theorem outcome_escalate_of_escalated (engine : StaticPolicyEngine) {context : PolicyContext} (hb : context.Built)
    (hr : ¬ HardReject engine.config context)
    (hesc : ∀ findings, analyzePatch context.proposal.patch = .ok findings →
      ¬ context.Unescalated engine.config findings) : (engine.evaluate context).outcome = .escalate := by
  rcases engine.evaluate_of_not_hardReject hr with ⟨e, _, heq⟩ | ⟨findings, hp, _, heq⟩
  · rw [heq]
    rfl
  · have hne : ¬ (context.escalation engine.config findings).reasons = [] := fun hnil =>
      hesc findings hp ((PolicyContext.escalation_nil_iff hb _ _).mp hnil)
    rw [heq, engine.decideUnrejected_outcome, if_neg hne]

/-- Approval is exactly `Approvable`; every hard-reject condition rejects, and what is neither
rejected nor free of mandatory escalation escalates. -/
theorem evaluate_approve_iff (engine : StaticPolicyEngine) (proposal : RepairProposal)
    (evaluation : EvaluationResult) (classification : Option FailureClassification) (toolsUsed : List String)
    (toolRiskLevels : List ToolRiskLevel) (attemptCount : Int) (config : PolicyConfig) :
    let context := buildPolicyContext proposal evaluation classification toolsUsed toolRiskLevels attemptCount config
    ((engine.evaluate context).outcome = .approve ↔ Approvable engine.config context) ∧
    (HardReject engine.config context → (engine.evaluate context).outcome = .reject) ∧
    (¬ HardReject engine.config context →
      (∀ findings, analyzePatch proposal.patch = .ok findings → ¬ context.Unescalated engine.config findings) →
      (engine.evaluate context).outcome = .escalate) := by
  intro context
  have hb : context.Built := rfl
  exact ⟨engine.outcome_approve_iff hb, engine.evaluate_of_hardReject, engine.outcome_escalate_of_escalated hb⟩

end StaticPolicyEngine

end FailureOrchestrator
