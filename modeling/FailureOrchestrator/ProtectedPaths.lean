import FailureOrchestrator.Exec
import FailureOrchestrator.Supervisor
import Mathlib.Data.List.Forall2
import Mathlib.Data.List.Zip

namespace FailureOrchestrator

/-! ## Patterns -/

namespace GlobItem

theorem matchAll_star {items : List GlobItem} {s : Str} :
    matchAll (.star :: items) s = true ↔ ∃ t, t <:+ s ∧ matchAll items t = true := by
  have htails : matchAll (.star :: items) s = s.tails.any (matchAll items) := by cases s <;> rfl
  rw [htails, List.any_eq_true]
  exact exists_congr fun t => and_congr_left fun _ => List.mem_tails t s

theorem matchAll_chrs {word s : Str} {items : List GlobItem} :
    matchAll (word.map .chr ++ items) s = true ↔ ∃ t, s = word ++ t ∧ matchAll items t = true := by
  induction word generalizing s with
  | nil => simp
  | cons c word ih =>
    cases s with
    | nil => simp [matchAll]
    | cons d s =>
      simp only [List.map_cons, List.cons_append, matchAll, accepts, Bool.and_eq_true, decide_eq_true_eq, ih,
        List.cons.injEq]
      constructor
      · rintro ⟨rfl, t, rfl, ht⟩
        exact ⟨t, ⟨rfl, rfl⟩, ht⟩
      · rintro ⟨t, ⟨rfl, rfl⟩, ht⟩
        exact ⟨rfl, t, rfl, ht⟩

theorem matchAll_stars {s : Str} {items : List GlobItem} (h : ∀ item ∈ items, item = .star) (hne : items ≠ []) :
    matchAll items s = true := by
  match items with
  | [item] =>
    obtain rfl := h item List.mem_cons_self
    exact matchAll_star.mpr ⟨[], List.nil_suffix, rfl⟩
  | item :: item' :: rest =>
    obtain rfl := h item List.mem_cons_self
    have ih := matchAll_stars (s := s) (fun i hi => h i (List.mem_cons_of_mem _ hi)) (List.cons_ne_nil item' rest)
    exact matchAll_star.mpr ⟨s, List.suffix_refl s, ih⟩

end GlobItem

theorem fnmatchcase_star (s : Str) : fnmatchcase s ['*'] = true :=
  GlobItem.matchAll_stars (show ∀ item ∈ [GlobItem.star], item = .star by simp) (List.cons_ne_nil _ _)

theorem fnmatchcase_star_star (s : Str) : fnmatchcase s ['*', '*'] = true :=
  GlobItem.matchAll_stars (show ∀ item ∈ [GlobItem.star, .star], item = .star by simp) (List.cons_ne_nil _ _)

/-- A text in which no character is special in a pattern. -/
def Literal (word : Str) : Prop := GlobItem.parse word.length word = word.map .chr

instance (word : Str) : Decidable (Literal word) := inferInstanceAs (Decidable (_ = _))

theorem fnmatchcase_literal {word s : Str} (h : Literal word) : fnmatchcase s word = true ↔ s = word := by
  unfold fnmatchcase
  unfold Literal at h
  rw [h, ← List.append_nil (word.map _), GlobItem.matchAll_chrs]
  simp [GlobItem.matchAll]

/-- The pattern of the texts that contain a word. -/
def Contains (pattern word : Str) : Prop :=
  GlobItem.parse pattern.length pattern = .star :: (word.map .chr ++ [.star])

instance (pattern word : Str) : Decidable (Contains pattern word) := inferInstanceAs (Decidable (_ = _))

theorem fnmatchcase_contains {pattern word s : Str} (h : Contains pattern word) :
    fnmatchcase s pattern = true ↔ word <:+: s := by
  unfold fnmatchcase
  unfold Contains at h
  rw [h, GlobItem.matchAll_star]
  simp only [GlobItem.matchAll_chrs]
  constructor
  · rintro ⟨t, ⟨u, rfl⟩, v, rfl, -⟩
    exact ⟨u, v, by simp⟩
  · rintro ⟨u, v, rfl⟩
    exact ⟨word ++ v, ⟨u, by simp⟩, v, rfl, GlobItem.matchAll_stars (by simp) (by simp)⟩

-- A word is found inside a longer one.
example : fnmatchcase "my-products.tf".toList "*prod*".toList = true := by decide +kernel

/-- A relative pattern against the parts of a path, from the right. -/
def matchParts (parts patterns : List Str) : Bool :=
  decide (patterns.length ≤ parts.length) &&
    (parts.reverse.zip patterns.reverse).all fun p => fnmatchcase p.1 p.2

theorem matchParts_iff {parts patterns : List Str} : matchParts parts patterns = true ↔
    ∃ pre suf, parts = pre ++ suf ∧ List.Forall₂ (fun part pattern => fnmatchcase part pattern = true) suf patterns := by
  have hmatch : ∀ pre suf : List Str, suf.length = patterns.length →
      (matchParts (pre ++ suf) patterns = true ↔
        List.Forall₂ (fun part pattern => fnmatchcase part pattern = true) suf patterns) := by
    intro pre suf hlen
    have hzip : (pre ++ suf).reverse.zip patterns.reverse = (suf.zip patterns).reverse := by
      rw [List.reverse_append, ← List.append_nil patterns.reverse, List.zip_append (by simp [hlen])]
      simp [List.zip, List.reverse_zipWith hlen]
    unfold matchParts
    rw [hzip, List.forall₂_iff_zip, List.all_reverse]
    simp [hlen]
  constructor
  · intro h
    have hle : patterns.length ≤ parts.length := by
      unfold matchParts at h
      rw [Bool.and_eq_true, decide_eq_true_eq] at h
      exact h.1
    refine ⟨parts.take (parts.length - patterns.length), parts.drop (parts.length - patterns.length),
      (List.take_append_drop _ _).symm, ?_⟩
    refine (hmatch (parts.take (parts.length - patterns.length)) _ (by rw [List.length_drop]; omega)).mp ?_
    rwa [List.take_append_drop]
  · rintro ⟨pre, suf, rfl, hsuf⟩
    exact (hmatch pre suf hsuf.length_eq).mpr hsuf

theorem matchParts_two {parts : List Str} {p q : Str} : matchParts parts [p, q] = true ↔
    ∃ pre x y, parts = pre ++ [x, y] ∧ fnmatchcase x p = true ∧ fnmatchcase y q = true := by
  rw [matchParts_iff]
  constructor
  · rintro ⟨pre, suf, rfl, hsuf⟩
    match suf, hsuf with
    | [x, y], .cons hx (.cons hy .nil) => exact ⟨pre, x, y, rfl, hx, hy⟩
  · rintro ⟨pre, x, y, rfl, hx, hy⟩
    exact ⟨pre, [x, y], rfl, .cons hx (.cons hy .nil)⟩

theorem matchParts_three {parts : List Str} {p q r : Str} : matchParts parts [p, q, r] = true ↔
    ∃ pre x y z, parts = pre ++ [x, y, z] ∧
      fnmatchcase x p = true ∧ fnmatchcase y q = true ∧ fnmatchcase z r = true := by
  rw [matchParts_iff]
  constructor
  · rintro ⟨pre, suf, rfl, hsuf⟩
    match suf, hsuf with
    | [x, y, z], .cons hx (.cons hy (.cons hz .nil)) => exact ⟨pre, x, y, z, rfl, hx, hy, hz⟩
  · rintro ⟨pre, x, y, z, rfl, hx, hy, hz⟩
    exact ⟨pre, [x, y, z], rfl, .cons hx (.cons hy (.cons hz .nil))⟩

/-- The parts of a path directly in a directory. -/
def Inside (dirs parts : List Str) : Prop := ∃ pre name, parts = pre ++ dirs ++ [name]

theorem matchParts_dir {parts : List Str} {dir : Str} (h : Literal dir) :
    matchParts parts [dir, ['*']] = true ↔ Inside [dir] parts := by
  rw [matchParts_two]
  constructor
  · rintro ⟨pre, x, y, rfl, hx, -⟩
    rw [(fnmatchcase_literal h).mp hx]
    exact ⟨pre, y, by simp⟩
  · rintro ⟨pre, name, rfl⟩
    exact ⟨pre, dir, name, by simp, (fnmatchcase_literal h).mpr rfl, fnmatchcase_star name⟩

theorem matchParts_dir_dir {parts : List Str} {dir dir' : Str} (h : Literal dir) (h' : Literal dir') :
    matchParts parts [dir, dir', ['*']] = true ↔ Inside [dir, dir'] parts := by
  rw [matchParts_three]
  constructor
  · rintro ⟨pre, x, y, z, rfl, hx, hy, -⟩
    rw [(fnmatchcase_literal h).mp hx, (fnmatchcase_literal h').mp hy]
    exact ⟨pre, z, by simp⟩
  · rintro ⟨pre, name, rfl⟩
    exact ⟨pre, dir, dir', name, by simp, (fnmatchcase_literal h).mpr rfl, (fnmatchcase_literal h').mpr rfl,
      fnmatchcase_star name⟩

/-- A `**` is one more directory. -/
theorem matchParts_nested {parts : List Str} {dir : Str} (h : Literal dir) :
    matchParts parts [['*', '*'], dir, ['*']] = true ↔ ∃ outer, Inside [outer, dir] parts := by
  rw [matchParts_three]
  constructor
  · rintro ⟨pre, x, y, z, rfl, -, hy, -⟩
    rw [(fnmatchcase_literal h).mp hy]
    exact ⟨x, pre, z, by simp⟩
  · rintro ⟨outer, pre, name, rfl⟩
    exact ⟨pre, outer, dir, name, by simp, fnmatchcase_star_star outer, (fnmatchcase_literal h).mpr rfl,
      fnmatchcase_star name⟩

theorem matchParts_word {parts : List Str} {pattern word : Str} (h : Contains pattern word) :
    matchParts parts [['*', '*'], pattern] = true ↔ ∃ pre outer name, parts = pre ++ [outer, name] ∧ word <:+: name := by
  rw [matchParts_two]
  constructor
  · rintro ⟨pre, x, y, rfl, -, hy⟩
    exact ⟨pre, x, y, rfl, (fnmatchcase_contains h).mp hy⟩
  · rintro ⟨pre, outer, name, rfl, hword⟩
    exact ⟨pre, outer, name, rfl, fnmatchcase_star_star outer, (fnmatchcase_contains h).mpr hword⟩

/-! ## The default policy -/

namespace Supervisor

/-- Patterns that are relative and not empty. -/
def Relative (patterns : List Str) : Prop := ∀ pattern ∈ patterns, pathParts pattern ≠ [] ∧ pathRoot pattern = []

instance (patterns : List Str) : Decidable (Relative patterns) := inferInstanceAs (Decidable (∀ _ ∈ _, _))

theorem pathMatches_ok {path : Str} {patterns : List Str} (h : Relative patterns) : pathMatches path patterns =
    .ok (patterns.any fun pattern => matchParts (pathParts (normalizeRepoPath path)) (pathParts pattern)) := by
  unfold pathMatches
  induction patterns with
  | nil => rfl
  | cons pattern patterns ih =>
    obtain ⟨hparts, hroot⟩ := h pattern List.mem_cons_self
    have hmatch : pathMatch (normalizeRepoPath path) pattern =
        .ok (matchParts (pathParts (normalizeRepoPath path)) (pathParts pattern)) := by
      unfold pathMatch
      rw [if_neg hparts, if_neg (not_not.mpr hroot)]
      rfl
    rw [List.anyM, hmatch, ih fun p hp => h p (List.mem_cons_of_mem _ hp), List.any_cons]
    cases matchParts (pathParts (normalizeRepoPath path)) (pathParts pattern) <;> rfl

theorem anyM_pathMatches {paths patterns : List Str} (h : Relative patterns) :
    (paths.anyM fun path => pathMatches path patterns) = .ok (paths.any fun path =>
      patterns.any fun pattern => matchParts (pathParts (normalizeRepoPath path)) (pathParts pattern)) := by
  induction paths with
  | nil => rfl
  | cons path paths ih =>
    rw [List.anyM, pathMatches_ok h, ih, List.any_cons]
    cases patterns.any fun pattern => matchParts (pathParts (normalizeRepoPath path)) (pathParts pattern) <;> rfl

/-- The path is recognised as protected: it is directly in one of the directories, those that can be anywhere have a
directory above them. -/
def Recognised (parts : List Str) : Prop :=
  (∃ dirs ∈ [[".github".toList, "workflows".toList], ["infra".toList], ["terraform".toList]], Inside dirs parts) ∨
  ∃ dir ∈ ["migrations".toList, "auth".toList, "iam".toList, "security".toList], ∃ outer, Inside [outer, dir] parts

/-- The name of the file holds one of the words, and the file is in a directory. -/
def Sensitive (parts : List Str) : Prop :=
  ∃ word ∈ ["secret".toList, "credential".toList, "production".toList, "prod".toList],
    ∃ pre outer name, parts = pre ++ [outer, name] ∧ word <:+: name

theorem protectedGlobs_iff (parts : List Str) :
    ((SupervisorPolicy.protectedGlobs {}).any fun pattern => matchParts parts (pathParts pattern)) = true ↔
      Recognised parts := by
  have hparts : (SupervisorPolicy.protectedGlobs {}).map pathParts = [[".github".toList, "workflows".toList, ['*']],
      [['*', '*'], "migrations".toList, ['*']], [['*', '*'], "auth".toList, ['*']], [['*', '*'], "iam".toList, ['*']],
      [['*', '*'], "security".toList, ['*']], ["infra".toList, ['*']], ["terraform".toList, ['*']]] := by
    decide +kernel
  have hany : ((SupervisorPolicy.protectedGlobs {}).any fun pattern => matchParts parts (pathParts pattern)) =
      ((SupervisorPolicy.protectedGlobs {}).map pathParts).any (matchParts parts) := by
    rw [List.any_map]
    rfl
  unfold Recognised
  rw [hany, hparts]
  simp only [List.any_cons, List.any_nil, Bool.or_false, Bool.or_eq_true, List.exists_mem_cons_iff, List.not_mem_nil,
    false_and, exists_false, or_false,
    matchParts_dir_dir (by decide : Literal ".github".toList) (by decide : Literal "workflows".toList),
    matchParts_nested (by decide : Literal "migrations".toList), matchParts_nested (by decide : Literal "auth".toList),
    matchParts_nested (by decide : Literal "iam".toList), matchParts_nested (by decide : Literal "security".toList),
    matchParts_dir (by decide : Literal "infra".toList), matchParts_dir (by decide : Literal "terraform".toList)]
  tauto

theorem criticalGlobs_iff (parts : List Str) :
    ((SupervisorPolicy.criticalGlobs {}).any fun pattern => matchParts parts (pathParts pattern)) = true ↔
      Sensitive parts := by
  have hparts : (SupervisorPolicy.criticalGlobs {}).map pathParts = [[['*', '*'], "*secret*".toList],
      [['*', '*'], "*credential*".toList], [['*', '*'], "*production*".toList], [['*', '*'], "*prod*".toList]] := by
    decide +kernel
  have hany : ((SupervisorPolicy.criticalGlobs {}).any fun pattern => matchParts parts (pathParts pattern)) =
      ((SupervisorPolicy.criticalGlobs {}).map pathParts).any (matchParts parts) := by
    rw [List.any_map]
    rfl
  unfold Sensitive
  rw [hany, hparts]
  simp only [List.any_cons, List.any_nil, Bool.or_false, Bool.or_eq_true, List.exists_mem_cons_iff, List.not_mem_nil,
    false_and, exists_false, or_false,
    matchParts_word (by decide : Contains "*secret*".toList "secret".toList),
    matchParts_word (by decide : Contains "*credential*".toList "credential".toList),
    matchParts_word (by decide : Contains "*production*".toList "production".toList),
    matchParts_word (by decide : Contains "*prod*".toList "prod".toList)]

/-- The paths of a request with separators and prefixes normalized, as their parts. -/
def RepairRequest.parts (request : RepairRequest) : List (List Str) :=
  request.changedPaths.map fun path => pathParts (normalizeRepoPath path)

/-- A finding, or a path that the globs recognise. -/
def RepairRequest.Flagged (request : RepairRequest) : Prop :=
  request.securityFinding = true ∨ ∃ parts ∈ request.parts, Sensitive parts ∨ Recognised parts

/-- The risk under the default policy is high or critical exactly if the request is flagged. -/
theorem classifyRisk_default (request : RepairRequest) :
    ∃ risk, classifyRisk request {} = .ok risk ∧ (risk = .high ∨ risk = .critical ↔ request.Flagged) := by
  have hcritical : Relative (SupervisorPolicy.criticalGlobs {}) := by decide +kernel
  have hprotected : Relative (SupervisorPolicy.protectedGlobs {}) := by decide +kernel
  have hglobs : ∀ (patterns : List Str) (Shape : List Str → Prop),
      (∀ parts, (patterns.any fun pattern => matchParts parts (pathParts pattern)) = true ↔ Shape parts) →
      ((request.changedPaths.any fun path =>
        patterns.any fun pattern => matchParts (pathParts (normalizeRepoPath path)) (pathParts pattern)) = true ↔
          ∃ parts ∈ request.parts, Shape parts) := by
    intro patterns Shape hshape
    unfold RepairRequest.parts
    simp only [List.any_eq_true, List.mem_map, exists_exists_and_eq_and, ← hshape]
  have hcriticalPaths := hglobs _ Sensitive criticalGlobs_iff
  have hprotectedPaths := hglobs _ Recognised protectedGlobs_iff
  have hflagged : request.Flagged ↔ request.securityFinding = true ∨ (∃ parts ∈ request.parts, Sensitive parts) ∨
      ∃ parts ∈ request.parts, Recognised parts := by
    unfold RepairRequest.Flagged
    simp only [and_or_left, exists_or]
  rw [hflagged, ← hcriticalPaths, ← hprotectedPaths]
  unfold classifyRisk
  rw [anyM_pathMatches hcritical, anyM_pathMatches hprotected]
  generalize (request.changedPaths.any fun path => (SupervisorPolicy.criticalGlobs {}).any
    fun pattern => matchParts (pathParts (normalizeRepoPath path)) (pathParts pattern)) = critical
  generalize (request.changedPaths.any fun path => (SupervisorPolicy.protectedGlobs {}).any
    fun pattern => matchParts (pathParts (normalizeRepoPath path)) (pathParts pattern)) = isProtected
  cases hfinding : request.securityFinding with
  | true => exact ⟨.critical, rfl, by simp⟩
  | false =>
    cases critical with
    | true => exact ⟨.critical, rfl, by simp⟩
    | false =>
      cases isProtected with
      | true => exact ⟨.high, rfl, by simp⟩
      | false =>
        by_cases hclass : (request.unknownFailure ||
            decide (request.failureClass ∉ (SupervisorPolicy.lowRiskFailureClasses {}))) = true
        · refine ⟨.medium, ?_, by simp⟩
          rw [hclass]
          rfl
        · refine ⟨.low, ?_, by simp⟩
          rw [Bool.not_eq_true] at hclass
          rw [hclass]
          rfl

/-- A high or critical risk leaves no authority to patch. -/
theorem decideRepair_authority {request : RepairRequest} {policy : SupervisorPolicy} {risk : RiskLevel}
    (h : risk = .high ∨ risk = .critical) :
    (decideRepair request policy risk).authority = .rcaOnly ∨ (decideRepair request policy risk).authority = .deny := by
  unfold decideRepair
  split
  · exact .inr rfl
  · rcases h with rfl | rfl
    · exact .inl rfl
    · exact .inr rfl

/-- The path lies below a protected directory: one at the root of the repository, or one of a name anywhere. -/
def Protected (parts : List Str) : Prop :=
  (∃ dirs ∈ [[".github".toList, "workflows".toList], ["infra".toList], ["terraform".toList]],
    ∃ below, below ≠ [] ∧ parts = dirs ++ below) ∨
  ∃ dir ∈ ["migrations".toList, "auth".toList, "iam".toList, "security".toList],
    ∃ above below, below ≠ [] ∧ parts = above ++ dir :: below

/-- The request is of high or critical risk, and is granted no patch. -/
def Withheld (request : RepairRequest) : Prop :=
  ∃ risk decision, classifyRisk request {} = .ok risk ∧ (risk = .high ∨ risk = .critical) ∧
    evaluateRepair request {} = .ok decision ∧ decision.authority ≠ .autonomousPatch ∧
    decision.authority ≠ .patchRequiresReview

theorem withheld_iff (request : RepairRequest) : Withheld request ↔ request.Flagged := by
  obtain ⟨risk, hrisk, hflagged⟩ := classifyRisk_default request
  unfold Withheld
  constructor
  · rintro ⟨risk', decision, hrisk', hhigh, -⟩
    cases hrisk.symm.trans hrisk'
    exact hflagged.mp hhigh
  · intro h
    have hhigh := hflagged.mpr h
    refine ⟨risk, decideRepair request {} risk, hrisk, hhigh, ?_, ?_⟩
    · unfold evaluateRepair
      rw [hrisk]
      rfl
    · have hauthority : (decideRepair request {} risk).authority = .rcaOnly ∨
          (decideRepair request {} risk).authority = .deny := decideRepair_authority hhigh
      rcases hauthority with h | h <;> rw [h] <;> exact ⟨by decide, by decide⟩

/-- A request with a protected path is withheld exactly if it is flagged. -/
theorem protected_withheld_iff (request : RepairRequest) :
    ((∃ parts ∈ request.parts, Protected parts) → Withheld request) ↔
      ((∃ parts ∈ request.parts, Protected parts) → request.Flagged) := by
  rw [withheld_iff]

/-- A workflow in a subdirectory gets an autonomous patch. -/
theorem nestedWorkflow_granted :
    let request : RepairRequest :=
      { failureClass := "lint".toList, changedPaths := [".github/workflows/release/build.yml".toList] }
    (∃ parts ∈ request.parts, Protected parts) ∧
    (evaluateRepair request {}).map SupervisorDecision.authority = .ok .autonomousPatch ∧
    ¬ ((∃ parts ∈ request.parts, Protected parts) → Withheld request) := by
  intro request
  have hprotected : ∃ parts ∈ request.parts, Protected parts := by
    refine ⟨[".github".toList, "workflows".toList, "release".toList, "build.yml".toList], by decide +kernel, .inl ?_⟩
    exact ⟨_, List.mem_cons_self, ["release".toList, "build.yml".toList], by simp, rfl⟩
  have hgranted : (evaluateRepair request {}).map SupervisorDecision.authority = .ok .autonomousPatch := by
    decide +kernel
  refine ⟨hprotected, hgranted, fun h => ?_⟩
  obtain ⟨-, decision, -, -, hdecision, hauthority, -⟩ := h hprotected
  rw [hdecision] at hgranted
  exact hauthority (Except.ok.inj hgranted)

end Supervisor

end FailureOrchestrator
