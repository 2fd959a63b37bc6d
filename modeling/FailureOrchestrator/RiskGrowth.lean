import FailureOrchestrator.DiffAppend
import FailureOrchestrator.DiffRisk
import FailureOrchestrator.Verification
import FailureOrchestrator.VerificationGates
import Mathlib.Algebra.Order.BigOperators.Group.List

namespace FailureOrchestrator

namespace DiffRisk

/-- `DiffRisk.score`. -/
def score (fs : List Factor) : Nat := (fs.map (·.points)).sum

/-- What a count adds to the score. -/
def sizePoints (n many few : Nat) : Nat := if many < n then 20 else if few < n then 10 else 0

theorem score_append (fs gs : List Factor) : score (fs ++ gs) = score fs + score gs := by
  simp [score]

theorem score_sizeFactor (n many few : Nat) (what : String) :
    score (sizeFactor n many few what) = sizePoints n many few := by
  unfold sizeFactor sizePoints
  split
  · rfl
  · split <;> rfl

theorem sizeFactor_unforced (n many few : Nat) (what : String) :
    (sizeFactor n many few what).any (·.forced) = false := by
  unfold sizeFactor
  split
  · rfl
  · split <;> rfl

theorem sizePoints_mono {n m : Nat} (h : n ≤ m) (many few : Nat) :
    sizePoints n many few ≤ sizePoints m many few := by
  unfold sizePoints
  split_ifs <;> omega

theorem matching_eq_nil_iff (files : List FileDiff) (pred : FileDiff → Bool) :
    matching files pred = [] ↔ files.any pred = false := by
  rw [List.eq_nil_iff_forall_not_mem, List.any_eq_false]
  unfold matching
  simp only [mem_sortStrs, mem_fromKeys, List.mem_map, List.mem_filter, not_exists, not_and]
  constructor
  · intro h f hf hp
    exact h f.path f ⟨hf, hp⟩ rfl
  · rintro h path f ⟨hf, hp⟩ -
    exact h f hf hp

/-- A check with its points, predicate and reason, and whether it forces a high risk. -/
abbrev Check := Nat × (FileDiff → Bool) × String × Bool

def Check.factor (c : Check) (hits : List Str) : Factor :=
  ⟨c.1, c.2.2.1.toList ++ ": ".toList ++ joinWith ", ".toList (hits.take 3), c.2.2.2⟩

/-- The factor of a check, once it applies to some file. -/
def Check.factorOf (files : List FileDiff) (c : Check) : Option Factor :=
  if files.any c.2.1 then some (c.factor (matching files c.2.1)) else none

/-- The points of a check, once it applies to some file. -/
def Check.pointsOf (files : List FileDiff) (c : Check) : Nat := if files.any c.2.1 then c.1 else 0

theorem score_checks (files : List FileDiff) (cs : List Check) :
    score (cs.filterMap (Check.factorOf files)) = (cs.map (Check.pointsOf files)).sum := by
  induction cs with
  | nil => rfl
  | cons c cs ih =>
    rw [List.filterMap_cons, List.map_cons, List.sum_cons, ← ih]
    unfold Check.factorOf Check.pointsOf
    split_ifs
    · rfl
    · exact (Nat.zero_add _).symm

theorem forced_checks (files : List FileDiff) (cs : List Check) :
    (cs.filterMap (Check.factorOf files)).any (·.forced) = cs.any fun c => c.2.2.2 && files.any c.2.1 := by
  induction cs with
  | nil => rfl
  | cons c cs ih =>
    rw [List.filterMap_cons, List.any_cons, ← ih]
    unfold Check.factorOf
    cases files.any c.2.1 with
    | false => simp
    | true => simp [Check.factor]

theorem any_mono {files files' : List FileDiff} (h : files ⊆ files') {pred : FileDiff → Bool}
    (hp : files.any pred = true) : files'.any pred = true := by
  obtain ⟨f, hf, hfp⟩ := List.any_eq_true.mp hp
  exact List.any_eq_true.mpr ⟨f, h hf, hfp⟩

/-! ## Levels -/

/-- Two known levels, the first at most the second. -/
def LevelLe (a b : Str) : Prop := ∃ n m, levelOrder a = some n ∧ levelOrder b = some m ∧ n ≤ m

theorem LevelLe.refl {a : Str} (h : (levelOrder a).isSome = true) : LevelLe a a := by
  obtain ⟨n, hn⟩ := Option.isSome_iff_exists.mp h
  exact ⟨n, n, hn, hn, Nat.le_refl n⟩

theorem levelOrder_le {a : Str} {n : Nat} (h : levelOrder a = some n) : n ≤ 2 := by
  unfold levelOrder at h
  split_ifs at h <;> cases h <;> decide

theorem LevelLe.high {a : Str} (h : (levelOrder a).isSome = true) : LevelLe a riskHigh := by
  obtain ⟨n, hn⟩ := Option.isSome_iff_exists.mp h
  exact ⟨n, 2, hn, by decide, levelOrder_le hn⟩

theorem ladder_known (b : Bool) (n : Nat) : (levelOrder (if b || decide (highThreshold ≤ n) then riskHigh
    else if mediumThreshold ≤ n then riskMedium else riskLow)).isSome = true := by
  split_ifs <;> decide

/-- The ladder of `score_diff_risk` is monotone in the flag and in the score. -/
theorem ladder_mono {b b' : Bool} {n n' : Nat} (hb : b = true → b' = true) (hn : n ≤ n') :
    LevelLe (if b || decide (highThreshold ≤ n) then riskHigh else if mediumThreshold ≤ n then riskMedium else riskLow)
      (if b' || decide (highThreshold ≤ n') then riskHigh else if mediumThreshold ≤ n' then riskMedium
        else riskLow) := by
  have hknown := ladder_known b n
  by_cases hhigh' : (b' || decide (highThreshold ≤ n')) = true
  · rw [if_pos hhigh']
    exact .high hknown
  · have hhigh : ¬ (b || decide (highThreshold ≤ n)) = true := by
      intro hh
      rw [Bool.or_eq_true, decide_eq_true_eq] at hh hhigh'
      exact hhigh' (hh.imp hb fun hs => hs.trans hn)
    rw [if_neg hhigh] at hknown ⊢
    rw [if_neg hhigh']
    by_cases hm : mediumThreshold ≤ n
    · rw [if_pos hm, if_pos (hm.trans hn)]
      exact .refl (by decide)
    · rw [if_neg hm]
      split_ifs
      · exact ⟨0, 1, by decide, by decide, by decide⟩
      · exact .refl (by decide)

/-- The step of `max` over known levels. -/
def betterLevel (best : Option Str) (level : Str) : Option Str :=
  match best with
  | none => some level
  | some b => if (levelOrder b).getD 0 < (levelOrder level).getD 0 then some level else some b

theorem betterLevel_best (levels : List Str) (best : Option Str) :
    (∀ b ∈ best, ∃ m ∈ levels.foldl betterLevel best, (levelOrder b).getD 0 ≤ (levelOrder m).getD 0) ∧
    (∀ l ∈ levels, ∃ m ∈ levels.foldl betterLevel best, (levelOrder l).getD 0 ≤ (levelOrder m).getD 0) ∧
    ∀ m ∈ levels.foldl betterLevel best, m ∈ best ∨ m ∈ levels := by
  induction levels generalizing best with
  | nil => exact ⟨fun b hb => ⟨b, hb, Nat.le_refl _⟩, fun l hl => (nomatch hl), fun m hm => Or.inl hm⟩
  | cons l levels ih =>
    obtain ⟨hbest, hlevels, hfrom⟩ := ih (betterLevel best l)
    have hstep : ∃ b ∈ betterLevel best l, (levelOrder l).getD 0 ≤ (levelOrder b).getD 0 ∧
        (∀ b' ∈ best, (levelOrder b').getD 0 ≤ (levelOrder b).getD 0) ∧ (b ∈ best ∨ b = l) := by
      unfold betterLevel
      cases best with
      | none => exact ⟨l, rfl, Nat.le_refl _, fun b hb => (nomatch hb), Or.inr rfl⟩
      | some b =>
        dsimp only
        split_ifs with hlt
        · refine ⟨l, rfl, Nat.le_refl _, fun b' hb' => ?_, Or.inr rfl⟩
          cases hb'
          exact Nat.le_of_lt hlt
        · refine ⟨b, rfl, Nat.le_of_not_lt hlt, fun b' hb' => ?_, Or.inl rfl⟩
          cases hb'
          exact Nat.le_refl _
    obtain ⟨b, hb, hl, hold, hwhere⟩ := hstep
    obtain ⟨m, hm, hbm⟩ := hbest b hb
    refine ⟨fun b' hb' => ⟨m, hm, (hold b' hb').trans hbm⟩, fun x hx => ?_, fun x hx => ?_⟩
    · rcases List.mem_cons.mp hx with rfl | hx
      · exact ⟨m, hm, hl.trans hbm⟩
      · exact hlevels x hx
    · rcases hfrom x hx with hx' | hx'
      · cases Option.mem_unique hx' hb
        rcases hwhere with hw | rfl
        · exact Or.inl hw
        · exact Or.inr List.mem_cons_self
      · exact Or.inr (List.mem_cons_of_mem _ hx')

/-- `max_level` is at least every known level it is given. -/
theorem maxLevel_ge {levels : List Str} {l : Str} (hl : l ∈ levels) (hk : (levelOrder l).isSome = true) :
    LevelLe l (maxLevel levels) := by
  have hmem : l ∈ levels.filter fun level => (levelOrder level).isSome := List.mem_filter.mpr ⟨hl, hk⟩
  obtain ⟨-, hbest, hfrom⟩ := betterLevel_best (levels.filter fun level => (levelOrder level).isSome) none
  obtain ⟨m, hm, hle⟩ := hbest l hmem
  have hknown : (levelOrder m).isSome = true := by
    rcases hfrom m hm with hn | hf
    · cases hn
    · exact (List.mem_filter.mp hf).2
  have hmax : maxLevel levels = m := by
    unfold maxLevel
    show ((levels.filter fun level => (levelOrder level).isSome).foldl betterLevel none).getD riskHigh = m
    rw [Option.mem_def.mp hm]
    rfl
  obtain ⟨n, hn⟩ := Option.isSome_iff_exists.mp hk
  obtain ⟨k, hk'⟩ := Option.isSome_iff_exists.mp hknown
  rw [hn, hk'] at hle
  exact ⟨n, k, hn, hmax ▸ hk', hle⟩

theorem pointsOf_mono {files files' : List FileDiff} (h : files ⊆ files') (c : Check) :
    c.pointsOf files ≤ c.pointsOf files' := by
  unfold Check.pointsOf
  by_cases hany : files.any c.2.1 = true
  · rw [if_pos hany, if_pos (any_mono h hany)]
  · rw [if_neg hany]
    exact Nat.zero_le _

theorem level_known (fs : List Factor) : (levelOrder (level fs)).isSome = true := ladder_known _ _

section

variable [UnicodeData]

/-- `f.added` and `f.removed` over all files. -/
def linesChanged (files : List FileDiff) : Nat := (files.map fun f => f.added.length + f.removed.length).sum

def isProduction (f : FileDiff) : Bool := !isTestPath f.path && !isProse f.path

theorem factors_eq (files : List FileDiff) :
    factors files = sizeFactor files.length 10 3 " files changed" ++
      sizeFactor (linesChanged files) 200 50 " lines changed" ++ checks.filterMap (Check.factorOf files) ++
      if files.any isProduction then [⟨5, "production code changed".toList, false⟩] else [] := by
  have hlast : (if (matching files isProduction).isEmpty then ([] : List Factor)
      else [⟨5, "production code changed".toList, false⟩]) =
      if files.any isProduction then [⟨5, "production code changed".toList, false⟩] else [] := by
    cases hany : files.any isProduction with
    | false => rw [(matching_eq_nil_iff files isProduction).mpr hany]; rfl
    | true =>
      have hne : matching files isProduction ≠ [] := by
        intro hnil
        rw [(matching_eq_nil_iff files isProduction).mp hnil] at hany
        cases hany
      rw [if_neg (by simpa using hne)]
      rfl
  unfold factors
  refine congrArg₂ (· ++ ·) (congrArg (_ ++ ·) (List.filterMap_congr fun c _ => ?_)) hlast
  obtain ⟨points, pred, reason, forced⟩ := c
  unfold Check.factorOf
  dsimp only
  split
  · next hnil =>
    rw [(matching_eq_nil_iff files pred).mp hnil]
    rfl
  · next hits hne =>
    have hany : files.any pred = true := by
      by_contra hany
      exact hne ((matching_eq_nil_iff files pred).mpr (by simpa using hany))
    rw [if_pos hany]
    rfl

/-- The score is a sum over the size of the change and over the checks that apply to some file. -/
theorem score_factors (files : List FileDiff) :
    score (factors files) = sizePoints files.length 10 3 + sizePoints (linesChanged files) 200 50 +
      (checks.map (Check.pointsOf files)).sum + if files.any isProduction then 5 else 0 := by
  rw [factors_eq, score_append, score_append, score_append, score_sizeFactor, score_sizeFactor, score_checks]
  split <;> rfl

theorem forced_factors (files : List FileDiff) :
    (factors files).any (·.forced) = checks.any fun c => c.2.2.2 && files.any c.2.1 := by
  rw [factors_eq, List.any_append, List.any_append, List.any_append, sizeFactor_unforced, sizeFactor_unforced,
    forced_checks]
  split <;> simp

/-! ## More files -/

theorem score_mono {files files' : List FileDiff} (h : files.Sublist files') :
    score (factors files) ≤ score (factors files') := by
  have hlines : linesChanged files ≤ linesChanged files' :=
    (h.map _).sum_le_sum fun _ _ => Nat.zero_le _
  have hchecks : (checks.map (Check.pointsOf files)).sum ≤ (checks.map (Check.pointsOf files')).sum :=
    List.sum_le_sum fun c _ => pointsOf_mono h.subset c
  have hprod : (if files.any isProduction then 5 else 0) ≤ if files'.any isProduction then 5 else 0 := by
    by_cases hany : files.any isProduction = true
    · rw [if_pos hany, if_pos (any_mono h.subset hany)]
    · rw [if_neg hany]
      exact Nat.zero_le _
  rw [score_factors, score_factors]
  have hcount := sizePoints_mono h.length_le 10 3
  have hsize := sizePoints_mono hlines 200 50
  omega

theorem forced_mono {files files' : List FileDiff} (h : files.Sublist files')
    (hf : (factors files).any (·.forced) = true) : (factors files').any (·.forced) = true := by
  rw [forced_factors, List.any_eq_true] at hf ⊢
  obtain ⟨c, hc, hboth⟩ := hf
  rw [Bool.and_eq_true] at hboth
  refine ⟨c, hc, ?_⟩
  rw [Bool.and_eq_true]
  exact ⟨hboth.1, any_mono h.subset hboth.2⟩

theorem level_mono {files files' : List FileDiff} (h : files.Sublist files') :
    LevelLe (level (factors files)) (level (factors files')) :=
  ladder_mono (forced_mono h) (score_mono h)

end

end DiffRisk

/-- The score and the level of `score_diff_risk`. -/
def diffRisk [UnicodeData] (patch : Str) : Except PyError (Nat × Str) := do
  let diffs ← parseUnifiedDiff patch
  let factors := DiffRisk.factors (diffs.filter fun f => !f.path.isEmpty)
  return (DiffRisk.score factors, DiffRisk.level factors)

/-- The name under which `_risk` compares a policy risk. -/
def comparedAs (policyRisk : Str) : Str := if policyRisk = "CRITICAL".toList then riskHigh else policyRisk

section

variable [UnicodeData]

theorem diffRisk_sections {p q : Str} (hp : p = [] ∨ ∃ body, p = body ++ ['\n'])
    (hq : q = [] ∨ startsWith q "diff --git ".toList = true) {rp rq : Nat × Str} (hrp : diffRisk p = .ok rp)
    (hrq : diffRisk q = .ok rq) : ∃ r, diffRisk (p ++ q) = .ok r ∧ rp.1 ≤ r.1 ∧ rq.1 ≤ r.1 ∧
      DiffRisk.LevelLe rp.2 r.2 ∧ DiffRisk.LevelLe rq.2 r.2 := by
  have hparse : ∀ files files', parseUnifiedDiff p = .ok files → parseUnifiedDiff q = .ok files' →
      parseUnifiedDiff (p ++ q) = .ok (files ++ files') := by
    intro files files' hf hf'
    rcases hq with rfl | hq
    · cases hf'
      rw [List.append_nil, hf]
      exact congrArg Except.ok (List.append_nil files).symm
    · rw [parseUnifiedDiff_sections hp hq, hf, hf']
      rfl
  unfold diffRisk at hrp hrq ⊢
  cases hf : parseUnifiedDiff p with
  | error e => rw [hf] at hrp; cases hrp
  | ok files =>
    cases hf' : parseUnifiedDiff q with
    | error e => rw [hf'] at hrq; cases hrq
    | ok files' =>
      rw [hf] at hrp
      rw [hf'] at hrq
      cases hrp
      cases hrq
      rw [hparse files files' hf hf']
      refine ⟨_, rfl, ?_⟩
      rw [List.filter_append]
      have hleft := List.sublist_append_left (files.filter fun f => !f.path.isEmpty)
        (files'.filter fun f => !f.path.isEmpty)
      have hright := List.sublist_append_right (files.filter fun f => !f.path.isEmpty)
        (files'.filter fun f => !f.path.isEmpty)
      exact ⟨DiffRisk.score_mono hleft, DiffRisk.score_mono hright, DiffRisk.level_mono hleft,
        DiffRisk.level_mono hright⟩

theorem diffRisk_sections_error {p q : Str} (hp : p = [] ∨ ∃ body, p = body ++ ['\n'])
    (hq : q = [] ∨ startsWith q "diff --git ".toList = true)
    (h : (∃ e, diffRisk p = .error e) ∨ ∃ e, diffRisk q = .error e) : ∃ e, diffRisk (p ++ q) = .error e := by
  have raised : ∀ text, (∃ e, diffRisk text = .error e) ↔ ∃ e, parseUnifiedDiff text = .error e := by
    intro text
    unfold diffRisk
    cases parseUnifiedDiff text with
    | error e => exact ⟨fun _ => ⟨e, rfl⟩, fun _ => ⟨e, rfl⟩⟩
    | ok files => constructor <;> rintro ⟨e, he⟩ <;> cases he
  rw [raised, raised] at h
  rw [raised]
  rcases hq with rfl | hq
  · rw [List.append_nil]
    rcases h with h | ⟨e, he⟩
    · exact h
    · cases he
  · rw [parseUnifiedDiff_sections hp hq]
    rcases h with ⟨e, he⟩ | ⟨e, he⟩
    · rw [he]
      exact ⟨e, rfl⟩
    · rw [he]
      cases parseUnifiedDiff p with
      | error e' => exact ⟨e', rfl⟩
      | ok files => exact ⟨e, rfl⟩

theorem combinedRisk_ge {patch : Str} {policyRisk : Option Str} {combined : Str} {reasons : List Str}
    (h : combinedRisk patch policyRisk = .ok (combined, reasons)) :
    (∃ score level, diffRisk patch = .ok (score, level) ∧ DiffRisk.LevelLe level combined) ∧
    ∀ policy ∈ policyRisk, (DiffRisk.levelOrder (comparedAs policy)).isSome = true →
      DiffRisk.LevelLe (comparedAs policy) combined := by
  unfold combinedRisk scoreDiffRisk at h
  unfold diffRisk
  cases hf : parseUnifiedDiff patch with
  | error e => rw [hf] at h; cases h
  | ok files =>
    rw [hf] at h
    have hknown := DiffRisk.level_known (DiffRisk.factors (files.filter fun f => !f.path.isEmpty))
    cases policyRisk with
    | none =>
      cases h
      exact ⟨⟨_, _, rfl, .refl hknown⟩, fun policy hp => nomatch hp⟩
    | some policy =>
      have hcompared : (if some policy = some "CRITICAL".toList then some riskHigh else some policy) =
          some (comparedAs policy) := by
        unfold comparedAs
        by_cases hc : policy = "CRITICAL".toList
        · rw [if_pos hc, if_pos (congrArg some hc)]
        · rw [if_neg hc, if_neg fun heq => hc (Option.some.inj heq)]
      rw [hcompared] at h
      cases hlevel : comparedAs policy with
      | nil =>
        rw [hlevel] at h
        cases h
        refine ⟨⟨_, _, rfl, .refl hknown⟩, fun policy' hp hk => ?_⟩
        cases hp
        rw [hlevel] at hk
        cases hk
      | cons c cs =>
        rw [hlevel] at h
        cases h
        refine ⟨⟨_, _, rfl, DiffRisk.maxLevel_ge (List.mem_cons_self) hknown⟩, fun policy' hp hk => ?_⟩
        cases hp
        rw [hlevel] at hk ⊢
        exact DiffRisk.maxLevel_ge (List.mem_cons_of_mem _ List.mem_cons_self) hk

/-- Risk never falls when a patch grows, nor when the policy's risk is added to it. -/
theorem risk_never_falls (p q : Str) (hp : p = [] ∨ ∃ body, p = body ++ ['\n'])
    (hq : q = [] ∨ startsWith q "diff --git ".toList = true) :
    (∀ rp rq, diffRisk p = .ok rp → diffRisk q = .ok rq → ∃ r, diffRisk (p ++ q) = .ok r ∧
      rp.1 ≤ r.1 ∧ rq.1 ≤ r.1 ∧ DiffRisk.LevelLe rp.2 r.2 ∧ DiffRisk.LevelLe rq.2 r.2) ∧
    ((∃ e, diffRisk p = .error e) ∨ (∃ e, diffRisk q = .error e) → ∃ e, diffRisk (p ++ q) = .error e) ∧
    ∀ patch policyRisk combined reasons, combinedRisk patch policyRisk = .ok (combined, reasons) →
      (∃ score level, diffRisk patch = .ok (score, level) ∧ DiffRisk.LevelLe level combined) ∧
      ∀ policy ∈ policyRisk, (DiffRisk.levelOrder (comparedAs policy)).isSome = true →
        DiffRisk.LevelLe (comparedAs policy) combined :=
  ⟨fun _ _ hrp hrq => diffRisk_sections hp hq hrp hrq, diffRisk_sections_error hp hq,
    fun _ _ _ _ hcombined => combinedRisk_ge hcombined⟩

/-- `diffRisk` shows the level that `scoreDiffRisk` returns with its reasons. -/
theorem scoreDiffRisk_level (patch : Str) : (scoreDiffRisk patch).map Prod.fst = (diffRisk patch).map Prod.snd := by
  unfold scoreDiffRisk diffRisk
  cases parseUnifiedDiff patch <;> rfl

end

/-- A deletion under `auth/` behind a new text file. -/
theorem grownPatch_risk :
    ∃ r, @diffRisk asciiData ("diff --git a/a.txt b/a.txt\nnew file mode 100644\n".toList ++
      "diff --git a/auth/x.py b/auth/x.py\ndeleted file mode 100644\n".toList) = .ok r ∧
      DiffRisk.LevelLe riskHigh r.2 := by
  have hgrown := (@risk_never_falls asciiData "diff --git a/a.txt b/a.txt\nnew file mode 100644\n".toList
    "diff --git a/auth/x.py b/auth/x.py\ndeleted file mode 100644\n".toList
    (Or.inr ⟨"diff --git a/a.txt b/a.txt\nnew file mode 100644".toList, by decide⟩) (Or.inr rfl)).1
  obtain ⟨r, hr, -, -, -, hlevel⟩ := hgrown (0, riskLow) (45, riskHigh) (by rfl) (by rfl)
  exact ⟨r, hr, hlevel⟩

end FailureOrchestrator
