import FailureOrchestrator.RiskGrowth

namespace FailureOrchestrator

namespace DiffRisk

theorem ladder_high_iff (b : Bool) (n : Nat) : (if b || decide (highThreshold ≤ n) then riskHigh
    else if mediumThreshold ≤ n then riskMedium else riskLow) = riskHigh ↔ b = true ∨ highThreshold ≤ n := by
  split_ifs with h hm
  · simpa using h
  · simp only [Bool.or_eq_true, decide_eq_true_eq] at h
    exact ⟨fun heq => absurd heq (by decide), fun h' => absurd h' h⟩
  · simp only [Bool.or_eq_true, decide_eq_true_eq] at h
    exact ⟨fun heq => absurd heq (by decide), fun h' => absurd h' h⟩

theorem sum_unforced (files : List FileDiff) (cs : List Check) :
    ((cs.filter fun c => !c.2.2.2).map (Check.pointsOf files)).sum ≤ (cs.map (Check.pointsOf files)).sum ∧
    ((∀ c ∈ cs, c.2.2.2 = true → files.any c.2.1 = false) →
      ((cs.filter fun c => !c.2.2.2).map (Check.pointsOf files)).sum = (cs.map (Check.pointsOf files)).sum) := by
  induction cs with
  | nil => exact ⟨Nat.le_refl _, fun _ => rfl⟩
  | cons c cs ih =>
    obtain ⟨hle, heq⟩ := ih
    cases hforce : c.2.2.2 with
    | false =>
      rw [List.filter_cons_of_pos (by simp [hforce]), List.map_cons, List.map_cons, List.sum_cons, List.sum_cons]
      exact ⟨Nat.add_le_add_left hle _, fun h => by rw [heq fun d hd => h d (List.mem_cons_of_mem _ hd)]⟩
    | true =>
      rw [List.filter_cons_of_neg (by simp [hforce]), List.map_cons, List.sum_cons]
      refine ⟨hle.trans (Nat.le_add_left _ _), fun h => ?_⟩
      have hzero : Check.pointsOf files c = 0 := if_neg (by simp [h c List.mem_cons_self hforce])
      rw [hzero, Nat.zero_add]
      exact heq fun d hd => h d (List.mem_cons_of_mem _ hd)

section

variable [UnicodeData]

/-- A path outside the tests with a word of a sensitive area. -/
def sensitive (path : Str) : Bool :=
  !isTestPath path && [authn, authz, paymentWords, migrationWords, secretWords].any (hasToken path)

/-- Some check of the file forces a high risk. -/
def forcesHigh (f : FileDiff) : Bool := checks.any fun c => c.2.2.2 && c.2.1 f

/-- What the size of the diff and the checks that force nothing add to the score. -/
def unforcedPoints (files : List FileDiff) : Nat :=
  sizePoints files.length 10 3 + sizePoints (linesChanged files) 200 50 +
    ((checks.filter fun c => !c.2.2.2).map (Check.pointsOf files)).sum + if files.any isProduction then 5 else 0

theorem forced_factors_iff (files : List FileDiff) :
    (factors files).any (·.forced) = true ↔ ∃ f ∈ files, forcesHigh f = true := by
  rw [forced_factors]
  unfold forcesHigh
  simp only [List.any_eq_true, Bool.and_eq_true]
  constructor
  · rintro ⟨c, hc, hforce, f, hf, hp⟩
    exact ⟨f, hf, c, hc, hforce, hp⟩
  · rintro ⟨f, hf, c, hc, hforce, hp⟩
    exact ⟨c, hc, hforce, f, hf, hp⟩

/-- A diff scores high exactly when some file forces it or the other points reach the threshold. -/
theorem level_high_iff (files : List FileDiff) :
    level (factors files) = riskHigh ↔
      (∃ f ∈ files, forcesHigh f = true) ∨ highThreshold ≤ unforcedPoints files := by
  have hlevel : level (factors files) = riskHigh ↔
      (factors files).any (·.forced) = true ∨ highThreshold ≤ score (factors files) := ladder_high_iff _ _
  rw [hlevel, ← forced_factors_iff]
  have hsum := sum_unforced files checks
  by_cases hforced : (factors files).any (·.forced) = true
  · exact ⟨fun _ => Or.inl hforced, fun _ => Or.inl hforced⟩
  · have hnone : ∀ c ∈ checks, c.2.2.2 = true → files.any c.2.1 = false := by
      intro c hc hforce
      rw [forced_factors, List.any_eq_true] at hforced
      by_contra hany
      exact hforced ⟨c, hc, by simp [hforce, hany]⟩
    have hscore : score (factors files) = unforcedPoints files := by
      rw [score_factors]
      unfold unforcedPoints
      rw [hsum.2 hnone]
    rw [hscore]

theorem forcesHigh_of_sensitive {f : FileDiff} (h : sensitive f.path = true) : forcesHigh f = true := by
  unfold sensitive at h
  rw [Bool.and_eq_true] at h
  obtain ⟨htest, hword⟩ := h
  simp only [List.any_cons, List.any_nil, Bool.or_false, Bool.or_eq_true] at hword
  unfold forcesHigh checks isSecretConfig
  rcases hword with hw | hw | hw | hw | hw <;> simp [htest, hw]

/-- The files of a diff as `score_diff_risk` looks at them. -/
def scoredFiles (files : List FileDiff) : List FileDiff := files.filter fun f => !f.path.isEmpty

/-- What the score finds high: a file of a forced area, or enough of everything else. -/
def LooksHigh (files : List FileDiff) : Prop :=
  (∃ f ∈ scoredFiles files, forcesHigh f = true) ∨ highThreshold ≤ unforcedPoints (scoredFiles files)

end

end DiffRisk

section

variable [UnicodeData]

namespace GitDiff

/-- Some change has an old or a new path of a sensitive area. -/
def TouchesSensitive (d : GitDiff) : Prop :=
  ∃ c ∈ d, DiffRisk.sensitive c.kind.old.name = true ∨ DiffRisk.sensitive c.kind.new.name = true

def ScoredHigh (d : GitDiff) : Prop := ∃ reasons, scoreDiffRisk d.render = .ok (riskHigh, reasons)

end GitDiff

theorem scoredHigh_iff (d : GitDiff) : d.ScoredHigh ↔
    ∃ files, parseUnifiedDiff d.render = .ok files ∧ DiffRisk.LooksHigh files := by
  unfold GitDiff.ScoredHigh scoreDiffRisk DiffRisk.LooksHigh
  cases hp : parseUnifiedDiff d.render with
  | error e =>
    constructor
    · rintro ⟨reasons, hr⟩
      cases hr
    · rintro ⟨files, hf, -⟩
      cases hf
  | ok files =>
    have hlevel := DiffRisk.level_high_iff (DiffRisk.scoredFiles files)
    constructor
    · rintro ⟨reasons, hr⟩
      exact ⟨files, rfl, hlevel.mp (congrArg Prod.fst (Except.ok.inj hr))⟩
    · rintro ⟨files', hf, hhigh⟩
      cases hf
      exact ⟨_, congrArg Except.ok (Prod.ext (hlevel.mpr hhigh) rfl)⟩

theorem scoredHigh_render_iff {d : GitDiff} (hl : ∀ c ∈ d, c.LinesUnbroken) (hc : d.Countable) :
    d.ScoredHigh ↔ DiffRisk.LooksHigh (d.map FileChange.readDiff) := by
  rw [scoredHigh_iff, parseUnifiedDiff_render hl hc]
  constructor
  · rintro ⟨files, hf, hhigh⟩
    cases hf
    exact hhigh
  · intro hhigh
    exact ⟨_, rfl, hhigh⟩

/-- A change is scored by the path that its section names last, so a sensitive one there is
never missed where the reader takes it as it is. -/
theorem looksHigh_of_sensitive {d : GitDiff} {c : FileChange} (hmem : c ∈ d) (hread : c.PathReadable)
    (hs : DiffRisk.sensitive c.kind.new.name = true) : DiffRisk.LooksHigh (d.map FileChange.readDiff) := by
  have hpath : c.readDiff.path = c.kind.new.name := c.readPath_iff.mpr hread
  refine Or.inl ⟨c.readDiff, List.mem_filter.mpr ⟨List.mem_map_of_mem hmem, ?_⟩, ?_⟩
  · rw [hpath]
    simpa using c.kind.new.nonempty
  · exact DiffRisk.forcesHigh_of_sensitive (hpath ▸ hs)

/-- A diff that touches a sensitive path is scored high exactly when the files that the reader
takes from it look high. Where the reader cuts the lines as git ended them these are the
sections' last paths, and a readable one of them is never missed: only the source of a rename
or of a copy and an unreadable path are. -/
theorem touchesSensitive_high_iff (d : GitDiff) :
    ((d.TouchesSensitive → d.ScoredHigh) ↔
      ¬ d.TouchesSensitive ∨ ∃ files, parseUnifiedDiff d.render = .ok files ∧ DiffRisk.LooksHigh files) ∧
    ((∀ c ∈ d, c.LinesUnbroken) → d.Countable →
      ((d.TouchesSensitive → d.ScoredHigh) ↔
        ¬ d.TouchesSensitive ∨ DiffRisk.LooksHigh (d.map FileChange.readDiff)) ∧
      ∀ c ∈ d, c.PathReadable → DiffRisk.sensitive c.kind.new.name = true → d.ScoredHigh) := by
  refine ⟨?_, fun hl hc => ⟨?_, fun c hmem hread hs => ?_⟩⟩
  · rw [imp_iff_not_or, scoredHigh_iff]
  · rw [imp_iff_not_or, scoredHigh_render_iff hl hc]
  · exact (scoredHigh_render_iff hl hc).mpr (looksHigh_of_sensitive hmem hread hs)

end

/-- A login module that is renamed out of its directory. -/
def movedLogin : FileChange where
  kind := .rename ⟨"auth/login.py".toList, by decide, by decide⟩ ⟨"lib/helpers.py".toList, by decide, by decide⟩
  oldMode := .regular
  newMode := .regular
  index := none
  similarity := 100
  body := .hunks []

theorem movedLogin_scored : @diffRisk asciiData (GitDiff.render [movedLogin]) = .ok (5, riskLow) := by
  rfl

theorem movedLogin_not_high : ¬ ∀ (u : UnicodeData) (d : GitDiff),
    @GitDiff.TouchesSensitive u d → @GitDiff.ScoredHigh u d := by
  intro h
  have htouches : @GitDiff.TouchesSensitive asciiData [movedLogin] := ⟨movedLogin, by simp, Or.inl rfl⟩
  obtain ⟨reasons, hr⟩ := h asciiData [movedLogin] htouches
  have hlevel := @scoreDiffRisk_level asciiData (GitDiff.render [movedLogin])
  rw [hr, movedLogin_scored] at hlevel
  have heq : riskHigh = riskLow := Except.ok.inj hlevel
  exact absurd heq (by decide)

end FailureOrchestrator
