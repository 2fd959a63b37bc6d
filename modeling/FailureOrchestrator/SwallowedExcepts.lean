import FailureOrchestrator.Integrity

namespace FailureOrchestrator

open Regex

section

variable [UnicodeData]

/-- What stands after the colon of a matched clause. -/
def clauseBody (m : Cursor) : Str := strip ((m.group 1).getD [])

/-- A bare or broad `except` clause with nothing after the colon but an optional comment. -/
def BroadExcept (text : Str) : Prop := ∃ m, matchStart pyBroadExceptRe text = some m ∧ clauseBody m = []

/-- `pass`, `...`, `continue`, `return` or `return None`. -/
def Swallows (text : Str) : Prop := (matchStart swallowBodyRe (strip text)).isSome = true

/-- What `_swallowing_excepts` finds at an added line with the lines after it. -/
inductive SeenAt : Str → List (Char × Str) → Prop
  | sameLine {text : Str} {post : List (Char × Str)} {m : Cursor} (clause : matchStart pyBroadExceptRe text = some m)
      (hbody : clauseBody m ≠ []) (swallows : (matchStart swallowBodyRe (clauseBody m)).isSome = true) : SeenAt text post
  | nextLine {text next : Str} {post : List (Char × Str)} (clause : BroadExcept text) (swallows : Swallows next) :
      SeenAt text (('+', next) :: post)
  | inline {text : Str} {post : List (Char × Str)} (clause : matchStart pyBroadExceptRe text = none)
      (swallows : found swallowInlineRe text = true) : SeenAt text post

def Seen (lines : List (Char × Str)) : Prop :=
  ∃ pre text post, lines = pre ++ ('+', text) :: post ∧ SeenAt text post

theorem seenAt_text_ne_nil {text : Str} {post : List (Char × Str)} (h : SeenAt text post) : text ≠ [] := by
  rintro rfl
  cases h with
  | sameLine clause => cases clause
  | nextLine clause =>
    obtain ⟨m, hm, -⟩ := clause
    cases hm
  | inline _ swallows => cases swallows

theorem seen_cons (marker : Char) (text : Str) (rest : List (Char × Str)) :
    Seen ((marker, text) :: rest) ↔ (marker = '+' ∧ SeenAt text rest) ∨ Seen rest := by
  constructor
  · rintro ⟨pre, text', post, heq, hseen⟩
    cases pre with
    | nil =>
      cases heq
      exact Or.inl ⟨rfl, hseen⟩
    | cons x pre =>
      cases heq
      exact Or.inr ⟨pre, text', post, rfl, hseen⟩
  · rintro (⟨rfl, hseen⟩ | ⟨pre, text', post, rfl, hseen⟩)
    · exact ⟨[], text, rest, rfl, hseen⟩
    · exact ⟨(marker, text) :: pre, text', post, rfl, hseen⟩

/-- A line that is not flagged itself passes the search on. -/
theorem swallowingExcepts_cons (marker : Char) (text : Str) (rest : List (Char × Str)) :
    swallowingExcepts ((marker, text) :: rest) ≠ [] ↔
      (marker = '+' ∧ SeenAt text rest) ∨ swallowingExcepts rest ≠ [] := by
  conv_lhs => unfold swallowingExcepts
  by_cases hadded : marker = '+'
  swap
  · rw [if_pos (by simpa using hadded)]
    exact ⟨Or.inr, fun h => h.resolve_left fun hs => hadded hs.1⟩
  rw [if_neg (by simpa using hadded)]
  have skip : ¬ SeenAt text rest →
      (swallowingExcepts rest ≠ [] ↔ (marker = '+' ∧ SeenAt text rest) ∨ swallowingExcepts rest ≠ []) :=
    fun hnot => ⟨Or.inr, fun h => h.resolve_left fun hs => hnot hs.2⟩
  have flagged : SeenAt text rest → ∀ t : Str, t ≠ [] →
      (t ≠ [] ↔ (marker = '+' ∧ SeenAt text rest) ∨ swallowingExcepts rest ≠ []) :=
    fun hseen t ht => ⟨fun _ => Or.inl ⟨hadded, hseen⟩, fun _ => ht⟩
  cases hm : matchStart pyBroadExceptRe text with
  | none =>
    dsimp only
    split
    · next hinline =>
      have hseen : SeenAt text rest := .inline hm hinline
      exact flagged hseen text (seenAt_text_ne_nil hseen)
    · next hinline =>
      refine skip fun hseen => ?_
      cases hseen with
      | sameLine clause => cases hm.symm.trans clause
      | nextLine clause =>
        obtain ⟨m', hm', -⟩ := clause
        cases hm.symm.trans hm'
      | inline _ swallows => exact hinline swallows
  | some m =>
    dsimp only
    by_cases hbody : clauseBody m = []
    · have hempty : strip ((m.group 1).getD []) = [] := hbody
      rw [hempty, if_neg (by simp)]
      split
      · next next' post =>
        split
        · next hswallows =>
          have hseen : SeenAt text (('+', next') :: post) := .nextLine ⟨m, hm, hbody⟩ hswallows
          exact flagged hseen _ (by simp)
        · next hswallows =>
          refine skip fun hseen => ?_
          cases hseen with
          | sameLine clause hne =>
            cases hm.symm.trans clause
            exact hne hbody
          | nextLine _ swallows => exact hswallows swallows
          | inline clause => cases hm.symm.trans clause
      · next hnext =>
        refine skip fun hseen => ?_
        cases hseen with
        | sameLine clause hne =>
          cases hm.symm.trans clause
          exact hne hbody
        | nextLine _ _ => exact hnext _ _ rfl
        | inline clause => cases hm.symm.trans clause
    · have hfull : ¬ strip ((m.group 1).getD []) = [] := hbody
      rw [if_pos (by simpa using hfull)]
      split
      · next hswallows =>
        have hseen : SeenAt text rest := .sameLine hm hbody hswallows
        exact flagged hseen text (seenAt_text_ne_nil hseen)
      · next hswallows =>
        refine skip fun hseen => ?_
        cases hseen with
        | sameLine clause _ swallows =>
          cases hm.symm.trans clause
          exact hswallows swallows
        | nextLine clause =>
          obtain ⟨m', hm', hb⟩ := clause
          cases hm.symm.trans hm'
          exact hbody hb
        | inline clause => cases hm.symm.trans clause

theorem swallowingExcepts_ne_nil_iff (lines : List (Char × Str)) : swallowingExcepts lines ≠ [] ↔ Seen lines := by
  induction lines with
  | nil =>
    constructor
    · exact fun h => absurd rfl h
    · rintro ⟨pre, text, post, heq, -⟩
      cases pre <;> cases heq
  | cons line rest ih =>
    obtain ⟨marker, text⟩ := line
    rw [seen_cons, ← ih, swallowingExcepts_cons]

/-- A file that is patched, of Python, and neither a test nor prose. -/
structure ProductionPython (diff : FileDiff) : Prop where
  python : endsWith (norm diff.path) ".py".toList = true
  noTest : isTestPath diff.path = false
  noProse : isProse diff.path = false
  patched : diff.deleted = false

theorem reports_exceptionSwallowed_iff {diff : FileDiff} (h : ProductionPython diff) :
    HasCode (analyzeFile diff) .exceptionSwallowed ↔ Seen diff.lines := by
  have hprod : isProductionSource diff.path = true := by
    unfold isProductionSource endsWithAny sourceSuffixes
    rw [h.noTest, List.any_cons, h.python]
    rfl
  have hinspected : Inspected diff := ⟨h.noProse, fun hd => by rw [h.patched] at hd; cases hd.1⟩
  have noThreshold : ¬ HasCode (thresholdFindings diff) .exceptionSwallowed := by
    intro hcode
    cases hasCode_thresholdFindings hcode
  rw [hasCode_analyzeFile_iff diff (by decide), ← swallowingExcepts_ne_nil_iff]
  unfold contentFindings testFindings ciFindings qualityFindings productionFindings
  simp [hinspected, hprod, noThreshold, hasCode_elim]

/-- A line of the patched file that holds no statement, or a line that is not in it. -/
def Passed (line : Char × Str) : Prop :=
  line.1 = '-' ∨ strip line.2 = [] ∨ startsWith (strip line.2) ['#'] = true

/-- Within one hunk an added broad clause whose next statement in the patched file is an added one
that swallows the exception. -/
def SwallowedIn (hunk : List (Char × Str)) : Prop :=
  ∃ pre clause gap next post, hunk = pre ++ ('+', clause) :: gap ++ ('+', next) :: post ∧
    BroadExcept clause ∧ (∀ line ∈ gap, Passed line) ∧ Swallows next

/-- A swallowed exception is reported exactly as documented when there is none, or when the
lines hold one that the search sees: on the line of its clause or on the very next line of the
diff. -/
theorem exceptionSwallowed_exact_iff (diff : FileDiff) (hunks : List (List (Char × Str)))
    (hfile : ProductionPython diff) (hlines : diff.lines = hunks.flatten) :
    (((∃ hunk ∈ hunks, SwallowedIn hunk) → HasCode (analyzeFile diff) .exceptionSwallowed) ↔
      ¬ (∃ hunk ∈ hunks, SwallowedIn hunk) ∨ Seen hunks.flatten) ∧
    ((∃ pre clause next post, hunks.flatten = pre ++ ('+', clause) :: ('+', next) :: post ∧
      BroadExcept clause ∧ Swallows next) → HasCode (analyzeFile diff) .exceptionSwallowed) := by
  rw [reports_exceptionSwallowed_iff hfile, hlines]
  refine ⟨imp_iff_not_or, ?_⟩
  rintro ⟨pre, clause, next, post, heq, hclause, hswallows⟩
  exact ⟨pre, clause, _, heq, .nextLine hclause hswallows⟩

end

/-- A handler that raised and now passes: git writes the removed statement before the added one. -/
def replacedRaise : List (Char × Str) :=
  [('+', "    except Exception:".toList), ('-', "        raise".toList), ('+', "        pass".toList)]

def calcDiff (lines : List (Char × Str)) : FileDiff where
  path := "src/calc.py".toList
  added := (lines.filter fun l => l.1 == '+').map Prod.snd
  removed := (lines.filter fun l => l.1 == '-').map Prod.snd
  lines := lines

theorem calcPath_untested : @isTestPath asciiData "src/calc.py".toList = false := by
  decide +kernel

theorem calcDiff_production (lines : List (Char × Str)) : @ProductionPython asciiData (calcDiff lines) :=
  @ProductionPython.mk asciiData _ rfl calcPath_untested rfl rfl

theorem replacedRaise_swallowed : @SwallowedIn asciiData replacedRaise := by
  refine ⟨[], _, [('-', "        raise".toList)], _, [], rfl, ⟨_, rfl, by decide⟩, fun line hline => ?_, rfl⟩
  rw [List.mem_singleton.mp hline]
  exact Or.inl rfl

theorem exceptionSwallowed_not_always : ¬ ∀ (u : UnicodeData) (diff : FileDiff), @ProductionPython u diff →
    @SwallowedIn u diff.lines → HasCode (@analyzeFile u diff) .exceptionSwallowed := by
  intro h
  have hreported := h asciiData (calcDiff replacedRaise) (calcDiff_production _) replacedRaise_swallowed
  have hnone : @analyzeFile asciiData (calcDiff replacedRaise) = [] := by rfl
  rw [hnone] at hreported
  exact hasCode_nil hreported

/-- A new handler that passes. -/
theorem newHandler_reported :
    HasCode (@analyzeFile asciiData (calcDiff [('+', "    except:".toList), ('+', "        pass".toList)]))
      .exceptionSwallowed := by
  have hclause : @BroadExcept asciiData "    except:".toList := ⟨_, rfl, by decide⟩
  have hswallows : @Swallows asciiData "        pass".toList := rfl
  exact (@exceptionSwallowed_exact_iff asciiData _ [[('+', "    except:".toList), ('+', "        pass".toList)]]
    (calcDiff_production _) rfl).2 ⟨[], _, _, [], rfl, hclause, hswallows⟩

end FailureOrchestrator
