import FailureOrchestrator.HunkHeader
import Mathlib.Tactic.IntervalCases

namespace FailureOrchestrator

/-- A text that `splitlines` never cuts. -/
def Unbroken (s : Str) : Prop := ∀ c ∈ s, isLineBreak c = false

instance (s : Str) : Decidable (Unbroken s) :=
  decidable_of_iff (s.all (fun c => !isLineBreak c) = true) (by simp [Unbroken])

theorem Unbroken.append {s t : Str} (hs : Unbroken s) (ht : Unbroken t) : Unbroken (s ++ t) := by
  intro c hc
  rcases List.mem_append.mp hc with h | h
  · exact hs c h
  · exact ht c h

theorem Unbroken.cons {c : Char} {s : Str} (hc : isLineBreak c = false) (hs : Unbroken s) :
    Unbroken (c :: s) := by
  intro d hd
  rcases List.mem_cons.mp hd with rfl | h
  · exact hc
  · exact hs d h

theorem Unbroken.nil : Unbroken [] := by simp [Unbroken]

theorem splitlines_cons {c : Char} (h : isLineBreak c = false) (s : Str) :
    splitlines (c :: s) = consLine c (splitlines s) := by
  have hr : c ≠ '\r' := by rintro rfl; simp [isLineBreak] at h
  cases s with
  | nil => simp [splitlines, h]
  | cons d s =>
    rw [splitlines]
    · simp [h]
    · intro rest hh; simp_all

theorem splitlines_line {l : Str} (h : Unbroken l) (rest : Str) :
    splitlines (l ++ '\n' :: rest) = l :: splitlines rest := by
  induction l with
  | nil => simp [splitlines, isLineBreak]
  | cons c l ih =>
    have hc := h c (by simp)
    rw [List.cons_append, splitlines_cons hc, ih fun d hd => h d (by simp [hd])]
    rfl

theorem splitlines_unlines {ls : List Str} (h : ∀ l ∈ ls, Unbroken l) : splitlines (unlines ls) = ls := by
  induction ls with
  | nil => rfl
  | cons l ls ih =>
    have tail := ih fun x hx => h x (by simp [hx])
    have shape : unlines (l :: ls) = l ++ '\n' :: unlines ls := by simp [unlines]
    rw [shape, splitlines_line (h l (by simp)), tail]

theorem splitlines_tail {s : Str} (h : Unbroken s) (hne : s ≠ []) : splitlines s = [s] := by
  induction s with
  | nil => exact absurd rfl hne
  | cons c s ih =>
    rw [splitlines_cons (h c List.mem_cons_self)]
    cases s with
    | nil => rfl
    | cons d s =>
      rw [ih (fun e he => h e (List.mem_cons_of_mem _ he)) (List.cons_ne_nil d s)]
      rfl

/-- Lines with an unfinished one behind them. -/
theorem splitlines_unlines_tail {ls : List Str} {s : Str} (h : ∀ l ∈ ls, Unbroken l) (hs : Unbroken s) (hne : s ≠ []) :
    splitlines (unlines ls ++ s) = ls ++ [s] := by
  induction ls with
  | nil => exact splitlines_tail hs hne
  | cons l ls ih =>
    obtain ⟨hl, hls⟩ := List.forall_mem_cons.mp h
    have shape : unlines (l :: ls) ++ s = l ++ '\n' :: (unlines ls ++ s) := by simp [unlines]
    rw [shape, splitlines_line hl, ih hls, List.cons_append]

theorem digitChar_unbroken {n : Nat} (h : n < 16) : isLineBreak n.digitChar = false := by
  interval_cases n <;> decide

theorem octalByte_unbroken {b : Nat} (h : b < 256) : Unbroken (octalByte b) :=
  .cons (by decide) <| .cons (digitChar_unbroken (by omega)) <|
    .cons (digitChar_unbroken (by omega)) <| .cons (digitChar_unbroken (by omega)) .nil

theorem isLineBreak_of_printable {c : Char} (h : 32 ≤ c.toNat ∧ c.toNat ≤ 126) : isLineBreak c = false := by
  simp only [isLineBreak, Bool.or_eq_false_iff, Bool.and_eq_false_iff, decide_eq_false_iff_not, beq_eq_false_iff_ne]
  omega

theorem isDigit_toNat {c : Char} (h : c.isDigit = true) : 48 ≤ c.toNat ∧ c.toNat ≤ 57 := by
  simp only [Char.isDigit, ge_iff_le, Bool.and_eq_true, decide_eq_true_eq] at h
  have hlo : '0'.toNat ≤ c.toNat := h.1
  have hhi : c.toNat ≤ '9'.toNat := h.2
  have h0 : '0'.toNat = 48 := rfl
  have h9 : '9'.toNat = 57 := rfl
  omega

theorem isSpace_of_isDigit {c : Char} (h : c.isDigit = true) : isSpace c = false := by
  have hd := isDigit_toNat h
  unfold isSpace
  simp only [Bool.or_eq_false_iff, Bool.and_eq_false_iff, decide_eq_false_iff_not, beq_eq_false_iff_ne]
  omega

theorem natStr_unbroken (n : Nat) : Unbroken (natStr n) := by
  intro c hc
  have hd := isDigit_toNat (natStr_isDigit hc)
  exact isLineBreak_of_printable (by omega)

theorem unbroken_of_not_needsQuote {c : Char} (h : needsQuote c = false) : isLineBreak c = false := by
  simp only [needsQuote, Bool.or_eq_false_iff, decide_eq_false_iff_not] at h
  simp only [isLineBreak, Bool.or_eq_false_iff, Bool.and_eq_false_iff, decide_eq_false_iff_not,
    beq_eq_false_iff_ne]
  omega

theorem quoteChar_unbroken (c : Char) : Unbroken (quoteChar c) := by
  unfold quoteChar
  repeat' split
  all_goals try decide
  next =>
    intro d hd
    obtain ⟨b, _, hb⟩ := List.mem_flatMap.mp hd
    exact octalByte_unbroken b.toNat_lt d hb
  next h =>
    exact Unbroken.cons (unbroken_of_not_needsQuote (by simpa using h)) Unbroken.nil

theorem quoteName_unbroken {side : Str} (hs : Unbroken side) (name : Str) :
    Unbroken (quoteName side name) := by
  unfold quoteName
  split
  next =>
    have body : Unbroken (name.flatMap quoteChar) := by
      intro d hd
      obtain ⟨c, _, hc⟩ := List.mem_flatMap.mp hd
      exact quoteChar_unbroken c d hc
    exact ((Unbroken.append (by decide) hs).append body).append (by decide)
  next h =>
    refine hs.append fun c hc => unbroken_of_not_needsQuote ?_
    simpa using List.any_eq_false.mp (by simpa using h) c hc

theorem FileMode.text_unbroken (m : FileMode) : Unbroken m.text := by cases m <;> decide

theorem hexText_unbroken (ds : List (Fin 16)) : Unbroken (hexText ds) := by
  intro c hc
  obtain ⟨d, _, rfl⟩ := List.mem_map.mp hc
  exact digitChar_unbroken d.isLt

theorem hunkRange_unbroken (start count : Nat) : Unbroken (hunkRange start count) := by
  unfold hunkRange
  split
  · simpa using natStr_unbroken start
  · exact (natStr_unbroken start).append (Unbroken.cons (by decide) (natStr_unbroken count))

/-- A hunk whose heading and lines hold no line separator other than their newline. -/
structure Hunk.Whole (h : Hunk) : Prop where
  heading : ∀ t ∈ h.heading, Unbroken t
  lines : ∀ l ∈ h.lines, Unbroken l.text

theorem Hunk.header_unbroken {h : Hunk} (hu : ∀ t ∈ h.heading, Unbroken t) :
    Unbroken h.header := by
  have htail : Unbroken (h.heading.elim [] fun t => ' ' :: t) := by
    cases ht : h.heading with
    | none => exact .nil
    | some t => exact .cons (by decide) (hu t (by simp [ht]))
  have hopen := Unbroken.append (s := "@@ -".toList) (by decide)
    (hunkRange_unbroken h.oldStart h.oldCount)
  have hplus := hopen.append (t := " +".toList) (by decide)
  have hnew := hplus.append (hunkRange_unbroken h.newStart h.newCount)
  exact (hnew.append (t := " @@".toList) (by decide)).append htail

namespace FileChange

def LinesUnbroken (c : FileChange) : Prop := ∀ h ∈ c.hunks, h.Whole

theorem diffGitLine_unbroken (c : FileChange) : Unbroken c.diffGitLine := by
  have ha : Unbroken (quoteName "a/".toList c.kind.old.name) := quoteName_unbroken (by decide) _
  have hb : Unbroken (quoteName "b/".toList c.kind.new.name) := quoteName_unbroken (by decide) _
  have hopen := Unbroken.append (s := "diff --git ".toList) (by decide) ha
  exact (hopen.append (by decide)).append hb

theorem modeLines_unbroken (c : FileChange) : ∀ l ∈ c.modeLines, Unbroken l := by
  unfold modeLines
  intro l hl
  split at hl
  · rw [List.mem_singleton.mp hl]
    exact Unbroken.append (by decide) c.newMode.text_unbroken
  · rw [List.mem_singleton.mp hl]
    exact Unbroken.append (by decide) c.oldMode.text_unbroken
  · split at hl
    · simp at hl
    · rcases List.mem_pair.mp hl with rfl | rfl
      · exact Unbroken.append (by decide) c.oldMode.text_unbroken
      · exact Unbroken.append (by decide) c.newMode.text_unbroken

theorem similarityLine_unbroken (c : FileChange) : Unbroken c.similarityLine :=
  (Unbroken.append (by decide) (natStr_unbroken c.similarity)).append (by decide)

theorem moveLines_unbroken (c : FileChange) : ∀ l ∈ c.moveLines, Unbroken l := by
  unfold moveLines
  intro l hl
  have named : ∀ (s : String) (p : GitPath), Unbroken s.toList →
      Unbroken (s.toList ++ quoteName [] p.name) :=
    fun s p hs => hs.append (quoteName_unbroken Unbroken.nil p.name)
  split at hl
  · simp only [List.mem_cons, List.not_mem_nil, or_false] at hl
    rcases hl with rfl | rfl | rfl
    · exact c.similarityLine_unbroken
    all_goals exact named _ _ (by decide)
  · simp only [List.mem_cons, List.not_mem_nil, or_false] at hl
    rcases hl with rfl | rfl | rfl
    · exact c.similarityLine_unbroken
    all_goals exact named _ _ (by decide)
  · simp at hl

theorem indexLines_unbroken (c : FileChange) : ∀ l ∈ c.indexLines, Unbroken l := by
  unfold indexLines
  intro l hl
  split at hl
  · simp at hl
  · rename_i o n _
    rw [List.mem_singleton.mp hl]
    have hashes := ((Unbroken.append (s := "index ".toList) (by decide) (hexText_unbroken o)).append
      (t := "..".toList) (by decide)).append (hexText_unbroken n)
    refine hashes.append ?_
    split
    · exact Unbroken.nil
    · exact Unbroken.nil
    · split
      · exact Unbroken.cons (by decide) c.newMode.text_unbroken
      · exact Unbroken.nil

theorem oldLabel_unbroken (c : FileChange) : Unbroken c.oldLabel := by
  unfold oldLabel
  split
  · decide
  · exact quoteName_unbroken (by decide) _

theorem newLabel_unbroken (c : FileChange) : Unbroken c.newLabel := by
  unfold newLabel
  split
  · decide
  · exact quoteName_unbroken (by decide) _

theorem withTab_unbroken {l : Str} (h : Unbroken l) : Unbroken (withTab l) := by
  unfold withTab
  split
  · exact h.append (by decide)
  · exact h

theorem hunkLine_render_unbroken {l : HunkLine} (h : Unbroken l.text) : ∀ s ∈ l.render, Unbroken s := by
  intro s hs
  rcases List.mem_cons.mp hs with rfl | hs
  · exact Unbroken.cons (by cases l.marker <;> decide) h
  · split at hs
    · rw [List.mem_singleton.mp hs]; decide
    · simp at hs

theorem bodyLines_unbroken {c : FileChange} (h : c.LinesUnbroken) : ∀ l ∈ c.bodyLines, Unbroken l := by
  intro l hl
  unfold bodyLines at hl
  split at hl
  · rw [List.mem_singleton.mp hl]
    have hopen := Unbroken.append (s := "Binary files ".toList) (by decide) c.oldLabel_unbroken
    exact ((hopen.append (t := " and ".toList) (by decide)).append c.newLabel_unbroken).append (by decide)
  · simp at hl
  · rename_i hk hs hb
    rcases List.mem_cons.mp hl with rfl | hl
    · exact Unbroken.append (by decide) (withTab_unbroken c.oldLabel_unbroken)
    rcases List.mem_cons.mp hl with rfl | hl
    · exact Unbroken.append (by decide) (withTab_unbroken c.newLabel_unbroken)
    obtain ⟨k, hk', hmem⟩ := List.mem_flatMap.mp hl
    have hku : k.Whole := h k (by simpa [hunks, hb] using hk')
    rcases List.mem_cons.mp hmem with rfl | hmem
    · exact Hunk.header_unbroken hku.heading
    · obtain ⟨x, hx, hlx⟩ := List.mem_flatMap.mp hmem
      exact hunkLine_render_unbroken (hku.lines x hx) l hlx

theorem render_unbroken {c : FileChange} (h : c.LinesUnbroken) : ∀ l ∈ c.render, Unbroken l := by
  intro l hl
  rcases List.mem_cons.mp hl with rfl | hl
  · exact c.diffGitLine_unbroken
  simp only [List.mem_append] at hl
  rcases hl with ((hl | hl) | hl) | hl
  · exact c.modeLines_unbroken l hl
  · exact c.moveLines_unbroken l hl
  · exact c.indexLines_unbroken l hl
  · exact bodyLines_unbroken h l hl

end FileChange

/-- On unbroken hunk lines the reader's lines are git's lines. -/
theorem splitlines_render {d : GitDiff} (h : ∀ c ∈ d, c.LinesUnbroken) :
    splitlines d.render = d.flatMap FileChange.render := by
  refine splitlines_unlines fun l hl => ?_
  obtain ⟨c, hc, hlc⟩ := List.mem_flatMap.mp hl
  exact FileChange.render_unbroken (h c hc) l hlc

end FailureOrchestrator
