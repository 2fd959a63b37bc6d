import FailureOrchestrator.DiffAppend
import FailureOrchestrator.PytestStamps

namespace FailureOrchestrator

/-! Records that are appended as lines and read with `splitlines`. -/

/-- `path.read_text()`: every line end is read as a newline. -/
def universalNewlines : Str → Str
  | [] => []
  | '\r' :: '\n' :: rest => '\n' :: universalNewlines rest
  | c :: rest => (if c = '\r' then '\n' else c) :: universalNewlines rest

/-- `if line.strip()`. -/
def holdsText (line : Str) : Bool := !(strip line).isEmpty

/-- The lines of a text that are not blank. -/
def recordLines (text : Str) : List Str := (splitlines text).filter holdsText

/-- A line that begins and ends with a character that is no space, without control characters. -/
structure RecordLine (l : Str) : Prop where
  first : ∃ c ∈ l.head?, isSpace c = false
  last : ∃ c ∈ l.getLast?, isSpace c = false
  narrow : ∀ c ∈ l, 32 ≤ c.toNat

theorem universalNewlines_eq_self {s : Str} (h : '\r' ∉ s) : universalNewlines s = s := by
  induction s using universalNewlines.induct with
  | case1 => rfl
  | case2 rest => exact absurd List.mem_cons_self h
  | case3 c rest hshape ih =>
    have hc : c ≠ '\r' := fun hc => h (by simp [hc])
    rw [universalNewlines, if_neg hc, ih fun hr => h (List.mem_cons_of_mem c hr)]
    exact hshape

theorem mem_splitlines {c : Char} {s : Str} (hc : c ∈ s) (hkept : isLineBreak c = false) : ∃ l ∈ splitlines s, c ∈ l := by
  induction s using splitlines.induct with
  | case1 => cases hc
  | case2 rest ih =>
    simp only [List.mem_cons] at hc
    rw [splitlines]
    rcases hc with rfl | rfl | hc
    · cases hkept
    · cases hkept
    · obtain ⟨l, hl, hmem⟩ := ih hc
      exact ⟨l, List.mem_cons_of_mem _ hl, hmem⟩
  | case3 d rest hshape hd ih =>
    rw [splitlines, if_pos hd]
    · rcases List.mem_cons.mp hc with rfl | hc
      · rw [hd] at hkept
        cases hkept
      · obtain ⟨l, hl, hmem⟩ := ih hc
        exact ⟨l, List.mem_cons_of_mem _ hl, hmem⟩
    · exact hshape
  | case4 d rest hshape hd ih =>
    rw [splitlines, if_neg hd]
    · rcases List.mem_cons.mp hc with rfl | hc
      · cases splitlines rest with
        | nil => exact ⟨[c], by simp [consLine], by simp⟩
        | cons l ls => exact ⟨c :: l, by simp [consLine], by simp⟩
      · obtain ⟨l, hl, hmem⟩ := ih hc
        cases hls : splitlines rest with
        | nil => rw [hls] at hl; cases hl
        | cons k ls =>
          rw [hls] at hl
          rcases List.mem_cons.mp hl with rfl | hl
          · exact ⟨d :: l, by simp [consLine], by simp [hmem]⟩
          · exact ⟨l, by simp [consLine, hl], hmem⟩
    · exact hshape

theorem holdsText_of_mem {c : Char} {l : Str} (hc : c ∈ l) (hspace : isSpace c = false) : holdsText l = true := by
  have hne : strip l ≠ [] := by
    intro hnil
    rw [(strip_eq_nil_iff l).mp hnil c hc] at hspace
    cases hspace
  simpa [holdsText] using hne

theorem splitlines_break {u rest : Str} {b : Char} (hu : Unbroken u) (hb : isLineBreak b = true) (hcr : b ≠ '\r') :
    splitlines (u ++ b :: rest) = u :: splitlines rest := by
  induction u with
  | nil => rw [List.nil_append, splitlines_step fun hc => absurd hc hcr, if_pos hb]
  | cons c u ih =>
    rw [List.cons_append, splitlines_cons (hu c List.mem_cons_self), ih fun d hd => hu d (List.mem_cons_of_mem c hd)]
    rfl

theorem recordLines_append (s t : Str) : recordLines (s ++ '\n' :: t) = recordLines (s ++ ['\n']) ++ recordLines t := by
  unfold recordLines
  rw [splitlines_append, List.filter_append]

/-- A line without a line end of any kind is read as one. -/
theorem recordLines_unbroken {l : Str} (h : RecordLine l) (hu : Unbroken l) : recordLines (l ++ ['\n']) = [l] := by
  obtain ⟨c, hc, hspace⟩ := h.first
  have hkept := holdsText_of_mem (List.mem_of_head? hc) hspace
  unfold recordLines
  rw [splitlines_line hu, splitlines, List.filter_cons_of_pos hkept, List.filter_nil]

/-- A line with another line end in it is read as several. -/
theorem recordLines_broken {l : Str} (h : RecordLine l) (hu : ¬ Unbroken l) : 2 ≤ (recordLines (l ++ ['\n'])).length := by
  obtain ⟨c, hc, hcspace⟩ := h.first
  obtain ⟨d, hd, hdspace⟩ := h.last
  have hwhole := List.takeWhile_append_dropWhile (p := fun c => !isLineBreak c) (l := l)
  have hfirst : Unbroken (l.takeWhile fun c => !isLineBreak c) := fun e he => by
    simpa using List.mem_takeWhile_imp he
  cases hrest : l.dropWhile fun c => !isLineBreak c with
  | nil =>
    rw [hrest, List.append_nil] at hwhole
    rw [hwhole] at hfirst
    exact absurd hfirst hu
  | cons b v =>
    rw [hrest] at hwhole
    generalize (l.takeWhile fun c => !isLineBreak c) = u at hwhole hfirst
    have hb : isLineBreak b = true := by
      have hhead := List.head_dropWhile_not (fun c => !isLineBreak c) (l := l) (by rw [hrest]; exact List.cons_ne_nil b v)
      simp only [hrest, List.head_cons] at hhead
      simpa using hhead
    have hbspace := isSpace_of_isLineBreak hb
    subst hwhole
    have hcr : b ≠ '\r' := by
      rintro rfl
      exact absurd (h.narrow '\r' (by simp)) (by decide)
    have hcu : c ∈ u := by
      cases u with
      | nil =>
        obtain rfl : b = c := Option.some.inj hc
        rw [hbspace] at hcspace
        cases hcspace
      | cons e u =>
        obtain rfl : e = c := Option.some.inj hc
        exact List.mem_cons_self
    have hdv : d ∈ v := by
      rw [List.getLast?_append_of_ne_nil _ (List.cons_ne_nil b v)] at hd
      cases v with
      | nil =>
        obtain rfl : b = d := Option.some.inj hd
        rw [hbspace] at hdspace
        cases hdspace
      | cons e v =>
        rw [List.getLast?_cons_cons] at hd
        exact List.mem_of_getLast? hd
    have hkept : isLineBreak d = false := by
      by_contra hbreak
      rw [isSpace_of_isLineBreak (by simpa using hbreak)] at hdspace
      cases hdspace
    obtain ⟨k, hk, hdk⟩ := mem_splitlines (List.mem_append_left ['\n'] hdv) hkept
    have hmem : k ∈ recordLines (v ++ ['\n']) := List.mem_filter.mpr ⟨hk, holdsText_of_mem hdk hdspace⟩
    have hsplit : recordLines (u ++ b :: v ++ ['\n']) = u :: recordLines (v ++ ['\n']) := by
      unfold recordLines
      rw [List.append_assoc, List.cons_append, splitlines_break hfirst hb hcr,
        List.filter_cons_of_pos (holdsText_of_mem hcu hcspace)]
    rw [hsplit, List.length_cons]
    have hpos := List.length_pos_of_mem hmem
    omega

theorem recordLines_unlines_cons (l : Str) (ls : List Str) :
    recordLines (unlines (l :: ls)) = recordLines (l ++ ['\n']) ++ recordLines (unlines ls) := by
  rw [← recordLines_append]
  simp [unlines]

theorem recordLines_unlines {ls : List Str} (h : ∀ l ∈ ls, RecordLine l) (hu : ∀ l ∈ ls, Unbroken l) :
    recordLines (unlines ls) = ls := by
  induction ls with
  | nil => rfl
  | cons l ls ih =>
    obtain ⟨hl, hls⟩ := List.forall_mem_cons.mp h
    obtain ⟨hul, huls⟩ := List.forall_mem_cons.mp hu
    rw [recordLines_unlines_cons, recordLines_unbroken hl hul, ih hls huls]
    rfl

theorem length_le_recordLines {ls : List Str} (h : ∀ l ∈ ls, RecordLine l) :
    ls.length ≤ (recordLines (unlines ls)).length := by
  induction ls with
  | nil => exact Nat.zero_le _
  | cons l ls ih =>
    obtain ⟨hl, hls⟩ := List.forall_mem_cons.mp h
    have hfirst : 1 ≤ (recordLines (l ++ ['\n'])).length := by
      by_cases hu : Unbroken l
      · rw [recordLines_unbroken hl hu, List.length_singleton]
      · have htwo := recordLines_broken hl hu
        omega
    have hrest := ih hls
    rw [recordLines_unlines_cons, List.length_append, List.length_cons]
    omega

/-- As many lines are read as were appended exactly when no line has another line end in it. -/
theorem recordLines_length_iff {ls : List Str} (h : ∀ l ∈ ls, RecordLine l) :
    (recordLines (unlines ls)).length = ls.length ↔ ∀ l ∈ ls, Unbroken l := by
  constructor
  · intro hlength
    induction ls with
    | nil => simp
    | cons l ls ih =>
      obtain ⟨hl, hls⟩ := List.forall_mem_cons.mp h
      have hle := length_le_recordLines hls
      rw [recordLines_unlines_cons, List.length_append, List.length_cons] at hlength
      have hul : Unbroken l := by
        by_contra hu
        have htwo := recordLines_broken hl hu
        omega
      rw [recordLines_unbroken hl hul, List.length_singleton] at hlength
      exact List.forall_mem_cons.mpr ⟨hul, ih hls (by omega)⟩
  · intro hu
    rw [recordLines_unlines h hu]

end FailureOrchestrator
