import FailureOrchestrator.SectionRead

namespace FailureOrchestrator

/-- A name that git writes without quotes. -/
def Plain (name : Str) : Prop := ∀ c ∈ name, needsQuote c = false

theorem plain_iff {name : Str} : Plain name ↔ name.any needsQuote = false := by simp [Plain]

instance (name : Str) : Decidable (Plain name) := decidable_of_iff _ plain_iff.symm

theorem not_plain_iff {name : Str} : ¬ Plain name ↔ name.any needsQuote = true := by
  rw [plain_iff]; simp

theorem quoteName_plain {name : Str} (h : Plain name) (side : Str) : quoteName side name = side ++ name := by
  simp [quoteName, plain_iff.mp h]

theorem quoteName_quoted {name : Str} (h : ¬ Plain name) (side : Str) :
    quoteName side name = '"' :: (side ++ name.flatMap quoteChar ++ ['"']) := by
  simp [quoteName, not_plain_iff.mp h]

/-- Among the characters that need no quotes the blank is the only white space. -/
theorem isSpace_of_not_needsQuote {c : Char} (h : needsQuote c = false) : isSpace c = (c == ' ') := by
  simp only [needsQuote, Bool.or_eq_false_iff, decide_eq_false_iff_not] at h
  have hv : c = ' ' ↔ c.toNat = 32 := by
    constructor
    · rintro rfl; rfl
    · intro hn; exact Char.ext (UInt32.toNat_inj.mp hn)
  rw [Bool.eq_iff_iff]
  simp only [isSpace, Bool.or_eq_true, Bool.and_eq_true, decide_eq_true_eq, beq_iff_eq, hv]
  omega

theorem tab_not_mem_of_plain {name : Str} (h : Plain name) : '\t' ∉ name := by
  intro hm
  exact absurd (h '\t' hm) (by decide)

/-- An octal escape is made of a backslash and digits. -/
theorem octalByte_mem {b : Nat} (hb : b < 256) {d : Char} (hd : d ∈ octalByte b) : d ≠ '\t' ∧ d ≠ ' ' := by
  have digit : ∀ n < 8, n.digitChar ≠ '\t' ∧ n.digitChar ≠ ' ' := by decide
  simp only [octalByte, List.mem_cons, List.not_mem_nil, or_false] at hd
  rcases hd with rfl | rfl | rfl | rfl
  · decide
  · exact digit _ (by omega)
  · exact digit _ (by omega)
  · exact digit _ (by omega)

/-- The characters of a quoted name are printable, and only a blank is written as a blank. -/
theorem quoteChar_mem {c d : Char} (hd : d ∈ quoteChar c) : d ≠ '\t' ∧ (d = ' ' → c = ' ') := by
  have escape : ∀ x : Char, x ≠ '\t' → x ≠ ' ' → d ∈ ['\\', x] → d ≠ '\t' ∧ (d = ' ' → c = ' ') := by
    intro x ht hs hx
    rcases List.mem_pair.mp hx with rfl | rfl
    · exact ⟨by decide, by simp⟩
    · exact ⟨ht, fun h => absurd h hs⟩
  unfold quoteChar at hd
  repeat' split at hd
  iterate 9 exact escape _ (by decide) (by decide) hd
  next =>
    obtain ⟨b, _, hb⟩ := List.mem_flatMap.mp hd
    have hd' := octalByte_mem b.toNat_lt hb
    exact ⟨hd'.1, fun h => absurd h hd'.2⟩
  next htab _ _ _ _ _ =>
    rw [List.mem_singleton.mp hd]
    exact ⟨htab, id⟩

theorem quoteChar_ne_nil (c : Char) : quoteChar c ≠ [] := by
  unfold quoteChar
  repeat' split
  iterate 9 exact List.cons_ne_nil _ _
  next =>
    have hlen : 0 < (String.utf8EncodeChar c).length := by
      have := String.length_utf8EncodeChar c
      have := c.utf8Size_pos
      omega
    obtain ⟨b, bs, hb⟩ := List.exists_cons_of_length_pos hlen
    simp [hb, octalByte]
  next => exact List.cons_ne_nil _ _

theorem length_le_flatMap_quoteChar (name : Str) : name.length ≤ (name.flatMap quoteChar).length := by
  induction name with
  | nil => simp
  | cons c name ih =>
    have := List.length_pos_iff.mpr (quoteChar_ne_nil c)
    simp only [List.length_cons, List.flatMap_cons, List.length_append]
    omega

theorem length_lt_quoteName {name : Str} (h : ¬ Plain name) (side : Str) :
    name.length < (quoteName side name).length := by
  have := length_le_flatMap_quoteChar name
  rw [quoteName_quoted h]
  simp only [List.length_cons, List.length_append, List.length_nil]
  omega

theorem tab_not_mem_quoted (name : Str) : '\t' ∉ name.flatMap quoteChar := by
  intro hm
  obtain ⟨c, _, hc⟩ := List.mem_flatMap.mp hm
  exact (quoteChar_mem hc).1 rfl

theorem space_not_mem_quoted {name : Str} (h : ' ' ∉ name) : ' ' ∉ name.flatMap quoteChar := by
  intro hm
  obtain ⟨c, hc, hd⟩ := List.mem_flatMap.mp hm
  exact h ((quoteChar_mem hd).2 rfl ▸ hc)

/-! Stripping. -/

theorem lstrip_cons {c : Char} (h : isSpace c = false) (s : Str) : lstrip (c :: s) = c :: s := by
  simp [lstrip, h]

theorem rstrip_concat {c : Char} (h : isSpace c = false) (s : Str) : rstrip (s ++ [c]) = s ++ [c] :=
  List.rdropWhile_concat_neg _ _ _ (by simp [h])

theorem rstrip_concat_space {c : Char} (h : isSpace c = true) (s : Str) : rstrip (s ++ [c]) = rstrip s :=
  List.rdropWhile_concat_pos _ _ _ h

theorem rstrip_append {s : Str} {a : Char} (ha : isSpace a = false) (t : Str) :
    rstrip (s ++ a :: t) = s ++ a :: rstrip t := by
  induction t using List.reverseRecOn with
  | nil => simpa [rstrip] using rstrip_concat ha s
  | append_singleton t c ih =>
    cases hc : isSpace c with
    | true =>
      have shape : s ++ a :: (t ++ [c]) = (s ++ a :: t) ++ [c] := by simp
      rw [shape, rstrip_concat_space hc, rstrip_concat_space hc, ih]
    | false =>
      have shape : s ++ a :: (t ++ [c]) = (s ++ a :: t) ++ [c] := by simp
      rw [shape, rstrip_concat hc, rstrip_concat hc, shape]

/-- A text that neither begins nor ends with white space. -/
theorem strip_solid {c d : Char} {t u : Str} (hc : isSpace c = false) (hd : isSpace d = false)
    (h : c :: t = u ++ [d]) : strip (c :: t) = c :: t := by
  unfold strip
  rw [lstrip_cons hc, h, rstrip_concat hd]

theorem mem_of_mem_strip {s : Str} {c : Char} (h : c ∈ strip s) : c ∈ s :=
  (List.dropWhile_suffix _).subset ((List.rdropWhile_prefix _ _).subset h)

theorem mem_of_mem_stripPrefix {s : Str} {c : Char} (h : c ∈ stripPrefix s) : c ∈ s := by
  unfold stripPrefix at h
  have cut : ∀ {c : Char}, c ∈ beforeFirst '\t' (strip s) → c ∈ s :=
    fun hc => mem_of_mem_strip ((List.takeWhile_prefix _).subset hc)
  dsimp only at h
  split at h
  · exact cut (List.mem_of_mem_drop h)
  · exact cut h

theorem beforeFirst_of_not_mem {c : Char} {s : Str} (h : c ∉ s) : beforeFirst c s = s := by
  refine List.takeWhile_eq_self_iff.mpr fun d hd => ?_
  simp only [bne_iff_ne, ne_eq]
  rintro rfl
  exact h hd

/-- A text that begins with a visible character loses its tab and its trailing blanks. -/
theorem strip_withTab {c : Char} (h : isSpace c = false) (s : Str) :
    strip (FileChange.withTab (c :: s)) = c :: rstrip s := by
  have base : rstrip (c :: s) = c :: rstrip s := rstrip_append (s := []) h s
  unfold FileChange.withTab strip
  split
  · have tab : rstrip (c :: s ++ ['\t']) = rstrip (c :: s) := rstrip_concat_space (by decide) _
    rw [List.cons_append, lstrip_cons h, ← List.cons_append, tab, base]
  · rw [lstrip_cons h, base]

/-- Git's side prefix, `a/` or `b/`. -/
def IsSide (side : Str) : Prop := side = "a/".toList ∨ side = "b/".toList

theorem labelPath_plain {name side : Str} (hs : IsSide side) (h : Plain name) :
    FileChange.labelPath (quoteName side name) = rstrip name := by
  have htab : '\t' ∉ rstrip name := fun hm =>
    tab_not_mem_of_plain h ((List.rdropWhile_prefix _ _).subset hm)
  rw [quoteName_plain h]
  have body : ∀ x : Char, isSpace x = false → x ≠ '\t' →
      beforeFirst '\t' (strip (FileChange.withTab (x :: '/' :: name))) = x :: '/' :: rstrip name := by
    intro x hx hxt
    have slash : rstrip ('/' :: name) = '/' :: rstrip name := rstrip_append (s := []) (by decide) name
    rw [strip_withTab hx, slash]
    exact beforeFirst_of_not_mem (by simp [htab, Ne.symm hxt])
  rcases hs with rfl | rfl
  · have := body 'a' (by decide) (by decide)
    unfold FileChange.labelPath stripPrefix
    change (let path := beforeFirst '\t' (strip (FileChange.withTab ('a' :: '/' :: name)));
      if startsWithAny path ["a/", "b/"] then path.drop 2 else path) = _
    rw [this]
    rfl
  · have := body 'b' (by decide) (by decide)
    unfold FileChange.labelPath stripPrefix
    change (let path := beforeFirst '\t' (strip (FileChange.withTab ('b' :: '/' :: name)));
      if startsWithAny path ["a/", "b/"] then path.drop 2 else path) = _
    rw [this]
    rfl

/-- Quoted text passes through every reader's clean-up unchanged, quotes included. -/
theorem strip_quoted (t : Str) : strip ('"' :: (t ++ ['"'])) = '"' :: (t ++ ['"']) := by
  have hr : rstrip (('"' :: t) ++ ['"']) = ('"' :: t) ++ ['"'] := rstrip_concat (by decide) _
  rw [strip, lstrip_cons (by decide)]
  simpa using hr

theorem stripPrefix_quoted {t : Str} (ht : '\t' ∉ t) : stripPrefix ('"' :: (t ++ ['"'])) = '"' :: (t ++ ['"']) := by
  unfold stripPrefix
  rw [strip_quoted, beforeFirst_of_not_mem (by simp [ht])]
  rfl

theorem strip_tab_quoted (t : Str) :
    strip (FileChange.withTab ('"' :: (t ++ ['"']))) = '"' :: (t ++ ['"']) := by
  rw [strip_withTab (by decide), rstrip_concat (by decide)]

theorem labelPath_quoted {name side : Str} (hs : IsSide side) (h : ¬ Plain name) :
    FileChange.labelPath (quoteName side name) = quoteName side name := by
  have ht : '\t' ∉ side ++ name.flatMap quoteChar := by
    have := tab_not_mem_quoted name
    rcases hs with rfl | rfl <;> simpa using this
  rw [quoteName_quoted h]
  unfold FileChange.labelPath stripPrefix
  rw [strip_tab_quoted, beforeFirst_of_not_mem (by simpa using ht)]
  rfl

end FailureOrchestrator
