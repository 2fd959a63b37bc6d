import FailureOrchestrator.JsonAscii
import FailureOrchestrator.JsonRoundTrip

namespace FailureOrchestrator

/-! The characters of a text whose strings are not put in ASCII. -/

mutual

/-- The strings and the keys of a value. -/
def JsonValue.texts {F : Type} : JsonValue F → List Str
  | .str s => [s]
  | .arr items => JsonValue.textsItems items
  | .obj entries => JsonValue.textsEntries entries
  | _ => []

def JsonValue.textsItems {F : Type} : List (JsonValue F) → List Str
  | [] => []
  | x :: xs => x.texts ++ JsonValue.textsItems xs

def JsonValue.textsEntries {F : Type} : List (Str × JsonValue F) → List Str
  | [] => []
  | (k, x) :: xs => k :: (x.texts ++ JsonValue.textsEntries xs)

end

variable {F : Type} [PyFloat F] {style : JsonStyle} {c : Char}

omit [PyFloat F] in
theorem mem_joinWith {sep : Str} {texts : List Str} (hsep : c ∉ sep) : c ∈ joinWith sep texts ↔ ∃ t ∈ texts, c ∈ t := by
  induction texts with
  | nil => simp [joinWith]
  | cons t texts ih =>
    cases texts with
    | nil => simp [joinWith]
    | cons u texts =>
      rw [joinWith, List.mem_append, List.mem_append, or_iff_left hsep, ih]
      exact (List.exists_mem_cons_iff (c ∈ ·) t _).symm

theorem Printable.not_mem {s : Str} (h : Printable s) (hc : ¬ (32 ≤ c.toNat ∧ c.toNat ≤ 126)) : c ∉ s :=
  fun hmem => hc (h c hmem)

theorem mem_bracket (h : style.OneLine) (hc : ¬ (32 ≤ c.toNat ∧ c.toNat ≤ 126)) {level : Nat} {left right : Char}
    {texts : List Str} (hleft : 32 ≤ left.toNat ∧ left.toNat ≤ 126) (hright : 32 ≤ right.toNat ∧ right.toNat ≤ 126) :
    c ∈ style.bracket level left right texts ↔ ∃ t ∈ texts, c ∈ t := by
  have hl : c ≠ left := by
    rintro rfl
    exact hc hleft
  have hr : c ≠ right := by
    rintro rfl
    exact hc hright
  unfold JsonStyle.bracket
  cases texts with
  | nil => simp [hl, hr]
  | cons t texts =>
    rw [h.newline, h.newline, List.append_nil]
    simp only [List.isEmpty_cons, Bool.false_eq_true, if_false, List.nil_append, List.append_nil, List.mem_cons,
      List.mem_append, hl, hr, false_or, or_false, List.not_mem_nil, mem_joinWith (h.item.not_mem hc)]

theorem mem_rawChar (hc : ¬ (32 ≤ c.toNat ∧ c.toNat ≤ 126)) (d : Char) : c ∈ rawChar d ↔ c = d ∧ 126 < c.toNat := by
  unfold rawChar
  split
  next h =>
    refine iff_of_false ((escapeChar_printable d).not_mem hc) ?_
    rintro ⟨rfl, hwide⟩
    rcases h with rfl | rfl | h
    · exact hc (by decide)
    · exact hc (by decide)
    · omega
  next h =>
    rw [List.mem_singleton]
    refine ⟨?_, And.left⟩
    rintro rfl
    refine ⟨rfl, ?_⟩
    simp only [not_or] at h
    omega

theorem mem_rawQuote (hc : ¬ (32 ≤ c.toNat ∧ c.toNat ≤ 126)) (s : Str) :
    c ∈ rawWriter.quote s ↔ c ∈ s ∧ 126 < c.toNat := by
  have hquote : c ≠ '"' := by
    rintro rfl
    exact hc (by decide)
  show c ∈ '"' :: (s.flatMap rawChar ++ ['"']) ↔ _
  simp only [List.mem_cons, List.mem_append, List.mem_flatMap, mem_rawChar hc, hquote, false_or, List.not_mem_nil, or_false]
  constructor
  · rintro ⟨d, hd, rfl, hwide⟩
    exact ⟨hd, hwide⟩
  · rintro ⟨hmem, hwide⟩
    exact ⟨c, hmem, rfl, hwide⟩

mutual

/-- A character outside printable ASCII stands in the text exactly when it stands in a string or a key. -/
theorem mem_rawWrite (h : style.OneLine) (hc : ¬ (32 ≤ c.toNat ∧ c.toNat ≤ 126)) : ∀ (v : JsonValue F) (level : Nat),
    c ∈ rawWriter.write style level v ↔ ∃ s ∈ v.texts, c ∈ s ∧ 126 < c.toNat := by
  intro v level
  have hplain {t : Str} (ht : Printable t) : c ∈ t ↔ ∃ s ∈ ([] : List Str), c ∈ s ∧ 126 < c.toNat :=
    iff_of_false (ht.not_mem hc) (by simp)
  match v with
  | .null => exact hplain (write_printable h (.null : JsonValue F) level)
  | .bool b => exact hplain (write_printable h (.bool b : JsonValue F) level)
  | .int n => exact hplain (write_printable h (.int n : JsonValue F) level)
  | .float x => exact hplain (write_printable h (.float x : JsonValue F) level)
  | .str s =>
    rw [StringWriter.write, mem_rawQuote hc, JsonValue.texts]
    simp
  | .arr items =>
    rw [StringWriter.write, mem_bracket h hc (by decide) (by decide), JsonValue.texts]
    exact mem_rawItems h hc items (level + 1)
  | .obj entries =>
    rw [StringWriter.write, mem_bracket h hc (by decide) (by decide), JsonValue.texts]
    exact mem_rawEntries h hc entries (level + 1)

theorem mem_rawItems (h : style.OneLine) (hc : ¬ (32 ≤ c.toNat ∧ c.toNat ≤ 126)) : ∀ (items : List (JsonValue F))
    (level : Nat), (∃ t ∈ rawWriter.writeItems style level items, c ∈ t) ↔
      ∃ s ∈ JsonValue.textsItems items, c ∈ s ∧ 126 < c.toNat
  | [], _ => by simp [StringWriter.writeItems, JsonValue.textsItems]
  | x :: xs, level => by
    rw [StringWriter.writeItems, JsonValue.textsItems, List.exists_mem_cons_iff, mem_rawWrite h hc x,
      mem_rawItems h hc xs]
    simp only [List.mem_append, or_and_right, exists_or]

theorem mem_rawEntries (h : style.OneLine) (hc : ¬ (32 ≤ c.toNat ∧ c.toNat ≤ 126)) :
    ∀ (entries : List (Str × JsonValue F)) (level : Nat),
    (∃ t ∈ rawWriter.writeEntries style level entries, c ∈ t) ↔
      ∃ s ∈ JsonValue.textsEntries entries, c ∈ s ∧ 126 < c.toNat
  | [], _ => by simp [StringWriter.writeEntries, JsonValue.textsEntries]
  | (k, x) :: xs, level => by
    rw [StringWriter.writeEntries, JsonValue.textsEntries, List.exists_mem_cons_iff, List.mem_append, List.mem_append,
      mem_rawQuote hc, or_iff_left (h.key.not_mem hc), mem_rawWrite h hc x, mem_rawEntries h hc xs]
    simp only [List.mem_cons, List.mem_append, or_and_right, exists_or, exists_eq_left, or_assoc]

end

end FailureOrchestrator
