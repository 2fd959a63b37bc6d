import FailureOrchestrator.JsonDumps

namespace FailureOrchestrator

/-- Printable ASCII only. -/
def Printable (s : Str) : Prop := ∀ c ∈ s, 32 ≤ c.toNat ∧ c.toNat ≤ 126

instance (s : Str) : Decidable (Printable s) := List.decidableBAll _ s

theorem Printable.nil : Printable [] := fun _ hc => nomatch hc

theorem Printable.append {s t : Str} (hs : Printable s) (ht : Printable t) : Printable (s ++ t) := by
  intro c hc
  rcases List.mem_append.mp hc with hc | hc
  · exact hs c hc
  · exact ht c hc

theorem Printable.cons {c : Char} {s : Str} (hc : 32 ≤ c.toNat ∧ c.toNat ≤ 126) (hs : Printable s) :
    Printable (c :: s) := by
  intro d hd
  rcases List.mem_cons.mp hd with rfl | hd
  · exact hc
  · exact hs d hd

theorem isDigit_printable {c : Char} (h : c.isDigit = true) : 32 ≤ c.toNat ∧ c.toNat ≤ 126 := by
  simp only [Char.isDigit, ge_iff_le, Bool.and_eq_true, decide_eq_true_eq] at h
  have hlow : '0'.toNat ≤ c.toNat := h.1
  have hhigh : c.toNat ≤ '9'.toNat := h.2
  have h0 : '0'.toNat = 48 := rfl
  have h9 : '9'.toNat = 57 := rfl
  omega

theorem Printable.digits {ds : Str} (h : ∀ c ∈ ds, c.isDigit = true) : Printable ds :=
  fun c hc => isDigit_printable (h c hc)

theorem unicodeEscape_printable (n : Nat) : Printable (unicodeEscape n) := by
  have hdigit : ∀ m < 16, 32 ≤ (hexChar m).toNat ∧ (hexChar m).toNat ≤ 126 := by decide
  refine Printable.cons (by decide) (Printable.cons (by decide) ?_)
  refine Printable.cons (hdigit _ (by omega)) (Printable.cons (hdigit _ (by omega)) ?_)
  exact Printable.cons (hdigit _ (by omega)) (Printable.cons (hdigit _ (by omega)) Printable.nil)

theorem escapeChar_printable (c : Char) : Printable (escapeChar c) := by
  unfold escapeChar
  repeat (split; · decide)
  split
  next h => exact Printable.cons h Printable.nil
  split
  · exact unicodeEscape_printable _
  · exact (unicodeEscape_printable _).append (unicodeEscape_printable _)

theorem writeString_printable (s : Str) : Printable (writeString s) := by
  refine Printable.cons (by decide) (Printable.append ?_ (by decide))
  intro c hc
  obtain ⟨d, -, hd⟩ := List.mem_flatMap.mp hc
  exact escapeChar_printable d c hd

theorem numberText_printable {t : NumberText} (h : t.WellFormed) : Printable t.text := by
  have hsign : Printable t.sign := by
    rcases h.sign with hs | hs
    · rw [hs]
      exact Printable.nil
    · rw [hs]
      decide
  have hint : Printable t.int := by
    rcases h.int with hi | ⟨⟨-, hdigits⟩, -⟩
    · rw [hi]
      decide
    · exact Printable.digits hdigits
  have hfrac : Printable t.frac := by
    rcases h.frac with hf | ⟨ds, ⟨-, hdigits⟩, hf⟩
    · rw [hf]
      exact Printable.nil
    · rw [hf]
      exact Printable.cons (by decide) (Printable.digits hdigits)
  have hexp : Printable t.exp := by
    rcases h.exp with he | ⟨e, sign, ds, hmark, hs, ⟨-, hdigits⟩, he⟩
    · rw [he]
      exact Printable.nil
    · rw [he]
      refine Printable.cons ?_ (Printable.append ?_ (Printable.digits hdigits))
      · rcases hmark with rfl | rfl <;> decide
      · rcases hs with rfl | rfl | rfl <;> decide
  exact ((hsign.append hint).append hfrac).append hexp

theorem joinWith_printable {sep : Str} {texts : List Str} (hsep : Printable sep) (h : ∀ t ∈ texts, Printable t) :
    Printable (joinWith sep texts) := by
  induction texts with
  | nil => exact Printable.nil
  | cons x xs ih =>
    have hx := h x List.mem_cons_self
    cases xs with
    | nil => exact hx
    | cons y ys =>
      exact (hx.append hsep).append (ih fun t ht => h t (List.mem_cons_of_mem _ ht))

/-- Separators in ASCII and everything on one line. -/
structure JsonStyle.OneLine (style : JsonStyle) : Prop where
  item : Printable style.item
  key : Printable style.key
  indent : style.indent = none

theorem plainStyle_oneLine : plainStyle.OneLine := ⟨by decide, by decide, rfl⟩

theorem JsonStyle.OneLine.newline {style : JsonStyle} (h : style.OneLine) (level : Nat) : style.newline level = [] := by
  unfold JsonStyle.newline
  rw [h.indent]
  rfl

theorem bracket_printable {style : JsonStyle} (h : style.OneLine) {level : Nat} {left right : Char} {texts : List Str}
    (hleft : 32 ≤ left.toNat ∧ left.toNat ≤ 126) (hright : 32 ≤ right.toNat ∧ right.toNat ≤ 126)
    (htexts : ∀ t ∈ texts, Printable t) : Printable (style.bracket level left right texts) := by
  have hclose : Printable [right] := Printable.cons hright Printable.nil
  unfold JsonStyle.bracket
  split
  · exact Printable.cons hleft hclose
  · rw [h.newline, h.newline, List.append_nil, List.append_nil, List.nil_append]
    exact Printable.cons hleft ((joinWith_printable h.item htexts).append hclose)

variable {F : Type} [PyFloat F] {style : JsonStyle}

mutual

theorem write_printable (h : style.OneLine) : ∀ (v : JsonValue F) (level : Nat), Printable (v.write style level) := by
  intro v level
  match v with
  | .null => exact (by decide : Printable "null".toList)
  | .bool true => exact (by decide : Printable "true".toList)
  | .bool false => exact (by decide : Printable "false".toList)
  | .int n =>
    rw [JsonValue.write, ← intText_text]
    exact numberText_printable (intText_wellFormed n)
  | .float x =>
    rw [JsonValue.write]
    rcases PyFloat.repr_text x with hname | ⟨t, ht, -, hrepr⟩
    · have hall : ∀ name ∈ floatNames, Printable name := by decide
      exact hall _ hname
    · rw [hrepr]
      exact numberText_printable ht
  | .str s =>
    rw [JsonValue.write]
    exact writeString_printable s
  | .arr items =>
    rw [JsonValue.write]
    exact bracket_printable h (by decide) (by decide) (writeItems_printable h items (level + 1))
  | .obj entries =>
    rw [JsonValue.write]
    exact bracket_printable h (by decide) (by decide) (writeEntries_printable h entries (level + 1))

theorem writeItems_printable (h : style.OneLine) : ∀ (items : List (JsonValue F)) (level : Nat),
    ∀ t ∈ JsonValue.writeItems style level items, Printable t := by
  intro items level t ht
  match items with
  | [] => cases ht
  | x :: xs =>
    rw [JsonValue.writeItems] at ht
    rcases List.mem_cons.mp ht with rfl | ht
    · exact write_printable h x level
    · exact writeItems_printable h xs level t ht

theorem writeEntries_printable (h : style.OneLine) : ∀ (entries : List (Str × JsonValue F)) (level : Nat),
    ∀ t ∈ JsonValue.writeEntries style level entries, Printable t := by
  intro entries level t ht
  match entries with
  | [] => cases ht
  | (k, x) :: xs =>
    rw [JsonValue.writeEntries] at ht
    rcases List.mem_cons.mp ht with rfl | ht
    · exact ((writeString_printable k).append h.key).append (write_printable h x level)
    · exact writeEntries_printable h xs level t ht

end

end FailureOrchestrator
