import FailureOrchestrator.JsonRoundTrip

namespace FailureOrchestrator

section Dicts

variable {F : Type}

theorem insertEntry_append {key : Str} {value : JsonValue F} {d : List (Str × JsonValue F)}
    (h : ∀ e ∈ d, e.1 < key) : insertEntry key value d = d ++ [(key, value)] := by
  induction d with
  | nil => rfl
  | cons e d ih =>
    have he := h e List.mem_cons_self
    have hrest := ih fun f hf => h f (List.mem_cons_of_mem _ hf)
    show (if key < e.1 then (key, value) :: e :: d else if e.1 < key then e :: insertEntry key value d
      else (key, value) :: d) = _
    rw [if_neg (List.lt_asymm he), if_pos he, hrest, List.cons_append]

/-- Entries in the order of their keys are a dict as they stand. -/
theorem dictOf_ordered {entries : List (Str × JsonValue F)} (h : (entries.map Prod.fst).Pairwise (· < ·)) :
    dictOf entries = entries := by
  have grow : ∀ rest done : List (Str × JsonValue F), ((done ++ rest).map Prod.fst).Pairwise (· < ·) →
      rest.foldl (fun d e => insertEntry e.1 e.2 d) done = done ++ rest := by
    intro rest
    induction rest with
    | nil => exact fun done _ => (List.append_nil done).symm
    | cons e rest ih =>
      intro done hdone
      have hlt : ∀ f ∈ done, f.1 < e.1 := by
        intro f hf
        rw [List.map_append, List.pairwise_append] at hdone
        exact hdone.2.2 f.1 (List.mem_map_of_mem hf) e.1 List.mem_cons_self
      rw [List.foldl_cons, insertEntry_append hlt, ih, List.append_assoc, List.singleton_append]
      rw [List.append_assoc, List.singleton_append]
      exact hdone
  exact grow entries [] h

end Dicts

section Numbers

open NumberText

theorem natStr_head {n : Nat} (hn : n ≠ 0) : (natStr n).head? ≠ some '0' := by
  induction n using Nat.strong_induction_on with
  | h n ih =>
    unfold natStr
    by_cases hsmall : n < 10
    · rw [Nat.toDigits_of_lt_base hsmall]
      intro hzero
      have hchar : Nat.digitChar n = '0' := Option.some.inj hzero
      revert hchar
      have hall : ∀ m < 10, m ≠ 0 → Nat.digitChar m ≠ '0' := by decide
      exact hall n hsmall hn
    · rw [Nat.toDigits_of_base_le (by omega) (by omega), List.head?_append_of_ne_nil _ Nat.toDigits_ne_nil]
      exact ih (n / 10) (by omega) (by omega)

theorem natStr_digits (n : Nat) : Digits (natStr n) :=
  ⟨Nat.toDigits_ne_nil, fun _ hc => Nat.isDigit_of_mem_toDigits (by omega) (by omega) hc⟩

def intText (n : Int) : NumberText := ⟨if n < 0 then ['-'] else [], natStr n.natAbs, [], []⟩

theorem intText_wellFormed (n : Int) : (intText n).WellFormed := by
  constructor
  · show (if n < 0 then ['-'] else []) = [] ∨ _
    split
    · exact .inr (if_pos (by assumption))
    · exact .inl rfl
  · by_cases hzero : n.natAbs = 0
    · left
      show natStr n.natAbs = ['0']
      rw [hzero]
      rfl
    · exact .inr ⟨natStr_digits _, natStr_head hzero⟩
  · exact .inl rfl
  · exact .inl rfl

theorem intText_text (n : Int) : (intText n).text = writeInt n := by
  unfold text intText writeInt
  split <;> simp

variable {F : Type} [PyFloat F] {t : NumberText} {rest : Str}

theorem readNumber_int (n : Int) (hlength : (natStr n.natAbs).length ≤ maxStrDigits) (h : NumberEnd rest) :
    readNumber (F := F) (writeInt n ++ rest) = some (.int n, rest) := by
  have hvalue : Nat.ofDigitChars 10 (natStr n.natAbs) 0 = n.natAbs := Nat.ofDigitChars_ten_toDigits
  have hne : (natStr n.natAbs).isEmpty = false := List.isEmpty_eq_false_iff.mpr (natStr_digits _).1
  unfold readNumber
  rw [← intText_text, scanNumber_text (intText_wellFormed n) h]
  by_cases hneg : n < 0
  · have hsign : -(n.natAbs : Int) = n := by omega
    simp only [intText, isFloat, hneg, hne, hlength, hvalue, hsign, ↓reduceIte, Bool.false_eq_true, List.isEmpty_nil,
      List.isEmpty_cons, Bool.and_self, Bool.not_true]
  · have hsign : (n.natAbs : Int) = n := by omega
    simp only [intText, isFloat, hneg, hne, hlength, hvalue, hsign, ↓reduceIte, Bool.false_eq_true, List.isEmpty_nil,
      Bool.and_self, Bool.not_true]

theorem readNumber_float (ht : t.WellFormed) (hfloat : t.isFloat = true) (h : NumberEnd rest) :
    readNumber (F := F) (t.text ++ rest) = some (.float (PyFloat.parse t.text), rest) := by
  have hne : t.int.isEmpty = false := by
    rw [List.isEmpty_eq_false_iff]
    rcases ht.int with hzero | ⟨⟨hne, -⟩, -⟩
    · rw [hzero]
      exact List.cons_ne_nil _ _
    · exact hne
  unfold readNumber
  rw [scanNumber_text ht h]
  simp [hne, hfloat]

/-- A number text starts with a digit, possibly behind a minus sign. -/
theorem text_cons (ht : t.WellFormed) (rest : Str) : ∃ c s, t.text ++ rest = c :: s ∧
    (c.isDigit = true ∨ c = '-' ∧ ∃ d s', s = d :: s' ∧ d.isDigit = true) := by
  obtain ⟨d, ds, hint, hd⟩ : ∃ d ds, t.int = d :: ds ∧ d.isDigit = true := by
    rcases ht.int with hzero | ⟨⟨hne, hdigits⟩, -⟩
    · exact ⟨'0', [], hzero, rfl⟩
    · obtain ⟨d, ds, hint⟩ := List.exists_cons_of_ne_nil hne
      exact ⟨d, ds, hint, hdigits d (by rw [hint]; exact List.mem_cons_self)⟩
  unfold text
  rcases ht.sign with hsign | hsign
  · rw [hsign, hint]
    exact ⟨d, _, rfl, .inl hd⟩
  · rw [hsign, hint]
    exact ⟨'-', _, rfl, .inr ⟨rfl, d, _, rfl, hd⟩⟩

theorem readName_none {c : Char} {s : Str}
    (h : c.isDigit = true ∨ c = '-' ∧ ∃ d s', s = d :: s' ∧ d.isDigit = true) : readName (F := F) (c :: s) = none := by
  rcases h with hc | ⟨rfl, d, s', rfl, hd⟩
  · have hne : ∀ e : Char, e.isDigit = false → (e == c) = false := by
      intro e he
      rw [beq_eq_false_iff_ne]
      rintro rfl
      rw [hc] at he
      cases he
    simp [readName, floatNames, startsWith_cons, hne]
  · have hne : ('I' == d) = false := by
      rw [beq_eq_false_iff_ne]
      rintro rfl
      cases hd
    simp [readName, floatNames, startsWith_cons, hne]

end Numbers

section Values

variable {F : Type} [PyFloat F] {rest : Str} {style : JsonStyle}

theorem read_atom {n : Nat} {c : Char} {s : Str} (hquote : c ≠ '"') (hlist : c ≠ '[') (hdict : c ≠ '\x7b') :
    JsonValue.read (F := F) (n + 1) (c :: s) = (readName (c :: s)).or (readNumber (c :: s)) := by
  rw [JsonValue.read, if_neg hquote, if_neg hlist, if_neg hdict]

theorem ne_of_isDigit {c d : Char} (hc : c.isDigit = true) (hd : d.isDigit = false) : c ≠ d := by
  rintro rfl
  rw [hc] at hd
  cases hd

theorem read_number {n : Nat} {t : NumberText} {v : JsonValue F} (ht : t.WellFormed)
    (hread : readNumber (t.text ++ rest) = some (v, rest)) :
    JsonValue.read (n + 1) (t.text ++ rest) = some (v, rest) := by
  obtain ⟨c, s, hs, hc⟩ := text_cons ht rest
  have hother : ∀ d : Char, d.isDigit = false → d ≠ '-' → c ≠ d := by
    intro d hd hminus
    rcases hc with hdigit | ⟨rfl, -⟩
    · exact ne_of_isDigit hdigit hd
    · exact hminus.symm
  rw [hs] at hread ⊢
  rw [read_atom (hother _ rfl (by decide)) (hother _ rfl (by decide)) (hother _ rfl (by decide)), readName_none hc,
    Option.none_or]
  exact hread

theorem read_int {n : Nat} (m : Int) (hm : (natStr m.natAbs).length ≤ maxStrDigits) (h : Follows rest) :
    JsonValue.read (F := F) (n + 1) (writeInt m ++ rest) = some (.int m, rest) := by
  have hread := readNumber_int (F := F) m hm h.numberEnd
  rw [← intText_text] at hread ⊢
  exact read_number (intText_wellFormed m) hread

theorem read_float {n : Nat} (x : F) (h : Follows rest) :
    JsonValue.read (n + 1) (PyFloat.repr x ++ rest) = some (.float x, rest) := by
  have hparse := PyFloat.parse_repr x
  rcases PyFloat.repr_text x with hname | ⟨t, ht, hfloat, hrepr⟩
  · simp only [floatNames, List.mem_cons, List.not_mem_nil, or_false] at hname
    rcases hname with hrepr | hrepr | hrepr
    all_goals
      rw [hrepr] at hparse ⊢
      exact congrArg (fun y => some (JsonValue.float y, rest)) hparse
  · rw [hrepr] at hparse ⊢
    have hread := readNumber_float (F := F) ht hfloat h.numberEnd
    rw [hparse] at hread
    exact read_number ht hread

/-- A written value starts with a character that no reader skips or takes for a closing bracket. -/
theorem write_cons (q : StringWriter) (style : JsonStyle) (v : JsonValue F) (level : Nat) :
    ∃ c s, q.write style level v = c :: s ∧
    isJsonSpace c = false ∧ c ≠ ']' ∧ c ≠ '\x7d' := by
  have hdigit : ∀ {c : Char}, (c.isDigit = true ∨ c = '-') → isJsonSpace c = false ∧ c ≠ ']' ∧ c ≠ '\x7d' := by
    rintro c (hc | rfl)
    · refine ⟨?_, ne_of_isDigit hc rfl, ne_of_isDigit hc rfl⟩
      simp [isJsonSpace, ne_of_isDigit hc (d := ' ') rfl, ne_of_isDigit hc (d := '\t') rfl,
        ne_of_isDigit hc (d := '\n') rfl, ne_of_isDigit hc (d := '\r') rfl]
    · decide
  have htext : ∀ {t : NumberText}, t.WellFormed → ∃ c s, t.text = c :: s ∧ isJsonSpace c = false ∧ c ≠ ']' ∧
      c ≠ '\x7d' := by
    intro t ht
    obtain ⟨c, s, hs, hc⟩ := text_cons ht []
    rw [List.append_nil] at hs
    exact ⟨c, s, hs, hdigit (hc.imp_right And.left)⟩
  cases v with
  | null => exact ⟨_, _, rfl, by decide⟩
  | bool b =>
    cases b with
    | false => exact ⟨_, _, rfl, by decide⟩
    | true => exact ⟨_, _, rfl, by decide⟩
  | int m =>
    rw [StringWriter.write, ← intText_text]
    exact htext (intText_wellFormed m)
  | float x =>
    rw [StringWriter.write]
    rcases PyFloat.repr_text x with hname | ⟨t, ht, -, hrepr⟩
    · simp only [floatNames, List.mem_cons, List.not_mem_nil, or_false] at hname
      rcases hname with hrepr | hrepr | hrepr
      all_goals
        rw [hrepr]
        exact ⟨_, _, rfl, by decide⟩
    · rw [hrepr]
      exact htext ht
  | str s => exact ⟨_, _, rfl, by decide⟩
  | arr items =>
    rw [StringWriter.write, JsonStyle.bracket]
    split
    · exact ⟨_, _, rfl, by decide⟩
    · exact ⟨_, _, rfl, by decide⟩
  | obj entries =>
    rw [StringWriter.write, JsonStyle.bracket]
    split
    · exact ⟨_, _, rfl, by decide⟩
    · exact ⟨_, _, rfl, by decide⟩

/-- Between an item and the closing bracket. -/
theorem follows_close (style : JsonStyle) (level : Nat) {c : Char} (hc : c = ']' ∨ c = '\x7d') (rest : Str) :
    Follows (style.newline level ++ c :: rest) :=
  follows_append (blank_newline style level) (follows_cons (.inr (.inr hc)))

theorem skipSpace_write (q : StringWriter) (v : JsonValue F) (level : Nat) {w : Str} (hw : Blank w) (rest : Str) :
    skipSpace (w ++ (q.write style level v ++ rest)) = q.write style level v ++ rest := by
  obtain ⟨c, s, hs, hspace, -⟩ := write_cons q style v level
  rw [skipSpace_blank hw, hs, List.cons_append, skipSpace_cons hspace]

end Values

end FailureOrchestrator
