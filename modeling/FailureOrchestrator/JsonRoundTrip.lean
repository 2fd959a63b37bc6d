import FailureOrchestrator.JsonReader
import Mathlib.Data.List.Lex
import Mathlib.Tactic.Common

namespace FailureOrchestrator

theorem hexValue_hexChar : ∀ n < 16, hexValue (hexChar n) = some n := by decide

theorem readHex4_unicodeEscape {n : Nat} (h : n < 65536) (rest : Str) :
    readHex4 ((unicodeEscape n).drop 2 ++ rest) = some (n, rest) := by
  show readHex4 (hexChar (n / 4096 % 16) :: hexChar (n / 256 % 16) :: hexChar (n / 16 % 16) :: hexChar (n % 16) ::
    rest) = _
  have h1 := hexValue_hexChar (n / 4096 % 16) (by omega)
  have h2 := hexValue_hexChar (n / 256 % 16) (by omega)
  have h3 := hexValue_hexChar (n / 16 % 16) (by omega)
  have h4 := hexValue_hexChar (n % 16) (by omega)
  have hn : 4096 * (n / 4096 % 16) + 256 * (n / 256 % 16) + 16 * (n / 16 % 16) + n % 16 = n := by omega
  simp only [readHex4, h1, h2, h3, h4, Option.bind_eq_bind, Option.bind_some, Option.pure_def, hn]

theorem readChar_unicodeEscape {n : Nat} (h : n < 65536) (rest : Str) :
    readChar (unicodeEscape n ++ rest) = readUnit n rest := by
  have hhex := readHex4_unicodeEscape h rest
  show (readHex4 ((unicodeEscape n).drop 2 ++ rest)).bind (fun u => readUnit u.1 u.2) = _
  rw [hhex]
  rfl

theorem toNat_scalar (c : Char) : c.toNat < 0xd800 ∨ 0xdfff < c.toNat ∧ c.toNat < 0x110000 := by
  have h := c.valid
  simp only [UInt32.isValidChar, Nat.isValidChar] at h
  exact h

/-- A surrogate pair is read as one character. -/
theorem readUnit_pair {high low : Nat} (hhigh : 0xd800 ≤ high ∧ high < 0xdc00) (hlow : 0xdc00 ≤ low ∧ low < 0xe000)
    (rest : Str) : readUnit high (unicodeEscape low ++ rest) =
      some (Char.ofNat (0x10000 + (high - 0xd800) * 1024 + (low - 0xdc00)), rest) := by
  have hread := readHex4_unicodeEscape (n := low) (by omega) rest
  have htext : unicodeEscape low ++ rest = '\\' :: 'u' :: ((unicodeEscape low).drop 2 ++ rest) := rfl
  rw [htext]
  simp only [readUnit, if_pos hhigh, hread, Option.bind_eq_bind, Option.bind_some, if_pos hlow, Option.pure_def]

theorem readChar_escapeChar (c : Char) (rest : Str) : readChar (escapeChar c ++ rest) = some (c, rest) := by
  unfold escapeChar
  split
  next h => rw [h]; rfl
  split
  next h => rw [h]; rfl
  split
  next h => rw [h]; rfl
  split
  next h => rw [h]; rfl
  split
  next h => rw [h]; rfl
  split
  next h => rw [h]; rfl
  split
  next h => rw [h]; rfl
  split
  next hquote hslash _ _ _ _ _ hascii =>
    have hlow : ¬ c.toNat < 32 := by omega
    simp [readChar, hslash, hlow]
  split
  next hbmp =>
    have hvalid := toNat_scalar c
    rw [readChar_unicodeEscape hbmp]
    unfold readUnit
    rw [if_neg (by omega), if_neg (by omega), Char.ofNat_toNat]
  next hbmp =>
    have hvalid := toNat_scalar c
    have hc : 0x10000 + (0xd800 + (c.toNat - 0x10000) / 1024 - 0xd800) * 1024 +
        (0xdc00 + (c.toNat - 0x10000) % 1024 - 0xdc00) = c.toNat := by omega
    rw [List.append_assoc, readChar_unicodeEscape (by omega), readUnit_pair (by omega) (by omega), hc, Char.ofNat_toNat]

/-- An escaped character does not end the string. -/
theorem escapeChar_cons (c : Char) : ∃ d ds, escapeChar c = d :: ds ∧ d ≠ '"' := by
  unfold escapeChar
  repeat (split; · exact ⟨_, _, rfl, by decide⟩)
  split
  next hquote _ _ _ _ _ _ _ => exact ⟨c, [], rfl, hquote⟩
  split
  · exact ⟨_, _, rfl, by decide⟩
  · exact ⟨_, _, rfl, by decide⟩

section Quoted

variable {f : Char → Str} (hread : ∀ c rest, readChar (f c ++ rest) = some (c, rest))
  (hopen : ∀ c, ∃ d ds, f c = d :: ds ∧ d ≠ '"')

include hread hopen in
theorem readString_flatMap {n : Nat} (s rest : Str) (hn : s.length < n) :
    readString n (s.flatMap f ++ '"' :: rest) = some (s, rest) := by
  induction s generalizing n with
  | nil =>
    obtain ⟨m, rfl⟩ : ∃ m, n = m + 1 := ⟨n - 1, by omega⟩
    rfl
  | cons c cs ih =>
    obtain ⟨m, rfl⟩ : ∃ m, n = m + 1 := ⟨n - 1, by omega⟩
    obtain ⟨d, ds, hd, hquote⟩ := hopen c
    have hchar := hread c (cs.flatMap f ++ '"' :: rest)
    have hrest := ih (n := m) (by rw [List.length_cons] at hn; omega)
    rw [List.flatMap_cons, List.append_assoc, readString, if_neg, hchar]
    · show (readString m (cs.flatMap f ++ '"' :: rest)).bind _ = _
      rw [hrest]
      rfl
    · rw [hd]
      exact fun h => hquote (Option.some.inj h)

include hopen in
theorem length_flatMap_ge (s : Str) : s.length ≤ (s.flatMap f).length := by
  induction s with
  | nil => exact Nat.le_refl 0
  | cons c cs ih =>
    obtain ⟨d, ds, hd, -⟩ := hopen c
    rw [List.flatMap_cons, List.length_append, hd, List.length_cons, List.length_cons]
    omega

include hread hopen in
/-- A string written one character after the other is read back from behind its opening quote. -/
theorem readString_quoted (s rest : Str) :
    readString ((s.flatMap f ++ ['"']) ++ rest).length ((s.flatMap f ++ ['"']) ++ rest) = some (s, rest) := by
  have hlength := length_flatMap_ge hopen s
  rw [List.append_assoc]
  apply readString_flatMap hread hopen
  simp only [List.length_append, List.length_cons]
  omega

end Quoted

/-- A written string is read back from behind its opening quote. -/
theorem readString_writeString (s rest : Str) :
    readString ((writeString s).tail ++ rest).length ((writeString s).tail ++ rest) = some (s, rest) :=
  readString_quoted readChar_escapeChar escapeChar_cons s rest

section Spaces

def Blank (w : Str) : Prop := ∀ c ∈ w, isJsonSpace c = true

instance (w : Str) : Decidable (Blank w) := List.decidableBAll _ w

theorem skipSpace_blank {w : Str} (h : Blank w) (s : Str) : skipSpace (w ++ s) = skipSpace s := by
  induction w with
  | nil => rfl
  | cons c cs ih =>
    have hc := h c List.mem_cons_self
    rw [List.cons_append, skipSpace, List.dropWhile_cons_of_pos hc]
    exact ih fun d hd => h d (List.mem_cons_of_mem _ hd)

theorem skipSpace_cons {c : Char} {s : Str} (h : isJsonSpace c = false) : skipSpace (c :: s) = c :: s := by
  rw [skipSpace, List.dropWhile_cons_of_neg (by simp [h])]

theorem blank_newline (style : JsonStyle) (level : Nat) : Blank (style.newline level) := by
  unfold JsonStyle.newline
  cases style.indent with
  | none => exact fun c hc => nomatch hc
  | some n =>
    intro c hc
    rcases List.mem_cons.mp hc with rfl | hc
    · rfl
    · rw [List.eq_of_mem_replicate hc]
      rfl

/-- Separators that the reader takes for what they are. -/
structure JsonStyle.Valid (style : JsonStyle) : Prop where
  item : ∃ w, style.item = ',' :: w ∧ Blank w
  key : ∃ w, style.key = ':' :: w ∧ Blank w

theorem plainStyle_valid : plainStyle.Valid :=
  ⟨⟨[' '], rfl, by decide⟩, ⟨[' '], rfl, by decide⟩⟩

theorem compactStyle_valid : compactStyle.Valid :=
  ⟨⟨[], rfl, by decide⟩, ⟨[], rfl, by decide⟩⟩

theorem indentedStyle_valid : indentedStyle.Valid :=
  ⟨⟨[], rfl, by decide⟩, ⟨[' '], rfl, by decide⟩⟩

/-- What can stand behind a value in a text. -/
def Follows (rest : Str) : Prop :=
  ∀ c, rest.head? = some c → isJsonSpace c = true ∨ c = ',' ∨ c = ']' ∨ c = '\x7d'

theorem follows_nil : Follows [] := fun _ h => nomatch h

theorem follows_cons {c : Char} {rest : Str} (h : isJsonSpace c = true ∨ c = ',' ∨ c = ']' ∨ c = '\x7d') :
    Follows (c :: rest) := by
  intro d hd
  cases hd
  exact h

theorem follows_append {w rest : Str} (h : Blank w) (hrest : Follows rest) : Follows (w ++ rest) := by
  cases w with
  | nil => exact hrest
  | cons c cs => exact follows_cons (.inl (h c List.mem_cons_self))

end Spaces

section Numbers

open NumberText

/-- A text that no number continues. -/
def NumberEnd (rest : Str) : Prop :=
  ∀ c, rest.head? = some c → c.isDigit = false ∧ c ≠ '.' ∧ c ≠ 'e' ∧ c ≠ 'E'

theorem Follows.numberEnd {rest : Str} (h : Follows rest) : NumberEnd rest := by
  intro c hc
  rcases h c hc with hspace | rfl | rfl | rfl
  · simp only [isJsonSpace, Bool.or_eq_true, beq_iff_eq] at hspace
    rcases hspace with ((rfl | rfl) | rfl) | rfl <;> decide
  · decide
  · decide
  · decide

theorem takeWhile_digits {ds rest : Str} (hds : ∀ c ∈ ds, c.isDigit = true)
    (hrest : ∀ c, rest.head? = some c → c.isDigit = false) : (ds ++ rest).takeWhile Char.isDigit = ds := by
  rw [List.takeWhile_append_of_pos hds]
  cases rest with
  | nil => rw [List.takeWhile_nil, List.append_nil]
  | cons c cs => rw [List.takeWhile_cons_of_neg (by simp [hrest c rfl]), List.append_nil]

variable {t : NumberText} {rest : Str}

theorem isDigit_false_of_exp (h : t.WellFormed) (hrest : NumberEnd rest) {c : Char}
    (hc : (t.exp ++ rest).head? = some c) : c.isDigit = false ∧ c ≠ '.' := by
  rcases h.exp with hnil | ⟨e, sign, ds, he, -, -, hexp⟩
  · rw [hnil] at hc
    exact ⟨(hrest c hc).1, (hrest c hc).2.1⟩
  · rw [hexp] at hc
    cases hc
    rcases he with rfl | rfl <;> decide

theorem isDigit_false_of_frac (h : t.WellFormed) (hrest : NumberEnd rest) {c : Char}
    (hc : (t.frac ++ (t.exp ++ rest)).head? = some c) : c.isDigit = false := by
  rcases h.frac with hnil | ⟨ds, -, hfrac⟩
  · rw [hnil] at hc
    exact (isDigit_false_of_exp h hrest hc).1
  · rw [hfrac] at hc
    cases hc
    decide

theorem scanInt_append (h : t.WellFormed) (hrest : NumberEnd rest) :
    scanInt (t.int ++ (t.frac ++ (t.exp ++ rest))) = t.int := by
  rcases h.int with hzero | ⟨⟨hne, hdigits⟩, hhead⟩
  · rw [hzero]
    rfl
  · unfold scanInt
    rw [if_neg, takeWhile_digits hdigits fun c hc => isDigit_false_of_frac h hrest hc]
    rw [List.head?_append_of_ne_nil _ hne]
    exact hhead

theorem scanFrac_append (h : t.WellFormed) (hrest : NumberEnd rest) :
    scanFrac (t.frac ++ (t.exp ++ rest)) = t.frac := by
  rcases h.frac with hnil | ⟨ds, ⟨hne, hdigits⟩, hfrac⟩
  · rw [hnil, List.nil_append]
    cases htext : t.exp ++ rest with
    | nil => rfl
    | cons c cs =>
      have hdot := (isDigit_false_of_exp h hrest (c := c) (by rw [htext]; rfl)).2
      simp [scanFrac, hdot]
  · rw [hfrac, List.cons_append, scanFrac]
    rw [takeWhile_digits hdigits fun c hc => (isDigit_false_of_exp h hrest hc).1]
    exact if_pos ⟨rfl, hne⟩

theorem scanExpSign_append {sign ds : Str} (hsign : sign = [] ∨ sign = ['+'] ∨ sign = ['-']) (hds : Digits ds) :
    scanExpSign (sign ++ (ds ++ rest)) = sign := by
  rcases hsign with rfl | rfl | rfl
  · obtain ⟨hne, hdigits⟩ := hds
    cases ds with
    | nil => exact absurd rfl hne
    | cons d ds =>
      have hd := hdigits d List.mem_cons_self
      have hplus : (d :: ds ++ rest).head? ≠ some '+' := by
        rintro heq
        cases heq
        exact absurd hd (by decide)
      have hminus : (d :: ds ++ rest).head? ≠ some '-' := by
        rintro heq
        cases heq
        exact absurd hd (by decide)
      exact (if_neg hplus).trans (if_neg hminus)
  · rfl
  · rfl

theorem scanExp_append (h : t.WellFormed) (hrest : NumberEnd rest) : scanExp (t.exp ++ rest) = t.exp := by
  rcases h.exp with hnil | ⟨e, sign, ds, he, hsign, hds, hexp⟩
  · rw [hnil, List.nil_append]
    cases rest with
    | nil => rfl
    | cons c cs =>
      obtain ⟨-, -, hlower, hupper⟩ := hrest c rfl
      simp [scanExp, hlower, hupper]
  · rw [hexp, List.cons_append, scanExp, List.append_assoc, scanExpSign_append hsign hds, List.drop_left,
      takeWhile_digits hds.2 fun c hc => (hrest c hc).1]
    exact if_pos ⟨he, hds.1⟩

/-- The scanner takes a number text apart into its parts. -/
theorem scanNumber_text (h : t.WellFormed) (hrest : NumberEnd rest) : scanNumber (t.text ++ rest) = (t, rest) := by
  have hsign : (if (t.text ++ rest).head? = some '-' then ['-'] else []) = t.sign := by
    unfold text
    rcases h.sign with hnil | hminus
    · rw [hnil, if_neg]
      rcases h.int with hzero | ⟨⟨hne, hdigits⟩, -⟩
      · rw [hzero]
        exact nofun
      · cases hint : t.int with
        | nil => exact absurd hint hne
        | cons d ds =>
          have hd := hdigits d (by rw [hint]; exact List.mem_cons_self)
          intro heq
          cases heq
          revert hd
          decide
    · rw [hminus]
      rfl
  have htext : t.text ++ rest = t.sign ++ (t.int ++ (t.frac ++ (t.exp ++ rest))) := by
    simp only [text, List.append_assoc]
  unfold scanNumber
  simp only [hsign]
  simp only [htext, List.drop_left, scanInt_append h hrest, scanFrac_append h hrest, scanExp_append h hrest]

end Numbers

/-- How a writer puts strings between quotes: the text behind the opening quote is read back. -/
structure StringWriter where
  body : Str → Str
  reads : ∀ s rest, readString (body s ++ rest).length (body s ++ rest) = some (s, rest)

/-- The strings of `json.dumps(value)`. -/
def asciiWriter : StringWriter := ⟨fun s => (writeString s).tail, readString_writeString⟩

/-- One character of a string that is not put in ASCII. -/
def rawChar (c : Char) : Str := if c = '"' ∨ c = '\\' ∨ c.toNat < 32 then escapeChar c else [c]

theorem readChar_rawChar (c : Char) (rest : Str) : readChar (rawChar c ++ rest) = some (c, rest) := by
  unfold rawChar
  split
  next => exact readChar_escapeChar c rest
  next h =>
    obtain ⟨-, hslash, hcontrol⟩ : c ≠ '"' ∧ c ≠ '\\' ∧ ¬ c.toNat < 32 := by simpa only [not_or] using h
    rw [List.singleton_append, readChar, if_neg hslash, if_neg hcontrol]

theorem rawChar_cons (c : Char) : ∃ d ds, rawChar c = d :: ds ∧ d ≠ '"' := by
  unfold rawChar
  split
  next => exact escapeChar_cons c
  next h => exact ⟨c, [], rfl, fun hc => h (.inl hc)⟩

/-- The strings of `json.dumps(value, ensure_ascii=False)`. -/
def rawWriter : StringWriter := ⟨fun s => s.flatMap rawChar ++ ['"'], readString_quoted readChar_rawChar rawChar_cons⟩

namespace StringWriter

variable {F : Type} [PyFloat F]

def quote (w : StringWriter) (s : Str) : Str := '"' :: w.body s

mutual

/-- The text of a value whose strings a writer writes. -/
def write (w : StringWriter) (style : JsonStyle) (level : Nat) : JsonValue F → Str
  | .null => "null".toList
  | .bool b => if b then "true".toList else "false".toList
  | .int n => writeInt n
  | .float x => PyFloat.repr x
  | .str s => w.quote s
  | .arr items => style.bracket level '[' ']' (w.writeItems style (level + 1) items)
  | .obj entries => style.bracket level '\x7b' '\x7d' (w.writeEntries style (level + 1) entries)

def writeItems (w : StringWriter) (style : JsonStyle) (level : Nat) : List (JsonValue F) → List Str
  | [] => []
  | x :: xs => w.write style level x :: w.writeItems style level xs

def writeEntries (w : StringWriter) (style : JsonStyle) (level : Nat) : List (Str × JsonValue F) → List Str
  | [] => []
  | (k, x) :: xs => (w.quote k ++ style.key ++ w.write style level x) :: w.writeEntries style level xs

end

mutual

theorem write_ascii (style : JsonStyle) : ∀ (v : JsonValue F) (level : Nat),
    asciiWriter.write style level v = v.write style level
  | .null, _ | .bool _, _ | .int _, _ | .float _, _ | .str _, _ => rfl
  | .arr items, level => by rw [write, JsonValue.write, writeItems_ascii style items]
  | .obj entries, level => by rw [write, JsonValue.write, writeEntries_ascii style entries]

theorem writeItems_ascii (style : JsonStyle) : ∀ (items : List (JsonValue F)) (level : Nat),
    asciiWriter.writeItems style level items = JsonValue.writeItems style level items
  | [], _ => rfl
  | x :: xs, level => by rw [writeItems, JsonValue.writeItems, write_ascii style x, writeItems_ascii style xs]

theorem writeEntries_ascii (style : JsonStyle) : ∀ (entries : List (Str × JsonValue F)) (level : Nat),
    asciiWriter.writeEntries style level entries = JsonValue.writeEntries style level entries
  | [], _ => rfl
  | (k, x) :: xs, level => by
    rw [writeEntries, JsonValue.writeEntries, write_ascii style x, writeEntries_ascii style xs]
    rfl

end

end StringWriter

end FailureOrchestrator
