import Mathlib.Data.List.DropRight
import Mathlib.Data.List.Infix
import Mathlib.Algebra.Order.Ring.Rat
import Mathlib.Order.WithBot
import Mathlib.Tactic.Ring

namespace FailureOrchestrator

/-- A Python `str` as the list of its code points. -/
abbrev Str := List Char

-- The characters of a text are checked one by one, whatever else decides a statement about all characters.
instance (priority := 1100) decidableForallMem {α : Type*} (p : α → Prop) [DecidablePred p] (l : List α) :
    Decidable (∀ x, x ∈ l → p x) :=
  List.decidableBAll p l

/-- Texts are compared code point by code point. -/
instance (priority := 1100) strLE : LE Str := List.instLE

instance (priority := 1100) strLawfulBEq : LawfulBEq Str := inferInstance

instance (priority := 1100) strDecidableLE (s t : Str) : Decidable (s ≤ t) := List.decidableLE s t

/-- The part of the interpreter's Unicode database that text operations read.
Its version follows the interpreter, so only the ASCII part is fixed here. -/
class UnicodeData where
  lower : Str → Str
  isAlnum : Char → Bool
  decimal : Char → Option Nat
  isPrintable : Char → Bool
  lower_ascii : ∀ s : Str, (∀ c ∈ s, c.toNat < 128) → lower s = s.map Char.toLower
  isAlnum_ascii : ∀ c : Char, c.toNat < 128 → isAlnum c = c.isAlphanum
  decimal_ascii : ∀ c : Char, c.toNat < 128 →
    decimal c = if c.isDigit then some (c.toNat - '0'.toNat) else none
  isPrintable_ascii : ∀ c : Char, c.toNat < 128 → isPrintable c = decide (32 ≤ c.toNat ∧ c.toNat < 127)

/-- The database of an interpreter that knows no character outside ASCII. -/
@[reducible] def asciiData : UnicodeData where
  lower s := s.map Char.toLower
  isAlnum c := c.isAlphanum
  decimal c := if c.isDigit then some (c.toNat - '0'.toNat) else none
  isPrintable c := decide (32 ≤ c.toNat ∧ c.toNat < 127)
  lower_ascii _ _ := rfl
  isAlnum_ascii _ _ := rfl
  decimal_ascii _ _ := rfl
  isPrintable_ascii _ _ := rfl

/-- The Unicode database with upper case, of which the ASCII part is fixed. -/
class UnicodeCase extends UnicodeData where
  upper : Str → Str
  upper_ascii : ∀ s : Str, (∀ c ∈ s, c.toNat < 128) → upper s = s.map Char.toUpper

@[reducible] def asciiCase : UnicodeCase :=
  { asciiData with
    upper := fun s => s.map Char.toUpper
    upper_ascii := fun _ _ => rfl }

/-- Exceptions that the text functions can raise, with `str(exc)`. -/
inductive PyError where
  | valueError (message : String)
  deriving DecidableEq, Repr

def PyError.typeName : PyError → String
  | .valueError _ => "ValueError"

def PyError.str : PyError → String
  | .valueError message => message

/-- `str.isspace` of one character; `\s` in a pattern is the same set. -/
def isSpace (c : Char) : Bool :=
  let n := c.toNat
  (9 ≤ n && n ≤ 13) || (28 ≤ n && n ≤ 32) || n == 0x85 || n == 0xa0 || n == 0x1680 ||
    (0x2000 ≤ n && n ≤ 0x200a) || n == 0x2028 || n == 0x2029 || n == 0x202f || n == 0x205f ||
    n == 0x3000

/-- The characters at which `str.splitlines` ends a line. -/
def isLineBreak (c : Char) : Bool :=
  let n := c.toNat
  (10 ≤ n && n ≤ 13) || (28 ≤ n && n ≤ 30) || n == 0x85 || n == 0x2028 || n == 0x2029

def startsWith (s p : Str) : Bool := p.isPrefixOf s

def endsWith (s p : Str) : Bool := p.isSuffixOf s

/-- `p in s` for two strings. -/
def hasSub (s p : Str) : Bool := decide (p <:+: s)

def lstrip (s : Str) : Str := s.dropWhile isSpace

def rstrip (s : Str) : Str := s.rdropWhile isSpace

def strip (s : Str) : Str := rstrip (lstrip s)

/-- `s.replace(a, b)` for two one-character strings. -/
def replaceChar (a b : Char) (s : Str) : Str := s.map fun c => if c = a then b else c

/-- `s.split(c, 1)[0]`. -/
def beforeFirst (c : Char) (s : Str) : Str := s.takeWhile (· != c)

/-- `s.rsplit(c, 1)[-1]`. -/
def afterLast (c : Char) (s : Str) : Str := s.rtakeWhile (· != c)

/-- `s.rsplit(c, 1)[0]` of a string that contains `c`. -/
def beforeLast (c : Char) (s : Str) : Str := (s.rdropWhile (· != c)).dropLast

/-- `s.split(c)`. -/
def splitChar (c : Char) (s : Str) : List Str := s.splitOn c

/-- `sep.join(parts)`. -/
def joinWith (sep : Str) : List Str → Str
  | [] => []
  | [x] => x
  | x :: y :: rest => x ++ sep ++ joinWith sep (y :: rest)

/-- Puts a character in front of the first line; a text with no line becomes a line. -/
def consLine (c : Char) : List Str → List Str
  | [] => [[c]]
  | line :: rest => (c :: line) :: rest

/-- `str.splitlines()`. -/
def splitlines : Str → List Str
  | [] => []
  | '\r' :: '\n' :: rest => [] :: splitlines rest
  | c :: rest => if isLineBreak c then [] :: splitlines rest else consLine c (splitlines rest)

def startsWithAny (s : Str) (ps : List String) : Bool := ps.any fun p => startsWith s p.toList

def endsWithAny (s : Str) (ps : List String) : Bool := ps.any fun p => endsWith s p.toList

/-- Membership of a string in a set of literals. -/
def inSet (s : Str) (set : List String) : Bool := set.any fun x => x.toList == s

/-- The digits that `str(n)` and `f"{n}"` write. -/
def natStr (n : Nat) : Str := Nat.toDigits 10 n

/-- The first occurrence of each value, in order: `tuple(dict.fromkeys(xs))`. -/
def fromKeys {α : Type*} [DecidableEq α] (xs : List α) : List α :=
  xs.foldl (fun seen x => if x ∈ seen then seen else seen ++ [x]) []

section Numbers

variable [UnicodeData]

def isDecimal (c : Char) : Bool := (UnicodeData.decimal c).isSome

def decimalValue (ds : Str) : Nat :=
  ds.foldl (fun n c => 10 * n + (UnicodeData.decimal c).getD 0) 0

/-- The interpreter's `sys.int_info.default_max_str_digits`. -/
def maxStrDigits : Nat := 4300

/-- `int(ds)` of a text of decimal digits. -/
def pyInt (ds : Str) : Except PyError Nat :=
  if ds.length ≤ maxStrDigits then .ok (decimalValue ds)
  else .error (.valueError ("Exceeds the limit (4300 digits) for integer string conversion: value has " ++
    toString ds.length ++ " digits; use sys.set_int_max_str_digits() to increase the limit"))

end Numbers

/-- The lower-case hexadecimal digits of `n`, padded with zeros to `width`. -/
def hexPadded (width n : Nat) : Str :=
  let ds := Nat.toDigits 16 n
  List.replicate (width - ds.length) '0' ++ ds

/-- One character of `repr(s)` inside the quote `q`. -/
def reprChar [UnicodeData] (q c : Char) : Str :=
  if c = q ∨ c = '\\' then ['\\', c]
  else if c = '\n' then "\\n".toList
  else if c = '\r' then "\\r".toList
  else if c = '\t' then "\\t".toList
  else if UnicodeData.isPrintable c then [c]
  else if c.toNat < 0x100 then "\\x".toList ++ hexPadded 2 c.toNat
  else if c.toNat < 0x10000 then "\\u".toList ++ hexPadded 4 c.toNat
  else "\\U".toList ++ hexPadded 8 c.toNat

/-- `repr(s)`: single quotes, unless the text holds one and no double quote. -/
def pyRepr [UnicodeData] (s : Str) : Str :=
  let q := if s.contains '\'' && !s.contains '"' then '"' else '\''
  [q] ++ s.flatMap (reprChar q) ++ [q]

def roundHalfEven (n d : Nat) : Nat :=
  let q := n / d
  let r := n % d
  if 2 * r < d then q else if d < 2 * r then q + 1 else if q % 2 = 0 then q else q + 1

/-- The double nearest to `n / d`, ties to even; `⊤` is the infinity that a too large
literal becomes. -/
def nearestDouble (n d : Nat) : WithTop ℚ :=
  if n = 0 then ((0 : ℚ) : WithTop ℚ)
  else
    let k : Int := (n.log2 : Int) - d.log2
    let top : Int := if d * 2 ^ k.toNat ≤ n * 2 ^ (-k).toNat then k else k - 1
    let e : Int := max (-1074) (top - 52)
    let m := roundHalfEven (n * 2 ^ (-e).toNat) (d * 2 ^ e.toNat)
    if 2 ^ 1024 ≤ m * 2 ^ e.toNat then ⊤
    else (((m * 2 ^ e.toNat : Nat) : ℚ) / ((2 ^ (-e).toNat : Nat) : ℚ) : ℚ)

/-- `float(s)` of a text `ds` or `ds.fs` of decimal digits. -/
def pyFloat [UnicodeData] (s : Str) : WithTop ℚ :=
  let whole := beforeFirst '.' s
  let frac := s.drop (whole.length + 1)
  nearestDouble (decimalValue (whole ++ frac)) (10 ^ frac.length)

/-- `f"{q:.2f}"`. -/
def fixed2 (q : ℚ) : String :=
  let cents := roundHalfEven (100 * q.num.natAbs) q.den
  let pad := if cents % 100 < 10 then "0" else ""
  (if q < 0 then "-" else "") ++ toString (cents / 100) ++ "." ++ pad ++ toString (cents % 100)

theorem isUpper_iff {c : Char} : c.isUpper = true ↔ 65 ≤ c.toNat ∧ c.toNat ≤ 90 := decide_eq_true_iff

theorem isLower_iff {c : Char} : c.isLower = true ↔ 97 ≤ c.toNat ∧ c.toNat ≤ 122 := by
  rw [show c.isLower = (decide (97 ≤ c.toNat) && decide (c.toNat ≤ 122)) from rfl, Bool.and_eq_true, decide_eq_true_iff,
    decide_eq_true_iff]

theorem isAlpha_iff {c : Char} : c.isAlpha = true ↔ c.isUpper = true ∨ c.isLower = true := Bool.or_eq_true_iff

theorem startsWith_iff {s p : Str} : startsWith s p = true ↔ p <+: s := List.isPrefixOf_iff_prefix

theorem startsWith_append (p s : Str) : startsWith (p ++ s) p = true :=
  startsWith_iff.mpr (List.prefix_append p s)

/-- Two texts that differ at a position where both patterns are still read decide the test. -/
theorem startsWith_cons (c d : Char) (s p : Str) :
    startsWith (c :: s) (d :: p) = ((d == c) && startsWith s p) := rfl

@[simp] theorem startsWith_nil_right (s : Str) : startsWith s [] = true := by simp [startsWith]

@[simp] theorem startsWith_nil_left (c : Char) (p : Str) : startsWith [] (c :: p) = false := rfl

theorem mem_fromKeys {α : Type*} [DecidableEq α] {xs : List α} {x : α} : x ∈ fromKeys xs ↔ x ∈ xs := by
  have grow : ∀ (ys acc : List α),
      x ∈ ys.foldl (fun seen y => if y ∈ seen then seen else seen ++ [y]) acc ↔ x ∈ acc ∨ x ∈ ys := by
    intro ys
    induction ys with
    | nil => simp
    | cons y ys ih =>
      intro acc
      rw [List.foldl_cons, ih]
      split
      · next hy =>
        rw [List.mem_cons]
        constructor
        · rintro (h | h)
          · exact Or.inl h
          · exact Or.inr (Or.inr h)
        · rintro (h | rfl | h)
          · exact Or.inl h
          · exact Or.inl hy
          · exact Or.inr h
      · simp [or_assoc]
  unfold fromKeys
  rw [grow]
  simp

theorem nodup_fromKeys {α : Type*} [DecidableEq α] (xs : List α) : (fromKeys xs).Nodup := by
  have grow : ∀ (ys acc : List α), acc.Nodup →
      (ys.foldl (fun seen y => if y ∈ seen then seen else seen ++ [y]) acc).Nodup := by
    intro ys
    induction ys with
    | nil => exact fun acc h => h
    | cons y ys ih =>
      intro acc h
      rw [List.foldl_cons]
      split
      · exact ih acc h
      next hy => exact ih _ ((List.perm_append_singleton y acc).nodup_iff.mpr (List.nodup_cons.mpr ⟨hy, h⟩))
  exact grow xs [] List.nodup_nil

theorem hasSub_iff {s p : Str} : hasSub s p = true ↔ p <:+: s := by simp [hasSub]

theorem strip_eq_nil_iff (s : Str) : strip s = [] ↔ ∀ c ∈ s, isSpace c = true := by
  unfold strip rstrip lstrip
  rw [List.rdropWhile_eq_nil_iff]
  constructor
  · intro h c hc
    have hnil : s.dropWhile isSpace = [] := by
      by_contra hne
      have hhead := List.head_dropWhile_not isSpace hne
      rw [h _ (List.head_mem hne)] at hhead
      cases hhead
    exact List.dropWhile_eq_nil_iff.mp hnil c hc
  · intro h c hc
    exact h c ((List.dropWhile_suffix isSpace).subset hc)

theorem joinWith_cons {sep x : Str} {xs : List Str} (h : xs ≠ []) :
    joinWith sep (x :: xs) = x ++ sep ++ joinWith sep xs := by
  cases xs with
  | nil => exact absurd rfl h
  | cons y ys => rfl

theorem splitChar_cons (c d : Char) (s : Str) :
    splitChar c (d :: s) = if d = c then [] :: splitChar c s else (splitChar c s).modifyHead (d :: ·) := by
  unfold splitChar
  rw [List.splitOn_cons_eq_if_modifyHead]
  simp only [beq_iff_eq]

theorem splitChar_eq_cons (c : Char) (s : Str) : splitChar c s = beforeFirst c s :: (splitChar c s).tail := by
  induction s with
  | nil => rfl
  | cons d s ih =>
    rw [splitChar_cons]
    split
    · next h => simp [beforeFirst, h]
    · next h =>
      rw [ih]
      simp [beforeFirst, h]

theorem not_mem_of_mem_splitChar {c : Char} {s w : Str} (h : w ∈ splitChar c s) : c ∉ w := by
  induction s generalizing w with
  | nil =>
    have hw : w = [] := by simpa [splitChar] using h
    simp [hw]
  | cons a s ih =>
    rw [splitChar_cons] at h
    split at h
    · rcases List.mem_cons.mp h with rfl | h
      · simp
      · exact ih h
    · next hne =>
      obtain ⟨x, xs, hx⟩ := List.exists_cons_of_ne_nil (List.splitOn_ne_nil c s)
      have hsplit : splitChar c s = x :: xs := hx
      rw [hsplit, List.modifyHead_cons] at h
      rw [hsplit] at ih
      rcases List.mem_cons.mp h with rfl | h
      · have hxc : c ∉ x := ih (by simp)
        simp [hxc, Ne.symm hne]
      · exact ih (by simp [h])

end FailureOrchestrator
