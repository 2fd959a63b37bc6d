import FailureOrchestrator.PyText

namespace FailureOrchestrator

/-- A value of Python's `json` module over a type `F` of floats; a dict is the list of its entries. -/
inductive JsonValue (F : Type) where
  | null
  | bool (b : Bool)
  | int (n : Int)
  | float (x : F)
  | str (s : Str)
  | arr (items : List (JsonValue F))
  | obj (entries : List (Str × JsonValue F))

/-- The parts of a number in a JSON text. -/
structure NumberText where
  sign : Str
  int : Str
  frac : Str
  exp : Str

namespace NumberText

def text (t : NumberText) : Str := t.sign ++ t.int ++ t.frac ++ t.exp

def isFloat (t : NumberText) : Bool := !(t.frac.isEmpty && t.exp.isEmpty)

def Digits (ds : Str) : Prop := ds ≠ [] ∧ ∀ c ∈ ds, c.isDigit = true

structure WellFormed (t : NumberText) : Prop where
  sign : t.sign = [] ∨ t.sign = ['-']
  int : t.int = ['0'] ∨ Digits t.int ∧ t.int.head? ≠ some '0'
  frac : t.frac = [] ∨ ∃ ds, Digits ds ∧ t.frac = '.' :: ds
  exp : t.exp = [] ∨ ∃ e sign ds, (e = 'e' ∨ e = 'E') ∧ (sign = [] ∨ sign = ['+'] ∨ sign = ['-']) ∧ Digits ds ∧
    t.exp = e :: (sign ++ ds)

end NumberText

def floatNames : List Str := ["NaN".toList, "Infinity".toList, "-Infinity".toList]

/-- Python's floats: `repr` as `json.dumps` writes it, and `float` of a number text or of one of the three names. -/
class PyFloat (F : Type) where
  repr : F → Str
  parse : Str → F
  parse_repr : ∀ x, parse (repr x) = x
  repr_text : ∀ x, repr x ∈ floatNames ∨ ∃ t : NumberText, t.WellFormed ∧ t.isFloat = true ∧ repr x = t.text

/-- Records without floats. -/
@[reducible] def noFloats : PyFloat Unit where
  repr _ := "NaN".toList
  parse _ := ()
  parse_repr _ := rfl
  repr_text _ := .inl (by decide)

/-- The separators and the indentation that `json.dumps` is called with. -/
structure JsonStyle where
  item : Str
  key : Str
  indent : Option Nat

/-- `json.dumps(value)`. -/
def plainStyle : JsonStyle := ⟨", ".toList, ": ".toList, none⟩

/-- `json.dumps(value, separators=(",", ":"))`. -/
def compactStyle : JsonStyle := ⟨[','], [':'], none⟩

/-- `json.dumps(value, indent=2)`. -/
def indentedStyle : JsonStyle := ⟨[','], ": ".toList, some 2⟩

/-- The line break before an item or a closing bracket. -/
def JsonStyle.newline (style : JsonStyle) (level : Nat) : Str :=
  style.indent.elim [] fun n => '\n' :: List.replicate (n * level) ' '

def hexChar (n : Nat) : Char := Nat.digitChar n

/-- `\uXXXX`. -/
def unicodeEscape (n : Nat) : Str :=
  ['\\', 'u', hexChar (n / 4096 % 16), hexChar (n / 256 % 16), hexChar (n / 16 % 16), hexChar (n % 16)]

/-- One character of a string, in ASCII. -/
def escapeChar (c : Char) : Str :=
  if c = '"' then ['\\', '"']
  else if c = '\\' then ['\\', '\\']
  else if c = '\n' then ['\\', 'n']
  else if c = '\r' then ['\\', 'r']
  else if c = '\t' then ['\\', 't']
  else if c = '\x0c' then ['\\', 'f']
  else if c = '\x08' then ['\\', 'b']
  else if 32 ≤ c.toNat ∧ c.toNat ≤ 126 then [c]
  else if c.toNat < 0x10000 then unicodeEscape c.toNat
  else unicodeEscape (0xd800 + (c.toNat - 0x10000) / 1024) ++ unicodeEscape (0xdc00 + (c.toNat - 0x10000) % 1024)

def writeString (s : Str) : Str := '"' :: (s.flatMap escapeChar ++ ['"'])

def writeInt (n : Int) : Str := if n < 0 then '-' :: natStr n.natAbs else natStr n.natAbs

/-- The bracketed texts of the items of a list or of the entries of a dict. -/
def JsonStyle.bracket (style : JsonStyle) (level : Nat) (left right : Char) (texts : List Str) : Str :=
  if texts.isEmpty then [left, right]
  else left :: (style.newline (level + 1) ++ joinWith (style.item ++ style.newline (level + 1)) texts ++
    style.newline level ++ [right])

section Shape

variable {F : Type}

mutual

/-- The entries of every dict are in the order of their keys. -/
def JsonValue.ordered : JsonValue F → Bool
  | .arr items => JsonValue.orderedItems items
  | .obj entries => (entries.map Prod.fst).Pairwise (· < ·) && JsonValue.orderedEntries entries
  | _ => true

def JsonValue.orderedItems : List (JsonValue F) → Bool
  | [] => true
  | x :: xs => x.ordered && JsonValue.orderedItems xs

def JsonValue.orderedEntries : List (Str × JsonValue F) → Bool
  | [] => true
  | (_, x) :: xs => x.ordered && JsonValue.orderedEntries xs

end

mutual

/-- No integer is too long for a conversion between `int` and `str`. -/
def JsonValue.dumpable : JsonValue F → Bool
  | .int n => (natStr n.natAbs).length ≤ maxStrDigits
  | .arr items => JsonValue.dumpableItems items
  | .obj entries => JsonValue.dumpableEntries entries
  | _ => true

def JsonValue.dumpableItems : List (JsonValue F) → Bool
  | [] => true
  | x :: xs => x.dumpable && JsonValue.dumpableItems xs

def JsonValue.dumpableEntries : List (Str × JsonValue F) → Bool
  | [] => true
  | (_, x) :: xs => x.dumpable && JsonValue.dumpableEntries xs

end

end Shape

section

variable {F : Type} [PyFloat F]

mutual

/-- The text that `json.dumps` gives a value at a nesting level; the entries of a dict are written in their order. -/
def JsonValue.write (style : JsonStyle) (level : Nat) : JsonValue F → Str
  | .null => "null".toList
  | .bool b => if b then "true".toList else "false".toList
  | .int n => writeInt n
  | .float x => PyFloat.repr x
  | .str s => writeString s
  | .arr items => style.bracket level '[' ']' (writeItems style (level + 1) items)
  | .obj entries => style.bracket level '\x7b' '\x7d' (writeEntries style (level + 1) entries)

def JsonValue.writeItems (style : JsonStyle) (level : Nat) : List (JsonValue F) → List Str
  | [] => []
  | x :: xs => x.write style level :: writeItems style level xs

def JsonValue.writeEntries (style : JsonStyle) (level : Nat) : List (Str × JsonValue F) → List Str
  | [] => []
  | (k, x) :: xs => (writeString k ++ style.key ++ x.write style level) :: writeEntries style level xs

end

/-- `json.dumps(value, sort_keys=True)`; `none` is the `ValueError` of a too long integer. -/
def JsonValue.dumps (style : JsonStyle) (v : JsonValue F) : Option Str :=
  if v.dumpable then some (v.write style 0) else none

end

end FailureOrchestrator
