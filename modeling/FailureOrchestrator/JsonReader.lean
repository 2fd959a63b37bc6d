import FailureOrchestrator.JsonText

namespace FailureOrchestrator

def isJsonSpace (c : Char) : Bool := c == ' ' || c == '\t' || c == '\n' || c == '\r'

def skipSpace (s : Str) : Str := s.dropWhile isJsonSpace

def hexValue (c : Char) : Option Nat :=
  if 48 ≤ c.toNat ∧ c.toNat ≤ 57 then some (c.toNat - 48)
  else if 97 ≤ c.toNat ∧ c.toNat ≤ 102 then some (c.toNat - 87)
  else if 65 ≤ c.toNat ∧ c.toNat ≤ 70 then some (c.toNat - 55)
  else none

def readHex4 : Str → Option (Nat × Str)
  | a :: b :: c :: d :: rest => do
    let a ← hexValue a
    let b ← hexValue b
    let c ← hexValue c
    let d ← hexValue d
    return (4096 * a + 256 * b + 16 * c + d, rest)
  | _ => none

/-- The character of the code unit `u`, which the next escape may complete; a lone surrogate is no `Char`. -/
def readUnit (u : Nat) (rest : Str) : Option (Char × Str) :=
  if 0xd800 ≤ u ∧ u < 0xdc00 then
    match rest with
    | '\\' :: 'u' :: rest => do
      let (low, rest) ← readHex4 rest
      if 0xdc00 ≤ low ∧ low < 0xe000 then
        return (Char.ofNat (0x10000 + (u - 0xd800) * 1024 + (low - 0xdc00)), rest)
      else none
    | _ => none
  else if 0xdc00 ≤ u ∧ u < 0xe000 then none
  else some (Char.ofNat u, rest)

/-- What follows a backslash. -/
def readEscape : Str → Option (Char × Str)
  | [] => none
  | c :: rest =>
    if c = 'u' then do
      let (u, rest) ← readHex4 rest
      readUnit u rest
    else if c = '"' ∨ c = '\\' ∨ c = '/' then some (c, rest)
    else if c = 'b' then some ('\x08', rest)
    else if c = 'f' then some ('\x0c', rest)
    else if c = 'n' then some ('\n', rest)
    else if c = 'r' then some ('\r', rest)
    else if c = 't' then some ('\t', rest)
    else none

def readChar : Str → Option (Char × Str)
  | [] => none
  | c :: rest => if c = '\\' then readEscape rest else if c.toNat < 32 then none else some (c, rest)

/-- A string behind its opening quote. -/
def readString : Nat → Str → Option (Str × Str)
  | 0, _ => none
  | n + 1, s =>
    if s.head? = some '"' then some ([], s.tail)
    else do
      let (c, rest) ← readChar s
      let (cs, rest) ← readString n rest
      return (c :: cs, rest)

def scanInt (s : Str) : Str := if s.head? = some '0' then ['0'] else s.takeWhile Char.isDigit

def scanFrac : Str → Str
  | [] => []
  | c :: rest =>
    let ds := rest.takeWhile Char.isDigit
    if c = '.' ∧ ds ≠ [] then '.' :: ds else []

def scanExpSign (s : Str) : Str :=
  if s.head? = some '+' then ['+'] else if s.head? = some '-' then ['-'] else []

def scanExp : Str → Str
  | [] => []
  | c :: rest =>
    let sign := scanExpSign rest
    let ds := (rest.drop sign.length).takeWhile Char.isDigit
    if (c = 'e' ∨ c = 'E') ∧ ds ≠ [] then c :: (sign ++ ds) else []

/-- The longest number that a text starts with, and what follows it. -/
def scanNumber (s : Str) : NumberText × Str :=
  let sign := if s.head? = some '-' then ['-'] else []
  let s := s.drop sign.length
  let int := scanInt s
  let s := s.drop int.length
  let frac := scanFrac s
  let s := s.drop frac.length
  let exp := scanExp s
  (⟨sign, int, frac, exp⟩, s.drop exp.length)

section

variable {F : Type} [PyFloat F]

def readNumber (s : Str) : Option (JsonValue F × Str) :=
  let (t, rest) := scanNumber s
  if t.int.isEmpty then none
  else if t.isFloat then some (.float (PyFloat.parse t.text), rest)
  else if t.int.length ≤ maxStrDigits then
    let n : Int := Nat.ofDigitChars 10 t.int 0
    some (.int (if t.sign.isEmpty then n else -n), rest)
  else none

/-- The names of values; the three of floats are not JSON but are read and written. -/
def readName (s : Str) : Option (JsonValue F × Str) :=
  if startsWith s "null".toList then some (.null, s.drop 4)
  else if startsWith s "true".toList then some (.bool true, s.drop 4)
  else if startsWith s "false".toList then some (.bool false, s.drop 5)
  else floatNames.findSome? fun name =>
    if startsWith s name then some (.float (PyFloat.parse name), s.drop name.length) else none

omit [PyFloat F] in
/-- `d[key] = value` for a dict with its keys in order. -/
def insertEntry (key : Str) (value : JsonValue F) : List (Str × JsonValue F) → List (Str × JsonValue F)
  | [] => [(key, value)]
  | (k, v) :: rest =>
    if key < k then (key, value) :: (k, v) :: rest
    else if k < key then (k, v) :: insertEntry key value rest
    else (key, value) :: rest

omit [PyFloat F] in
/-- The dict of the entries of a text; of entries with one key the last one counts. -/
def dictOf (entries : List (Str × JsonValue F)) : List (Str × JsonValue F) :=
  entries.foldl (fun d e => insertEntry e.1 e.2 d) []

mutual

/-- The value that a text starts with and what follows it. -/
def JsonValue.read : Nat → Str → Option (JsonValue F × Str)
  | 0, _ => none
  | n + 1, s =>
    match s with
    | [] => none
    | c :: rest =>
      if c = '"' then do
        let (cs, rest) ← readString rest.length rest
        return (.str cs, rest)
      else if c = '[' then
        if (skipSpace rest).head? = some ']' then some (.arr [], (skipSpace rest).tail)
        else do
          let (items, rest) ← JsonValue.readItems n (skipSpace rest)
          return (.arr items, rest)
      else if c = '\x7b' then
        if (skipSpace rest).head? = some '\x7d' then some (.obj [], (skipSpace rest).tail)
        else do
          let (entries, rest) ← JsonValue.readEntries n (skipSpace rest)
          return (.obj (dictOf entries), rest)
      else (readName s).or (readNumber s)

/-- The items of a list up to its closing bracket. -/
def JsonValue.readItems : Nat → Str → Option (List (JsonValue F) × Str)
  | 0, _ => none
  | n + 1, s => do
    let (x, rest) ← JsonValue.read n s
    match skipSpace rest with
    | [] => none
    | c :: rest =>
      if c = ']' then return ([x], rest)
      else if c = ',' then
        let (xs, rest) ← JsonValue.readItems n (skipSpace rest)
        return (x :: xs, rest)
      else none

/-- The entries of a dict up to its closing bracket. -/
def JsonValue.readEntries : Nat → Str → Option (List (Str × JsonValue F) × Str)
  | 0, _ => none
  | n + 1, s =>
    match s with
    | [] => none
    | q :: rest =>
      if q = '"' then do
        let (k, rest) ← readString rest.length rest
        match skipSpace rest with
        | [] => none
        | colon :: rest =>
          if colon = ':' then
            let (x, rest) ← JsonValue.read n (skipSpace rest)
            match skipSpace rest with
            | [] => none
            | c :: rest =>
              if c = '\x7d' then return ([(k, x)], rest)
              else if c = ',' then
                let (xs, rest) ← JsonValue.readEntries n (skipSpace rest)
                return ((k, x) :: xs, rest)
              else none
          else none
      else none

end

/-- `json.loads(s)`. -/
def JsonValue.loads (s : Str) : Option (JsonValue F) := do
  let (x, rest) ← JsonValue.read s.length (skipSpace s)
  if (skipSpace rest).isEmpty then return x else none

end

end FailureOrchestrator
