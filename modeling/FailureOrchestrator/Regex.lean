import FailureOrchestrator.PyText

namespace FailureOrchestrator

/-- The patterns of Python's `re` that the program compiles. A repeated body always
consumes a character, so the engine's rule for empty iterations is not modelled; `bol` is `^` in a
pattern compiled with `MULTILINE`. -/
inductive Regex where
  | eps
  | cls (p : Char → Bool)
  | bos
  | bol
  | eos
  | wordB
  | seq (r s : Regex)
  | alt (r s : Regex)
  | star (greedy : Bool) (r : Regex)
  | grp (n : Nat) (r : Regex)
  | ref (n : Nat)

/-- A position in the subject text with the groups captured so far; `before` is the text
already read, last character first. -/
structure Cursor where
  before : Str
  rest : Str
  groups : List (Nat × Str)
  deriving DecidableEq

def Cursor.group (m : Cursor) (n : Nat) : Option Str := m.groups.lookup n

/-- The text read between two positions of one match. -/
def Cursor.readTo (m m' : Cursor) : Str := (m'.before.take (m'.before.length - m.before.length)).reverse

def Cursor.capture (m : Cursor) (n : Nat) (t : Str) : Cursor := ⟨m.before, m.rest, (n, t) :: m.groups⟩

/-- Reads `t` when the rest of the text begins with it. -/
def Cursor.readText (m : Cursor) (t : Str) : List Cursor :=
  if t.isPrefixOf m.rest then [⟨t.reverse ++ m.before, m.rest.drop t.length, m.groups⟩] else []

namespace Regex

def start (s : Str) : Cursor := ⟨[], s, []⟩

def stepChar (p : Char → Bool) (m : Cursor) : List Cursor :=
  match m.rest with
  | [] => []
  | c :: rest => if p c then [⟨c :: m.before, rest, m.groups⟩] else []

/-- All ways to repeat a step, in the order the engine tries them; an iteration that reads
nothing ends the repetition. -/
def iterate (f : Cursor → List Cursor) (greedy : Bool) : Nat → Cursor → List Cursor
  | 0, m => [m]
  | fuel + 1, m =>
    let more := (f m).flatMap fun m' =>
      if m'.rest.length < m.rest.length then iterate f greedy fuel m' else []
    if greedy then more ++ [m] else m :: more

section Matching

variable [UnicodeData]

def isWord (c : Char) : Bool := UnicodeData.isAlnum c || c == '_'

def atWordBoundary (m : Cursor) : Bool :=
  (m.before.head?.elim false isWord) != (m.rest.head?.elim false isWord)

/-- The ends of all matches that begin at a position, best first. -/
def matchesAt : Regex → Cursor → List Cursor
  | .eps, m => [m]
  | .cls p, m => stepChar p m
  | .bos, m => if m.before.isEmpty then [m] else []
  | .bol, m => if m.before.head?.elim true (· == '\n') then [m] else []
  | .eos, m => if m.rest.isEmpty || m.rest == ['\n'] then [m] else []
  | .wordB, m => if atWordBoundary m then [m] else []
  | .seq r s, m => (r.matchesAt m).flatMap s.matchesAt
  | .alt r s, m => r.matchesAt m ++ s.matchesAt m
  | .star greedy r, m => iterate r.matchesAt greedy m.rest.length m
  | .grp n r, m => (r.matchesAt m).map fun m' => m'.capture n (m.readTo m')
  | .ref n, m => (m.group n).elim [] m.readText

/-- `pattern.match(s)`. -/
def matchStart (r : Regex) (s : Str) : Option Cursor := (r.matchesAt (start s)).head?

/-- The leftmost match at or after a position, with the position where it begins. -/
def searchFrom (r : Regex) (before : Str) : Str → Option (Cursor × Cursor)
  | [] => ((r.matchesAt ⟨before, [], []⟩).head?).map fun m => (⟨before, [], []⟩, m)
  | c :: rest =>
    match (r.matchesAt ⟨before, c :: rest, []⟩).head? with
    | some m => some (⟨before, c :: rest, []⟩, m)
    | none => searchFrom r (c :: before) rest

/-- `pattern.search(s)`. -/
def search (r : Regex) (s : Str) : Option Cursor := (searchFrom r [] s).map Prod.snd

def found (r : Regex) (s : Str) : Bool := (search r s).isSome

/-- `pattern.finditer(s)` from a position, for patterns that never match the empty text. -/
def findFrom (r : Regex) : Nat → Cursor → List (Cursor × Cursor)
  | 0, _ => []
  | fuel + 1, m =>
    match searchFrom r m.before m.rest with
    | none => []
    | some (i, j) => (i, j) :: findFrom r fuel ⟨j.before, j.rest, []⟩

def finditer (r : Regex) (s : Str) : List Cursor := (findFrom r s.length (start s)).map Prod.snd

/-- `pattern.sub(f, s)` from a position: the text between matches is kept. -/
def subFrom (r : Regex) (f : Str → Cursor → Str) : Nat → Cursor → Str
  | 0, m => m.rest
  | fuel + 1, m =>
    match searchFrom r m.before m.rest with
    | none => m.rest
    | some (i, j) => m.readTo i ++ f (i.readTo j) j ++ subFrom r f fuel ⟨j.before, j.rest, []⟩

def sub (r : Regex) (f : Str → Cursor → Str) (s : Str) : Str := subFrom r f s.length (start s)

def countMatches (r : Regex) (s : Str) : Nat := (finditer r s).length

/-- `pattern.split(s)` for a pattern without groups that never matches the empty text. -/
def splitFrom (r : Regex) : Nat → Cursor → List Str
  | 0, m => [m.rest]
  | fuel + 1, m =>
    match searchFrom r m.before m.rest with
    | none => [m.rest]
    | some (i, j) => m.readTo i :: splitFrom r fuel ⟨j.before, j.rest, []⟩

def split (r : Regex) (s : Str) : List Str := splitFrom r s.length (start s)

end Matching

/-! Pattern syntax. -/

def chr (c : Char) : Regex := .cls (· == c)

def text (t : Str) : Regex := t.foldr (fun c r => .seq (chr c) r) .eps

def lit (s : String) : Regex := text s.toList

def cat (rs : List Regex) : Regex := rs.foldr .seq .eps

/-- `r|s|...`; the alternatives are tried from the left. -/
def anyOf : List Regex → Regex
  | [] => .cls fun _ => false
  | [r] => r
  | r :: s :: rs => .alt r (anyOf (s :: rs))

def lits (ss : List String) : Regex := anyOf (ss.map lit)

def many (r : Regex) : Regex := .star true r

def manyLazy (r : Regex) : Regex := .star false r

def some1 (r : Regex) : Regex := .seq r (many r)

def some1Lazy (r : Regex) : Regex := .seq r (manyLazy r)

def opt (r : Regex) : Regex := .alt r .eps

def exactly : Nat → Regex → Regex
  | 0, _ => .eps
  | n + 1, r => .seq r (exactly n r)

def atLeast (n : Nat) (r : Regex) : Regex := .seq (exactly n r) (many r)

/-- `.` without `DOTALL`. -/
def dot : Regex := .cls (· != '\n')

def oneOf (s : String) : Regex := .cls fun c => s.toList.contains c

def noneOf (s : String) : Regex := .cls fun c => !s.toList.contains c

def space : Regex := .cls isSpace

def spaces : Regex := many space

def spaces1 : Regex := some1 space

def between (a b : Char) (c : Char) : Bool := a ≤ c && c ≤ b

/-- A letter under `(?i)`: the four letters outside ASCII that fold to one of `i`, `s`, `k`
are included. -/
def sameFold (c x : Char) : Bool :=
  x.toLower == c.toLower || (c.toLower == 'i' && (x == '\u0130' || x == '\u0131')) ||
    (c.toLower == 's' && x == '\u017f') || (c.toLower == 'k' && x == '\u212a')

def ichr (c : Char) : Regex := .cls (sameFold c)

def ilit (s : String) : Regex := s.toList.foldr (fun c r => .seq (ichr c) r) .eps

def ilits (ss : List String) : Regex := anyOf (ss.map ilit)

def ioneOf (s : String) : Regex := .cls fun c => s.toList.any fun x => sameFold x c

/-- `[a-z]` under `(?i)`. -/
def isFoldedLetter (c : Char) : Bool :=
  c.isAlpha || c == '\u0130' || c == '\u0131' || c == '\u017f' || c == '\u212a'

/-- `\S`. -/
def notSpace : Regex := .cls fun c => !isSpace c

section Classes

variable [UnicodeData]

def word : Regex := .cls isWord

def digit : Regex := .cls isDecimal

end Classes

end Regex

end FailureOrchestrator
