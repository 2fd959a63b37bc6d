import FailureOrchestrator.PyText

namespace FailureOrchestrator

/-- One item of an `fnmatch` pattern. -/
inductive GlobItem where
  | star
  | any
  | set (negated : Bool) (ranges : List (Char × Char))
  | chr (c : Char)
  deriving DecidableEq

namespace GlobItem

/-- The ranges between two brackets; a single character is a range of its own. -/
def ranges : Str → List (Char × Char)
  | c :: '-' :: d :: rest => (c, d) :: ranges rest
  | c :: rest => (c, c) :: ranges rest
  | [] => []

/-- What stands behind an opening bracket, up to its closing one; a first `]` does not close. -/
def bracket (s : Str) : Option (GlobItem × Str) :=
  let negated := s.head? = some '!'
  let body := if negated then s.tail else s
  let first := if body.head? = some ']' then [']'] else []
  let rest := body.drop first.length
  if rest.contains ']' then
    some (.set negated (ranges (first ++ beforeFirst ']' rest)), rest.drop ((beforeFirst ']' rest).length + 1))
  else none

/-- The items of a pattern; `fuel` is its length. -/
def parse : Nat → Str → List GlobItem
  | 0, _ | _, [] => []
  | fuel + 1, '*' :: rest => .star :: parse fuel rest
  | fuel + 1, '?' :: rest => .any :: parse fuel rest
  | fuel + 1, '[' :: rest =>
    match bracket rest with
    | some (item, rest') => item :: parse fuel rest'
    | none => .chr '[' :: parse fuel rest
  | fuel + 1, c :: rest => .chr c :: parse fuel rest

def accepts (c : Char) : GlobItem → Bool
  | .star => false
  | .any => true
  | .set negated ranges => negated != ranges.any fun r => r.1 ≤ c && c ≤ r.2
  | .chr d => c = d

def matchAll : List GlobItem → Str → Bool
  | [], s => s.isEmpty
  | .star :: items, s => s.tails.any (matchAll items)
  | _ :: _, [] => false
  | item :: items, c :: s => item.accepts c && matchAll items s

end GlobItem

/-- `fnmatch.fnmatchcase(name, pattern)`. -/
def fnmatchcase (name pattern : Str) : Bool := GlobItem.matchAll (GlobItem.parse pattern.length pattern) name

/-- The root of a POSIX path: none, `/`, or the two slashes that POSIX keeps. -/
def pathRoot (path : Str) : Str :=
  if startsWith path "///".toList then ['/'] else if startsWith path "//".toList then "//".toList
  else if startsWith path ['/'] then ['/'] else []

/-- `PurePosixPath(path).parts`. -/
def pathParts (path : Str) : List Str :=
  [pathRoot path].filter (· ≠ []) ++ (splitChar '/' path).filter fun part => part ≠ [] ∧ part ≠ ['.']

/-- `PurePosixPath(path).match(pattern)`: a relative pattern is matched from the right. -/
def pathMatch (path pattern : Str) : Except PyError Bool :=
  if pathParts pattern = [] then .error (.valueError "empty pattern")
  else if pathRoot pattern ≠ [] then
    .ok (pathRoot pattern = pathRoot path && (pathParts pattern).length = (pathParts path).length &&
      ((pathParts path).tail.zip (pathParts pattern).tail).all fun p => fnmatchcase p.1 p.2)
  else
    .ok (decide ((pathParts pattern).length ≤ (pathParts path).length) &&
      ((pathParts path).reverse.zip (pathParts pattern).reverse).all fun p => fnmatchcase p.1 p.2)

end FailureOrchestrator
