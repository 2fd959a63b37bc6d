import FailureOrchestrator.IntegrityPatterns

namespace FailureOrchestrator

open Regex

/-- Added and removed lines of one file of a unified diff; `lines` keeps the hunk lines in
order with their markers. -/
structure FileDiff where
  path : Str
  deleted : Bool := false
  renamedFrom : Str := []
  added : List Str := []
  removed : List Str := []
  lines : List (Char × Str) := []
  deriving DecidableEq, Repr

/-- The variables of the line loop. The loop's `current` is always the last file appended,
so the list of files is `done ++ current.toList`. -/
structure DiffState where
  done : List FileDiff := []
  current : Option FileDiff := none
  inHunk : Bool := false
  counted : Bool := false
  oldLeft : Int := 0
  newLeft : Int := 0
  pendingOld : Option Str := none
  gitHeader : Bool := false
  deriving DecidableEq, Repr

def DiffState.files (st : DiffState) : List FileDiff := st.done ++ st.current.toList

def DiffState.openFile (st : DiffState) (d : FileDiff) : DiffState :=
  { st with done := st.files, current := some d }

def stripPrefix (path : Str) : Str :=
  let path := beforeFirst '\t' (strip path)
  if startsWithAny path ["a/", "b/"] then path.drop 2 else path

/-- Ends a counted hunk once both counters are used up. -/
def DiffState.endHunk (st : DiffState) : DiffState :=
  if st.inHunk && st.counted && decide (st.oldLeft ≤ 0) && decide (st.newLeft ≤ 0) then
    { st with inHunk := false }
  else st

def FileDiff.addLine (d : FileDiff) (marker : Char) (text : Str) : FileDiff :=
  { d with
    added := if marker = '+' then d.added ++ [text] else d.added
    removed := if marker = '-' then d.removed ++ [text] else d.removed
    lines := d.lines ++ [(marker, text)] }

def headerLikePrefixes : List String := ["diff --git ", "@@", "--- a/", "+++ b/", "--- /dev/null"]

/-- One line inside a hunk of `d`; `none` when the line ends the hunk. -/
def hunkStep (st : DiffState) (d : FileDiff) (raw : Str) : Option DiffState :=
  if startsWith raw ['\\'] then some st
  else
    let headerLike := !st.counted && startsWithAny raw headerLikePrefixes
    let marker := raw.head?.getD ' '
    if (marker == '+' || marker == '-' || marker == ' ') && !headerLike then
      some { st with
        current := some (d.addLine marker raw.tail)
        oldLeft := if marker = '+' then st.oldLeft else st.oldLeft - 1
        newLeft := if marker = '-' then st.newLeft else st.newLeft - 1 }
    else none

/-- The `+++` line: it names the file, and `/dev/null` marks a deletion. -/
def newFileStep (st : DiffState) (raw : Str) : DiffState :=
  let newPath := stripPrefix (raw.drop 4)
  let deleted := newPath == "/dev/null".toList
  let path := if deleted then st.pendingOld.getD [] else newPath
  let st := match st.current, st.gitHeader with
    | some d, true => { st with current := some (if path.isEmpty then d else { d with path }) }
    | _, _ => st.openFile { path }
  { st with
    current := st.current.map fun d => { d with deleted := d.deleted || deleted }
    gitHeader := false }

/-- The counts that a hunk header declares; a missing count is one. -/
def hunkCounts [UnicodeData] (raw : Str) : Except PyError (Option (Nat × Nat)) :=
  match matchStart hunkRe raw with
  | none => .ok none
  | some m => do
    let old ← (m.group 1).elim (.ok 1) pyInt
    let new ← (m.group 2).elim (.ok 1) pyInt
    return some (old, new)

def hunkHeaderStep [UnicodeData] (st : DiffState) (raw : Str) : Except PyError DiffState := do
  let st := if st.current.isNone then st.openFile { path := [] } else st
  match ← hunkCounts raw with
  | some (old, new) =>
    return { st with counted := true, oldLeft := old, newLeft := new, inHunk := true, gitHeader := false }
  | none => return { st with counted := false, inHunk := true, gitHeader := false }

/-- One line outside a hunk. -/
def headerStep [UnicodeData] (st : DiffState) (raw : Str) : Except PyError DiffState :=
  if startsWith raw "diff --git ".toList then
    let parts := splitChar ' ' raw
    let path := if 4 ≤ parts.length then stripPrefix (parts.getLastD []) else []
    .ok { st.openFile { path } with pendingOld := none, gitHeader := true }
  else if startsWith raw "deleted file mode".toList && st.current.isSome then
    .ok { st with current := st.current.map fun d => { d with deleted := true } }
  else if startsWith raw "rename from ".toList && st.current.isSome then
    .ok { st with current := st.current.map fun d => { d with renamedFrom := strip (raw.drop 12) } }
  else if startsWith raw "rename to ".toList && st.current.isSome then
    .ok { st with current := st.current.map fun d => { d with path := strip (raw.drop 10) } }
  else if startsWith raw "--- ".toList then
    .ok { st with pendingOld := some (stripPrefix (raw.drop 4)) }
  else if startsWith raw "+++ ".toList then .ok (newFileStep st raw)
  else if startsWith raw "@@".toList then hunkHeaderStep st raw
  else .ok st

def diffStep [UnicodeData] (st : DiffState) (raw : Str) : Except PyError DiffState :=
  let st := st.endHunk
  match st.inHunk, st.current with
  | true, some d =>
    match hunkStep st d raw with
    | some st' => .ok st'
    | none => headerStep { st with inHunk := false } raw
  | _, _ => headerStep st raw

def parseUnifiedDiff [UnicodeData] (patch : Str) : Except PyError (List FileDiff) :=
  return (← (splitlines patch).foldlM diffStep {}).files

end FailureOrchestrator
