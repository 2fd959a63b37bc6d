import FailureOrchestrator.UnifiedDiff

namespace FailureOrchestrator

/-! The text that `git diff` writes for a list of file changes, with git's default
`core.quotePath`. This is git's side of the format; the readers are modelled elsewhere. -/

/-- A tracked path: never empty and never absolute. -/
structure GitPath where
  name : Str
  nonempty : name ≠ []
  relative : name.head? ≠ some '/'
  deriving DecidableEq

/-- Bytes that git writes only inside a C-style quoted name. -/
def needsQuote (c : Char) : Bool :=
  decide (c.toNat < 0x20) || c == '"' || c == '\\' || decide (0x7f ≤ c.toNat)

def octalByte (b : Nat) : Str :=
  ['\\', (b / 64).digitChar, (b / 8 % 8).digitChar, (b % 8).digitChar]

def quoteChar (c : Char) : Str :=
  if c = '"' then "\\\"".toList
  else if c = '\\' then "\\\\".toList
  else if c = '\x07' then "\\a".toList
  else if c = '\x08' then "\\b".toList
  else if c = '\t' then "\\t".toList
  else if c = '\n' then "\\n".toList
  else if c = '\x0b' then "\\v".toList
  else if c = '\x0c' then "\\f".toList
  else if c = '\r' then "\\r".toList
  else if needsQuote c then (String.utf8EncodeChar c).flatMap fun b => octalByte b.toNat
  else [c]

/-- A name with its side prefix, quoted as a whole when a byte of it needs quoting. -/
def quoteName (side : Str) (name : Str) : Str :=
  if name.any needsQuote then ['"'] ++ side ++ name.flatMap quoteChar ++ ['"'] else side ++ name

inductive LineMarker where
  | context
  | added
  | removed
  deriving DecidableEq, Repr

def LineMarker.char : LineMarker → Char
  | .context => ' '
  | .added => '+'
  | .removed => '-'

/-- A hunk line; `noEol` asks for the note that follows a last line without newline. -/
structure HunkLine where
  marker : LineMarker
  text : Str
  noEol : Bool
  oneLine : '\n' ∉ text
  deriving DecidableEq

/-- A hunk; the heading is the text git copies after the counts. -/
structure Hunk where
  oldStart : Nat
  newStart : Nat
  heading : Option Str
  lines : List HunkLine
  headingOneLine : ∀ h ∈ heading, '\n' ∉ h

theorem noHeading_oneLine : ∀ h ∈ (none : Option Str), '\n' ∉ h := nofun

inductive FileMode where
  | regular
  | executable
  | symlink
  | gitlink
  deriving DecidableEq, Repr

def FileMode.text : FileMode → Str
  | .regular => "100644".toList
  | .executable => "100755".toList
  | .symlink => "120000".toList
  | .gitlink => "160000".toList

inductive ChangeKind where
  | modify (path : GitPath)
  | add (path : GitPath)
  | delete (path : GitPath)
  | rename (old new : GitPath)
  | copy (old new : GitPath)
  deriving DecidableEq

def ChangeKind.old : ChangeKind → GitPath
  | .modify p | .add p | .delete p => p
  | .rename o _ | .copy o _ => o

def ChangeKind.new : ChangeKind → GitPath
  | .modify p | .add p | .delete p => p
  | .rename _ n | .copy _ n => n

inductive ChangeBody where
  | hunks (hs : List Hunk)
  | binary

/-- One section of a git diff. A change of mode only, a pure rename and an empty file are
sections with no hunk. -/
structure FileChange where
  kind : ChangeKind
  oldMode : FileMode
  newMode : FileMode
  index : Option (List (Fin 16) × List (Fin 16))
  similarity : Nat
  body : ChangeBody

abbrev GitDiff := List FileChange

def Hunk.oldCount (h : Hunk) : Nat := h.lines.countP fun l => decide (l.marker ≠ .added)

def Hunk.newCount (h : Hunk) : Nat := h.lines.countP fun l => decide (l.marker ≠ .removed)

/-- `start` or `start,count`; git leaves out a count of one. -/
def hunkRange (start count : Nat) : Str :=
  natStr start ++ if count = 1 then [] else ',' :: natStr count

def Hunk.header (h : Hunk) : Str :=
  "@@ -".toList ++ hunkRange h.oldStart h.oldCount ++ " +".toList ++ hunkRange h.newStart h.newCount ++
    " @@".toList ++ (h.heading.elim [] fun t => ' ' :: t)

def noEolNote : Str := "\\ No newline at end of file".toList

def HunkLine.render (l : HunkLine) : List Str :=
  (l.marker.char :: l.text) :: if l.noEol then [noEolNote] else []

def Hunk.render (h : Hunk) : List Str := h.header :: h.lines.flatMap HunkLine.render

def hexText (ds : List (Fin 16)) : Str := ds.map fun d => d.val.digitChar

namespace FileChange

def diffGitLine (c : FileChange) : Str :=
  "diff --git ".toList ++ quoteName "a/".toList c.kind.old.name ++ [' '] ++
    quoteName "b/".toList c.kind.new.name

def modeLines (c : FileChange) : List Str :=
  match c.kind with
  | .add _ => ["new file mode ".toList ++ c.newMode.text]
  | .delete _ => ["deleted file mode ".toList ++ c.oldMode.text]
  | _ =>
    if c.oldMode = c.newMode then []
    else ["old mode ".toList ++ c.oldMode.text, "new mode ".toList ++ c.newMode.text]

def similarityLine (c : FileChange) : Str := "similarity index ".toList ++ natStr c.similarity ++ ['%']

def moveLines (c : FileChange) : List Str :=
  match c.kind with
  | .rename o n => [c.similarityLine, "rename from ".toList ++ quoteName [] o.name,
      "rename to ".toList ++ quoteName [] n.name]
  | .copy o n => [c.similarityLine, "copy from ".toList ++ quoteName [] o.name,
      "copy to ".toList ++ quoteName [] n.name]
  | _ => []

def indexLines (c : FileChange) : List Str :=
  match c.index with
  | none => []
  | some (o, n) => ["index ".toList ++ hexText o ++ "..".toList ++ hexText n ++
      match c.kind with
      | .add _ | .delete _ => []
      | _ => if c.oldMode = c.newMode then ' ' :: c.newMode.text else []]

def oldLabel (c : FileChange) : Str :=
  match c.kind with
  | .add _ => "/dev/null".toList
  | _ => quoteName "a/".toList c.kind.old.name

def newLabel (c : FileChange) : Str :=
  match c.kind with
  | .delete _ => "/dev/null".toList
  | _ => quoteName "b/".toList c.kind.new.name

/-- A label with a space is ended by a tab. -/
def withTab (label : Str) : Str := if ' ' ∈ label then label ++ ['\t'] else label

def bodyLines (c : FileChange) : List Str :=
  match c.body with
  | .binary => ["Binary files ".toList ++ c.oldLabel ++ " and ".toList ++ c.newLabel ++ " differ".toList]
  | .hunks [] => []
  | .hunks (h :: hs) => ("--- ".toList ++ withTab c.oldLabel) :: ("+++ ".toList ++ withTab c.newLabel) ::
      (h :: hs).flatMap Hunk.render

def render (c : FileChange) : List Str :=
  c.diffGitLine :: (c.modeLines ++ c.moveLines ++ c.indexLines ++ c.bodyLines)

def hunks (c : FileChange) : List Hunk :=
  match c.body with
  | .binary => []
  | .hunks hs => hs

def hunkLines (c : FileChange) : List HunkLine := c.hunks.flatMap Hunk.lines

def isDelete (c : FileChange) : Bool :=
  match c.kind with
  | .delete _ => true
  | _ => false

def renameSource (c : FileChange) : Option GitPath :=
  match c.kind with
  | .rename o _ => some o
  | _ => none

/-- What a reader of the section should report. -/
def fileDiff (c : FileChange) : FileDiff where
  path := c.kind.new.name
  deleted := c.isDelete
  renamedFrom := c.renameSource.elim [] GitPath.name
  added := (c.hunkLines.filter fun l => decide (l.marker = .added)).map HunkLine.text
  removed := (c.hunkLines.filter fun l => decide (l.marker = .removed)).map HunkLine.text
  lines := c.hunkLines.map fun l => (l.marker.char, l.text)

end FileChange

/-- LF-terminated lines. -/
def unlines (ls : List Str) : Str := ls.flatMap fun l => l ++ ['\n']

def GitDiff.render (d : GitDiff) : Str := unlines (d.flatMap FileChange.render)

end FailureOrchestrator
