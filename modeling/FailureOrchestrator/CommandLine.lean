import FailureOrchestrator.Integrity

namespace FailureOrchestrator

/-- What `shlex` is in: between words, inside a word, or inside a quoted part of one. -/
inductive LexState where
  | blank
  | word
  | quote (q : Char)

def shlexWhitespace (c : Char) : Bool := " \t\r\n".toList.contains c

/-- `list(lexer)` of a `shlex` in POSIX mode with `whitespace_split` and no escape character. `token` is the word read
so far and `quoted` whether a part of it was quoted; a comment runs to the end of its line. -/
def shlexWords : LexState → Bool → Str → Bool → Str → Except PyError (List Str)
  | .quote _, _, _, _, [] => .error (.valueError "No closing quotation")
  | _, _, token, quoted, [] => .ok (if token.isEmpty && !quoted then [] else [token])
  | state, true, token, quoted, c :: rest => shlexWords state (c != '\n') token quoted rest
  | .quote q, false, token, quoted, c :: rest =>
    if c = q then shlexWords .word false token quoted rest else shlexWords (.quote q) false (token ++ [c]) quoted rest
  | .blank, false, _, _, c :: rest =>
    if shlexWhitespace c then shlexWords .blank false [] false rest
    else if c = '#' then shlexWords .blank true [] false rest
    else if c = '\'' ∨ c = '"' then shlexWords (.quote c) false [] true rest
    else shlexWords .word false [c] false rest
  | .word, false, token, quoted, c :: rest =>
    if shlexWhitespace c || c = '#' then do
      let words ← shlexWords .blank (c = '#') [] false rest
      return if token.isEmpty && !quoted then words else token :: words
    else if c = '\'' ∨ c = '"' then shlexWords (.quote c) false token true rest
    else shlexWords .word false (token ++ [c]) quoted rest

/-- `split_command`; `which` finds an executable on the path. -/
def splitCommand (which : Str → Option Str) (command : Str) : Except PyError (List Str) := do
  match ← shlexWords .blank false [] false command with
  | [] => .error (.valueError "empty command")
  | executable :: args => return (which executable).getD executable :: args

/-- A `PurePosixPath`: its root, `/` or `//`, and its parts. -/
structure PosixPath where
  root : Str
  parts : List Str
  deriving DecidableEq, Repr

namespace PosixPath

def ofStr (s : Str) : PosixPath where
  root := if startsWith s "//".toList && !startsWith s "///".toList then "//".toList
    else if startsWith s ['/'] then ['/'] else []
  parts := (splitChar '/' s).filter fun part => !part.isEmpty && part != ['.']

def str (p : PosixPath) : Str :=
  let s := p.root ++ joinWith ['/'] p.parts
  if s.isEmpty then ['.'] else s

/-- `p / s` of a relative path `s`. -/
def child (p : PosixPath) (s : Str) : PosixPath := ⟨p.root, p.parts ++ (ofStr s).parts⟩

/-- `p / s`; an absolute `s` replaces `p`. -/
def join (p : PosixPath) (s : Str) : PosixPath := if (ofStr s).root.isEmpty then p.child s else ofStr s

/-- The directories that an absolute path leads through when none is a link. -/
def resolved (p : PosixPath) : List Str :=
  p.parts.foldl (fun done part => if part = "..".toList then done.dropLast else done ++ [part]) []

def parent (p : PosixPath) : PosixPath := ⟨p.root, p.parts.dropLast⟩

def name (p : PosixPath) : Str := p.parts.getLastD []

/-- The last dot of the name begins the suffix, unless it is the first or the last character. -/
def suffix (p : PosixPath) : Str :=
  let last := afterLast '.' p.name
  let stem := p.name.take (p.name.length - last.length - 1)
  if stem.isEmpty || last.isEmpty then [] else '.' :: last

def stem (p : PosixPath) : Str := p.name.take (p.name.length - p.suffix.length)

end PosixPath

/-- A text that is one step of a path. -/
structure PathStep (s : Str) : Prop where
  nonempty : s ≠ []
  dot : s ≠ ['.']
  dots : s ≠ "..".toList
  slash : '/' ∉ s

theorem PathStep.ofStr {name : Str} (h : PathStep name) : PosixPath.ofStr name = ⟨[], [name]⟩ := by
  have hroot : ∀ rest, startsWith name ('/' :: rest) = false := by
    intro rest
    refine Bool.eq_false_iff.mpr fun hstart => h.slash ?_
    exact (List.isPrefixOf_iff_prefix.mp hstart).subset List.mem_cons_self
  have hone : (!name.isEmpty && name != ['.']) = true := by simp [h.nonempty, h.dot]
  unfold PosixPath.ofStr
  rw [show "//".toList = '/' :: ['/'] from rfl, hroot, hroot, splitChar, List.splitOn_eq_singleton h.slash,
    List.filter_cons, if_pos hone]
  rfl

theorem PathStep.join {name : Str} (h : PathStep name) (p : PosixPath) : p.join name = ⟨p.root, p.parts ++ [name]⟩ := by
  unfold PosixPath.join PosixPath.child
  rw [h.ofStr]
  rfl

theorem resolved_snoc {name : Str} (root : Str) (parts : List Str) (h : name ≠ "..".toList) :
    (PosixPath.mk root (parts ++ [name])).resolved = (PosixPath.mk root parts).resolved ++ [name] := by
  unfold PosixPath.resolved
  rw [List.foldl_append, List.foldl_cons, List.foldl_nil, if_neg h]

/-- `s.removesuffix(x)`. -/
def removeSuffix (s x : Str) : Str := if endsWith s x && !x.isEmpty then s.take (s.length - x.length) else s

/-- `s.removeprefix("./")`. -/
def removeDotSlash : Str → Str
  | '.' :: '/' :: rest => rest
  | s => s

section

variable [UnicodeData]

def isPytest (token : Str) : Bool :=
  inSet (removeSuffix (UnicodeData.lower (PosixPath.ofStr (replaceChar '\\' '/' token)).name) ".exe".toList)
    ["pytest", "py.test"]

/-- The arguments up to and including pytest; none for other runners. -/
def pytestPrefix : List Str → Option (List Str)
  | [] => none
  | token :: rest =>
    if isPytest token then some [token]
    else if token = "-m".toList ∧ rest.head? = some "pytest".toList then some (token :: rest.take 1)
    else (pytestPrefix rest).map (token :: ·)

/-- The tests that convention or the configuration maps to one changed file. -/
def testCandidates (explicit : List (Str × List Str)) (path : Str) : List Str :=
  let posix := PosixPath.ofStr (replaceChar '\\' '/' path)
  let parent := posix.parent
  let testFile := "test_".toList ++ posix.stem ++ ".py".toList
  let inSource := posix.root.isEmpty && inSet (parent.parts.headD []) ["src", "lib"]
  let relParent := if inSource then parent.parts.drop 1 else parent.parts
  (explicit.lookup path).getD [] ++
  (if posix.suffix ≠ ".py".toList then []
    else if isTestPath path then [posix.str]
    else
      ["tests/".toList ++ testFile,
        (if posix.root.isEmpty then (⟨[], "tests".toList :: (relParent ++ [testFile])⟩ : PosixPath)
          else ⟨posix.root, relParent ++ [testFile]⟩).str,
        (parent.child testFile).str,
        ((parent.child "tests".toList).child testFile).str,
        (parent.child (posix.stem ++ "_test.py".toList)).str])

def affectedTestCandidates (changed : List Str) (explicit : List (Str × List Str)) : List Str :=
  fromKeys ((changed.flatMap (testCandidates explicit)).map removeDotSlash)

end

end FailureOrchestrator
