import FailureOrchestrator.Fingerprint

namespace FailureOrchestrator

open Regex

def pytestTestsFailed : Int := 1

def pytestUsageError : Int := 4

def pytestNoTestsCollected : Int := 5

/-- One failed or erroring test with its exception, when known. -/
structure TestFailure where
  nodeid : Str
  exceptionType : Str := []
  message : Str := []
  deriving DecidableEq, Repr

/-- Counts of one or more test runs; `parsed` is false when no result line was found. -/
structure TestRunSummary where
  parsed : Bool := false
  passed : Nat := 0
  failed : Nat := 0
  errors : Nat := 0
  skipped : Nat := 0
  xfailed : Nat := 0
  xpassed : Nat := 0
  deselected : Nat := 0
  failures : List TestFailure := []
  coveragePercent : Option (WithTop ℚ) := none

/-- Tests that were collected and run. -/
def TestRunSummary.total (s : TestRunSummary) : Nat :=
  s.passed + s.failed + s.errors + s.skipped + s.xfailed + s.xpassed

def TestRunSummary.failedIds (s : TestRunSummary) : List Str := s.failures.map (·.nodeid)

/-- Adds the number of a result item to the count that its word names. -/
def TestRunSummary.count (s : TestRunSummary) (word : Str) (n : Nat) : TestRunSummary :=
  if word = "passed".toList then { s with passed := s.passed + n }
  else if word = "failed".toList then { s with failed := s.failed + n }
  else if inSet word ["error", "errors"] then { s with errors := s.errors + n }
  else if word = "skipped".toList then { s with skipped := s.skipped + n }
  else if word = "xfailed".toList then { s with xfailed := s.xfailed + n }
  else if word = "xpassed".toList then { s with xpassed := s.xpassed + n }
  else if word = "deselected".toList then { s with deselected := s.deselected + n }
  else s

/-- `failures.setdefault(f.nodeid, f)`. -/
def addFailure (failures : List TestFailure) (f : TestFailure) : List TestFailure :=
  if f.nodeid ∈ failures.map (·.nodeid) then failures else failures ++ [f]

/-- Merges the summaries of several runs; failures are kept once per node ID. -/
def combineSummaries (items : List TestRunSummary) : TestRunSummary where
  parsed := !items.isEmpty && items.all (·.parsed)
  passed := (items.map (·.passed)).sum
  failed := (items.map (·.failed)).sum
  errors := (items.map (·.errors)).sum
  skipped := (items.map (·.skipped)).sum
  xfailed := (items.map (·.xfailed)).sum
  xpassed := (items.map (·.xpassed)).sum
  deselected := (items.map (·.deselected)).sum
  failures := (items.flatMap (·.failures)).foldl addFailure []
  coveragePercent := items.reverse.findSome? (·.coveragePercent)

def letterOrUnderscore : Regex := .cls fun c => between 'A' 'Z' c || between 'a' 'z' c || c == '_'

section

variable [UnicodeData]

def timestampPrefixRe : Regex :=
  cat [.bos, exactly 4 digit, chr '-', exactly 2 digit, chr '-', exactly 2 digit, chr 'T',
    some1 (.cls fun c => isDecimal c || c == ':' || c == '.'), chr 'Z', opt space]

/-- Group 1 is `nodeid`, group 2 `detail`. -/
def summaryLineRe : Regex :=
  cat [.bos, lits ["FAILED", "ERROR"], spaces1, .grp 1 (some1 notSpace),
    opt (cat [spaces1, chr '-', spaces1, .grp 2 (many dot)]), .eos]

/-- Group 1 is `body`. -/
def resultLineRe : Regex :=
  cat [.bos, many (chr '='), spaces,
    .grp 1 (anyOf [some1 (cat [some1 digit, chr ' ', some1 (.cls (between 'a' 'z')), opt (lit ", ")]),
      lit "no tests ran"]),
    lit " in ", some1 (.cls fun c => isDecimal c || c == '.'), chr 's',
    opt (cat [lit " (", many (noneOf ")"), chr ')']), spaces, many (chr '='), .eos]

def resultItemRe : Regex := cat [.grp 1 (some1 digit), chr ' ', .grp 2 (some1 (.cls (between 'a' 'z')))]

def eLineRe : Regex := cat [.bos, chr 'E', spaces1, .grp 1 (.seq notSpace (many dot)), .eos]

def wordOrDot : Regex := .cls fun c => isWord c || c == '.'

/-- Group 1 is `exc`, group 2 `msg`. -/
def exceptionRe : Regex :=
  cat [.bos, .grp 1 (cat [letterOrUnderscore, many wordOrDot,
      lits ["Error", "Exception", "Failure", "Interrupt", "Exit", "Warning", "Timeout"]]),
    .wordB, opt (chr ':'), spaces, .grp 2 (many dot), .eos]

/-- Group 1 is `file`, group 2 `exc`. -/
def pytestFrameRe : Regex :=
  cat [.bos, .grp 1 (.seq (some1 (.cls fun c => !isSpace c && c != ':')) (lit ".py")), chr ':', some1 digit, lit ": ",
    .grp 2 (.seq letterOrUnderscore (many wordOrDot)), .eos]

def tracebackFrameRe : Regex :=
  cat [.bos, spaces, lit "File \"", .grp 1 (some1 (noneOf "\"")), lit "\", line ", some1 digit]

def coverageTotalRe : Regex :=
  cat [.bos, lit "TOTAL", spaces1, manyLazy dot, .grp 1 (.seq (some1 digit) (opt (.seq (chr '.') (some1 digit)))),
    chr '%', spaces, .eos]

/-- `_lines`: the lines of an output without their time stamps. -/
def outputLines (text : Str) : List Str :=
  (splitlines text).map fun line => sub timestampPrefixRe (fun _ _ => []) (rstrip line)

/-- The exception type and the message of a failure's detail. -/
def exceptionOf (detail : Str) : Str × Str :=
  let detail := strip detail
  if startsWith detail "assert ".toList || detail = "assert".toList then ("AssertionError".toList, detail)
  else
    match matchStart exceptionRe detail with
    | some m => ((m.group 1).getD [], (m.group 2).getD [])
    | none => ([], detail)

/-- The counts of a result line's body. -/
def countItems (s : TestRunSummary) (body : Str) : Except PyError TestRunSummary :=
  (finditer resultItemRe body).foldlM (fun s m => do
    let n ← pyInt ((m.group 1).getD [])
    return s.count ((m.group 2).getD []) n) s

/-- One line of the output. -/
def parseLine (s : TestRunSummary) (stripped : Str) : Except PyError TestRunSummary :=
  match matchStart summaryLineRe stripped with
  | some m =>
    let nodeid := (m.group 1).getD []
    let (exc, msg) := exceptionOf ((m.group 2).getD [])
    .ok { s with failures := addFailure s.failures ⟨nodeid, exc, msg⟩ }
  | none =>
    match matchStart resultLineRe stripped with
    | some m => countItems { s with parsed := true } ((m.group 1).getD [])
    | none =>
      match matchStart coverageTotalRe stripped with
      | some m => .ok { s with coveragePercent := some (pyFloat ((m.group 1).getD [])) }
      | none => .ok s

/-- The text of the first `E` line. -/
def firstE (lines : List Str) : Option Str :=
  lines.findSome? fun line => (matchStart eLineRe line).map fun m => (m.group 1).getD []

/-- A failure without a detail of its own takes the exception of the first `E` line. -/
def TestFailure.explain (text : Str) (f : TestFailure) : TestFailure :=
  if f.exceptionType.isEmpty && f.message.isEmpty then
    { f with exceptionType := (exceptionOf text).1, message := (exceptionOf text).2 }
  else f

def parseTestOutput (text : Str) : Except PyError TestRunSummary := do
  let lines := outputLines text
  let s ← lines.foldlM (fun s line => parseLine s (strip line)) {}
  return { s with failures := (firstE lines).elim s.failures fun text => s.failures.map (·.explain text) }

/-- What tells two failures apart: the failed tests, the exception and the file name of the last frame. -/
structure FailureFingerprint where
  exceptionType : Str := []
  frame : Str := []
  failedTests : List Str := []
  deriving DecidableEq, Repr

/-- `x or y`. -/
def orElse (x y : Str) : Str := if x.isEmpty then y else x

/-- The frame and the exception after one more line. -/
def frameStep (acc : Str × Str) (line : Str) : Str × Str :=
  match matchStart pytestFrameRe (strip line) with
  | some m => (orElse acc.1 (replaceChar '\\' '/' ((m.group 1).getD [])), orElse acc.2 ((m.group 2).getD []))
  | none =>
    match matchStart tracebackFrameRe line with
    | some m => (replaceChar '\\' '/' ((m.group 1).getD []), acc.2)
    | none => acc

/-- The exception of the last line that names one. -/
def lastException (lines : List Str) : Str :=
  (lines.reverse.findSome? fun line => (matchStart exceptionRe (strip line)).map fun m => (m.group 1).getD []).getD []

def fingerprintFailure (text : Str) : Except PyError FailureFingerprint := do
  let summary ← parseTestOutput text
  let lines := outputLines text
  let (frame, exc) := lines.foldl frameStep ([], (summary.failures.head?.map (·.exceptionType)).getD [])
  return {
    exceptionType := orElse exc (lastException lines)
    frame := afterLast '/' frame
    failedTests := sortStrs (fromKeys summary.failedIds) }

/-- Whether two failures are the same problem; `none` when there is too little to compare. -/
def sameFailure (a b : FailureFingerprint) : Option Bool :=
  if a.failedTests ≠ [] ∧ b.failedTests ≠ [] then some (a.failedTests.any (b.failedTests.contains ·))
  else if a.exceptionType ≠ [] ∧ b.exceptionType ≠ [] then
    if a.exceptionType ≠ b.exceptionType then some false
    else if a.frame ≠ [] ∧ b.frame ≠ [] then some (a.frame = b.frame)
    else some true
  else none

end

end FailureOrchestrator
