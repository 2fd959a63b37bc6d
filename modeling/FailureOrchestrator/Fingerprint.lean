import FailureOrchestrator.Models
import FailureOrchestrator.Regex
import Mathlib.Data.List.Sort

namespace FailureOrchestrator

open Regex

/-- `s.replace("\r\n", "\n")`. -/
def replaceCrlf : Str → Str
  | [] => []
  | '\r' :: '\n' :: rest => '\n' :: replaceCrlf rest
  | c :: rest => c :: replaceCrlf rest

/-- `sorted(xs)` of strings. -/
def sortStrs (xs : List Str) : List Str := xs.insertionSort (· ≤ ·)

def boolStr (b : Bool) : Str := if b then "True".toList else "False".toList

def intStr (n : Int) : Str := if n < 0 then '-' :: natStr n.natAbs else natStr n.natAbs

def normalizePatchLine (line : Str) : Str :=
  let stripped := rstrip line
  if startsWith stripped "+++ ".toList || startsWith stripped "--- ".toList then beforeFirst '\t' stripped
  else stripped

/-- Patch normalization for fingerprinting: trailing blanks, file time stamps and final blank lines go. -/
def normalizePatch (patch : Str) : Str :=
  let lines := (splitChar '\n' (replaceCrlf patch)).map normalizePatchLine
  joinWith ['\n'] (lines.rdropWhile List.isEmpty)

def tempPath : Regex :=
  cat [anyOf [ilit "/tmp/", ilit "/var/folders/",
      cat [.cls isFoldedLetter, ilit ":\\users\\", some1 (noneOf "\\"), ilit "\\appdata\\local\\temp\\"]],
    some1 notSpace]

def hexDigit : Regex := .cls fun c => c.isDigit || between 'a' 'f' c.toLower

def uuidish : Regex :=
  cat [.wordB, exactly 8 hexDigit, chr '-', exactly 4 hexDigit, chr '-', exactly 4 hexDigit, chr '-',
    exactly 4 hexDigit, chr '-', exactly 12 hexDigit, .wordB]

def runIdPattern : Regex := cat [.wordB, ilit "run-", some1 (.cls fun c => isFoldedLetter c || c.isDigit), .wordB]

section

variable [UnicodeData]

def timeStamp : Regex :=
  cat [exactly 4 digit, chr '-', exactly 2 digit, chr '-', exactly 2 digit, chr 'T', exactly 2 digit, chr ':',
    exactly 2 digit, chr ':', exactly 2 digit, opt (.seq (chr '.') (some1 digit)),
    opt (.alt (chr 'Z') (cat [oneOf "+-", exactly 2 digit, chr ':', exactly 2 digit]))]

/-- Replaces temporary paths, identifiers and time stamps by fixed marks. -/
def stabilize (text : Str) : Str :=
  let text := sub tempPath (fun _ _ => "<TMP>".toList) text
  let text := sub uuidish (fun _ _ => "<ID>".toList) text
  let text := sub runIdPattern (fun _ _ => "<RUN>".toList) text
  sub timeStamp (fun _ _ => "<TS>".toList) text

def proposalPayload (proposal : RepairProposal) : Str :=
  joinWith ['\n'] [normalizePatch proposal.patch,
    joinWith ['\n'] (sortStrs (proposal.filesChanged.map (replaceChar '\\' '/')))]

/-- The first line of a message that is not blank, stripped. -/
def signatureLine (message : Str) : Str :=
  ((splitlines message).map strip |>.find? fun line => !line.isEmpty).getD []

def eventParts (event : FailureEvent) : List Str :=
  let hint := [event.message, event.logExcerpt].find? fun hay => hasSub hay "::".toList || hasSub hay "test_".toList
  ["step=".toList ++ event.failedStep,
    "exit=".toList ++ event.exitCode.elim "None".toList intStr,
    "msg=".toList ++ (signatureLine (stabilize event.message)).take 240] ++
  hint.elim [] fun hay => ["test_hint=".toList ++ (stabilize hay).take 160]

def failedCheckNames (evaluation : EvaluationResult) : List Str :=
  (evaluation.checks.filter fun c => c.status = .failed).map (·.name)

def failurePayload (event : FailureEvent) (classification : FailureClassification) (evaluation : EvaluationResult)
    (sandbox : SandboxResult) : Str :=
  joinWith ['\n'] (["category=".toList ++ classification.category.toList] ++ eventParts event ++
    ["failed_checks=".toList ++ joinWith [','] (sortStrs (failedCheckNames evaluation)),
      "target_pass=".toList ++ boolStr evaluation.targetVerificationPassed,
      "forbidden=".toList ++ boolStr evaluation.forbiddenChangesDetected] ++
    match sandbox.error with
    | none | some [] => []
    | some error => ["sandbox_error=".toList ++ (stabilize error).take 120])

/-- `sha256` is the hexadecimal digest of the UTF-8 encoding of a text. -/
def proposalFingerprint (sha256 : Str → Str) (proposal : RepairProposal) : Str := sha256 (proposalPayload proposal)

def failureFingerprint (sha256 : Str → Str) (event : FailureEvent) (classification : FailureClassification)
    (evaluation : EvaluationResult) (sandbox : SandboxResult) : Str :=
  sha256 (failurePayload event classification evaluation sandbox)

end

end FailureOrchestrator
