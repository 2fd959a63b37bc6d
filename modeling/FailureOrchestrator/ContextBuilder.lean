import FailureOrchestrator.Models
import FailureOrchestrator.SanitizedEvidence

namespace FailureOrchestrator

structure ContextBudget where
  maxChars : Int := 50000
  maxLogChars : Int := 12000
  maxDiffChars : Int := 15000
  maxItems : Int := 40

structure ContextBuildError where
  message : String

/-- An earlier attempt as the builder reads it: `str(summary)` where the summary is true, and `str(attempt)`. -/
structure PreviousAttempt where
  summary : Option Str
  text : Str

/-- The context with what the builder records about it. -/
structure BuiltContext extends FailureContext where
  eventId : Str
  truncated : Bool
  truncationReasons : List Str
  redactionsApplied : Nat
  charCount : Nat

/-! ## One value -/

inductive ContextLabel where
  | failedStep
  | message
  | changedPaths
  | testHint
  | logExcerpt
  | repository
  | commitSha
  | branch
  | workflow
  | job
  | diff
  | previousAttempt
  deriving DecidableEq

/-- The labels in the order in which the builder adds their values. -/
def ContextLabel.all : List ContextLabel :=
  [.failedStep, .message, .changedPaths, .testHint, .logExcerpt, .repository, .commitSha, .branch, .workflow, .job,
    .diff, .previousAttempt]

def ContextLabel.text : ContextLabel → Str
  | .failedStep => "failed_step".toList
  | .message => "message".toList
  | .changedPaths => "changed_paths".toList
  | .testHint => "test_hint".toList
  | .logExcerpt => "log_excerpt".toList
  | .repository => "repository".toList
  | .commitSha => "commit_sha".toList
  | .branch => "branch".toList
  | .workflow => "workflow".toList
  | .job => "job".toList
  | .diff => "diff".toList
  | .previousAttempt => "previous_attempt".toList

/-- `f"{label}: {value}"` -/
def ContextLabel.item (label : ContextLabel) (value : Str) : Str := label.text ++ ": ".toList ++ value

/-- `f"truncated:{label}"` -/
def ContextLabel.cutReason (label : ContextLabel) : Str := "truncated:".toList ++ label.text

/-- `f"skipped_binary:{label}"` -/
def ContextLabel.binaryReason (label : ContextLabel) : Str := "skipped_binary:".toList ++ label.text

/-- The arguments of one call of `add`. -/
structure Addition where
  label : ContextLabel
  value : Str
  limit : Option Int := none
  deriving DecidableEq

/-- What the calls of `add` have changed so far. -/
structure Gathered where
  items : List Str := []
  reasons : List Str := []
  redactions : Nat := 0
  truncated : Bool := false

/-- `items[:n]` -/
def firstItems (items : List Str) (n : Int) : List Str :=
  if 0 ≤ n then items.take n.toNat else items.take (items.length - (-n).toNat)

section

variable [UnicodeData]

/-- A text with a NUL, or with less than 70% of printable characters in its first 4000. -/
def isBinaryNoise (text : Str) : Bool :=
  if text.isEmpty then false
  else if text.contains '\x00' then true
  else
    let sample := text.take 4000
    let printable := sample.countP fun ch => UnicodeData.isPrintable ch || "\n\r\t".toList.contains ch
    decide (nearestDouble printable sample.length < nearestDouble 7 10)

namespace Addition

variable (a : Addition)

def cleaned : Str := (sanitizeText a.value).1

/-- The limit if the cleaned text is longer. -/
def exceeded : Option Int := a.limit.filter fun limit => limit < (a.cleaned.length : Int)

/-- The cleaned text within the limit. -/
def cutText (limit : Int) : Str := a.cleaned.take (max 0 (limit - 24)).toNat ++ "\n...[truncated]".toList

end Addition

def add (g : Gathered) (a : Addition) : Gathered :=
  if isBinaryNoise a.value then { g with reasons := g.reasons ++ [a.label.binaryReason] }
  else
    let g := { g with redactions := g.redactions + (sanitizeText a.value).2 }
    match a.exceeded with
    | some limit =>
      { g with
        items := g.items ++ [a.label.item (a.cutText limit)]
        reasons := g.reasons ++ [a.label.cutReason]
        truncated := true }
    | none => { g with items := g.items ++ [a.label.item a.cleaned] }

end

/-! ## The values of an event -/

/-- `p.replace("\\", "/")` -/
def slashed (p : Str) : Str := replaceChar '\\' '/' p

def safePath (p : Str) : Bool := !hasSub (slashed p) "..".toList && !startsWithAny p ["/", "\\"]

def safePaths (event : FailureEvent) : List Str := (event.changedPaths.filter safePath).map slashed

/-- The message or the log, whichever first looks like the name of a test. -/
def testHint (event : FailureEvent) : Option Str :=
  [event.message, event.logExcerpt].find? fun hay => hasSub hay "test_".toList || hasSub hay "::".toList

def PreviousAttempt.key (attempt : PreviousAttempt) : Str := attempt.summary.getD attempt.text

/-- A value that is added unless it is empty. -/
def given (label : ContextLabel) (value : Str) (limit : Option Int) : List Addition :=
  if value.isEmpty then [] else [⟨label, value, limit⟩]

/-- The calls of `add` with a label. -/
def additionsOf (budget : ContextBudget) (event : FailureEvent) (diffExcerpt : Str)
    (previousAttempts : List PreviousAttempt) : ContextLabel → List Addition
  | .failedStep => [⟨.failedStep, event.failedStep, none⟩]
  | .message => [⟨.message, event.message, some 4000⟩]
  | .changedPaths =>
    if (safePaths event).isEmpty then [] else [⟨.changedPaths, joinWith ", ".toList (safePaths event), none⟩]
  | .testHint => ((testHint event).map fun hay => ⟨.testHint, hay, some 1000⟩).toList
  | .logExcerpt => given .logExcerpt event.logExcerpt (some budget.maxLogChars)
  | .repository => given .repository event.repository none
  | .commitSha => given .commitSha event.commitSha none
  | .branch => given .branch event.branch none
  | .workflow => given .workflow event.workflow none
  | .job => given .job event.job none
  | .diff => given .diff diffExcerpt (some budget.maxDiffChars)
  | .previousAttempt =>
    (fromKeys (previousAttempts.map PreviousAttempt.key)).map fun key => ⟨.previousAttempt, key, some 800⟩

/-- The calls of `add`, in their order. -/
def additions (budget : ContextBudget) (event : FailureEvent) (diffExcerpt : Str)
    (previousAttempts : List PreviousAttempt) : List Addition :=
  ContextLabel.all.flatMap (additionsOf budget event diffExcerpt previousAttempts)

/-! ## The context -/

section

variable [UnicodeData]

def contextSummary (event : FailureEvent) : Str :=
  event.workflow ++ "/".toList ++ event.job ++ " failed at ".toList ++ event.failedStep ++ ": ".toList ++
    (sanitizeText event.message).1.take 200

def buildContext (budget : ContextBudget) (event : FailureEvent) (diffExcerpt : Str)
    (previousAttempts : List PreviousAttempt) : Except ContextBuildError BuiltContext :=
  if event.runId.isEmpty then .error ⟨"FailureEvent.run_id is required"⟩
  else
    let g := (additions budget event diffExcerpt previousAttempts).foldl add {}
    let prioritized := firstItems g.items budget.maxItems
    let blob := joinWith ['\n'] prioritized
    let exceeded := decide (budget.maxChars < blob.length)
    let cut := if exceeded then sliceTo blob budget.maxChars ++ "\n...[context_budget]".toList else blob
    .ok {
      runId := event.runId
      eventId := event.eventId
      summary := contextSummary event
      prioritizedEvidence := if exceeded then splitlines cut else prioritized
      changedPaths := safePaths event
      truncated := g.truncated || exceeded
      truncationReasons := if exceeded then g.reasons ++ ["context_budget".toList] else g.reasons
      redactionsApplied := g.redactions
      charCount := cut.length }

end

end FailureOrchestrator
