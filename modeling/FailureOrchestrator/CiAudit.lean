import FailureOrchestrator.Exec
import FailureOrchestrator.Fingerprint
import Mathlib.Data.Rat.Floor

namespace FailureOrchestrator

inductive AuditError where
  | valueError (message : Str)
  | typeError
  | zeroDivisionError
  | overflowError

structure AuditRun where
  id : Int
  workflowId : Option Int
  workflow : Option Str := none
  name : Option Str := none
  event : Option Str := none
  headSha : Option Str := none
  status : Option Str := none
  conclusion : Option Str := none
  runAttempt : Option Int := none
  createdAt : Option Str := none
  runStartedAt : Option Str := none
  updatedAt : Option Str := none
  htmlUrl : Option Str := none

structure AuditJob where
  runId : Int
  runAttempt : Option Int := none
  conclusion : Option Str := none
  startedAt : Option Str := none
  completedAt : Option Str := none
  runnerOs : Str

/-- An export, with the number of its failure records. -/
structure AuditExport where
  schema : Option Str
  windowDays : Int
  runs : List AuditRun
  jobs : List AuditJob
  failures : Nat

/-- A point in time in microseconds, with or without a UTC offset. -/
structure DateTime where
  aware : Bool
  micros : Int

/-- `datetime.fromisoformat`, whose formats depend on the version of Python; `none` is the `ValueError`. -/
class IsoFormat where
  fromisoformat : Str → Option DateTime

def exportSchema : Str := "ci-audit.export.v1".toList

def failedConclusions : List String := ["failure", "timed_out", "startup_failure"]

/-- `conclusion in FAILED_CONCLUSIONS` -/
def isFailed (conclusion : Option Str) : Bool := conclusion.elim false fun s => inSet s failedConclusions

/-- Self-hosted runners are not billed. -/
def osMultiplier (os : Str) : Nat :=
  if os = "linux".toList then 1
  else if os = "windows".toList then 2
  else if os = "macos".toList then 10
  else if os = "self-hosted".toList then 0
  else 1

/-! ## Minutes -/

/-- `(b - a).total_seconds() / 60` -/
def minutesOf (micros : Nat) : ℚ :=
  let seconds := (nearestDouble micros 1000000).untopD 0
  (nearestDouble seconds.num.natAbs (seconds.den * 60)).untopD 0

section

variable [IsoFormat]

def ts (value : Option Str) : Option DateTime :=
  match value with
  | none => none
  | some [] => none
  | some s => IsoFormat.fromisoformat (s.flatMap fun c => if c = 'Z' then "+00:00".toList else [c])

/-- The comparison of a time with an offset and one without raises a `TypeError`. -/
def minutesBetween (start stop : Option Str) : Except AuditError (Option ℚ) :=
  match ts start, ts stop with
  | some a, some b =>
    if a.aware ≠ b.aware then .error .typeError
    else if b.micros < a.micros then .ok none
    else .ok (some (minutesOf (b.micros - a.micros).toNat))
  | _, _ => .ok none

/-- The minutes of a job, rounded up, and the minutes that are billed. -/
def jobMinutes (job : AuditJob) : Except AuditError (Nat × Nat) := do
  let duration ← minutesBetween job.startedAt job.completedAt
  let raw := (duration.filter (0 < ·)).elim 0 fun d => d.ceil.toNat
  pure (raw, raw * osMultiplier job.runnerOs)

end

/-- `round(x, digits)` where `scale` is the power of ten. -/
def roundTo (scale : Nat) (x : ℚ) : ℚ := (nearestDouble (roundHalfEven (x.num.natAbs * scale) x.den) scale).untopD 0

/-- The nearest-rank percentile, or 0.0 of no value. -/
def percentile (values : List ℚ) (pct : Nat) : ℚ :=
  let part := (nearestDouble pct 100).untopD 0
  let place := (nearestDouble (part.num.natAbs * values.length) part.den).untopD 0
  roundTo 10 ((values.insertionSort (· ≤ ·)).getD (max 1 place.ceil.toNat - 1) 0)

def share (part whole : Nat) : ℚ := if whole = 0 then 0 else roundTo 1000 ((nearestDouble part whole).untopD 0)

/-- `round(n * (30 / window_days))` -/
def monthly (n : Nat) (windowDays : Int) : Except AuditError Int :=
  match nearestDouble n 1, nearestDouble 30 windowDays.natAbs with
  | (x : ℚ), (y : ℚ) =>
    match nearestDouble (x * y).num.natAbs (x * y).den with
    | (z : ℚ) => .ok (windowDays.sign * roundHalfEven z.num.natAbs z.den)
    | ⊤ => .error .overflowError
  | _, _ => .error .overflowError

/-! ## Runs -/

namespace AuditRun

/-- `run.get("run_attempt") or 1` -/
def attempt (run : AuditRun) : Int := run.runAttempt.elim 1 fun n => if n = 0 then 1 else n

def wf (run : AuditRun) : Str :=
  match run.workflow, run.name with
  | some (c :: s), _ => c :: s
  | _, some name => name
  | _, none => []

/-- The workflow and the commit. -/
def key (run : AuditRun) : Option Int × Option Str := (run.workflowId, run.headSha)

/-- `str(run.get("created_at") or "")` -/
def created (run : AuditRun) : Str := run.createdAt.getD []

def succeeded (run : AuditRun) : Bool := run.conclusion = some "success".toList

end AuditRun

def AuditJob.attempt (job : AuditJob) : Int := job.runAttempt.elim 1 fun n => if n = 0 then 1 else n

/-- The runs of each workflow and commit. -/
def groupsOf (completed : List AuditRun) : List (List AuditRun) :=
  (fromKeys (completed.map AuditRun.key)).map fun k => completed.filter fun run => run.key = k

def byCreation (group : List AuditRun) : List AuditRun := group.insertionSort fun a b => a.created ≤ b.created

structure FlakyGroup where
  workflow : Str
  headSha : Option Str
  kind : String
  url : Option Str

/-- The first success after a failure. -/
def passedAfterFailure : Bool → List AuditRun → Option AuditRun
  | _, [] => none
  | seenFailure, run :: rest =>
    if isFailed run.conclusion then passedAfterFailure true rest
    else if seenFailure && run.succeeded then some run
    else passedAfterFailure seenFailure rest

/-- `found.setdefault(key, group)` -/
def setDefault {α β : Type} [DecidableEq α] (found : List (α × β)) (key : α) (value : β) : List (α × β) :=
  if key ∈ found.map Prod.fst then found else found ++ [(key, value)]

/-- An attempt after the first one succeeded, and a job of an earlier one failed. -/
def rerunPassed (jobs : List AuditJob) (run : AuditRun) : Bool :=
  run.succeeded && decide (1 < run.attempt) &&
    jobs.any fun job => decide (job.runId = run.id) && isFailed job.conclusion && decide (job.attempt < run.attempt)

def flaky (completed : List AuditRun) (jobs : List AuditJob) : List ((Option Int × Option Str) × FlakyGroup) :=
  let rerun := (completed.filter (rerunPassed jobs)).foldl
    (fun found run => setDefault found run.key ⟨run.wf, run.headSha, "rerun_passed", run.htmlUrl⟩) []
  ((groupsOf completed).filterMap fun group => passedAfterFailure false (byCreation group)).foldl
    (fun found run => setDefault found run.key ⟨run.wf, run.headSha, "fail_then_pass_same_commit", run.htmlUrl⟩) rerun

/-- Push and pull request both ran on the commit. -/
def ranTwice (group : List AuditRun) : Bool :=
  ["push", "pull_request"].all fun event => group.any fun run => run.event == some event.toList

def duplicateRunIds (completed : List AuditRun) : List Int :=
  fromKeys ((groupsOf completed).flatMap fun group =>
    if ranTwice group then (byCreation group).tail.map AuditRun.id else [])

/-! ## The loop over the jobs -/

/-- `counter[key] += n` -/
def addCount (key : Str) (n : Nat) : List (Str × Nat) → List (Str × Nat)
  | [] => [(key, n)]
  | (k, m) :: rest => if k = key then (k, m + n) :: rest else (k, m) :: addCount key n rest

inductive WasteKind where
  | duplicate
  | rerun
  | cancelled
  deriving DecidableEq

structure Tally where
  raw : Nat := 0
  billed : Nat := 0
  osMinutes : List (Str × Nat) := []
  perWorkflow : List (Str × Nat) := []
  waste : WasteKind → Nat := fun _ => 0
  failed : Nat := 0

/-- `run_by_id.get(job["run_id"])` -/
def runOf (completed : List AuditRun) (job : AuditJob) : Option AuditRun :=
  completed.reverse.find? fun run => run.id = job.runId

/-- The kind of waste that a job counts as. -/
def wasteKind (duplicates : List Int) (run : AuditRun) (job : AuditJob) : Option WasteKind :=
  if run.id ∈ duplicates then some .duplicate
  else if job.attempt < run.attempt then some .rerun
  else if job.conclusion = some "cancelled".toList then some .cancelled
  else none

def Tally.add (t : Tally) (duplicates : List Int) (run : AuditRun) (job : AuditJob) (raw billed : Nat) : Tally where
  raw := t.raw + raw
  billed := t.billed + billed
  osMinutes := addCount job.runnerOs billed t.osMinutes
  perWorkflow := addCount run.wf billed t.perWorkflow
  waste kind := t.waste kind + if wasteKind duplicates run job = some kind then billed else 0
  failed := t.failed + if isFailed job.conclusion then billed else 0

section

variable [IsoFormat]

def addJob (completed : List AuditRun) (duplicates : List Int) (t : Tally) (job : AuditJob) : Except AuditError Tally :=
  match runOf completed job with
  | none => .ok t
  | some run => do
    let (raw, billed) ← jobMinutes job
    pure (t.add duplicates run job raw billed)

def tally (completed : List AuditRun) (duplicates : List Int) (jobs : List AuditJob) : Except AuditError Tally :=
  jobs.foldlM (addJob completed duplicates) {}

end

/-! ## The analysis -/

structure WorkflowRow where
  name : Str
  runs : Nat
  failureRate : ℚ
  reruns : Nat
  p50Minutes : ℚ
  p90Minutes : ℚ
  queueP50Minutes : ℚ
  billedMinutes : Nat
  share : ℚ

structure AuditTotals where
  runs : Nat
  completed : Nat
  inProgress : Nat
  succeeded : Nat
  failed : Nat
  cancelled : Nat
  failureRate : ℚ
  rerunRuns : Nat
  rerunRate : ℚ
  flakyGroups : Nat
  failedJobs : Nat
  rawMinutes : Nat
  billedMinutes : Nat
  monthlyBilledMinutes : Int

structure AuditWaste where
  duplicateRuns : Nat
  duplicateMinutes : Nat
  rerunMinutes : Nat
  cancelledMinutes : Nat
  failedMinutes : Nat
  totalMinutes : Nat
  share : ℚ
  monthlyMinutes : Int

structure Analysis where
  totals : AuditTotals
  osMinutes : List (Str × Nat)
  waste : AuditWaste
  workflows : List WorkflowRow
  flaky : List FlakyGroup

section

variable [IsoFormat]

def workflowRow (completed : List AuditRun) (t : Tally) (name : Str) : Except AuditError WorkflowRow := do
  let group := completed.filter fun run => run.wf = name
  let durations ← group.mapM fun run => minutesBetween run.runStartedAt run.updatedAt
  let queues ← group.mapM fun run => minutesBetween run.createdAt run.runStartedAt
  let decided := group.filter fun run => isFailed run.conclusion || run.succeeded
  let billed := (t.perWorkflow.lookup name).getD 0
  pure {
    name
    runs := group.length
    failureRate := share (decided.countP fun run => isFailed run.conclusion) decided.length
    reruns := group.countP fun run => decide (1 < run.attempt)
    p50Minutes := percentile (durations.filterMap id) 50
    p90Minutes := percentile (durations.filterMap id) 90
    queueP50Minutes := percentile (queues.filterMap id) 50
    billedMinutes := billed
    share := share billed t.billed }

def workflowRows (completed : List AuditRun) (t : Tally) : Except AuditError (List WorkflowRow) := do
  let rows ← (sortStrs (fromKeys (completed.map AuditRun.wf))).mapM (workflowRow completed t)
  pure (rows.insertionSort fun a b => b.billedMinutes ≤ a.billedMinutes)

def AuditExport.completed (e : AuditExport) : List AuditRun :=
  e.runs.filter fun run => run.status = some "completed".toList

def Tally.wasteTotal (t : Tally) : Nat := t.waste .duplicate + t.waste .rerun + t.waste .cancelled

namespace AuditExport

variable (e : AuditExport)

omit [IsoFormat]

def failed : Nat := e.completed.countP fun run => isFailed run.conclusion

def succeeded : Nat := e.completed.countP AuditRun.succeeded

def reruns : Nat := e.completed.countP fun run => decide (1 < run.attempt)

def duplicates : List Int := duplicateRunIds e.completed

def flakyGroups : List ((Option Int × Option Str) × FlakyGroup) := flaky e.completed e.jobs

def totals (t : Tally) (monthlyBilled : Int) : AuditTotals where
  runs := e.runs.length
  completed := e.completed.length
  inProgress := e.runs.length - e.completed.length
  succeeded := e.succeeded
  failed := e.failed
  cancelled := e.completed.countP fun run => run.conclusion = some "cancelled".toList
  failureRate := share e.failed (e.failed + e.succeeded)
  rerunRuns := e.reruns
  rerunRate := share e.reruns e.completed.length
  flakyGroups := e.flakyGroups.length
  failedJobs := e.failures
  rawMinutes := t.raw
  billedMinutes := t.billed
  monthlyBilledMinutes := monthlyBilled

def waste (t : Tally) (monthlyWaste : Int) : AuditWaste where
  duplicateRuns := e.duplicates.length
  duplicateMinutes := t.waste .duplicate
  rerunMinutes := t.waste .rerun
  cancelledMinutes := t.waste .cancelled
  failedMinutes := t.failed
  totalMinutes := t.wasteTotal
  share := share t.wasteTotal t.billed
  monthlyMinutes := monthlyWaste

end AuditExport

/-- `analyze_export` up to the failure table, the slowest jobs and the findings. -/
def analyzeExport [UnicodeData] (e : AuditExport) : Except AuditError Analysis :=
  if e.schema ≠ some exportSchema then
    .error (.valueError ("unsupported export schema: ".toList ++ e.schema.elim "None".toList pyRepr))
  else if e.windowDays = 0 then .error .zeroDivisionError
  else do
    let t ← tally e.completed e.duplicates e.jobs
    let workflows ← workflowRows e.completed t
    let monthlyBilled ← monthly t.billed e.windowDays
    let monthlyWaste ← monthly t.wasteTotal e.windowDays
    pure {
      totals := e.totals t monthlyBilled
      osMinutes := t.osMinutes
      waste := e.waste t monthlyWaste
      workflows
      flaky := (e.flakyGroups.map Prod.snd).take 20 }

end

end FailureOrchestrator
