import FailureOrchestrator.Interleaving
import FailureOrchestrator.JsonReader
import Mathlib.Data.Rat.Init

namespace FailureOrchestrator

/-- The values that a side effect returns: Python's `None`, `json.dumps(value, sort_keys=True, default=str)` and
`json.loads`. -/
class JsonResult (T : Type) where
  none : T
  dumps : T → Except PyError Str
  loads : Str → Except PyError T

/-- Results that are JSON values, with the keys of every dict in order. -/
@[reducible] def jsonValues (F : Type) [PyFloat F] : JsonResult (JsonValue F) where
  none := .null
  dumps v := (v.dumps plainStyle).elim (.error (.valueError "Exceeds the limit for integer string conversion")) .ok
  loads s := (JsonValue.loads s).elim (.error (.valueError "Expecting value")) .ok

inductive CompletionStatus where
  | started
  | completed
  deriving DecidableEq

/-- One row of `task_completions`, without its key. -/
structure CompletionRow where
  status : CompletionStatus
  owner : Option Str
  leaseUntil : ℚ
  resultJson : Option Str
  createdAt : ℚ
  completedAt : Option ℚ
  deriving DecidableEq

/-- Durable record of a claimed or completed task delivery. -/
structure CompletionRecord (T : Type) where
  idempotencyKey : Str
  status : CompletionStatus
  owner : Option Str
  leaseUntil : ℚ
  result : T
  createdAt : ℚ
  completedAt : Option ℚ

/-- Result of one delivery attempt against the completion ledger. -/
structure DeliveryOutcome (T : Type) where
  idempotencyKey : Str
  executed : Bool
  replayed : Bool
  result : T
  status : CompletionStatus := .completed

inductive DeliveryError where
  | valueError (message : Str)
  | conflict (message : Str)
  | runtimeError (message : Str)
  | assertionError
  | python (e : PyError)
  | sideEffect (message : Str)

/-- The ledger, the number of claims that each key has seen, and the keys whose side effect returned. The code keeps
neither of the last two. -/
structure CompletionLedger where
  rows : Str → Option CompletionRow := fun _ => none
  claims : Str → Nat := fun _ => 0
  effects : List Str := []

namespace CompletionLedger

variable {T : Type}

def set (s : CompletionLedger) (key : Str) (row : CompletionRow) : CompletionLedger :=
  { s with rows := Function.update s.rows key (some row) }

/-- A row that starts a claim. -/
def claim (s : CompletionLedger) (key : Str) (row : CompletionRow) : CompletionLedger :=
  { s.set key row with claims := Function.update s.claims key (s.claims key + 1) }

variable [JsonResult T]

/-- `record.result`; a row without a text has the result `None`. -/
def storedResult (row : CompletionRow) : Except DeliveryError T :=
  match row.resultJson with
  | none => .ok JsonResult.none
  | some text => (JsonResult.loads text).mapError .python

def rowToRecord (key : Str) (row : CompletionRow) : Except DeliveryError (CompletionRecord T) :=
  (storedResult row).map fun result => {
    idempotencyKey := key, status := row.status, owner := row.owner, leaseUntil := row.leaseUntil, result
    createdAt := row.createdAt, completedAt := row.completedAt }

def get (s : CompletionLedger) (key : Str) : Except DeliveryError (Option (CompletionRecord T)) :=
  match s.rows key with
  | none => .ok none
  | some row => (rowToRecord key row).map some

def getCompleted (s : CompletionLedger) (key : Str) : Except DeliveryError (Option (CompletionRecord T)) := do
  match ← s.get key with
  | none => return none
  | some record => return if record.status ≠ .completed then none else some record

/-- A row without a result, and the record of it. -/
def startedRow (owner : Str) (leaseUntil createdAt : ℚ) : CompletionRow :=
  ⟨.started, some owner, leaseUntil, none, createdAt, none⟩

def startedRecord (key owner : Str) (leaseUntil createdAt : ℚ) : CompletionRecord T :=
  ⟨key, .started, some owner, leaseUntil, JsonResult.none, createdAt, none⟩

/-- Claim a key for exclusive side-effect execution. -/
def tryClaim (s : CompletionLedger) (key owner : Str) (leaseSeconds now : ℚ) :
    Except DeliveryError (Option (CompletionRecord T)) × CompletionLedger :=
  match s.rows key with
  | none =>
    (.ok (some (startedRecord key owner (now + leaseSeconds) now)),
      s.claim key (startedRow owner (now + leaseSeconds) now))
  | some row =>
    match rowToRecord (T := T) key row with
    | .error e => (.error e, s)
    | .ok record =>
      if record.status = .completed then (.ok (some record), s)
      else if now < record.leaseUntil ∧ record.owner ≠ some owner then (.ok none, s)
      else
        (.ok (some (startedRecord key owner (now + leaseSeconds) record.createdAt)),
          s.claim key (startedRow owner (now + leaseSeconds) row.createdAt))

/-- The transaction of `complete`: a completed row is returned as it is, and an open one is completed and read again. -/
def complete [UnicodeData] (s : CompletionLedger) (key : Str) (result : T) (owner : Str) (now : ℚ) :
    Except DeliveryError (Option (CompletionRecord T)) × CompletionLedger :=
  match JsonResult.dumps result with
  | .error e => (.error (.python e), s)
  | .ok payload =>
    match s.rows key with
    | none => (.error (.runtimeError ("cannot complete unclaimed key: ".toList ++ key)), s)
    | some row =>
      match rowToRecord (T := T) key row with
      | .error e => (.error e, s)
      | .ok record =>
        if record.status = .completed then (.ok (some record), s)
        else if record.owner ≠ some owner then
          (.error (.conflict ("owner ".toList ++ pyRepr owner ++ " does not hold lease for ".toList ++ key)), s)
        else
          (.ok none, s.set key { row with
            status := .completed, leaseUntil := 0, resultJson := some payload, completedAt := some now })

/-- Abandon a started claim so another delivery can reclaim it. -/
def release (s : CompletionLedger) (key owner : Str) (now : ℚ) : CompletionLedger :=
  match s.rows key with
  | none => s
  | some row => if row.owner = some owner ∧ row.status = .started then s.set key { row with leaseUntil := now - 1 } else s

end CompletionLedger

/-- The place of `deliver` between two accesses to the ledger or to the world: `claim` is the number of its claim. -/
inductive DeliveryPhase (T : Type) where
  | start
  | claiming
  | running (claim : Nat)
  | completing (claim : Nat) (result : T)
  | reading (result : T)
  | releasing (message : Str)
  | finished (outcome : Except DeliveryError (DeliveryOutcome T))

/-- A call of `deliver`: what its side effect does, and what the clock says at its three writes. A key that is missing or
no string is the empty one. A call that dies takes no more steps. -/
structure Delivery (T : Type) where
  key : Str
  workerId : Str
  leaseSeconds : ℚ := 30
  sideEffect : Except Str T
  claimedAt : ℚ
  completedAt : ℚ
  releasedAt : ℚ
  phase : DeliveryPhase T := .start

namespace Delivery

variable {T : Type}

def goto (t : Delivery T) (phase : DeliveryPhase T) : Delivery T := { t with phase }

def raised (t : Delivery T) (e : DeliveryError) : Delivery T := t.goto (.finished (.error e))

def replay (t : Delivery T) (record : CompletionRecord T) : Delivery T :=
  t.goto (.finished (.ok { idempotencyKey := t.key, executed := false, replayed := true, result := record.result }))

def execute (t : Delivery T) (result : T) : Delivery T :=
  t.goto (.finished (.ok { idempotencyKey := t.key, executed := true, replayed := false, result }))

/-- What a call has returned. -/
def outcome (t : Delivery T) : Option (DeliveryOutcome T) :=
  match t.phase with
  | .finished (.ok o) => some o
  | _ => none

variable [UnicodeData] [JsonResult T]

/-- One step: at most one access to the ledger, or the side effect. -/
def act (s : CompletionLedger) (t : Delivery T) : CompletionLedger × Delivery T :=
  match t.phase with
  | .start =>
    if t.key = [] then (s, t.raised (.valueError "AgentTask.idempotency_key is required".toList))
    else
      match s.getCompleted t.key with
      | .error e => (s, t.raised e)
      | .ok (some existing) => (s, t.replay existing)
      | .ok none => (s, t.goto .claiming)
  | .claiming =>
    match s.tryClaim (T := T) t.key t.workerId t.leaseSeconds t.claimedAt with
    | (.error e, s') => (s', t.raised e)
    | (.ok none, s') =>
      (s', t.raised (.conflict ("active lease prevents duplicate execution for ".toList ++ t.key)))
    | (.ok (some claimed), s') =>
      (s', if claimed.status = .completed then t.replay claimed else t.goto (.running (s'.claims t.key)))
  | .running claim =>
    match t.sideEffect with
    | .error message => (s, t.goto (.releasing message))
    | .ok result => ({ s with effects := t.key :: s.effects }, t.goto (.completing claim result))
  | .completing _ result =>
    match s.complete t.key result t.workerId t.completedAt with
    | (.error e, s') => (s', t.raised e)
    | (.ok (some _), s') => (s', t.execute result)
    | (.ok none, s') => (s', t.goto (.reading result))
  | .reading result =>
    match s.getCompleted (T := T) t.key with
    | .error e => (s, t.raised e)
    | .ok none => (s, t.raised .assertionError)
    | .ok (some _) => (s, t.execute result)
  | .releasing message => (s.release t.key t.workerId t.releasedAt, t.raised (.sideEffect message))
  | .finished _ => (s, t)

end Delivery

end FailureOrchestrator
