import FailureOrchestrator.Exec
import FailureOrchestrator.HashChain
import FailureOrchestrator.JsonRoundTrip
import FailureOrchestrator.Supervisor

namespace FailureOrchestrator

namespace Supervisor

inductive RepairState where
  | detected
  | planned
  | dispatched
  | verifying
  | rerunning
  | green
  | reviewRequired
  | escalated
  | denied
  deriving DecidableEq

namespace RepairState

def value : RepairState → String
  | detected => "detected"
  | planned => "planned"
  | dispatched => "dispatched"
  | verifying => "verifying"
  | rerunning => "rerunning"
  | green => "green"
  | reviewRequired => "review_required"
  | escalated => "escalated"
  | denied => "denied"

/-- The states that finish an incident. -/
def final : RepairState → Bool
  | green | reviewRequired | escalated | denied => true
  | _ => false

end RepairState

structure Transition where
  sequence : Nat
  fromState : RepairState
  toState : RepairState
  reason : Str
  digest : Str

structure RepairIncident where
  incidentId : Str
  check : FailedCheck
  state : RepairState := .detected
  attempt : Nat := 0
  costSpentUsd : ℚ := 0
  elapsedSeconds : Int := 0
  transitions : List Transition := []

/-- One entry of a JSON object. -/
def jsonEntry (key : String) (value : Str) : Str := writeString key.toList ++ ": ".toList ++ value

namespace RepairIncident

variable (sha256 : Str → Str) (i : RepairIncident)

/-- The payload of the next transition, with sorted keys. -/
def payload (target : RepairState) (reason : Str) : Str :=
  '\x7b' :: (joinWith ", ".toList [jsonEntry "from" (writeString i.state.value.toList),
    jsonEntry "incident_id" (writeString i.incidentId),
    jsonEntry "previous_digest" (writeString (i.transitions.getLast?.elim "GENESIS".toList (·.digest))),
    jsonEntry "reason" (writeString reason),
    jsonEntry "sequence" (natStr (i.transitions.length + 1)),
    jsonEntry "to" (writeString target.value.toList)] ++ ['\x7d'])

def transition (target : RepairState) (reason : Str) : RepairIncident :=
  { i with
    state := target
    transitions := i.transitions ++ [⟨i.transitions.length + 1, i.state, target, reason, sha256 (i.payload target reason)⟩] }

@[simp] theorem transition_state (target : RepairState) (reason : Str) :
    (i.transition sha256 target reason).state = target := rfl

@[simp] theorem transition_attempt (target : RepairState) (reason : Str) :
    (i.transition sha256 target reason).attempt = i.attempt := rfl

@[simp] theorem transition_check (target : RepairState) (reason : Str) :
    (i.transition sha256 target reason).check = i.check := rfl

/-- The number of transitions to a state. -/
def entered (s : RepairState) : Nat := i.transitions.countP fun t => t.toState = s

theorem entered_transition (s target : RepairState) (reason : Str) :
    (i.transition sha256 target reason).entered s = i.entered s + if target = s then 1 else 0 := by
  unfold entered transition
  rw [List.countP_append, List.countP_singleton]
  simp only [decide_eq_true_eq]

end RepairIncident

structure WorkerResult where
  patchProposed : Bool
  changedPaths : List Str := []
  changedLines : Int := 0
  costUsd : ℚ := 0
  regressionDetected : Bool := false
  testWeakeningDetected : Bool := false
  securityFinding : Bool := false

structure VerificationResult where
  targetedTestsPassed : Bool
  fullRegressionPassed : Bool
  policyGatePassed : Bool
  ciGreen : Bool
  securityGatePassed : Bool := true
  testWeakeningDetected : Bool := false
  regressionDetected : Bool := false

def VerificationResult.successful (r : VerificationResult) : Bool :=
  r.ciGreen && r.targetedTestsPassed && r.fullRegressionPassed && r.securityGatePassed && r.policyGatePassed &&
    !r.testWeakeningDetected && !r.regressionDetected

inductive RepairError where
  | runtimeError (message : String)
  | python (e : PyError)

/-- The state that a plan leads to, and the reason of the transition. -/
def SupervisorDecision.target (d : SupervisorDecision) : RepairState × Str :=
  match d.authority with
  | .deny => (.denied, joinWith [','] d.reasons)
  | .rcaOnly => (.escalated, "rca_only".toList)
  | .autonomousPatch | .patchRequiresReview => (.planned, d.authority.value)

theorem SupervisorDecision.target_mem (d : SupervisorDecision) : d.target.1 ∈ [RepairState.denied, .escalated, .planned] := by
  unfold target
  split <;> simp

section Coordinator

variable [UnicodeData] (sha256 : Str → Str) (policy : SupervisorPolicy)

/-- The plan for the next attempt. -/
def RepairIncident.nextPlan (i : RepairIncident) : Except PyError GitHubRepairPlan :=
  buildRepairPlan sha256 i.check (i.attempt + 1) i.costSpentUsd i.elapsedSeconds policy

namespace RepairCoordinator

def plan : Exec RepairIncident RepairError GitHubRepairPlan := fun i =>
  match i.nextPlan sha256 policy with
  | .error e => (.error (.python e), { i with attempt := i.attempt + 1 })
  | .ok plan =>
    (.ok plan, { i with attempt := i.attempt + 1 }.transition sha256 plan.decision.target.1 plan.decision.target.2)

omit [UnicodeData]

def dispatch (task : AgentTask) : Exec RepairIncident RepairError Unit := fun i =>
  if i.state ≠ .planned then (.error (.runtimeError "incident must be planned before dispatch"), i)
  else if task.idempotencyKey = [] then
    (.error (.python (.valueError "AgentTask.idempotency_key is required before dispatch")), i)
  else (.ok (), i.transition sha256 .dispatched task.authority.value)

def acceptWorkerResult (result : WorkerResult) : Exec RepairIncident RepairError Unit := fun i =>
  if i.state ≠ .dispatched then (.error (.runtimeError "worker result requires dispatched state"), i)
  else
    let i := { i with costSpentUsd := i.costSpentUsd + result.costUsd }
    if result.regressionDetected || result.testWeakeningDetected || result.securityFinding then
      (.ok (), i.transition sha256 .denied "worker_result_failed_safety_gate".toList)
    else if !result.patchProposed then (.ok (), i.transition sha256 .escalated "worker_proposed_no_patch".toList)
    else (.ok (), i.transition sha256 .verifying "candidate_patch_ready".toList)

/-- Where a verification result leads. -/
def verdict (result : VerificationResult) : RepairState × String :=
  if result.testWeakeningDetected || result.regressionDetected then (.denied, "verification_detected_unsafe_repair")
  else if !result.securityGatePassed then (.denied, "security_gate_failed")
  else if !result.targetedTestsPassed || !result.fullRegressionPassed then (.rerunning, "tests_failed")
  else if !result.policyGatePassed then (.reviewRequired, "policy_gate_requires_review")
  else if result.successful then (.green, "canonical_success_predicate_satisfied")
  else (.rerunning, "ci_still_red")

/-- Only a result that meets the whole contract turns an incident green. -/
theorem verdict_green {result : VerificationResult} (h : (verdict result).1 = .green) :
    result.successful = true := by
  unfold verdict at h
  split at h
  · cases h
  split at h
  · cases h
  split at h
  · cases h
  split at h
  · cases h
  split at h
  next hsuccess => exact hsuccess
  next => cases h

def verify (result : VerificationResult) : Exec RepairIncident RepairError Unit := fun i =>
  if i.state ≠ .verifying then (.error (.runtimeError "verification requires verifying state"), i)
  else (.ok (), i.transition sha256 (verdict result).1 (verdict result).2.toList)

def prepareRetry : Exec RepairIncident RepairError Unit := fun i =>
  if i.state ≠ .rerunning then (.error (.runtimeError "retry requires rerunning state"), i)
  else (.ok (), i.transition sha256 .detected "bounded_retry".toList)

/-- `deliver_idempotent`, where the outcome is what the deliverer raises, or the worker result that it returns. -/
def deliverIdempotent (task : AgentTask) (outcome : Except RepairError WorkerResult) :
    Exec RepairIncident RepairError WorkerResult := fun i =>
  if task.idempotencyKey = [] then (.error (.python (.valueError "AgentTask.idempotency_key is required")), i)
  else
    match outcome with
    | .error e => (.error e, i)
    | .ok result =>
      -- a redelivery finds the incident past its dispatch
      if i.state ≠ .planned then (.ok result, i)
      else
        match dispatch sha256 task i with
        | (.error e, i) => (.error e, i)
        | (.ok (), i) => ((acceptWorkerResult sha256 result i).1.map fun _ => result, (acceptWorkerResult sha256 result i).2)

end RepairCoordinator

/-- `verify_transition_chain`, behind the transition of a given number. -/
def verifyTransitionChain (previous : Nat) : List Transition → Bool
  | [] => true
  | t :: rest =>
    if t.sequence ≠ previous + 1 ∨ t.digest.length ≠ 64 then false else verifyTransitionChain t.sequence rest

inductive RepairCall where
  | plan
  | dispatch (task : AgentTask)
  | acceptWorkerResult (result : WorkerResult)
  | verify (result : VerificationResult)
  | prepareRetry

/-- What a call leaves of the incident, whether it returns or raises. -/
def RepairCall.exec (i : RepairIncident) : RepairCall → RepairIncident
  | .plan => (RepairCoordinator.plan sha256 policy i).2
  | .dispatch task => (RepairCoordinator.dispatch sha256 task i).2
  | .acceptWorkerResult result => (RepairCoordinator.acceptWorkerResult sha256 result i).2
  | .verify result => (RepairCoordinator.verify sha256 result i).2
  | .prepareRetry => (RepairCoordinator.prepareRetry sha256 i).2

def RepairIncident.run (i : RepairIncident) (calls : List RepairCall) : RepairIncident :=
  calls.foldl (RepairCall.exec sha256 policy) i

/-- What a call does: it fails, leaving at most a counted attempt behind, or makes one transition. -/
inductive RepairCall.Moves (i : RepairIncident) : RepairCall → RepairIncident → Prop where
  | refused (c : RepairCall) : c ≠ .plan → Moves i c i
  | unplanned (e : PyError) : i.nextPlan sha256 policy = .error e → Moves i .plan { i with attempt := i.attempt + 1 }
  | planned (p : GitHubRepairPlan) : i.nextPlan sha256 policy = .ok p →
    Moves i .plan ({ i with attempt := i.attempt + 1 }.transition sha256 p.decision.target.1 p.decision.target.2)
  | dispatched (task : AgentTask) : i.state = .planned →
    Moves i (.dispatch task) (i.transition sha256 .dispatched task.authority.value)
  | accepted (result : WorkerResult) (target : RepairState) (reason : Str) : i.state = .dispatched →
    target ∈ [RepairState.denied, .escalated, .verifying] →
    Moves i (.acceptWorkerResult result)
      ({ i with costSpentUsd := i.costSpentUsd + result.costUsd }.transition sha256 target reason)
  | verified (result : VerificationResult) : i.state = .verifying →
    Moves i (.verify result)
      (i.transition sha256 (RepairCoordinator.verdict result).1 (RepairCoordinator.verdict result).2.toList)
  | retried : i.state = .rerunning → Moves i .prepareRetry (i.transition sha256 .detected "bounded_retry".toList)

theorem RepairCall.Moves.check {i i' : RepairIncident} {c : RepairCall} (h : Moves sha256 policy i c i') :
    i'.check = i.check := by
  cases h <;> rfl

theorem RepairCall.moves (i : RepairIncident) (c : RepairCall) : Moves sha256 policy i c (c.exec sha256 policy i) := by
  cases c with
  | plan =>
    simp only [exec, RepairCoordinator.plan]
    split
    next e he => exact .unplanned e he
    next p hp => exact .planned p hp
  | dispatch task =>
    simp only [exec, RepairCoordinator.dispatch]
    split
    · exact .refused _ nofun
    next hstate =>
      split
      · exact .refused _ nofun
      · exact .dispatched task (not_not.mp hstate)
  | acceptWorkerResult result =>
    simp only [exec, RepairCoordinator.acceptWorkerResult]
    split
    · exact .refused _ nofun
    next hstate =>
      have hmoves := fun target reason => @Moves.accepted _ sha256 policy i result target reason
        (not_not.mp hstate)
      split
      · exact hmoves .denied _ (by simp)
      · split
        · exact hmoves .escalated _ (by simp)
        · exact hmoves .verifying _ (by simp)
  | verify result =>
    simp only [exec, RepairCoordinator.verify]
    split
    · exact .refused _ nofun
    next hstate => exact .verified result (not_not.mp hstate)
  | prepareRetry =>
    simp only [exec, RepairCoordinator.prepareRetry]
    split
    · exact .refused _ nofun
    next hstate => exact .retried (not_not.mp hstate)

end Coordinator

section Digests

/-- The text that the digest of a transition is taken of. -/
def Transition.payload (t : Transition) (incidentId previousDigest : Str) : Str :=
  '\x7b' :: (joinWith ", ".toList [jsonEntry "from" (writeString t.fromState.value.toList),
    jsonEntry "incident_id" (writeString incidentId),
    jsonEntry "previous_digest" (writeString previousDigest),
    jsonEntry "reason" (writeString t.reason),
    jsonEntry "sequence" (natStr t.sequence),
    jsonEntry "to" (writeString t.toState.value.toList)] ++ ['\x7d'])

theorem writeString_append_inj {s t u v : Str} (h : writeString s ++ u = writeString t ++ v) : s = t ∧ u = v := by
  have htail : (writeString s).tail ++ u = (writeString t).tail ++ v := congrArg List.tail h
  have hs := readString_writeString s u
  rw [htail, readString_writeString] at hs
  exact ⟨(Prod.mk.inj (Option.some.inj hs)).1.symm, (Prod.mk.inj (Option.some.inj hs)).2.symm⟩

theorem natStr_append_inj {m n : Nat} {u v : Str} (h : natStr m ++ (", ".toList ++ u) = natStr n ++ (", ".toList ++ v)) :
    m = n ∧ u = v := by
  have hdigits : ∀ (k : Nat) (rest : Str), (natStr k ++ (", ".toList ++ rest)).takeWhile Char.isDigit = natStr k := by
    intro k rest
    refine takeWhile_digits (fun c hc => Nat.isDigit_of_mem_toDigits (by omega) (by omega) hc) ?_
    intro c hc
    cases hc
    rfl
  have hnat : natStr m = natStr n := by rw [← hdigits m u, h, hdigits]
  have hvalue : ∀ k, Nat.ofDigitChars 10 (natStr k) 0 = k := fun k => Nat.ofDigitChars_toDigits (by omega) (by omega)
  refine ⟨by rw [← hvalue m, hnat, hvalue], ?_⟩
  rw [hnat] at h
  exact List.append_cancel_left (List.append_cancel_left h)

theorem RepairState.value_injective {s t : RepairState} (h : s.value.toList = t.value.toList) : s = t := by
  cases s <;> cases t <;> first | rfl | exact absurd h (by decide)

theorem jsonEntry_append_inj {key : String} {s t u v : Str}
    (h : jsonEntry key (writeString s) ++ u = jsonEntry key (writeString t) ++ v) : s = t ∧ u = v := by
  unfold jsonEntry at h
  rw [List.append_assoc, List.append_assoc (writeString key.toList ++ _)] at h
  exact writeString_append_inj (List.append_cancel_left h)

theorem jsonEntry_number_inj {key : String} {m n : Nat} {u v : Str}
    (h : jsonEntry key (natStr m) ++ (", ".toList ++ u) = jsonEntry key (natStr n) ++ (", ".toList ++ v)) :
    m = n ∧ u = v := by
  unfold jsonEntry at h
  rw [List.append_assoc, List.append_assoc (writeString key.toList ++ _)] at h
  exact natStr_append_inj (List.append_cancel_left h)

/-- A payload can be read back. -/
theorem Transition.payload_injective {t u : Transition} {incidentId incidentId' previousDigest previousDigest' : Str}
    (h : t.payload incidentId previousDigest = u.payload incidentId' previousDigest') :
    incidentId = incidentId' ∧ previousDigest = previousDigest' ∧ t.sequence = u.sequence ∧ t.fromState = u.fromState ∧
      t.toState = u.toState ∧ t.reason = u.reason := by
  unfold payload at h
  simp only [joinWith, List.append_assoc] at h
  obtain ⟨hfrom, h⟩ := jsonEntry_append_inj (List.tail_eq_of_cons_eq h)
  obtain ⟨hid, h⟩ := jsonEntry_append_inj (List.append_cancel_left h)
  obtain ⟨hprevious, h⟩ := jsonEntry_append_inj (List.append_cancel_left h)
  obtain ⟨hreason, h⟩ := jsonEntry_append_inj (List.append_cancel_left h)
  obtain ⟨hsequence, h⟩ := jsonEntry_number_inj (List.append_cancel_left h)
  obtain ⟨hto, -⟩ := jsonEntry_append_inj h
  exact ⟨hid, hprevious, hsequence, RepairState.value_injective hfrom, RepairState.value_injective hto, hreason⟩

/-- The entries of a history as a hash chain, behind a digest. -/
def Transition.links (incidentId : Str) : Str → List Transition → List (ChainLink Str Str)
  | _, [] => []
  | previous, t :: rest => ⟨previous, t.payload incidentId previous, t.digest⟩ :: links incidentId t.digest rest

namespace Transition

variable {incidentId incidentId' previous previous' : Str}

theorem links_length (ts : List Transition) : (links incidentId previous ts).length = ts.length := by
  induction ts generalizing previous with
  | nil => rfl
  | cons t ts ih => rw [links, List.length_cons, List.length_cons, ih]

theorem links_concat (ts : List Transition) (t : Transition) :
    links incidentId previous (ts ++ [t]) = links incidentId previous ts ++
      [⟨ts.getLast?.elim previous (·.digest), t.payload incidentId (ts.getLast?.elim previous (·.digest)), t.digest⟩] := by
  induction ts generalizing previous with
  | nil => rfl
  | cons u ts ih =>
    have hlast : (u :: ts).getLast?.elim previous (·.digest) = ts.getLast?.elim u.digest (·.digest) := by
      rw [List.getLast?_cons]
      cases ts.getLast? <;> rfl
    rw [List.cons_append, links, links, List.cons_append, ih, hlast]

/-- Each entry hashes a payload that names the entry before it. -/
theorem body_of_mem_links {ts : List Transition} {l : ChainLink Str Str} (h : l ∈ links incidentId previous ts) :
    ∃ t ∈ ts, l.body = t.payload incidentId l.prev := by
  induction ts generalizing previous with
  | nil => cases h
  | cons t ts ih =>
    rcases List.mem_cons.mp h with rfl | h
    · exact ⟨t, List.mem_cons_self, rfl⟩
    · obtain ⟨u, hu, hbody⟩ := ih h
      exact ⟨u, List.mem_cons_of_mem _ hu, hbody⟩

theorem links_injective {ts us : List Transition} (h : links incidentId previous ts = links incidentId' previous' us) :
    ts = us := by
  induction ts generalizing previous previous' us with
  | nil =>
    cases us with
    | nil => rfl
    | cons u us => cases h
  | cons t ts ih =>
    cases us with
    | nil => cases h
    | cons u us =>
      rw [links, links] at h
      obtain ⟨hlink, hrest⟩ := List.cons.inj h
      obtain ⟨-, hbody, hdigest⟩ := ChainLink.mk.inj hlink
      obtain ⟨-, -, hsequence, hfrom, hto, hreason⟩ := payload_injective hbody
      have htu : t = u := by
        cases t
        cases u
        cases hsequence
        cases hfrom
        cases hto
        cases hreason
        cases hdigest
        rfl
      rw [htu, ih hrest]

end Transition

/-- The texts that the digests of a history are taken of. -/
def RepairIncident.payloads (i : RepairIncident) : List Str :=
  (Transition.links i.incidentId "GENESIS".toList i.transitions).map ChainLink.body

end Digests

end Supervisor

end FailureOrchestrator
