import FailureOrchestrator.RepairCoordinator

namespace FailureOrchestrator

namespace Supervisor

variable [UnicodeData] (sha256 : Str → Str) (policy : SupervisorPolicy) (i : RepairIncident)

/-- A verification that succeeded, after a dispatch of the same attempt. -/
def Earned (before : List RepairCall) (call : RepairCall) : Prop :=
  ∃ result earlier task later, call = .verify result ∧ result.successful = true ∧
    before = earlier ++ .dispatch task :: later ∧
    (i.run sha256 policy earlier).state = .planned ∧
    (i.run sha256 policy (earlier ++ [.dispatch task])).state = .dispatched ∧
    (i.run sha256 policy earlier).attempt = (i.run sha256 policy before).attempt

/-- What a bounded repair loop promises of a sequence of calls. -/
structure BoundedRepair (calls : List RepairCall) : Prop where
  settled : ∀ before later after, calls = before ++ later ++ after → (i.run sha256 policy before).state.final = true →
    (i.run sha256 policy (before ++ later)).state = (i.run sha256 policy before).state
  green : ∀ before call after, calls = before ++ call :: after → (i.run sha256 policy before).state ≠ .green →
    (i.run sha256 policy (before ++ [call])).state = .green → Earned sha256 policy i before call
  dispatches : (i.run sha256 policy calls).entered .dispatched ≤ policy.budget.maxAttempts

/-- A finished incident is planned again only where the plan leads to the state it is in, or fails. -/
def Unreopened (calls : List RepairCall) : Prop :=
  ∀ before after, calls = before ++ .plan :: after → (i.run sha256 policy before).state.final = true →
    ∀ plan, (i.run sha256 policy before).nextPlan sha256 policy = .ok plan →
      plan.decision.target.1 = (i.run sha256 policy before).state

variable {sha256 policy i}

theorem run_concat (calls : List RepairCall) (c : RepairCall) :
    i.run sha256 policy (calls ++ [c]) = c.exec sha256 policy (i.run sha256 policy calls) :=
  List.foldl_concat ..

/-- The plan of a later attempt fails exactly where the first one does: the risk does not depend on the attempt. -/
theorem nextPlan_error_of_check {i i' : RepairIncident} {e : PyError} (hcheck : i.check = i'.check)
    (h : i.nextPlan sha256 policy = .error e) : i'.nextPlan sha256 policy = .error e := by
  have hrisk : ∀ j : RepairIncident, j.nextPlan sha256 policy =
      (classifyRisk (planRequest j.check 0 0 0) policy).map fun risk => repairPlan sha256 j.check (j.attempt + 1)
        (decideRepair (planRequest j.check (j.attempt + 1) j.costSpentUsd j.elapsedSeconds) policy risk) := by
    intro j
    have hclassified : classifyRisk (planRequest j.check (j.attempt + 1) j.costSpentUsd j.elapsedSeconds) policy =
        classifyRisk (planRequest j.check 0 0 0) policy := classifyRisk_congr policy rfl rfl rfl rfl
    unfold RepairIncident.nextPlan buildRepairPlan evaluateRepair
    rw [hclassified]
    cases classifyRisk (planRequest j.check 0 0 0) policy <;> rfl
  rw [hrisk] at h ⊢
  rw [← hcheck]
  cases hclassified : classifyRisk (planRequest i.check 0 0 0) policy with
  | error e' =>
    rw [hclassified] at h
    exact h
  | ok risk =>
    rw [hclassified] at h
    cases h

/-- A plan that leaves an incident to a worker stays within the attempts of its budget. -/
theorem nextPlan_planned {i : RepairIncident} {p : GitHubRepairPlan} (h : i.nextPlan sha256 policy = .ok p)
    (hplanned : p.decision.target.1 = .planned) : i.attempt + 1 ≤ policy.budget.maxAttempts := by
  unfold RepairIncident.nextPlan buildRepairPlan evaluateRepair at h
  obtain ⟨decision, hdecision, rfl⟩ := ok_of_map h
  obtain ⟨risk, hrisk, rfl⟩ := ok_of_map hdecision
  have hallowed : (decideRepair (planRequest i.check (i.attempt + 1) i.costSpentUsd i.elapsedSeconds) policy risk).authority ≠
      .deny := by
    intro hdeny
    unfold SupervisorDecision.target repairPlan at hplanned
    rw [if_pos hdeny] at hplanned
    simp only [hdeny] at hplanned
    cases hplanned
  have hattempt := decideRepair_attempt hallowed
  simp only [planRequest] at hattempt
  omega

/-- The dispatches made so far are covered by attempts. -/
structure Budgeted (policy : SupervisorPolicy) (i : RepairIncident) : Prop where
  attempts : i.entered .dispatched ≤ i.attempt
  limit : i.entered .dispatched ≤ policy.budget.maxAttempts
  open_attempt : i.state = .planned → i.entered .dispatched < i.attempt
  open_limit : i.state = .planned → i.entered .dispatched < policy.budget.maxAttempts

omit [UnicodeData] in
theorem Budgeted.transition {target : RepairState} {reason : Str} (h : Budgeted policy i)
    (hdispatched : target ≠ .dispatched) (hplanned : target ≠ .planned) :
    Budgeted policy (i.transition sha256 target reason) := by
  have hentered : (i.transition sha256 target reason).entered .dispatched = i.entered .dispatched := by
    rw [RepairIncident.entered_transition, if_neg hdispatched]
    rfl
  constructor
  · rw [hentered]
    exact h.attempts
  · rw [hentered]
    exact h.limit
  · exact fun hstate => absurd hstate hplanned
  · exact fun hstate => absurd hstate hplanned

omit [UnicodeData] in
theorem budgeted_new (hstate : i.state = .detected) (hnone : i.transitions = []) : Budgeted policy i := by
  have hentered : i.entered .dispatched = 0 := by
    unfold RepairIncident.entered
    rw [hnone]
    rfl
  refine ⟨?_, ?_, fun hplanned => ?_, fun hplanned => ?_⟩
  · omega
  · omega
  · rw [hstate] at hplanned
    cases hplanned
  · rw [hstate] at hplanned
    cases hplanned

theorem Budgeted.exec (h : Budgeted policy i) (c : RepairCall) : Budgeted policy (c.exec sha256 policy i) := by
  have hmoves := c.moves sha256 policy i
  have hcounted : Budgeted policy { i with attempt := i.attempt + 1 } :=
    ⟨Nat.le_succ_of_le h.attempts, h.limit, fun hstate => Nat.lt_succ_of_lt (h.open_attempt hstate), h.open_limit⟩
  generalize c.exec sha256 policy i = i' at hmoves
  cases hmoves with
  | refused c hc => exact h
  | unplanned e he => exact hcounted
  | planned p hp =>
    have hentered : ({ i with attempt := i.attempt + 1 }.transition sha256 p.decision.target.1
        p.decision.target.2).entered .dispatched = i.entered .dispatched := by
      have hne : p.decision.target.1 ≠ .dispatched := by
        intro heq
        have hmem := p.decision.target_mem
        rw [heq] at hmem
        simp at hmem
      rw [RepairIncident.entered_transition, if_neg hne]
      rfl
    refine ⟨?_, ?_, fun hstate => ?_, fun hstate => ?_⟩ <;> rw [hentered]
    · exact Nat.le_succ_of_le h.attempts
    · exact h.limit
    · exact Nat.lt_succ_of_le h.attempts
    · have hlimit := nextPlan_planned hp hstate
      have hattempts := h.attempts
      omega
  | dispatched task hstate =>
    have hentered : (i.transition sha256 .dispatched task.authority.value).entered .dispatched =
        i.entered .dispatched + 1 := by
      rw [RepairIncident.entered_transition, if_pos rfl]
    refine ⟨?_, ?_, nofun, nofun⟩
    · rw [hentered]
      exact h.open_attempt hstate
    · rw [hentered]
      exact h.open_limit hstate
  | accepted result target reason hstate htarget =>
    have hcost : Budgeted policy { i with costSpentUsd := i.costSpentUsd + result.costUsd } :=
      ⟨h.attempts, h.limit, h.open_attempt, h.open_limit⟩
    refine hcost.transition ?_ ?_
    · rintro rfl
      simp at htarget
    · rintro rfl
      simp at htarget
  | verified result hstate =>
    refine h.transition ?_ ?_ <;> unfold RepairCoordinator.verdict <;> repeat' split
    all_goals nofun
  | retried hstate => exact h.transition nofun nofun

theorem budgeted_run (h : Budgeted policy i) (calls : List RepairCall) : Budgeted policy (i.run sha256 policy calls) := by
  induction calls using List.reverseRecOn with
  | nil => exact h
  | append_singleton calls c ih =>
    rw [run_concat]
    exact ih.exec c

/-- An incident that has left its first state belongs to a check that can be planned. -/
theorem plannable_of_moved (hi : i.state = .detected) (calls : List RepairCall)
    (hstate : (i.run sha256 policy calls).state ≠ .detected) (e : PyError) :
    (i.run sha256 policy calls).nextPlan sha256 policy ≠ .error e := by
  induction calls using List.reverseRecOn with
  | nil => exact absurd hi hstate
  | append_singleton calls c ih =>
    rw [run_concat] at hstate ⊢
    have hmoves := c.moves sha256 policy (i.run sha256 policy calls)
    intro herror
    have hbefore := nextPlan_error_of_check hmoves.check herror
    by_cases hdetected : (i.run sha256 policy calls).state = .detected
    · generalize c.exec sha256 policy (i.run sha256 policy calls) = i' at hmoves hstate
      cases hmoves with
      | refused c hc => exact hstate hdetected
      | unplanned e he => exact hstate hdetected
      | planned p hp =>
        rw [hp] at hbefore
        cases hbefore
      | dispatched task hplanned =>
        rw [hdetected] at hplanned
        cases hplanned
      | accepted result target reason hdispatched htarget =>
        rw [hdetected] at hdispatched
        cases hdispatched
      | verified result hverifying =>
        rw [hdetected] at hverifying
        cases hverifying
      | retried hrerunning => exact hstate rfl
    · exact ih hdetected hbefore

/-- The last dispatch of the attempt under way. -/
def Dispatched (sha256 : Str → Str) (policy : SupervisorPolicy) (i : RepairIncident) (calls : List RepairCall) : Prop :=
  ∃ earlier task later, calls = earlier ++ .dispatch task :: later ∧
    (i.run sha256 policy earlier).state = .planned ∧
    (i.run sha256 policy (earlier ++ [.dispatch task])).state = .dispatched ∧
    (i.run sha256 policy earlier).attempt = (i.run sha256 policy calls).attempt

theorem Dispatched.concat {calls : List RepairCall} (h : Dispatched sha256 policy i calls) {c : RepairCall}
    (hattempt : (i.run sha256 policy (calls ++ [c])).attempt = (i.run sha256 policy calls).attempt) :
    Dispatched sha256 policy i (calls ++ [c]) := by
  obtain ⟨earlier, task, later, hcalls, hplanned, hdispatched, hsame⟩ := h
  refine ⟨earlier, task, later ++ [c], ?_, hplanned, hdispatched, hsame.trans hattempt.symm⟩
  rw [hcalls, List.append_assoc, List.cons_append]

/-- A candidate patch belongs to a dispatch of the attempt that is under way. -/
theorem dispatched_of_working (hi : i.state = .detected) (calls : List RepairCall)
    (hstate : (i.run sha256 policy calls).state = .dispatched ∨ (i.run sha256 policy calls).state = .verifying) :
    Dispatched sha256 policy i calls := by
  induction calls using List.reverseRecOn with
  | nil =>
    change i.state = .dispatched ∨ i.state = .verifying at hstate
    rw [hi] at hstate
    rcases hstate with h | h <;> cases h
  | append_singleton calls c ih =>
    have hplannable := @plannable_of_moved _ sha256 policy i hi calls
    have hkeep := fun hbefore => (ih hbefore).concat (c := c)
    have hmoves := c.moves sha256 policy (i.run sha256 policy calls)
    rw [run_concat] at hstate hkeep
    generalize hafter : c.exec sha256 policy (i.run sha256 policy calls) = i' at hmoves hstate hkeep
    cases hmoves with
    | refused c hc => exact hkeep hstate rfl
    | unplanned e he =>
      refine absurd he (hplannable ?_ e)
      rintro hdetected
      rcases hstate with h | h <;> exact absurd (hdetected.symm.trans h) nofun
    | planned p hp =>
      have hmem := p.decision.target_mem
      rcases hstate with h | h <;> rw [RepairIncident.transition_state] at h <;> rw [h] at hmem <;> simp at hmem
    | dispatched task hplanned =>
      refine ⟨calls, task, [], rfl, hplanned, ?_, ?_⟩
      · rw [run_concat, hafter]
        rfl
      · rw [run_concat, hafter]
        rfl
    | accepted result target reason hdispatched htarget => exact hkeep (.inl hdispatched) rfl
    | verified result hverifying => exact hkeep (.inr hverifying) rfl
    | retried hrerunning => rcases hstate with h | h <;> cases h

/-- A call on a finished incident leaves its state alone, unless it is a plan that leads elsewhere. -/
theorem exec_final (hfinal : i.state.final = true) {c : RepairCall}
    (hplan : c = .plan → ∀ plan, i.nextPlan sha256 policy = .ok plan → plan.decision.target.1 = i.state) :
    (c.exec sha256 policy i).state = i.state := by
  have hmoves := c.moves sha256 policy i
  generalize c.exec sha256 policy i = i' at hmoves
  cases hmoves with
  | refused c hc => rfl
  | unplanned e he => rfl
  | planned p hp => exact hplan rfl p hp
  | dispatched task hstate =>
    rw [hstate] at hfinal
    cases hfinal
  | accepted result target reason hstate htarget =>
    rw [hstate] at hfinal
    cases hfinal
  | verified result hstate =>
    rw [hstate] at hfinal
    cases hfinal
  | retried hstate =>
    rw [hstate] at hfinal
    cases hfinal

/-- Only a verification turns an incident green. -/
theorem exec_green {c : RepairCall} (hbefore : i.state ≠ .green) (hafter : (c.exec sha256 policy i).state = .green) :
    ∃ result, c = .verify result ∧ result.successful = true ∧ i.state = .verifying := by
  have hmoves := c.moves sha256 policy i
  generalize c.exec sha256 policy i = i' at hmoves hafter
  cases hmoves with
  | refused c hc => exact absurd hafter hbefore
  | unplanned e he => exact absurd hafter hbefore
  | planned p hp =>
    have hmem := p.decision.target_mem
    rw [RepairIncident.transition_state] at hafter
    rw [hafter] at hmem
    simp at hmem
  | dispatched task hstate => cases hafter
  | accepted result target reason hstate htarget =>
    rw [RepairIncident.transition_state] at hafter
    rw [hafter] at htarget
    simp at htarget
  | verified result hstate => exact ⟨result, rfl, RepairCoordinator.verdict_green hafter, hstate⟩
  | retried hstate => cases hafter

theorem unreopened_of_settled {calls : List RepairCall} (h : BoundedRepair sha256 policy i calls) :
    Unreopened sha256 policy i calls := by
  intro before after hcalls hfinal plan hplan
  have hsettled := h.settled before [.plan] after (by rw [hcalls, List.append_assoc]; rfl) hfinal
  rw [run_concat] at hsettled
  simp only [RepairCall.exec, RepairCoordinator.plan, hplan] at hsettled
  exact hsettled

theorem settled_of_unreopened {calls before after : List RepairCall} (h : Unreopened sha256 policy i calls)
    (later : List RepairCall) (hcalls : calls = before ++ later ++ after)
    (hfinal : (i.run sha256 policy before).state.final = true) :
    (i.run sha256 policy (before ++ later)).state = (i.run sha256 policy before).state := by
  induction later using List.reverseRecOn generalizing after with
  | nil => rw [List.append_nil]
  | append_singleton later c ih =>
    have hcalls' : calls = before ++ later ++ ([c] ++ after) := by
      rw [hcalls]
      simp only [List.append_assoc]
    have hsame := ih hcalls'
    rw [← List.append_assoc, run_concat, exec_final (by rw [hsame]; exact hfinal), hsame]
    rintro rfl plan hplan
    exact h (before ++ later) after hcalls' (by rw [hsame]; exact hfinal) plan hplan

/-- A new incident keeps all promises exactly when no finished incident is planned into another state. -/
theorem boundedRepair_iff (sha256 : Str → Str) (policy : SupervisorPolicy) (incidentId : Str) (check : FailedCheck)
    (costSpentUsd : ℚ) (elapsedSeconds : Int) (calls : List RepairCall) :
    BoundedRepair sha256 policy { incidentId, check, costSpentUsd, elapsedSeconds } calls ↔
      Unreopened sha256 policy { incidentId, check, costSpentUsd, elapsedSeconds } calls := by
  constructor
  · exact unreopened_of_settled
  · intro h
    refine ⟨fun before later after hcalls hfinal => settled_of_unreopened h later hcalls hfinal, ?_, ?_⟩
    · intro before call after hcalls hbefore hafter
      rw [run_concat] at hafter
      obtain ⟨result, rfl, hsuccess, hverifying⟩ := exec_green hbefore hafter
      obtain ⟨earlier, task, later, hsplit, hplanned, hdispatched, hattempt⟩ :=
        dispatched_of_working rfl before (.inr hverifying)
      exact ⟨result, earlier, task, later, rfl, hsuccess, hsplit, hplanned, hdispatched, hattempt⟩
    · exact (budgeted_run (budgeted_new rfl rfl) calls).limit

/-- A lint failure that is repaired and verified. -/
def repairedLint : List RepairCall :=
  [.plan, .dispatch ⟨[], [], .autonomousPatch, [], [], [], [], ['k']⟩, .acceptWorkerResult { patchProposed := true },
    .verify ⟨true, true, true, true, true, false, false⟩]

omit [UnicodeData] in
/-- The incident is green, and planned again. -/
theorem green_incident_planned_again :
    ¬ @BoundedRepair asciiData id {}
      { incidentId := "incident-1".toList, check := ⟨"CI".toList, "ruff".toList, "lint".toList, [], []⟩ }
      (repairedLint ++ [.plan]) := by
  intro h
  let _ := asciiData
  have hsettled := h.settled repairedLint [.plan] [] rfl (by decide +kernel)
  revert hsettled
  decide +kernel

section History

/-- A call of the coordinator, a delivery through the ledger included. -/
inductive CoordinatorCall where
  | own (c : RepairCall)
  | deliver (task : AgentTask) (outcome : Except RepairError WorkerResult)

def CoordinatorCall.exec (sha256 : Str → Str) (policy : SupervisorPolicy) (i : RepairIncident) :
    CoordinatorCall → RepairIncident
  | .own c => c.exec sha256 policy i
  | .deliver task outcome => (RepairCoordinator.deliverIdempotent sha256 task outcome i).2

def RepairIncident.drive (sha256 : Str → Str) (policy : SupervisorPolicy) (i : RepairIncident)
    (calls : List CoordinatorCall) : RepairIncident :=
  calls.foldl (CoordinatorCall.exec sha256 policy) i

/-- A delivery leaves the incident alone, or dispatches the task and accepts its result. -/
theorem deliver_exec (task : AgentTask) (outcome : Except RepairError WorkerResult) :
    (CoordinatorCall.deliver task outcome).exec sha256 policy i = i ∨ ∃ result,
      (CoordinatorCall.deliver task outcome).exec sha256 policy i =
        i.run sha256 policy [.dispatch task, .acceptWorkerResult result] := by
  unfold CoordinatorCall.exec RepairCoordinator.deliverIdempotent
  dsimp only
  split
  · exact .inl rfl
  next hkey =>
    cases outcome with
    | error e => exact .inl rfl
    | ok result =>
      dsimp only
      split
      · exact .inl rfl
      next hstate =>
        have hdispatch : RepairCoordinator.dispatch sha256 task i =
            (.ok (), i.transition sha256 .dispatched task.authority.value) := by
          unfold RepairCoordinator.dispatch
          rw [if_neg hstate, if_neg hkey]
        refine .inr ⟨result, ?_⟩
        rw [hdispatch]
        unfold RepairIncident.run
        rw [List.foldl_cons, List.foldl_cons, List.foldl_nil, RepairCall.exec, RepairCall.exec, hdispatch]

/-- Deliveries add no way to move an incident. -/
theorem drive_eq_run (calls : List CoordinatorCall) : ∃ own, i.drive sha256 policy calls = i.run sha256 policy own := by
  induction calls generalizing i with
  | nil => exact ⟨[], rfl⟩
  | cons c calls ih =>
    obtain ⟨later, hlater⟩ := @ih (c.exec sha256 policy i)
    have hdrive : i.drive sha256 policy (c :: calls) = (c.exec sha256 policy i).drive sha256 policy calls := rfl
    rw [hdrive, hlater]
    cases c with
    | own c => exact ⟨c :: later, rfl⟩
    | deliver task outcome =>
      rcases @deliver_exec _ sha256 policy i task outcome with hsame | ⟨result, hmoved⟩
      · exact ⟨later, by rw [hsame]⟩
      · exact ⟨.dispatch task :: .acceptWorkerResult result :: later, by rw [hmoved]; rfl⟩

/-- What every call keeps of an incident's history. -/
structure Chained (sha256 : Str → Str) (i : RepairIncident) : Prop where
  chain : HashChain.verify sha256 "GENESIS".toList (Transition.links i.incidentId "GENESIS".toList i.transitions) =
    some (i.transitions.getLast?.elim "GENESIS".toList (·.digest))
  hashed : ∀ t ∈ i.transitions, ∃ s, t.digest = sha256 s
  numbered : ∀ k t, i.transitions[k]? = some t → t.sequence = k + 1
  state : i.state = i.transitions.getLast?.elim .detected (·.toState)

omit [UnicodeData] in
theorem Chained.transition {target : RepairState} {reason : Str} (h : Chained sha256 i) :
    Chained sha256 (i.transition sha256 target reason) := by
  constructor
  · simp only [RepairIncident.transition]
    rw [Transition.links_concat, List.getLast?_concat]
    exact HashChain.verify_concat.mpr ⟨h.chain, rfl, rfl⟩
  · simp only [RepairIncident.transition]
    refine List.forall_mem_append.mpr ⟨h.hashed, ?_⟩
    exact List.forall_mem_singleton.mpr ⟨_, rfl⟩
  · intro k t hk
    simp only [RepairIncident.transition] at hk
    rcases Nat.lt_or_ge k i.transitions.length with hlt | hge
    · rw [List.getElem?_append_left hlt] at hk
      exact h.numbered k t hk
    · rw [List.getElem?_append_right hge] at hk
      cases hindex : k - i.transitions.length with
      | zero =>
        rw [hindex] at hk
        cases hk
        dsimp only
        omega
      | succ m =>
        rw [hindex] at hk
        cases hk
  · simp only [RepairIncident.transition]
    rw [List.getLast?_concat]
    rfl

theorem Chained.exec (h : Chained sha256 i) (c : RepairCall) : Chained sha256 (c.exec sha256 policy i) := by
  have hmoves := c.moves sha256 policy i
  generalize c.exec sha256 policy i = i' at hmoves
  cases hmoves with
  | refused c hc => exact h
  | unplanned e he => exact ⟨h.chain, h.hashed, h.numbered, h.state⟩
  | planned p hp => exact Chained.transition ⟨h.chain, h.hashed, h.numbered, h.state⟩
  | dispatched task hstate => exact h.transition
  | accepted result target reason hstate htarget => exact Chained.transition ⟨h.chain, h.hashed, h.numbered, h.state⟩
  | verified result hstate => exact h.transition
  | retried hstate => exact h.transition

theorem Chained.run (h : Chained sha256 i) (calls : List RepairCall) : Chained sha256 (i.run sha256 policy calls) := by
  induction calls using List.reverseRecOn with
  | nil => exact h
  | append_singleton calls c ih =>
    rw [run_concat]
    exact ih.exec c

theorem Chained.drive (h : Chained sha256 i) (calls : List CoordinatorCall) :
    Chained sha256 (i.drive sha256 policy calls) := by
  obtain ⟨own, hown⟩ := @drive_eq_run _ sha256 policy i calls
  rw [hown]
  exact h.run own

omit [UnicodeData] in
theorem chained_new (hstate : i.state = .detected) (hnone : i.transitions = []) : Chained sha256 i := by
  refine ⟨?_, fun t ht => ?_, fun k t hk => ?_, ?_⟩
  · rw [hnone]
    rfl
  · rw [hnone] at ht
    cases ht
  · rw [hnone] at hk
    cases hk
  · rw [hnone]
    exact hstate

omit [UnicodeData] in
/-- The check asks for consecutive numbers and digests of full length, and for nothing else. -/
theorem verifyTransitionChain_iff {n : Nat} {ts : List Transition} : verifyTransitionChain n ts = true ↔
    (∀ k t, ts[k]? = some t → t.sequence = n + k + 1) ∧ ∀ t ∈ ts, t.digest.length = 64 := by
  induction ts generalizing n with
  | nil => exact ⟨fun _ => ⟨nofun, nofun⟩, fun _ => rfl⟩
  | cons t ts ih =>
    rw [verifyTransitionChain]
    split
    next hbad =>
      refine ⟨nofun, fun ⟨hnumbered, hlength⟩ => ?_⟩
      rcases hbad with hsequence | hdigest
      · exact absurd (hnumbered 0 t rfl) hsequence
      · exact absurd (hlength t List.mem_cons_self) hdigest
    next hgood =>
      obtain ⟨hsequence, hdigest⟩ := not_or.mp hgood
      rw [ih, List.forall_mem_cons, not_not.mp hsequence]
      constructor
      · rintro ⟨hnumbered, hlength⟩
        refine ⟨fun k u hk => ?_, not_not.mp hdigest, hlength⟩
        cases k with
        | zero =>
          cases hk
          exact not_not.mp hsequence
        | succ k =>
          rw [hnumbered k u hk]
          omega
      · rintro ⟨hnumbered, -, hlength⟩
        refine ⟨fun k u hk => ?_, hlength⟩
        rw [hnumbered (k + 1) u hk]
        omega

/-- Two different texts of two histories with one digest. -/
def Collision (sha256 : Str → Str) (i j : RepairIncident) : Prop :=
  ∃ p ∈ i.payloads, ∃ q ∈ j.payloads, p ≠ q ∧ sha256 p = sha256 q

omit [UnicodeData] in
/-- Histories of one length with one last digest are the same, unless digests collide. -/
theorem Chained.eq_of_length {j : RepairIncident} (h : Chained sha256 i) (h' : Chained sha256 j)
    (hlength : i.transitions.length = j.transitions.length)
    (hlast : i.transitions.getLast?.elim "GENESIS".toList (·.digest) =
      j.transitions.getLast?.elim "GENESIS".toList (·.digest)) :
    i.transitions = j.transitions ∨ Collision sha256 i j := by
  have hprev : ∀ l ∈ Transition.links i.incidentId "GENESIS".toList i.transitions,
      ∀ k ∈ Transition.links j.incidentId "GENESIS".toList j.transitions, l.body = k.body → l.prev = k.prev := by
    intro l hl k hk hbody
    obtain ⟨t, -, ht⟩ := Transition.body_of_mem_links hl
    obtain ⟨u, -, hu⟩ := Transition.body_of_mem_links hk
    rw [ht, hu] at hbody
    exact (Transition.payload_injective hbody).2.1
  have hchain := h.chain
  rw [hlast] at hchain
  rcases HashChain.verify_diverges hprev hchain h'.chain (by rw [Transition.links_length, Transition.links_length, hlength])
    with heq | ⟨k, l, l', hl, hl', hne, hhash⟩
  · exact .inl (Transition.links_injective heq)
  · exact .inr ⟨l.body, List.mem_map_of_mem (List.mem_of_getElem? hl), l'.body,
      List.mem_map_of_mem (List.mem_of_getElem? hl'), hne, hhash⟩

omit [UnicodeData] in
/-- The last digest is that of a payload with the number of the transition. -/
theorem Chained.last (h : Chained sha256 i) {t : Transition} (ht : i.transitions.getLast? = some t) :
    t.sequence = i.transitions.length ∧ ∃ previous, t.payload i.incidentId previous ∈ i.payloads ∧
      sha256 (t.payload i.incidentId previous) = t.digest := by
  obtain ⟨ts, hts⟩ := List.getLast?_eq_some_iff.mp ht
  constructor
  · rw [List.getLast?_eq_getElem?] at ht
    have hpositive : 0 < i.transitions.length := by
      rw [hts, List.length_append, List.length_singleton]
      omega
    rw [h.numbered _ t ht]
    omega
  · have hchain := h.chain
    unfold RepairIncident.payloads
    rw [hts, Transition.links_concat] at hchain ⊢
    refine ⟨_, List.mem_map_of_mem (List.mem_append_right _ List.mem_cons_self), ?_⟩
    exact (HashChain.verify_concat.mp hchain).2.1

/-- An incident after calls of a coordinator, whether they returned or raised. -/
def RepairIncident.Reached (sha256 : Str → Str) (i : RepairIncident) : Prop :=
  ∃ policy incidentId check costSpentUsd elapsedSeconds calls,
    i = RepairIncident.drive sha256 policy { incidentId, check, costSpentUsd, elapsedSeconds } calls

theorem RepairIncident.Reached.chained (h : i.Reached sha256) : Chained sha256 i := by
  obtain ⟨policy, incidentId, check, cost, elapsed, calls, rfl⟩ := h
  exact (chained_new rfl rfl).drive calls

/-- Where hashes have 64 digits, the history of every incident passes the check. -/
theorem RepairIncident.Reached.verified (h : i.Reached sha256) (hlength : ∀ s, (sha256 s).length = 64) :
    verifyTransitionChain 0 i.transitions = true := by
  refine verifyTransitionChain_iff.mpr ⟨fun k t hk => ?_, fun t ht => ?_⟩
  · rw [h.chained.numbered k t hk, Nat.zero_add]
  · obtain ⟨s, hs⟩ := h.chained.hashed t ht
    rw [hs]
    exact hlength s

/-- The last digest of a history commits to the incident's id, to its state and to every transition, unless two texts that
were hashed for the two incidents have one hash. -/
theorem history_committed {sha256 : Str → Str} {i j : RepairIncident} (hi : i.Reached sha256) (hj : j.Reached sha256)
    {t u : Transition} (ht : i.transitions.getLast? = some t) (hu : j.transitions.getLast? = some u)
    (hdigest : t.digest = u.digest) :
    (i.incidentId = j.incidentId ∧ i.state = j.state ∧ i.transitions = j.transitions) ∨ Collision sha256 i j := by
  obtain ⟨hnumber, previous, hmem, hhash⟩ := hi.chained.last ht
  obtain ⟨hnumber', previous', hmem', hhash'⟩ := hj.chained.last hu
  by_cases hpayload : t.payload i.incidentId previous = u.payload j.incidentId previous'
  · obtain ⟨hid, -, hsequence, -⟩ := Transition.payload_injective hpayload
    have hlength : i.transitions.length = j.transitions.length := by rw [← hnumber, ← hnumber', hsequence]
    have hlast : i.transitions.getLast?.elim "GENESIS".toList (·.digest) =
        j.transitions.getLast?.elim "GENESIS".toList (·.digest) := by
      rw [ht, hu]
      exact hdigest
    refine (hi.chained.eq_of_length hj.chained hlength hlast).imp_left fun hsame => ⟨hid, ?_, hsame⟩
    rw [hi.chained.state, hj.chained.state, hsame]
  · exact .inr ⟨_, hmem, _, hmem', hpayload, by rw [hhash, hhash', hdigest]⟩

/-- Two failures with one incident id, planned and delivered. -/
def deliveredCheck (policy : SupervisorPolicy) (name : String) : RepairIncident :=
  @RepairIncident.drive asciiData id policy
    { incidentId := "incident-1".toList, check := ⟨"CI".toList, name.toList, "lint".toList, [], []⟩ }
    [.own .plan, .deliver ⟨[], [], .autonomousPatch, [], [], [], [], ['k']⟩ (.ok { patchProposed := true })]

omit [UnicodeData] in
theorem deliveredCheck_committed :
    ((deliveredCheck {} "ruff").incidentId = (deliveredCheck {} "lint").incidentId ∧
      (deliveredCheck {} "ruff").state = (deliveredCheck {} "lint").state ∧
      (deliveredCheck {} "ruff").transitions = (deliveredCheck {} "lint").transitions) ∨
      Collision id (deliveredCheck {} "ruff") (deliveredCheck {} "lint") :=
  @history_committed asciiData _ _ _ ⟨{}, _, _, 0, 0, _, rfl⟩ ⟨{}, _, _, 0, 0, _, rfl⟩ _ _
    (List.getLast?_eq_some_getLast (List.ne_nil_of_length_pos (by decide +kernel)))
    (List.getLast?_eq_some_getLast (List.ne_nil_of_length_pos (by decide +kernel))) (by decide +kernel)

end History

end Supervisor

end FailureOrchestrator
