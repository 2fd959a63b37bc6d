import FailureOrchestrator.GatewayRuns

namespace FailureOrchestrator

namespace TrustGateway

open Exec

variable {F : Type}

/-- The places in the stream of the proposals that the executor was called with. -/
def positions (log : List (GatewayAct F)) : List Nat :=
  log.filterMap fun
    | .execute n _ => some n
    | .event _ => none

@[simp] theorem positions_append (log log' : List (GatewayAct F)) :
    positions (log ++ log') = positions log ++ positions log' :=
  List.filterMap_append ..

@[simp] theorem positions_event (e : GatewayEvent F) : positions [.event e] = [] := rfl

@[simp] theorem positions_execute (n : Nat) (p : RepairProposal F) : positions [.execute n p] = [n] := rfl

theorem positions_move (w : GatewayRun F) (target : GatewayState) : positions (w.move target).log = positions w.log := rfl

theorem positions_record (w : GatewayRun F) (e : GatewayEvent F) : positions (w.record e).log = positions w.log := by
  show positions (w.log ++ [.event e]) = _
  rw [positions_append, positions_event, List.append_nil]

variable [PyFloat F] [UnicodeCase] {g : Gateway F} {w : GatewayRun F} {p : RepairProposal F} {b : RetryBudget}
  {humanApproved : Bool}

/-- The audit log takes the events, one after the other. -/
def Gateway.Takes (g : Gateway F) : List (GatewayAct F) → List (GatewayEvent F) → Prop
  | _, [] => True
  | log, e :: rest => g.audit log e = none ∧ g.Takes (log ++ [.event e]) rest

/-- The events of an allowed proposal. -/
def allowedEvents (humanApproved : Bool) (p : RepairProposal F) (context : TrustContext F) (policy : PolicyResult) :
    List (GatewayEvent F) :=
  [.contextCreated context, .networkProbe context.networkCapabilities, .policyDecision policy] ++
    if humanApproved = true ∧ endsWith policy.ruleId "_APPROVED".toList = true then [.approvalReceived p.proposalId] else []

/-- The context of the `n`-th proposal can be built, the policy allows it, and the log takes the events of it. -/
def Permitted (g : Gateway F) (humanApproved : Bool) (n : Nat) (p : RepairProposal F) (log : List (GatewayAct F)) : Prop :=
  ∃ context result, g.contextBuilder.build n (p.contextRequest humanApproved) = .ok context ∧
    g.policy n context = .ok result ∧ result.decision = .allow ∧ g.Takes log (allowedEvents humanApproved p context result)

/-- The checks that stand between a proposal and the executor: the log takes it, it gives its reasons, is new in the run, the
policy allows it, the budget pays for it, and there is a sandbox. -/
structure Passes (g : Gateway F) (humanApproved : Bool) (w : GatewayRun F) : Prop where
  announced : g.audit w.log (.llmProposal (g.proposals w.requested)) = none
  rationale : ¬ (w.budget.attempts + 1 > 1 ∧ (g.proposals w.requested).lacksRationale = true)
  fresh : ∃ f, (g.proposals w.requested).fingerprint g.sha256 = some f ∧ f ∉ w.fingerprints
  allowed : Permitted g humanApproved w.requested (g.proposals w.requested)
    (w.log ++ [.event (.llmProposal (g.proposals w.requested))])
  paid : ∃ budget, w.budget.consume (g.proposals w.requested).estimatedCost (g.clock w.requested 0) = .ok (true, budget)
  sandbox : g.sandbox w.requested = .ok ()

/-- A step calls no executor, and goes on in `Q` exactly when a condition holds. -/
def Tests (c : Prop) (ps : List Nat) (Q : GatewayRun F → Prop) : Except GatewayError (Ending F) × GatewayRun F → Prop
  | (.ok none, w) => c ∧ positions w.log = ps ∧ Q w
  | (_, w) => ¬ c ∧ positions w.log = ps

/-- A step calls the executor with the `n`-th proposal exactly when a condition holds, and no more. -/
def Calls (c : Prop) (n : Nat) (ps : List Nat) (r : Except GatewayError (Ending F) × GatewayRun F) : Prop :=
  (c → positions r.2.log = ps ++ [n]) ∧ (¬ c → positions r.2.log = ps)

theorem Tests.andThen {c c' : Prop} {n : Nat} {ps : List Nat} {Q R : GatewayRun F → Prop} {x y : GatewayExec F (Ending F)}
    (hx : Tests c ps Q (x w)) (hleads : Leads g humanApproved b R (x w))
    (hy : ∀ w', positions w'.log = ps → Q w' → Kept g b w' → R w' → Calls c' n ps (y w')) :
    Calls (c ∧ c') n ps (andThen x y w) := by
  unfold TrustGateway.andThen
  rcases hxs : x w with ⟨e | _ | result, w'⟩ <;> rw [hxs] at hx hleads
  · rw [bind_of_error hxs]
    exact ⟨fun h => absurd h.1 hx.1, fun _ => hx.2⟩
  · rw [bind_of_ok hxs]
    obtain ⟨hc, hps, hq⟩ := hx
    have hcalls := hy w' hps hq hleads.1 hleads.2
    exact ⟨fun h => hcalls.1 h.2, fun h => hcalls.2 fun h' => h ⟨hc, h'⟩⟩
  · rw [bind_of_ok hxs]
    exact ⟨fun h => absurd h.1 hx.1, fun _ => hx.2⟩

omit [PyFloat F] [UnicodeCase] in
/-- An event that the log does not take ends the run: then the condition must not hold. -/
theorem Tests.event {c : Prop} {ps : List Nat} {Q : GatewayRun F → Prop} {e : GatewayEvent F}
    {f : Unit → GatewayExec F (Ending F)} (hps : positions w.log = ps) (hfails : g.audit w.log e ≠ none → ¬ c)
    (hf : positions (w.record e).log = ps → g.audit w.log e = none → Tests c ps Q (f () (w.record e))) :
    Tests c ps Q ((TrustGateway.event g e >>= f) w) := by
  cases hlog : g.audit w.log e with
  | none =>
    rw [event_ok hlog]
    exact hf ((positions_record w e).trans hps) hlog
  | some error =>
    rw [event_error hlog]
    exact ⟨hfails (by rw [hlog]; exact Option.some_ne_none error), hps⟩

omit [PyFloat F] [UnicodeCase] in
theorem event_positions {ps : List Nat} {e : GatewayEvent F} {f : Unit → GatewayExec F (Ending F)}
    (hps : positions w.log = ps) (hf : positions (w.record e).log = ps → positions (f () (w.record e)).2.log = ps) :
    positions ((event g e >>= f) w).2.log = ps := by
  cases hlog : g.audit w.log e with
  | none =>
    rw [event_ok hlog]
    exact hf ((positions_record w e).trans hps)
  | some error =>
    rw [event_error hlog]
    exact hps

omit [PyFloat F] [UnicodeCase] in
theorem always_positions {x : GatewayExec F (Ending F)} {r : Except TrustError Unit} :
    positions (Exec.always x (outside r) w).2.log = positions (x w).2.log := by
  unfold Exec.always
  cases r <;> rfl

omit [PyFloat F] [UnicodeCase] in
theorem escalate_tests {c : Prop} (hc : ¬ c) {w' : GatewayRun F} (hlog : positions w'.log = positions w.log)
    {Q : GatewayRun F → Prop} (reason : Str) : Tests c (positions w.log) Q (escalate g reason p w') := by
  unfold escalate
  rw [read_bind]
  exact Tests.event hlog (fun _ => hc) fun hrecorded _ => ⟨hc, hrecorded⟩

omit [UnicodeCase] in
theorem screen_tests (hstate : w.machine.state = .proposed) (attemptNumber : Nat) :
    Tests (¬ (attemptNumber > 1 ∧ p.lacksRationale = true) ∧ ∃ f, p.fingerprint g.sha256 = some f ∧ f ∉ w.fingerprints)
      (positions w.log) (fun w' => w'.budget = w.budget ∧ w'.log = w.log) (screen g attemptNumber p w) := by
  have hallowed : GatewayState.humanEscalation ∈ w.machine.state.transitions := by
    rw [hstate]
    exact .tail _ (.head _)
  unfold screen
  split
  next hlacks =>
    rw [moveTo_bind hallowed]
    exact escalate_tests (fun h => h.1 hlacks) rfl _
  next hreason =>
    cases hfingerprint : p.fingerprint g.sha256 with
    | none => exact ⟨(fun ⟨_, f, hf, _⟩ => nomatch hf), rfl⟩
    | some fingerprint =>
      dsimp only
      rw [read_bind]
      split
      next hknown =>
        rw [moveTo_bind hallowed]
        refine escalate_tests ?_ rfl _
        rintro ⟨-, f, hf, hnew⟩
        cases hf
        exact hnew hknown
      next hnew => exact ⟨⟨hreason, fingerprint, rfl, hnew⟩, rfl, rfl, rfl⟩

omit [PyFloat F] in
theorem authorize_tests (hstate : w.machine.state = .proposed) (n : Nat) :
    Tests (Permitted g humanApproved n p w.log) (positions w.log) (fun w' => w'.budget = w.budget)
      (authorize g humanApproved n p w) := by
  have hready : GatewayState.contextReady ∈ w.machine.state.transitions := by
    rw [hstate]
    exact .head _
  have hevaluated : GatewayState.policyEvaluated ∈ GatewayState.contextReady.transitions := .head _
  unfold authorize
  cases hcontext : g.contextBuilder.build n (p.contextRequest humanApproved) with
  | error e =>
    rw [outside_error rfl]
    refine ⟨?_, rfl⟩
    rintro ⟨context, -, h, -⟩
    rw [hcontext] at h
    cases h
  | ok context =>
    have hpermitted : Permitted g humanApproved n p w.log ↔ ∃ result, g.policy n context = .ok result ∧
        result.decision = .allow ∧ g.Takes w.log (allowedEvents humanApproved p context result) := by
      constructor
      · rintro ⟨context', result, h, hrest⟩
        rw [hcontext] at h
        cases h
        exact ⟨result, hrest⟩
      · exact fun ⟨result, hrest⟩ => ⟨context, result, hcontext, hrest⟩
    rw [hpermitted, outside_ok rfl, moveTo_bind hready]
    refine Tests.event rfl ?_ fun hcreated htaken => ?_
    · rintro hlog ⟨result, -, -, htakes⟩
      exact hlog htakes.1
    refine Tests.event hcreated ?_ fun hprobed htaken' => ?_
    · rintro hlog ⟨result, -, -, htakes⟩
      exact hlog htakes.2.1
    cases hpolicy : g.policy n context with
    | error e =>
      rw [outside_error rfl]
      refine ⟨?_, hprobed⟩
      rintro ⟨result, h, -⟩
      cases h
    | ok policy =>
      have hdecided : (∃ result, Except.ok policy = .ok (ε := TrustError) result ∧ result.decision = .allow ∧
          g.Takes w.log (allowedEvents humanApproved p context result)) ↔ policy.decision = .allow ∧
            g.Takes w.log (allowedEvents humanApproved p context policy) := by
        constructor
        · rintro ⟨result, h, hrest⟩
          cases h
          exact hrest
        · exact fun hrest => ⟨policy, rfl, hrest⟩
      rw [hdecided, outside_ok rfl, update_bind, moveTo_bind hevaluated]
      refine Tests.event hprobed (fun hlog h => hlog h.2.2.2.1) fun hkept htaken'' => ?_
      cases hdecision : policy.decision with
      | deny =>
        dsimp only
        rw [moveTo_bind (show GatewayState.denied ∈ GatewayState.policyEvaluated.transitions from .tail _ (.tail _ (.head _)))]
        exact ⟨nofun, hkept⟩
      | requireApproval =>
        dsimp only
        rw [moveTo_bind (show GatewayState.approvalPending ∈ GatewayState.policyEvaluated.transitions from .head _)]
        exact Tests.event hkept (fun _ => nofun) fun hrequested _ => ⟨nofun, hrequested⟩
      | allow =>
        dsimp only
        unfold allowedEvents
        split
        next =>
          refine Tests.event hkept (fun hlog h => hlog h.2.2.2.2.1) fun hreceived hlastTaken => ?_
          exact ⟨⟨rfl, htaken, htaken', htaken'', hlastTaken, trivial⟩, hreceived, rfl⟩
        next => exact ⟨⟨rfl, htaken, htaken', htaken'', trivial⟩, hkept, rfl⟩

omit [PyFloat F] [UnicodeCase] in
theorem spend_tests (hstate : w.machine.state = .policyEvaluated) (n : Nat) :
    Tests (∃ budget, w.budget.consume p.estimatedCost (g.clock n 0) = .ok (true, budget)) (positions w.log)
      (fun _ => True) (spend g n p w) := by
  have hexhausted : GatewayState.budgetExhausted ∈ w.machine.state.transitions := by
    rw [hstate]
    exact .tail _ (.head _)
  unfold spend
  rw [read_bind]
  cases hconsume : w.budget.consume p.estimatedCost (g.clock n 0) with
  | error e =>
    rw [outside_error rfl]
    exact ⟨(fun ⟨_, h⟩ => nomatch h), rfl⟩
  | ok r =>
    obtain ⟨paid, budget⟩ := r
    rw [outside_ok rfl]
    dsimp only
    rw [update_bind]
    cases paid with
    | true =>
      rw [if_pos rfl]
      exact ⟨⟨budget, rfl⟩, rfl, trivial⟩
    | false =>
      rw [if_neg Bool.false_ne_true, moveTo_bind (w := { w with budget }) hexhausted,
        moveTo_bind (show GatewayState.humanEscalation ∈ GatewayState.budgetExhausted.transitions from .head _),
        read_bind]
      have hunpaid : ¬ ∃ budget', Except.ok (false, budget) = .ok (ε := TrustError) (true, budget') := fun ⟨_, h⟩ => nomatch h
      refine Tests.event rfl (fun _ => hunpaid) fun hfirst _ => Tests.event hfirst (fun _ => hunpaid) fun hsecond _ => ?_
      exact ⟨hunpaid, hsecond⟩

omit [PyFloat F] [UnicodeCase] in
theorem fail_positions (hstate : GatewayState.retryableFailure ∈ w.machine.state.transitions) (n attemptNumber : Nat)
    (evaluation : EvaluationResult) (verification : Option EvaluationResult) :
    positions (fail g n attemptNumber p evaluation verification w).2.log = positions w.log := by
  unfold fail record
  rw [update_bind, moveTo_bind (w := { w with previousEvaluation := some (verification.getD evaluation) }) hstate,
    update_bind]
  rfl

omit [PyFloat F] [UnicodeCase] in
theorem attempt_positions (hstate : w.machine.state = .sandboxReady) (n attemptNumber : Nat) :
    positions (attempt g n attemptNumber p w).2.log = positions w.log ++ [n] := by
  have hexecuting : GatewayState.executing ∈ w.machine.state.transitions := by
    rw [hstate]
    exact .head _
  have hevaluating : GatewayState.evaluating ∈ GatewayState.executing.transitions := .head _
  have hcalled : positions (w.log ++ [.execute n p]) = positions w.log ++ [n] := by
    rw [positions_append, positions_execute]
  unfold attempt
  rw [moveTo_bind hexecuting, update_bind]
  cases g.execution n p with
  | error e =>
    rw [outside_error rfl]
    exact hcalled
  | ok execution =>
    rw [outside_ok rfl]
    refine event_positions hcalled fun hran => ?_
    rw [moveTo_bind hevaluating]
    refine event_positions hran fun hkept => ?_
    split
    next =>
      have hverifying : GatewayState.verifying ∈ GatewayState.evaluating.transitions := .head _
      rw [moveTo_bind hverifying]
      refine event_positions hkept fun hjudged => ?_
      split
      next =>
        have hdone : GatewayState.success ∈ GatewayState.verifying.transitions := .head _
        unfold record
        rw [moveTo_bind hdone, update_bind]
        exact event_positions hjudged fun hcompleted => hcompleted
      next => exact (fail_positions (.tail _ (.head _)) _ _ _ _).trans hjudged
    next => exact (fail_positions (.tail _ (.head _)) _ _ _ _).trans hkept

omit [PyFloat F] [UnicodeCase] in
/-- The executor is called exactly when there is a sandbox. -/
theorem perform_positions (hstate : w.machine.state = .policyEvaluated) (n attemptNumber : Nat) :
    positions (perform g n attemptNumber p w).2.log =
      positions w.log ++ if g.sandbox n = .ok () then [n] else [] := by
  have hready : GatewayState.sandboxReady ∈ w.machine.state.transitions := by
    rw [hstate]
    exact .tail _ (.tail _ (.tail _ (.head _)))
  unfold perform
  rw [moveTo_bind hready]
  cases hsandbox : g.sandbox n with
  | error e =>
    rw [outside_error rfl, if_neg nofun, List.append_nil]
    rfl
  | ok u =>
    rw [outside_ok rfl, if_pos rfl, always_positions]
    exact attempt_positions rfl n attemptNumber

omit [PyFloat F] [UnicodeCase] in
theorem reschedule_positions (hstate : w.machine.state = .retryableFailure) (n attemptNumber : Nat) :
    positions (reschedule g n attemptNumber p w).2.log = positions w.log := by
  have hexhausted : GatewayState.budgetExhausted ∈ w.machine.state.transitions := by
    rw [hstate]
    exact .tail _ (.head _)
  unfold reschedule
  rw [read_bind]
  dsimp only
  split
  next =>
    rw [moveTo_bind hexhausted,
      moveTo_bind (show GatewayState.humanEscalation ∈ GatewayState.budgetExhausted.transitions from .head _),
      read_bind]
    exact event_positions rfl fun hfirst => event_positions hfirst fun hsecond => hsecond
  next => exact event_positions rfl fun hscheduled => hscheduled

/-- A proposal that the log does not take is not executed. -/
theorem turn_unannounced (hstate : Entered w)
    (h : g.audit w.log (.llmProposal (g.proposals w.requested)) ≠ none) :
    positions (turn g humanApproved w).2.log = positions w.log := by
  have hproposed : GatewayState.proposed ∈ w.machine.state.transitions := by
    rcases hstate with hs | hs <;> rw [hs] <;> exact .head _
  obtain ⟨error, herror⟩ := Option.ne_none_iff_exists'.mp h
  unfold turn
  rw [read_bind, update_bind, moveTo_bind (w := { w with requested := w.requested + 1 }) hproposed,
    event_error (w := ({ w with requested := w.requested + 1 } : GatewayRun F).move .proposed) herror]
  rfl

/-- A pass of the loop calls the executor with the next proposal exactly when it passes the checks. -/
theorem turn_positions (h : Kept g b w) (hstate : Entered w) :
    (Passes g humanApproved w →
        positions (turn g humanApproved w).2.log = positions w.log ++ [w.requested]) ∧
      (¬ Passes g humanApproved w → positions (turn g humanApproved w).2.log = positions w.log) := by
  by_cases hannounced : g.audit w.log (.llmProposal (g.proposals w.requested)) = none
  swap
  · exact ⟨fun hpasses => absurd hpasses.announced hannounced, fun _ => turn_unannounced hstate hannounced⟩
  have hproposed : GatewayState.proposed ∈ w.machine.state.transitions := by
    rcases hstate with hs | hs <;> rw [hs] <;> exact .head _
  have hasked : Kept g b { w with requested := w.requested + 1 } := h.congr rfl rfl rfl rfl
  generalize hp : g.proposals w.requested = p at hannounced
  generalize hw₀ : (({ w with requested := w.requested + 1 } : GatewayRun F).move .proposed).record (.llmProposal p) = w₀
  have hkept₀ : Kept g b w₀ := by
    rw [← hw₀]
    exact (hasked.move hproposed).record _
  have hstate₀ : w₀.machine.state = .proposed := by rw [← hw₀]; rfl
  have hbudget₀ : w₀.budget = w.budget := by rw [← hw₀]; rfl
  have hfingerprints₀ : w₀.fingerprints = w.fingerprints := by rw [← hw₀]; rfl
  have htext₀ : w₀.log = w.log ++ [.event (.llmProposal p)] := by rw [← hw₀]; rfl
  have hlog₀ : positions w₀.log = positions w.log := by
    rw [← hw₀, positions_record, positions_move]
  have hturn : turn g humanApproved w = andThen (screen g (w.budget.attempts + 1) p)
      (andThen (authorize g humanApproved w.requested p) (andThen (spend g w.requested p)
        (andThen (perform g w.requested (w.budget.attempts + 1) p)
          (reschedule g w.requested (w.budget.attempts + 1) p)))) w₀ := by
    unfold turn
    rw [read_bind, update_bind, moveTo_bind (w := { w with requested := w.requested + 1 }) hproposed, hp,
      event_ok (w := ({ w with requested := w.requested + 1 } : GatewayRun F).move .proposed) hannounced, hw₀]
  have hpasses : Passes g humanApproved w ↔
      (¬ (w.budget.attempts + 1 > 1 ∧ p.lacksRationale = true) ∧ ∃ f, p.fingerprint g.sha256 = some f ∧ f ∉ w.fingerprints) ∧
      Permitted g humanApproved w.requested p w₀.log ∧
      (∃ budget, w.budget.consume p.estimatedCost (g.clock w.requested 0) = .ok (true, budget)) ∧
      g.sandbox w.requested = .ok () := by
    rw [htext₀, ← hp]
    rw [← hp] at hannounced
    exact ⟨fun h => ⟨⟨h.rationale, h.fresh⟩, h.allowed, h.paid, h.sandbox⟩,
      fun h => ⟨hannounced, h.1.1, h.1.2, h.2.1, h.2.2.1, h.2.2.2⟩⟩
  generalize w.budget.attempts + 1 = attemptNumber at hturn hpasses
  show Calls _ w.requested (positions w.log) _
  rw [hturn, hpasses, ← hfingerprints₀, ← hlog₀]
  have hscreen : Leads g humanApproved b _ _ := screen_leads hkept₀ hstate₀
    ⟨[], nofun, _, by rw [← hw₀]; rfl⟩ attemptNumber hp
  refine (screen_tests hstate₀ _).andThen hscreen fun w₁ hlog₁ hsame₁ hkept₁ hscreened => ?_
  rw [← hlog₁, ← hsame₁.2]
  refine (authorize_tests hscreened.state _).andThen (authorize_leads hkept₁ hscreened hp)
    fun w₂ hlog₂ hbudget₂ hkept₂ hallowed => ?_
  rw [← hlog₂, ← hbudget₀, ← hsame₁.1, ← hbudget₂]
  have hspend : Leads g humanApproved b _ _ := spend_leads hkept₂ hallowed hp
  refine (spend_tests hallowed.state _).andThen hspend
    fun w₃ hlog₃ _ hkept₃ hpaid => ?_
  rw [← hlog₃]
  have hperform : Leads g humanApproved b _ _ := perform_leads hkept₃ hpaid hp attemptNumber
  have hpositions := perform_positions (g := g) (p := p) hpaid.state w.requested attemptNumber
  have hlast : positions (andThen (perform g w.requested attemptNumber p)
      (reschedule g w.requested attemptNumber p) w₃).2.log =
        positions (perform g w.requested attemptNumber p w₃).2.log := by
    unfold andThen
    rcases hx : perform g w.requested attemptNumber p w₃ with ⟨e | _ | result, w₄⟩ <;> rw [hx] at hperform
    · rw [bind_of_error hx]
    · rw [bind_of_ok hx]
      exact reschedule_positions hperform.2.state _ _
    · rw [bind_of_ok hx]
      rfl
  unfold Calls
  rw [hlast, hpositions]
  constructor
  · intro hsandbox
    rw [if_pos hsandbox]
  · intro hsandbox
    rw [if_neg hsandbox, List.append_nil]

/-- What the run has done is only added to. -/
theorem loop_count (q : Nat → Bool) (fuel : Nat) (h : Kept g b w) (hstate : Entered w) :
    (positions w.log).countP q ≤ (positions (loop g humanApproved fuel w).2.log).countP q := by
  induction fuel generalizing w with
  | zero => exact Nat.le_refl _
  | succ fuel ih =>
    have hleads : Leads g humanApproved b _ _ := turn_leads h hstate
    have hcalls := @turn_positions _ _ _ g w b humanApproved h hstate
    have hturn : (positions w.log).countP q ≤ (positions (turn g humanApproved w).2.log).countP q := by
      by_cases hp : Passes g humanApproved w
      · rw [hcalls.1 hp, List.countP_append]
        omega
      · rw [hcalls.2 hp]
    unfold loop andThen
    rcases hx : turn g humanApproved w with ⟨e | _ | result, w'⟩ <;> rw [hx] at hleads hturn
    · rw [bind_of_error hx]
      exact hturn
    · rw [bind_of_ok hx]
      exact hturn.trans (ih hleads.1 (.inr hleads.2.state))
    · rw [bind_of_ok hx]
      exact hturn

/-- Where the run is before its `k`-th pass of the loop. -/
def pass (g : Gateway F) (humanApproved : Bool) : Nat → GatewayRun F → Option (GatewayRun F)
  | 0, w => some w
  | k + 1, w =>
    match turn g humanApproved w with
    | (.ok none, w') => pass g humanApproved k w'
    | _ => none

/-- Once a proposal of a kind was executed, no other one of that kind passes the checks. -/
def Exclusive (g : Gateway F) (humanApproved : Bool) (q : Nat → Bool) (w : GatewayRun F) : Prop :=
  ∀ k w', pass g humanApproved k w = some w' → (positions w'.log).countP q ≠ 0 → q w'.requested = true →
    ¬ Passes g humanApproved w'

theorem loop_single (q : Nat → Bool) (fuel : Nat) (h : Kept g b w) (hstate : Entered w) (hfuel : w.budget.rounds < fuel)
    (hone : (positions w.log).countP q ≤ 1) :
    (positions (loop g humanApproved fuel w).2.log).countP q ≤ 1 ↔ Exclusive g humanApproved q w := by
  induction fuel generalizing w with
  | zero => omega
  | succ fuel ih =>
    have hleads : Leads g humanApproved b _ _ := turn_leads h hstate
    have hcalls := @turn_positions _ _ _ g w b humanApproved h hstate
    have hturn : (positions (turn g humanApproved w).2.log).countP q ≤ 1 ↔
        ((positions w.log).countP q ≠ 0 → q w.requested = true → ¬ Passes g humanApproved w) := by
      by_cases hp : Passes g humanApproved w
      · rw [hcalls.1 hp, List.countP_append, List.countP_singleton]
        by_cases hq : q w.requested = true
        · rw [if_pos hq]
          constructor
          · intro hle hne
            omega
          · intro hnone
            by_contra hmany
            exact hnone (by omega) hq hp
        · rw [if_neg hq]
          exact ⟨fun _ _ hq' => absurd hq' hq, fun _ => hone⟩
      · rw [hcalls.2 hp]
        exact ⟨fun _ _ _ => hp, fun _ => hone⟩
    have hexclusive : Exclusive g humanApproved q w ↔
        ((positions w.log).countP q ≠ 0 → q w.requested = true → ¬ Passes g humanApproved w) ∧
          ∀ w', turn g humanApproved w = (.ok none, w') → Exclusive g humanApproved q w' := by
      constructor
      · intro hall
        refine ⟨hall 0 w rfl, fun w' hx k w'' hpass => hall (k + 1) w'' ?_⟩
        unfold pass
        rw [hx]
        exact hpass
      · rintro ⟨hnow, hlater⟩ k w'' hpass
        cases k with
        | zero =>
          cases hpass
          exact hnow
        | succ k =>
          unfold pass at hpass
          split at hpass
          next w' hx => exact hlater w' hx k w'' hpass
          next => cases hpass
    rw [hexclusive, ← hturn]
    unfold loop andThen
    rcases hx : turn g humanApproved w with ⟨e | _ | result, w'⟩ <;> rw [hx] at hleads
    · rw [bind_of_error hx]
      exact ⟨fun hle => ⟨hle, fun w' h' => by cases h'⟩, fun hboth => hboth.1⟩
    · rw [bind_of_ok hx]
      have hr := hleads.2
      have hrounds : w'.budget.rounds < fuel := by
        have hopen := hr.open_budget
        have hcount := hr.count
        have hmax : w'.budget.maxAttempts = w.budget.maxAttempts := by rw [hleads.1.limits.1, h.limits.1]
        unfold RetryBudget.rounds at hfuel ⊢
        omega
      have hmono : _ ≤ (positions (loop g humanApproved fuel w').2.log).countP q := loop_count q fuel hleads.1 (.inr hr.state)
      constructor
      · intro hle
        have hone' := hmono.trans hle
        refine ⟨hone', fun w'' h'' => ?_⟩
        cases h''
        exact (ih hleads.1 (.inr hr.state) hrounds hone').mp hle
      · rintro ⟨hone', hlater⟩
        exact (ih hleads.1 (.inr hr.state) hrounds hone').mpr (hlater w' rfl)
    · rw [bind_of_ok hx]
      exact ⟨fun hle => ⟨hle, fun w' h' => by cases h'⟩, fun hboth => hboth.1⟩

/-- The gateway with a policy engine of ordered rules. -/
def Gateway.under (g : Gateway F) (engine : TrustPolicyEngine) : Gateway F := { g with policy := fun _ => engine.evaluate }

/-- The engine asks for an approval of the `n`-th proposal when there is none. -/
def Gateway.needsApproval (g : Gateway F) (engine : TrustPolicyEngine) (n : Nat) : Bool :=
  match g.contextBuilder.build n ((g.proposals n).contextRequest false) with
  | .ok context => engine.needsApproval context
  | .error _ => false

/-- A run with an approval executes at most one proposal that needs one, exactly when the audit log does not take the request,
or after the first such proposal no other one passes the checks. -/
theorem single_approval_iff (g : Gateway F) (engine : TrustPolicyEngine) (correlationId : Str) (b : RetryBudget)
    (requested : Nat) :
    (positions ((g.under engine).run correlationId true b requested).2.log).countP (g.needsApproval engine) ≤ 1 ↔
      (g.audit [] .requestReceived = none → Exclusive (g.under engine) true (g.needsApproval engine)
        ((begin b requested correlationId).record .requestReceived)) := by
  have hbegin : Kept (g.under engine) b (begin b requested correlationId) := kept_begin requested correlationId
  unfold Gateway.run
  cases hlog : (g.under engine).audit (begin b requested correlationId : GatewayRun F).log .requestReceived with
  | none =>
    rw [event_ok hlog]
    have hsingle : _ ↔ Exclusive (g.under engine) true _ _ := loop_single (g.needsApproval engine) _
      (hbegin.record .requestReceived) (.inl rfl) (Nat.lt_succ_self _) (Nat.zero_le _)
    exact hsingle.trans ⟨fun h _ => h, fun h => h hlog⟩
  | some error =>
    rw [event_error hlog]
    have hnot : g.audit [] .requestReceived ≠ none := by
      rw [show g.audit [] .requestReceived = some error from hlog]
      exact Option.some_ne_none error
    exact ⟨fun _ h => absurd h hnot, fun _ => Nat.zero_le _⟩

/-- Everything needs an approval. -/
def sampleProtected : TrustPolicyEngine where
  rules := [{ id := some "PROTECTED".toList, decision := some "REQUIRE_APPROVAL".toList, reason := some [] }]

def sampleRetries : Gateway Unit :=
  sampleGateway (fun n => sampleProposal "local" (if n = 0 then "a.py" else "b.py")) sampleAllow

omit [PyFloat F] [UnicodeCase] in
/-- The first proposal fails, and the second one, another change, is executed on the same approval. -/
theorem second_proposal_executed :
    ¬ (positions (@Gateway.run Unit noFloats asciiCase (sampleRetries.under sampleProtected) "run-1".toList true
      { startedAt := 0 } 0).2.log).countP (@Gateway.needsApproval Unit asciiCase sampleRetries sampleProtected) ≤ 1 := by
  decide +kernel

end TrustGateway

end FailureOrchestrator
