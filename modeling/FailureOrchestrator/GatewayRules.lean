import FailureOrchestrator.TrustGateway
import Mathlib.Data.List.Chain
import Mathlib.Tactic.Linarith

namespace FailureOrchestrator

namespace TrustGateway

open Exec

section Calls

variable {F : Type}

/-- The proposals that the executor was called with. -/
def executed (log : List (GatewayAct F)) : List (RepairProposal F) :=
  log.filterMap fun
    | .execute _ p => some p
    | .event _ => none

@[simp] theorem executed_append (log log' : List (GatewayAct F)) : executed (log ++ log') = executed log ++ executed log' :=
  List.filterMap_append ..

@[simp] theorem executed_event (e : GatewayEvent F) : executed [.event e] = [] := rfl

@[simp] theorem executed_execute (n : Nat) (p : RepairProposal F) : executed [.execute n p] = [p] := rfl

/-- The last proposal of a log, and what came after it. -/
def Proposed (p : RepairProposal F) (log : List (GatewayAct F)) (later : List (GatewayAct F)) : Prop :=
  (∀ q, .event (.llmProposal q) ∉ later) ∧ ∃ earlier, log = earlier ++ .event (.llmProposal p) :: later

/-- The policy has allowed the last proposal of a log. -/
def Authorized (p : RepairProposal F) (log : List (GatewayAct F)) : Prop :=
  ∃ later result, Proposed p log later ∧ .event (.policyDecision result) ∈ later ∧ result.decision = .allow

/-- The last call of the executor was evaluated and verified with success. -/
def Verified (log : List (GatewayAct F)) : Prop :=
  ∃ earlier n p later evaluation verification, log = earlier ++ .execute n p :: later ∧ executed later = [] ∧
    .event (.evaluationResult evaluation) ∈ later ∧ evaluation.success = true ∧
    .event (.verificationResult verification) ∈ later ∧ verification.success = true

theorem Proposed.append {p : RepairProposal F} {log later : List (GatewayAct F)} (h : Proposed p log later)
    {e : GatewayEvent F} (he : ∀ q, e ≠ .llmProposal q) : Proposed p (log ++ [.event e]) (later ++ [.event e]) := by
  obtain ⟨hlater, earlier, hlog⟩ := h
  constructor
  · intro q hq
    rcases List.mem_append.mp hq with hold | hnew
    · exact hlater q hold
    · exact he q (GatewayAct.event.inj (List.mem_singleton.mp hnew)).symm
  · exact ⟨earlier, by rw [hlog, List.append_assoc, List.cons_append]⟩

theorem Authorized.append {p : RepairProposal F} {log : List (GatewayAct F)} (h : Authorized p log) {e : GatewayEvent F}
    (he : ∀ q, e ≠ .llmProposal q) : Authorized p (log ++ [.event e]) := by
  obtain ⟨later, result, hproposed, hresult, hallow⟩ := h
  exact ⟨_, result, hproposed.append he, List.mem_append_left _ hresult, hallow⟩

end Calls

variable {F : Type} [PyFloat F] {g : Gateway F} {b : RetryBudget} {w : GatewayRun F} {p : RepairProposal F}

/-- What holds at every moment of a run that was begun with budget `b`. -/
structure Kept (g : Gateway F) (b : RetryBudget) (w : GatewayRun F) : Prop where
  first : w.machine.history.head? = some .received
  path : w.machine.history.IsChain fun s t => t ∈ s.transitions
  last : w.machine.history.getLast? = some w.machine.state
  limits : w.budget.maxAttempts = b.maxAttempts ∧ w.budget.maxTotalCost = b.maxTotalCost
  within : w.budget.attempts = b.attempts ∧ w.budget.totalCost = b.totalCost ∨
    (w.budget.attempts : Int) ≤ b.maxAttempts ∧ w.budget.totalCost ≤ b.maxTotalCost
  attempts : b.attempts + (executed w.log).length ≤ w.budget.attempts
  cost : b.totalCost + ((executed w.log).map (·.estimatedCost)).sum ≤ w.budget.totalCost
  authorized : ∀ before n p after, w.log = before ++ .execute n p :: after → Authorized p before
  distinct : ((executed w.log).map (·.fingerprint g.sha256)).Nodup
  known : ∀ p ∈ executed w.log, ∃ f ∈ w.fingerprints, p.fingerprint g.sha256 = some f

theorem Kept.congr (h : Kept g b w) {w' : GatewayRun F} (hmachine : w'.machine = w.machine)
    (hbudget : w'.budget = w.budget) (hfingerprints : w'.fingerprints = w.fingerprints) (hlog : w'.log = w.log) :
    Kept g b w' := by
  obtain ⟨first, path, last, limits, within, attempts, cost, authorized, distinct, known⟩ := h
  rw [← hmachine] at first path last
  rw [← hbudget] at limits within attempts cost
  rw [← hlog] at attempts cost authorized distinct known
  rw [← hfingerprints] at known
  exact ⟨first, path, last, limits, within, attempts, cost, authorized, distinct, known⟩

theorem Kept.recorded (h : Kept g b w) (attempts : List (AttemptRecord F)) : Kept g b { w with attempts } :=
  h.congr rfl rfl rfl rfl

theorem Kept.move (h : Kept g b w) {target : GatewayState} (ht : target ∈ w.machine.state.transitions) :
    Kept g b (w.move target) where
  first := by
    show (w.machine.history ++ [target]).head? = _
    rw [List.head?_append, h.first]
    rfl
  path := by
    refine h.path.append (List.isChain_singleton _) ?_
    intro s hs t ht'
    rw [h.last] at hs
    cases hs
    cases ht'
    exact ht
  last := by
    show (w.machine.history ++ [target]).getLast? = some target
    rw [List.getLast?_concat]
  limits := h.limits
  within := h.within
  attempts := h.attempts
  cost := h.cost
  authorized := h.authorized
  distinct := h.distinct
  known := h.known

omit [PyFloat F] in
/-- An executor call of a longer log is one of the log before, or the new one. -/
theorem split_concat {log before after : List (GatewayAct F)} {x : GatewayAct F} {n : Nat}
    (h : log ++ [x] = before ++ .execute n p :: after) :
    (∃ after', log = before ++ .execute n p :: after') ∨ before = log ∧ x = .execute n p := by
  rcases List.eq_nil_or_concat' after with rfl | ⟨after', y, rfl⟩
  · have hlast := List.append_inj' h rfl
    exact .inr ⟨hlast.1.symm, List.singleton_inj.mp hlast.2⟩
  · rw [← List.cons_append, ← List.append_assoc] at h
    exact .inl ⟨after', (List.append_inj' h rfl).1⟩

omit [PyFloat F] in
theorem executed_record (w : GatewayRun F) (e : GatewayEvent F) : executed (w.record e).log = executed w.log := by
  show executed (w.log ++ [.event e]) = _
  rw [executed_append, executed_event, List.append_nil]

theorem Kept.record (h : Kept g b w) (e : GatewayEvent F) : Kept g b (w.record e) := by
  have hexecuted := executed_record w e
  refine ⟨h.first, h.path, h.last, h.limits, h.within, ?_, ?_, ?_, ?_, ?_⟩
  · rw [hexecuted]
    exact h.attempts
  · rw [hexecuted]
    exact h.cost
  · intro before n p after hlog
    rcases split_concat hlog with ⟨after', hold⟩ | ⟨-, hnew⟩
    · exact h.authorized before n p after' hold
    · cases hnew
  · rw [hexecuted]
    exact h.distinct
  · rw [hexecuted]
    exact h.known

/-- How a run has ended. -/
structure Ended (w : GatewayRun F) (result : GatewayResult F) : Prop where
  finished : w.machine.state.transitions = []
  history : result.stateHistory = w.machine.history
  verified : result.status = .verifiedSuccess → Verified w.log

variable [UnicodeCase] {humanApproved : Bool}

/-- The `n`-th proposal cannot be written as JSON, has a negative cost, or makes a collaborator raise. -/
def Faulty (g : Gateway F) (humanApproved : Bool) (n : Nat) : Prop :=
  (g.proposals n).fingerprint g.sha256 = none ∨ (g.proposals n).estimatedCost < 0 ∨
    (∃ e, g.contextBuilder.build n ((g.proposals n).contextRequest humanApproved) = .error e) ∨
    (∃ context e, g.policy n context = .error e) ∨ (∃ e, g.sandbox n = .error e) ∨ (∃ e, g.removal n = .error e) ∨
    ∃ e, g.execution n (g.proposals n) = .error e

/-- What ends a run with an exception: a faulty proposal, or an event that the audit log does not take. -/
def Excused (g : Gateway F) (humanApproved : Bool) (w : GatewayRun F) : Prop :=
  (∃ n, Faulty g humanApproved n) ∨ ∃ e error, g.audit w.log e = some error

/-- A step has ended the run, has raised for one of these reasons, or goes on in `Q`. -/
def Leads (g : Gateway F) (humanApproved : Bool) (b : RetryBudget) (Q : GatewayRun F → Prop) :
    Except GatewayError (Ending F) × GatewayRun F → Prop
  | (.ok none, w) => Kept g b w ∧ Q w
  | (.ok (some result), w) => Kept g b w ∧ Ended w result
  | (.error e, w) => Kept g b w ∧ (∃ x, e = .raised x) ∧ Excused g humanApproved w

theorem Leads.kept {Q : GatewayRun F → Prop} {r : Except GatewayError (Ending F) × GatewayRun F}
    (h : Leads g humanApproved b Q r) : Kept g b r.2 := by
  rcases r with ⟨e | _ | result, w⟩ <;> exact h.1

theorem Leads.andThen {Q R : GatewayRun F → Prop} {x y : GatewayExec F (Ending F)} (hx : Leads g humanApproved b Q (x w))
    (hy : ∀ w', Kept g b w' → Q w' → Leads g humanApproved b R (y w')) : Leads g humanApproved b R (andThen x y w) := by
  unfold TrustGateway.andThen
  rcases hxs : x w with ⟨e | _ | result, w'⟩ <;> rw [hxs] at hx
  · rw [bind_of_error hxs]
    exact hx
  · rw [bind_of_ok hxs]
    exact hy w' hx.1 hx.2
  · rw [bind_of_ok hxs]
    exact hx

section Steps

variable {α β : Type} {f : Unit → GatewayExec F β}

omit [PyFloat F] [UnicodeCase]

theorem moveTo_bind {target : GatewayState} (h : target ∈ w.machine.state.transitions) :
    (moveTo target >>= f) w = f () (w.move target) := by
  refine bind_of_ok ?_
  unfold moveTo
  rw [if_pos h]

theorem event_ok {e : GatewayEvent F} (h : g.audit w.log e = none) : (event g e >>= f) w = f () (w.record e) := by
  refine bind_of_ok ?_
  unfold event
  rw [h]

theorem event_error {e : GatewayEvent F} {error : TrustError} (h : g.audit w.log e = some error) :
    (event g e >>= f) w = (.error (.raised error), w) := by
  refine bind_of_error ?_
  unfold event
  rw [h]

theorem update_bind (u : GatewayRun F → GatewayRun F) : (Exec.update u >>= f) w = f () (u w) := rfl

theorem read_bind {f : GatewayRun F → GatewayExec F β} : (Exec.read >>= f) w = f w w := rfl

theorem outside_ok {r : Except TrustError α} {f : α → GatewayExec F β} {a : α} (h : r = .ok a) :
    (outside r >>= f) w = f a w := by
  rw [h]
  rfl

theorem outside_error {r : Except TrustError α} {f : α → GatewayExec F β} {e : TrustError} (h : r = .error e) :
    (outside r >>= f) w = (.error (.raised e), w) := by
  rw [h]
  rfl

end Steps

/-- An event is in the log, or its exception ends the run. -/
theorem Leads.event {Q : GatewayRun F → Prop} {e : GatewayEvent F} {f : Unit → GatewayExec F (Ending F)} (h : Kept g b w)
    (hf : Kept g b (w.record e) → Leads g humanApproved b Q (f () (w.record e))) :
    Leads g humanApproved b Q ((TrustGateway.event g e >>= f) w) := by
  cases hlog : g.audit w.log e with
  | none =>
    rw [event_ok hlog]
    exact hf (h.record e)
  | some error =>
    rw [event_error hlog]
    exact ⟨h, ⟨error, rfl⟩, .inr ⟨e, error, hlog⟩⟩

/-- The cleanup changes nothing of a run but its end. -/
theorem Leads.always {Q : GatewayRun F → Prop} {x : GatewayExec F (Ending F)} (hx : Leads g humanApproved b Q (x w))
    {r : Except TrustError Unit} (hr : ∀ e, r = .error e → ∃ n, Faulty g humanApproved n) :
    Leads g humanApproved b Q (Exec.always x (outside r) w) := by
  unfold Exec.always
  cases r with
  | ok u => exact hx
  | error e => exact ⟨hx.kept, ⟨e, rfl⟩, .inl (hr e rfl)⟩

theorem escalate_leads {Q : GatewayRun F → Prop} (h : Kept g b w) (hstate : w.machine.state = .humanEscalation)
    (reason : Str) : Leads g humanApproved b Q (escalate g reason p w) := by
  unfold escalate
  rw [read_bind]
  refine Leads.event h fun hrecorded => ⟨hrecorded, ?_, rfl, nofun⟩
  show w.machine.state.transitions = []
  rw [hstate]
  rfl

/-- The end of a run whose budget is used up. -/
theorem exhausted_leads {Q : GatewayRun F → Prop} (h : Kept g b w) (hstate : w.machine.state = .humanEscalation)
    (e e' : GatewayEvent F) (packet : Escalation F) :
    Leads g humanApproved b Q ((TrustGateway.event g e >>= fun _ => TrustGateway.event g e' >>= fun _ => do
      return some ((← Exec.read).result .humanReviewRequired (some packet))) w) := by
  refine Leads.event h fun hfirst => Leads.event hfirst fun hsecond => ⟨hsecond, ?_, rfl, nofun⟩
  show w.machine.state.transitions = []
  rw [hstate]
  rfl

/-- The proposal is new in this run, which has spent `k` attempts. -/
structure Screened (g : Gateway F) (p : RepairProposal F) (k : Nat) (w : GatewayRun F) : Prop where
  state : w.machine.state = .proposed
  count : w.budget.attempts = k
  proposed : ∃ later, Proposed p w.log later
  fresh : ∀ q ∈ executed w.log, q.fingerprint g.sha256 ≠ p.fingerprint g.sha256
  known : ∃ f ∈ w.fingerprints, p.fingerprint g.sha256 = some f

theorem screen_leads (h : Kept g b w) (hstate : w.machine.state = .proposed) (hproposed : ∃ later, Proposed p w.log later)
    (attemptNumber : Nat) {n : Nat} (hn : g.proposals n = p) :
    Leads g humanApproved b (Screened g p w.budget.attempts) (screen g attemptNumber p w) := by
  have hallowed : GatewayState.humanEscalation ∈ w.machine.state.transitions := by
    rw [hstate]
    exact .tail _ (.head _)
  unfold screen
  split
  next =>
    rw [moveTo_bind hallowed]
    exact escalate_leads (h.move hallowed) rfl _
  next =>
    cases hfingerprint : p.fingerprint g.sha256 with
    | none =>
      rw [← hn] at hfingerprint
      exact ⟨h, ⟨_, rfl⟩, .inl ⟨n, .inl hfingerprint⟩⟩
    | some fingerprint =>
      dsimp only
      rw [read_bind]
      split
      next =>
        rw [moveTo_bind hallowed]
        exact escalate_leads (h.move hallowed) rfl _
      next hnew =>
        refine ⟨⟨h.first, h.path, h.last, h.limits, h.within, h.attempts, h.cost, h.authorized, h.distinct, ?_⟩, hstate,
          rfl, hproposed, ?_, fingerprint, List.mem_append_right _ (.head _), hfingerprint⟩
        · intro q hq
          obtain ⟨f, hf, hqf⟩ := h.known q hq
          exact ⟨f, List.mem_append_left _ hf, hqf⟩
        · intro q hq hsame
          obtain ⟨f, hf, hqf⟩ := h.known q hq
          rw [hqf, hfingerprint] at hsame
          cases hsame
          exact hnew hf

/-- The policy has allowed the proposal. -/
structure Allowed (g : Gateway F) (p : RepairProposal F) (k : Nat) (w : GatewayRun F) : Prop where
  state : w.machine.state = .policyEvaluated
  count : w.budget.attempts = k
  authorized : Authorized p w.log
  fresh : ∀ q ∈ executed w.log, q.fingerprint g.sha256 ≠ p.fingerprint g.sha256
  known : ∃ f ∈ w.fingerprints, p.fingerprint g.sha256 = some f

/-- The budget holds one attempt more than the log shows, for a new proposal that the policy has allowed. -/
structure Covered (g : Gateway F) (b : RetryBudget) (p : RepairProposal F) (budget : RetryBudget)
    (fingerprints : List Str) (log : List (GatewayAct F)) : Prop where
  authorized : Authorized p log
  fresh : ∀ q ∈ executed log, q.fingerprint g.sha256 ≠ p.fingerprint g.sha256
  known : ∃ f ∈ fingerprints, p.fingerprint g.sha256 = some f
  within : (budget.attempts : Int) ≤ b.maxAttempts ∧ budget.totalCost ≤ b.maxTotalCost
  attempts : b.attempts + ((executed log).length + 1) ≤ budget.attempts
  cost : b.totalCost + (((executed log).map (·.estimatedCost)).sum + p.estimatedCost) ≤ budget.totalCost

/-- The attempt is paid for. -/
structure Paid (g : Gateway F) (b : RetryBudget) (p : RepairProposal F) (k : Nat) (w : GatewayRun F) : Prop where
  state : w.machine.state = .policyEvaluated
  count : w.budget.attempts = k + 1
  covered : Covered g b p w.budget w.fingerprints w.log

theorem finish_leads {Q : GatewayRun F → Prop} (h : Kept g b w) (hstate : w.machine.state.transitions = [])
    {status : GatewayStatus} (hverified : status = .verifiedSuccess → Verified w.log) :
    Leads g humanApproved b Q (finish status w) :=
  ⟨h, hstate, rfl, hverified⟩

theorem authorize_leads {k : Nat} (h : Kept g b w) (hs : Screened g p k w) {n : Nat} (hn : g.proposals n = p) : Leads g humanApproved b (Allowed g p k) (authorize g humanApproved n p w) := by
  have hready : GatewayState.contextReady ∈ w.machine.state.transitions := by
    rw [hs.state]
    exact .head _
  unfold authorize
  cases hcontext : g.contextBuilder.build n (p.contextRequest humanApproved) with
  | error e =>
    rw [outside_error rfl]
    rw [← hn] at hcontext
    exact ⟨h, ⟨e, rfl⟩, .inl ⟨n, .inr (.inr (.inl ⟨e, hcontext⟩))⟩⟩
  | ok context =>
    rw [outside_ok rfl, moveTo_bind hready]
    refine Leads.event (h.move hready) fun hcreated => ?_
    refine Leads.event hcreated fun hprobed => ?_
    cases hpolicy : g.policy n context with
    | error e =>
      rw [outside_error rfl]
      exact ⟨hprobed, ⟨e, rfl⟩, .inl ⟨n, .inr (.inr (.inr (.inl ⟨context, e, hpolicy⟩)))⟩⟩
    | ok policy =>
      rw [outside_ok rfl, update_bind]
      have hdecided : Kept g b { ((w.move .contextReady).record (.contextCreated context)).record
        (.networkProbe context.networkCapabilities) with lastPolicy := some policy } := hprobed.congr rfl rfl rfl rfl
      have hevaluated : GatewayState.policyEvaluated ∈ GatewayState.contextReady.transitions := .head _
      rw [moveTo_bind hevaluated]
      refine Leads.event (hdecided.move hevaluated) fun hkept => ?_
      generalize hw' : ((({ ((w.move .contextReady).record (.contextCreated context)).record
        (.networkProbe context.networkCapabilities) with lastPolicy := some policy } : GatewayRun F).move
        .policyEvaluated).record (.policyDecision policy)) = w' at hkept ⊢
      have hstate : w'.machine.state = .policyEvaluated := by rw [← hw']; rfl
      have hexecuted : executed w'.log = executed w.log := by
        rw [← hw']
        show executed (w.log ++ [.event _] ++ [.event _] ++ [.event _]) = _
        simp only [executed_append, executed_event, List.append_nil]
      have hfingerprints : w'.fingerprints = w.fingerprints := by rw [← hw']; rfl
      have hcount : w'.budget.attempts = k := by rw [← hw']; exact hs.count
      cases hdecision : policy.decision with
      | deny =>
        have hdenied : GatewayState.denied ∈ w'.machine.state.transitions := by
          rw [hstate]
          exact .tail _ (.tail _ (.head _))
        dsimp only
        rw [moveTo_bind hdenied]
        exact finish_leads (hkept.move hdenied) rfl nofun
      | requireApproval =>
        have hpending : GatewayState.approvalPending ∈ w'.machine.state.transitions := by
          rw [hstate]
          exact .head _
        dsimp only
        rw [moveTo_bind hpending]
        exact Leads.event (hkept.move hpending) fun hrequested => finish_leads hrequested rfl nofun
      | allow =>
        obtain ⟨later, hproposed⟩ := hs.proposed
        have hauthorized : Authorized p w'.log := by
          rw [← hw']
          refine ⟨_, policy, ((hproposed.append (e := .contextCreated context) nofun).append
            (e := .networkProbe context.networkCapabilities) nofun).append (e := .policyDecision policy) nofun,
            List.mem_append_right _ (.head _), hdecision⟩
        have hallowed : Allowed g p k w' := ⟨hstate, hcount, hauthorized, by rw [hexecuted]; exact hs.fresh,
          by rw [hfingerprints]; exact hs.known⟩
        dsimp only
        split
        next =>
          refine Leads.event hkept fun hreceived => ?_
          refine ⟨hreceived, hstate, hcount, hauthorized.append nofun, ?_, hallowed.known⟩
          rw [executed_record]
          exact hallowed.fresh
        next => exact ⟨hkept, hallowed⟩

theorem spend_leads {k : Nat} (h : Kept g b w) (ha : Allowed g p k w) {n : Nat} (hn : g.proposals n = p) :
    Leads g humanApproved b (Paid g b p k) (spend g n p w) := by
  unfold spend
  rw [read_bind]
  cases hconsume : w.budget.consume p.estimatedCost (g.clock n 0) with
  | error e =>
    rw [outside_error rfl]
    have hnegative := RetryBudget.consume_error hconsume
    rw [← hn] at hnegative
    exact ⟨h, ⟨e, rfl⟩, .inl ⟨n, .inr (.inl hnegative)⟩⟩
  | ok r =>
    obtain ⟨paid, budget⟩ := r
    rw [outside_ok rfl]
    dsimp only
    rw [update_bind]
    rcases RetryBudget.consume_ok hconsume with ⟨rfl, rfl⟩ | ⟨rfl, hmax, hmaxCost, hattempts, htotal, hlimit, hcostLimit⟩
    · have hexhausted : GatewayState.budgetExhausted ∈ w.machine.state.transitions := by
        rw [ha.state]
        exact .tail _ (.head _)
      rw [if_neg Bool.false_ne_true, moveTo_bind hexhausted,
        moveTo_bind (show GatewayState.humanEscalation ∈ GatewayState.budgetExhausted.transitions from .head _),
        read_bind]
      exact exhausted_leads ((h.move hexhausted).move (.head _)) rfl _ _ _
    · have hattempt := h.attempts
      have hspent := h.cost
      rw [h.limits.1] at hmax hlimit
      rw [h.limits.2] at hmaxCost hcostLimit
      rw [if_pos rfl]
      refine ⟨⟨h.first, h.path, h.last, ⟨hmax, hmaxCost⟩, .inr ⟨hlimit, hcostLimit⟩, ?_, ?_, h.authorized, h.distinct, h.known⟩,
        ha.state, by rw [hattempts, ha.count], ha.authorized, ha.fresh, ha.known, ⟨hlimit, hcostLimit⟩, ?_, ?_⟩
      · show b.attempts + (executed w.log).length ≤ budget.attempts
        omega
      · show b.totalCost + ((executed w.log).map (·.estimatedCost)).sum ≤ budget.totalCost
        have hpaid : 0 ≤ p.estimatedCost := RetryBudget.consume_nonneg hconsume
        linarith
      · show b.attempts + ((executed w.log).length + 1) ≤ budget.attempts
        omega
      · show b.totalCost + (((executed w.log).map (·.estimatedCost)).sum + p.estimatedCost) ≤ budget.totalCost
        linarith

omit [UnicodeCase] in
theorem Kept.execute (h : Kept g b w) (hp : Covered g b p w.budget w.fingerprints w.log) (n : Nat) :
    Kept g b { w with log := w.log ++ [.execute n p] } := by
  have hexecuted : executed (w.log ++ [.execute n p]) = executed w.log ++ [p] := by
    rw [executed_append, executed_execute]
  refine ⟨h.first, h.path, h.last, h.limits, h.within, ?_, ?_, ?_, ?_, ?_⟩
  · show b.attempts + (executed (w.log ++ [.execute n p])).length ≤ w.budget.attempts
    rw [hexecuted, List.length_append]
    exact hp.attempts
  · show b.totalCost + ((executed (w.log ++ [.execute n p])).map (·.estimatedCost)).sum ≤ w.budget.totalCost
    rw [hexecuted, List.map_append, List.sum_append, List.map_singleton, List.sum_singleton]
    exact hp.cost
  · intro before m q after hlog
    rcases split_concat hlog with ⟨after', hold⟩ | ⟨rfl, hnew⟩
    · exact h.authorized before m q after' hold
    · cases hnew
      exact hp.authorized
  · show ((executed (w.log ++ [.execute n p])).map (·.fingerprint g.sha256)).Nodup
    rw [hexecuted, List.map_append, List.map_singleton]
    refine List.nodup_append.mpr ⟨h.distinct, List.pairwise_singleton _ _, ?_⟩
    intro f hf f' hf'
    obtain ⟨q, hq, rfl⟩ := List.mem_map.mp hf
    rw [List.mem_singleton.mp hf']
    exact hp.fresh q hq
  · intro q hq
    change q ∈ executed (w.log ++ [.execute n p]) at hq
    rw [hexecuted] at hq
    rcases List.mem_append.mp hq with hold | hnew
    · exact h.known q hold
    · rw [List.mem_singleton.mp hnew]
      exact hp.known

/-- The attempt has failed. -/
structure Failed (k : Nat) (w : GatewayRun F) : Prop where
  state : w.machine.state = .retryableFailure
  count : w.budget.attempts = k + 1

theorem fail_leads {k : Nat} (h : Kept g b w) (hstate : GatewayState.retryableFailure ∈ w.machine.state.transitions)
    (hcount : w.budget.attempts = k + 1) (n attemptNumber : Nat) (evaluation : EvaluationResult)
    (verification : Option EvaluationResult) :
    Leads g humanApproved b (Failed k) (fail g n attemptNumber p evaluation verification w) := by
  have hfailed : Kept g b { w with previousEvaluation := some (verification.getD evaluation) } := h.congr rfl rfl rfl rfl
  unfold fail record
  rw [update_bind, moveTo_bind (w := { w with previousEvaluation := some (verification.getD evaluation) }) hstate,
    update_bind]
  exact ⟨(hfailed.move hstate).recorded _, rfl, hcount⟩

/-- An attempt that is paid for, from the sandbox on. -/
theorem attempt_leads {k : Nat} (h : Kept g b w) (hstate : w.machine.state = .sandboxReady)
    (hcount : w.budget.attempts = k + 1) (hcovered : Covered g b p w.budget w.fingerprints w.log) {n : Nat}
    (hn : g.proposals n = p) (attemptNumber : Nat) :
    Leads g humanApproved b (Failed k) (attempt g n attemptNumber p w) := by
  have hexecuting : GatewayState.executing ∈ w.machine.state.transitions := by
    rw [hstate]
    exact .head _
  have hevaluating : GatewayState.evaluating ∈ GatewayState.executing.transitions := .head _
  have hcalled : Kept g b { w.move .executing with log := (w.move .executing).log ++ [.execute n p] } :=
    (h.move hexecuting).execute hcovered n
  unfold attempt
  rw [moveTo_bind hexecuting, update_bind]
  cases hexecution : g.execution n p with
  | error e =>
    rw [outside_error rfl]
    rw [← hn] at hexecution
    exact ⟨hcalled, ⟨e, rfl⟩, .inl ⟨n, .inr (.inr (.inr (.inr (.inr (.inr ⟨e, hexecution⟩)))))⟩⟩
  | ok execution =>
    rw [outside_ok rfl]
    refine Leads.event hcalled fun hran => ?_
    rw [moveTo_bind hevaluating]
    refine Leads.event (hran.move hevaluating) fun hkept => ?_
    split
    next hsuccess =>
      have hverifying : GatewayState.verifying ∈ GatewayState.evaluating.transitions := .head _
      rw [moveTo_bind hverifying]
      refine Leads.event (hkept.move hverifying) fun hjudged => ?_
      split
      next hverified =>
        have hdone : GatewayState.success ∈ GatewayState.verifying.transitions := .head _
        unfold record
        rw [moveTo_bind hdone, update_bind]
        refine Leads.event ((hjudged.move hdone).recorded _) fun hcompleted => ⟨hcompleted, rfl, rfl, fun _ => ?_⟩
        refine ⟨w.log, n, p, [.event (.sandboxExecution execution), .event (.evaluationResult (g.evaluator n p execution)),
          .event (.verificationResult (g.verifier n p)), .event .workflowCompleted], g.evaluator n p execution,
          g.verifier n p, ?_, rfl, .tail _ (.head _), hsuccess, .tail _ (.tail _ (.head _)), hverified⟩
        show w.log ++ [.execute n p] ++ [_] ++ [_] ++ [_] ++ [_] = _
        simp only [List.append_assoc, List.cons_append, List.nil_append]
      next => exact fail_leads hjudged (.tail _ (.head _)) hcount n attemptNumber _ _
    next => exact fail_leads hkept (.tail _ (.head _)) hcount n attemptNumber _ _

theorem perform_leads {k : Nat} (h : Kept g b w) (hp : Paid g b p k w) {n : Nat} (hn : g.proposals n = p)
    (attemptNumber : Nat) : Leads g humanApproved b (Failed k) (perform g n attemptNumber p w) := by
  have hready : GatewayState.sandboxReady ∈ w.machine.state.transitions := by
    rw [hp.state]
    exact .tail _ (.tail _ (.tail _ (.head _)))
  unfold perform
  rw [moveTo_bind hready]
  cases hsandbox : g.sandbox n with
  | error e =>
    rw [outside_error rfl]
    exact ⟨h.move hready, ⟨e, rfl⟩, .inl ⟨n, .inr (.inr (.inr (.inr (.inl ⟨e, hsandbox⟩))))⟩⟩
  | ok u =>
    rw [outside_ok rfl]
    refine Leads.always (attempt_leads (h.move hready) rfl hp.count hp.covered hn attemptNumber) fun e he => ?_
    exact ⟨n, .inr (.inr (.inr (.inr (.inr (.inl ⟨e, he⟩)))))⟩

/-- The run goes on with a budget for another attempt. -/
structure Rescheduled (k : Nat) (w : GatewayRun F) : Prop extends Failed k w where
  open_budget : (w.budget.attempts : Int) < w.budget.maxAttempts

theorem reschedule_leads {k : Nat} (h : Kept g b w) (hf : Failed k w) (n attemptNumber : Nat) :
    Leads g humanApproved b (Rescheduled k) (reschedule g n attemptNumber p w) := by
  unfold reschedule
  rw [read_bind]
  dsimp only
  split
  next =>
    have hexhausted : GatewayState.budgetExhausted ∈ w.machine.state.transitions := by
      rw [hf.state]
      exact .tail _ (.head _)
    rw [moveTo_bind hexhausted,
      moveTo_bind (show GatewayState.humanEscalation ∈ GatewayState.budgetExhausted.transitions from .head _),
      read_bind]
    exact exhausted_leads ((h.move hexhausted).move (.head _)) rfl _ _ _
  next hopen =>
    exact Leads.event h fun hscheduled => ⟨hscheduled, ⟨hf.state, hf.count⟩, not_le.mp hopen⟩

/-- Where a pass of the loop starts. -/
def Entered (w : GatewayRun F) : Prop := w.machine.state = .received ∨ w.machine.state = .retryableFailure

theorem turn_leads (h : Kept g b w) (hstate : Entered w) :
    Leads g humanApproved b (Rescheduled w.budget.attempts) (turn g humanApproved w) := by
  have hproposed : GatewayState.proposed ∈ w.machine.state.transitions := by
    rcases hstate with hs | hs <;> rw [hs] <;> exact .head _
  have hasked : Kept g b { w with requested := w.requested + 1 } := h.congr rfl rfl rfl rfl
  unfold turn
  rw [read_bind]
  rw [update_bind, moveTo_bind (w := { w with requested := w.requested + 1 }) hproposed]
  refine Leads.event (hasked.move hproposed) fun hannounced => ?_
  refine (screen_leads hannounced rfl ⟨[], nofun, w.log, rfl⟩ _ rfl).andThen fun w₁ h₁ hs => ?_
  refine (authorize_leads h₁ hs rfl).andThen fun w₂ h₂ ha => ?_
  refine (spend_leads h₂ ha rfl).andThen fun w₃ h₃ hp => ?_
  refine (perform_leads h₃ hp rfl _).andThen fun w₄ h₄ hf => ?_
  exact reschedule_leads h₄ hf _ _

end TrustGateway

end FailureOrchestrator
