import FailureOrchestrator.GovernedPipeline

namespace FailureOrchestrator

namespace GovernedPipeline

open Exec

/-! ## What a decision says -/

theorem decide_attemptsUsed (b : RetryBudget) (runId : Str) (evaluation : Option EvaluationResult)
    (proposal : Option RepairProposal) : (b.decide runId evaluation proposal).attemptsUsed = b.attemptsUsed := by
  unfold RetryBudget.decide
  split <;> rfl

/-- A retry is allowed after an attempt that failed, and only while the budget lasts. -/
theorem decide_retries {b : RetryBudget} {runId : Str} {evaluation : EvaluationResult} {proposal : Option RepairProposal}
    (h : (b.decide runId (some evaluation) proposal).shouldRetry = true) :
    b.attemptsUsed < b.maxAttempts ∧ evaluation.passed = false := by
  unfold RetryBudget.decide at h
  split at h
  next => cases h
  next hstop =>
    unfold RetryBudget.stopReason at hstop
    simp only [Bool.false_eq_true, if_false, Option.any_some] at hstop
    by_cases hbudget : b.maxAttempts ≤ b.attemptsUsed
    · rw [if_pos hbudget] at hstop
      cases hstop
    · rw [if_neg hbudget] at hstop
      cases hpassed : evaluation.passed with
      | false => exact ⟨by omega, rfl⟩
      | true =>
        rw [if_pos hpassed] at hstop
        cases hstop

/-! ## One pass of the loop -/

theorem move_eq {s : RunState} {target : PipelineState} (h : target ∈ allowedTransitions s.machine.state)
    (reason : String) : move target reason s = (.ok (), s.moved target reason) := by
  have hlift : (Exec.lift (s.machine.transition target reason.toList) : Exec RunState PipelineError _) s =
      (.ok (s.machine.moved target reason.toList), s) := by
    unfold Exec.lift
    rw [PipelineStateMachine.transition_ok h]
  exact Exec.bind_of_ok hlift

theorem invokeAll_ok {registry tools : List Str} (h : ∀ t ∈ tools, t ∈ registry) (s : RunState) :
    invokeAll registry tools s = (.ok (), { s with toolNames := s.toolNames ++ tools }) := by
  induction tools generalizing s with
  | nil =>
    rw [List.append_nil]
    rfl
  | cons name rest ih =>
    obtain ⟨hname, hrest⟩ := List.forall_mem_cons.mp h
    unfold invokeAll
    rw [if_pos hname]
    refine (ih hrest _).trans ?_
    rw [List.append_assoc]
    rfl

theorem invokeAll_raises {registry tools : List Str} (h : ¬ ∀ t ∈ tools, t ∈ registry) (s : RunState) :
    ∃ e s', invokeAll registry tools s = (.error e, s') := by
  induction tools generalizing s with
  | nil => exact absurd (fun t ht => nomatch ht) h
  | cons name rest ih =>
    unfold invokeAll
    by_cases hname : name ∈ registry
    · rw [if_pos hname]
      exact ih (fun hrest => h (List.forall_mem_cons.mpr ⟨hname, hrest⟩)) _
    · rw [if_neg hname]
      exact ⟨_, _, rfl⟩

/-- A run in front of a pass of the loop. -/
def Planning (s : RunState) : Prop := s.machine.state = .classified ∨ s.machine.state = .retrying

theorem Planning.allowed {s : RunState} (h : Planning s) : .planned ∈ allowedTransitions s.machine.state := by
  rcases h with h | h <;> rw [h] <;> decide

section

variable {sha256 : Str → Str} {registry : List Str} {event : FailureEvent} {classification : FailureClassification}

variable (sha256 event classification) in
/-- A run whose tools were called and whose attempt is on record. -/
def RunState.tried (s : RunState) (a : Answers) : RunState :=
  { s with
    budget := s.budget.after sha256 event classification a
    machine := ((s.machine.moved .planned "plan_created".toList).moved .executing "tools".toList).moved .evaluating
      "evaluate".toList
    toolNames := s.toolNames ++ a.tools
    attempts := s.attempts ++ [(a.proposal.proposalId, a.evaluation.passed)]
    passes := s.passes + 1 }

theorem tryRepair_ok {s : RunState} {a : Answers} (hs : Planning s) (h : ∀ t ∈ a.tools, t ∈ registry) :
    tryRepair sha256 registry event classification a s = (.ok (), s.tried sha256 event classification a) := by
  unfold tryRepair
  refine (Exec.bind_of_ok rfl).trans ?_
  refine (Exec.bind_of_ok (move_eq (s := { s with passes := s.passes + 1 }) hs.allowed _)).trans ?_
  refine (Exec.bind_of_ok (move_eq (.head _) _)).trans ?_
  refine (Exec.bind_of_ok (invokeAll_ok h _)).trans ?_
  exact Exec.bind_of_ok (move_eq (.head _) _)

variable (sha256 event classification) in
theorem tryRepair_raises {s : RunState} {a : Answers} (hs : Planning s) (h : ¬ ∀ t ∈ a.tools, t ∈ registry) :
    ∃ e s', tryRepair sha256 registry event classification a s = (.error e, s') := by
  obtain ⟨e, s', hraise⟩ := invokeAll_raises h
    ((({ s with passes := s.passes + 1 } : RunState).moved .planned "plan_created").moved .executing "tools")
  refine ⟨e, s', ?_⟩
  unfold tryRepair
  refine (Exec.bind_of_ok rfl).trans ?_
  refine (Exec.bind_of_ok (move_eq (s := { s with passes := s.passes + 1 }) hs.allowed _)).trans ?_
  refine (Exec.bind_of_ok (move_eq (.head _) _)).trans ?_
  exact Exec.bind_of_error hraise

def finalStates : List PipelineState := [.succeeded, .failed, .awaitingHuman]

/-- What the retry budget says of an attempt that is on record. -/
def verdict (event : FailureEvent) (b : RetryBudget) (a : Answers) : RetryDecision :=
  b.decide event.runId (some a.evaluation) (some a.proposal)

/-- The retry budget is asked. -/
def Answers.consults (a : Answers) : Bool := !a.evaluation.passed || a.outcome = .retry

/-- A pass that ends in `s'`, with a result or for another pass. -/
structure Settled (event : FailureEvent) (asked : Bool) (a : Answers) (s : RunState) (r : Option PipelineResult)
    (s' : RunState) : Prop where
  budget : s'.budget = s.budget
  passes : s'.passes = s.passes
  legal : s.machine.Legal → s'.machine.Legal
  decisions : s'.decisions = s.decisions ++ if asked then [verdict event s.budget a] else []
  again : r = none ↔ (verdict event s.budget a).shouldRetry = true
  retrying : r = none → asked = true ∧ s'.machine.state = .retrying
  ended : ∀ result, r = some result → s'.machine.state ∈ finalStates ∧ result.state = s'.machine.state ∧
    result.attempts = s.budget.attemptsUsed

theorem reconsider_settled {s : RunState} (a : Answers) (policy : Option PolicyOutcome)
    (hs : s.machine.state = .policyReview ∨ s.machine.state = .evaluating) :
    ∃ r s', reconsider event classification policy a s = (.ok r, s') ∧ Settled event true a s r s' := by
  have hretrying : .retrying ∈ allowedTransitions s.machine.state := by
    rcases hs with h | h <;> rw [h] <;> decide
  have hhuman : .awaitingHuman ∈ allowedTransitions s.machine.state := by
    rcases hs with h | h <;> rw [h] <;> decide
  let s₁ : RunState := { s with decisions := s.decisions ++ [verdict event s.budget a] }
  by_cases hretry : (verdict event s.budget a).shouldRetry = true
  · refine ⟨none, s₁.moved .retrying (verdict event s.budget a).reason, ?_, ?_⟩
    · unfold reconsider
      refine (Exec.bind_of_ok rfl).trans ((Exec.bind_of_ok rfl).trans ?_)
      rw [if_pos (show (s.budget.decide _ _ _).shouldRetry = true from hretry)]
      refine Exec.bind_of_ok (s := s₁) (a := ()) ?_
      unfold Exec.when
      rw [if_pos hs]
      exact move_eq (s := s₁) hretrying _
    · exact {
        budget := rfl
        passes := rfl
        legal := fun h => h.moved hretrying _
        decisions := rfl
        again := ⟨fun _ => hretry, fun _ => rfl⟩
        retrying := fun _ => ⟨rfl, rfl⟩
        ended := nofun }
  · let result : PipelineResult := ⟨event.runId, .awaitingHuman, classification, policy, true, s.budget.attemptsUsed⟩
    refine ⟨some result, s₁.moved .awaitingHuman (verdict event s.budget a).reason, ?_, ?_⟩
    · unfold reconsider
      refine (Exec.bind_of_ok rfl).trans ((Exec.bind_of_ok rfl).trans ?_)
      rw [if_neg (show ¬ (s.budget.decide _ _ _).shouldRetry = true from hretry)]
      exact Exec.bind_of_ok (s := s₁) (move_eq (s := s₁) hhuman _)
    · exact {
        budget := rfl
        passes := rfl
        legal := fun h => h.moved hhuman _
        decisions := rfl
        again := ⟨nofun, fun h => absurd h hretry⟩
        retrying := nofun
        ended := fun _ h => by
          cases h
          exact ⟨.tail _ (.tail _ (.head _)), rfl, rfl⟩ }

/-- Behind an evaluation that passed, a pass ends without asking the retry budget. -/
theorem settled_without {s s' : RunState} {a : Answers} {result : PipelineResult} (hpassed : a.evaluation.passed = true)
    (hbudget : s'.budget = s.budget) (hpasses : s'.passes = s.passes) (hdecisions : s'.decisions = s.decisions)
    (hlegal : s.machine.Legal → s'.machine.Legal) (hfinal : s'.machine.state ∈ finalStates)
    (hstate : result.state = s'.machine.state) (hattempts : result.attempts = s.budget.attemptsUsed) :
    Settled event false a s (some result) s' where
  budget := hbudget
  passes := hpasses
  legal := hlegal
  decisions := by
    rw [hdecisions]
    exact (List.append_nil _).symm
  again := by
    refine ⟨nofun, fun h => ?_⟩
    rw [(decide_retries h).2] at hpassed
    cases hpassed
  retrying h := nomatch h
  ended _ h := by
    cases h
    exact ⟨hfinal, hstate, hattempts⟩

variable (event classification) in
theorem settle_settled {s : RunState} (a : Answers) (hs : s.machine.state = .evaluating) :
    ∃ r s', settle event classification a s = (.ok r, s') ∧ Settled event a.consults a s r s' := by
  unfold settle
  cases hpassed : a.evaluation.passed with
  | false =>
    have hconsults : a.consults = true := by
      unfold Answers.consults
      rw [hpassed]
      rfl
    rw [hconsults]
    exact reconsider_settled a none (.inr hs)
  | true =>
    have hreview : .policyReview ∈ allowedTransitions s.machine.state := by
      rw [hs]
      decide
    have hconsults : a.consults = decide (a.outcome = .retry) := by
      unfold Answers.consults
      rw [hpassed]
      rfl
    rw [if_pos rfl, Exec.bind_of_ok (move_eq hreview _), hconsults]
    let s₁ := s.moved .policyReview "eval_pass"
    cases a.outcome with
    | approve =>
      let s₂ := ((s₁.moved .approved "policy_approve").moved .verifying "verify").moved .succeeded "success"
      let result : PipelineResult :=
        ⟨event.runId, .succeeded, classification, some .approve, false, s.budget.attemptsUsed⟩
      refine ⟨some result, s₂, ?_, settled_without hpassed rfl rfl rfl ?_ (.head _) rfl rfl⟩
      · refine (Exec.bind_of_ok (move_eq (.head _) _)).trans ?_
        refine (Exec.bind_of_ok (move_eq (.tail _ (.head _)) _)).trans ?_
        exact Exec.bind_of_ok (move_eq (.head _) _)
      · exact fun h => (((h.moved hreview _).moved (.head _) _).moved (.tail _ (.head _)) _).moved (.head _) _
    | escalate =>
      let result : PipelineResult :=
        ⟨event.runId, .awaitingHuman, classification, some .escalate, true, s.budget.attemptsUsed⟩
      refine ⟨some result, s₁.moved .awaitingHuman "policy_escalate", ?_, settled_without hpassed rfl rfl rfl ?_
        (.tail _ (.tail _ (.head _))) rfl rfl⟩
      · exact Exec.bind_of_ok (move_eq (.tail _ (.head _)) _)
      · exact fun h => (h.moved hreview _).moved (.tail _ (.head _)) _
    | reject =>
      let result : PipelineResult := ⟨event.runId, .failed, classification, some .reject, false, s.budget.attemptsUsed⟩
      refine ⟨some result, s₁.moved .failed "policy_reject", ?_, settled_without hpassed rfl rfl rfl ?_
        (.tail _ (.head _)) rfl rfl⟩
      · exact Exec.bind_of_ok (move_eq (.tail _ (.tail _ (.tail _ (.head _)))) _)
      · exact fun h => (h.moved hreview _).moved (.tail _ (.tail _ (.tail _ (.head _)))) _
    | retry =>
      obtain ⟨r, s', hrun, hsettled⟩ : ∃ r s', reconsider event classification (some .retry) a s₁ = (.ok r, s') ∧
        Settled event true a s₁ r s' := reconsider_settled a (some .retry) (.inl rfl)
      exact ⟨r, s', hrun, { hsettled with legal := fun h => hsettled.legal (h.moved hreview _) }⟩

/-! ## The loop -/

variable (sha256 registry event classification) in
/-- Whether another attempt follows this one. -/
def Retries (b : RetryBudget) (a : Answers) : Prop :=
  (verdict event (b.after sha256 event classification a) a).shouldRetry = true

variable (sha256 event classification) in
/-- The answers of so many passes are followed by another pass. -/
def Asked : Nat → RetryBudget → (Nat → Answers) → Prop
  | 0, _, _ => True
  | i + 1, b, answers => Retries sha256 event classification b (answers 0) ∧
      Asked i (b.after sha256 event classification (answers 0)) fun j => answers (j + 1)

variable (sha256 registry event classification) in
/-- Every plan that the loop asks for names registered tools only. -/
def PlansKnown (b : RetryBudget) (answers : Nat → Answers) : Prop :=
  ∀ i, Asked sha256 event classification i b answers → ∀ t ∈ (answers i).tools, t ∈ registry

theorem plansKnown_iff {b : RetryBudget} {answers : Nat → Answers} :
    PlansKnown sha256 registry event classification b answers ↔ (∀ t ∈ (answers 0).tools, t ∈ registry) ∧
      (Retries sha256 event classification b (answers 0) → PlansKnown sha256 registry event classification
        (b.after sha256 event classification (answers 0)) fun j => answers (j + 1)) := by
  constructor
  · exact fun h => ⟨h 0 trivial, fun hretries i hasked => h (i + 1) ⟨hretries, hasked⟩⟩
  · rintro ⟨hfirst, hrest⟩ i hasked
    cases i with
    | zero => exact hfirst
    | succ i => exact hrest hasked.1 i hasked.2

/-- A loop that has returned, `passes` passes after `s`. -/
structure Finished (bound passes : Nat) (s : RunState) (result : PipelineResult) (s' : RunState) : Prop where
  bounded : 1 ≤ passes ∧ passes ≤ bound
  counted : s'.passes = s.passes + passes
  attempts : s'.budget.attemptsUsed = s.budget.attemptsUsed + passes
  legal : s.machine.Legal → s'.machine.Legal
  settled : s'.machine.state ∈ finalStates
  result : result.state = s'.machine.state ∧ result.attempts = s'.budget.attemptsUsed
  decisions : ∃ ds, s'.decisions = s.decisions ++ ds ∧ (ds = [] → passes = 1) ∧
    ∀ d ∈ ds.head?, d.attemptsUsed = s.budget.attemptsUsed + 1

theorem RunState.tried_legal {s : RunState} {a : Answers} (hs : Planning s) (h : s.machine.Legal) :
    (s.tried sha256 event classification a).machine.Legal :=
  ((h.moved hs.allowed _).moved (.head _) _).moved (.head _) _

variable (sha256 event classification) in
/-- A pass with known tools, and what the loop does behind it. -/
theorem loop_pass {s : RunState} {answers : Nat → Answers} (n : Nat) (hs : Planning s)
    (h : ∀ t ∈ (answers 0).tools, t ∈ registry) :
    ∃ r s', Settled event (answers 0).consults (answers 0) (s.tried sha256 event classification (answers 0)) r s' ∧
      loop sha256 registry event classification (n + 1) answers s =
        match r with
        | some result => (.ok result, s')
        | none => loop sha256 registry event classification n (fun i => answers (i + 1)) s' := by
  obtain ⟨r, s', hrun, hsettled⟩ := settle_settled event classification
    (s := s.tried sha256 event classification (answers 0)) (answers 0) rfl
  refine ⟨r, s', hsettled, ?_⟩
  rw [loop, Exec.bind_of_ok (tryRepair_ok hs h), Exec.bind_of_ok hrun]
  cases r <;> rfl

variable (sha256 event classification) in
theorem loop_raises {s : RunState} {answers : Nat → Answers} {n : Nat} (hs : Planning s)
    (h : ¬ ∀ t ∈ (answers 0).tools, t ∈ registry) :
    ∃ e s', loop sha256 registry event classification n answers s = (.error e, s') := by
  cases n with
  | zero => exact ⟨_, _, rfl⟩
  | succ n =>
    obtain ⟨e, s', hraise⟩ := tryRepair_raises sha256 event classification hs h
    exact ⟨e, s', Exec.bind_of_error hraise⟩

/-- The passes granted are enough. -/
theorem loop_returns {n : Nat} {s : RunState} {answers : Nat → Answers} (hs : Planning s) (hn : 1 ≤ n)
    (hbudget : s.budget.maxAttempts ≤ s.budget.attemptsUsed + n)
    (hplans : PlansKnown sha256 registry event classification s.budget answers) :
    ∃ result s', loop sha256 registry event classification n answers s = (.ok result, s') := by
  induction n generalizing s answers with
  | zero => omega
  | succ n ih =>
    obtain ⟨hfirst, hrest⟩ := plansKnown_iff.mp hplans
    obtain ⟨r, s', hsettled, hloop⟩ := loop_pass sha256 event classification n hs hfirst
    rw [hloop]
    cases r with
    | some result => exact ⟨result, s', rfl⟩
    | none =>
      have hretries := hsettled.again.mp rfl
      have hleft := (decide_retries hretries).1
      have hused : s'.budget = s.budget.after sha256 event classification (answers 0) := hsettled.budget
      refine ih (.inr (hsettled.retrying rfl).2) ?_ ?_ ?_
      · have : s.budget.attemptsUsed + 1 < s.budget.maxAttempts := hleft
        omega
      · rw [hused]
        show s.budget.maxAttempts ≤ s.budget.attemptsUsed + 1 + n
        omega
      · rw [hused]
        exact hrest hretries

/-- What a loop that returns leaves, and which plans it has asked for. -/
theorem loop_finished {n : Nat} {s s' : RunState} {answers : Nat → Answers} {result : PipelineResult} (hs : Planning s)
    (h : loop sha256 registry event classification n answers s = (.ok result, s')) :
    PlansKnown sha256 registry event classification s.budget answers ∧ ∃ k, Finished n k s result s' := by
  induction n generalizing s answers with
  | zero => cases h
  | succ n ih =>
    by_cases hfirst : ∀ t ∈ (answers 0).tools, t ∈ registry
    · obtain ⟨r, t, hsettled, hloop⟩ := loop_pass sha256 event classification n hs hfirst
      rw [hloop] at h
      cases r with
      | some last =>
        obtain ⟨hlast, rfl⟩ : last = result ∧ t = s' := by
          cases h
          exact ⟨rfl, rfl⟩
        subst hlast
        obtain ⟨hfinal, hstate, hattempts⟩ := hsettled.ended _ rfl
        refine ⟨plansKnown_iff.mpr ⟨hfirst, fun hretries => ?_⟩, 1, ?_⟩
        · cases hsettled.again.mpr hretries
        · exact {
            bounded := ⟨Nat.le_refl _, by omega⟩
            counted := hsettled.passes
            attempts := congrArg RetryBudget.attemptsUsed hsettled.budget
            legal := fun hlegal => hsettled.legal (RunState.tried_legal hs hlegal)
            settled := hfinal
            result := ⟨hstate, hattempts.trans (congrArg RetryBudget.attemptsUsed hsettled.budget).symm⟩
            decisions := by
              refine ⟨_, hsettled.decisions, fun _ => rfl, ?_⟩
              cases (answers 0).consults with
              | false => exact nofun
              | true =>
                rintro d ⟨⟩
                exact decide_attemptsUsed _ _ _ _ }
      | none =>
        have hbudget : t.budget = s.budget.after sha256 event classification (answers 0) := hsettled.budget
        have hpasses : t.passes = s.passes + 1 := hsettled.passes
        have hused : t.budget.attemptsUsed = s.budget.attemptsUsed + 1 := by
          rw [hbudget]
          rfl
        obtain ⟨hplans, k, hfinished⟩ := ih (.inr (hsettled.retrying rfl).2) h
        rw [hbudget] at hplans
        refine ⟨plansKnown_iff.mpr ⟨hfirst, fun _ => hplans⟩, k + 1, ?_⟩
        obtain ⟨ds, hds, -, -⟩ := hfinished.decisions
        exact {
          bounded := ⟨by omega, Nat.succ_le_succ hfinished.bounded.2⟩
          counted := by
            rw [hfinished.counted, hpasses]
            omega
          attempts := by
            rw [hfinished.attempts, hused]
            omega
          legal := fun hlegal => hfinished.legal (hsettled.legal (RunState.tried_legal hs hlegal))
          settled := hfinished.settled
          result := hfinished.result
          decisions := by
            rw [hds, hsettled.decisions, (hsettled.retrying rfl).1, if_pos rfl, List.append_assoc]
            refine ⟨_, rfl, nofun, ?_⟩
            rintro d ⟨⟩
            exact decide_attemptsUsed _ _ _ _ }
    · obtain ⟨e, t, hraise⟩ := loop_raises sha256 event classification (n := n + 1) hs hfirst
      rw [hraise] at h
      cases h

end

/-! ## Runs on one pipeline -/

section

variable [UnicodeData] (sha256 : Str → Str) (registry : List Str)

/-- A run whose failure is classified. -/
def started (i : Incident) (b : RetryBudget) : RunState :=
  (({ budget := b } : RunState).moved .contextReady "context_built").moved .classified (classify i.event).failureClass

/-- What a run shows of its retry budget. -/
def shown (r : Except PipelineError PipelineResult × RunState) :
    Except PipelineError (PipelineState × Nat) × List RetryDecision :=
  (r.1.map fun result => (result.state, result.attempts), r.2.decisions)

/-- A run on the budget `b`, on a pipeline that began with `fresh`: it ends within the budget's attempts, along allowed
transitions, in a final state, and as it would on a pipeline of its own. -/
structure Governs (fresh b : RetryBudget) (i : Incident) : Prop where
  returned : ∃ result, (run sha256 registry i b).1 = .ok result ∧
    result.state = (run sha256 registry i b).2.machine.state
  bounded : (run sha256 registry i b).2.passes ≤ fresh.maxAttempts
  legal : (run sha256 registry i b).2.machine.Legal
  settled : (run sha256 registry i b).2.machine.state ∈ finalStates
  alone : shown (run sha256 registry i b) = shown (run sha256 registry i fresh)

/-- The plans that the run of an incident asks for name registered tools only. -/
def Incident.plansKnown (i : Incident) (b : RetryBudget) : Prop :=
  PlansKnown sha256 registry i.event (classify i.event) b i.answers

variable {sha256 registry} {i : Incident} {b : RetryBudget}

theorem run_escalated (h : Escalates i.event) : run sha256 registry i b =
    (.ok ⟨i.event.runId, .awaitingHuman, classify i.event, none, true, b.attemptsUsed⟩,
      (started i b).moved .awaitingHuman "classifier_escalate") := by
  unfold Escalates at h
  unfold run handleEvent
  refine (Exec.bind_of_ok (move_eq (.head _) _)).trans ?_
  refine (Exec.bind_of_ok (move_eq (.head _) _)).trans ?_
  rw [if_pos h]
  exact Exec.bind_of_ok (move_eq (.tail _ (.head _)) _)

theorem run_looped (h : ¬ Escalates i.event) : run sha256 registry i b =
    loop sha256 registry i.event (classify i.event) b.maxAttempts i.answers (started i b) := by
  unfold Escalates at h
  unfold run handleEvent
  refine (Exec.bind_of_ok (move_eq (.head _) _)).trans ?_
  refine (Exec.bind_of_ok (move_eq (.head _) _)).trans ?_
  rw [if_neg h]
  rfl

omit [UnicodeData] in
theorem legal_begun (b : RetryBudget) : ({ budget := b } : RunState).machine.Legal := Path.here

theorem legal_started (i : Incident) (b : RetryBudget) : (started i b).machine.Legal :=
  ((legal_begun b).moved (.head _) _).moved (.head _) _

/-- An incident that the classifier escalates leaves the budget as it was. -/
theorem serve_escalated (h : Escalates i.event) : (serve sha256 registry i b).2 = b := by
  show (run sha256 registry i b).2.budget = b
  rw [run_escalated h]
  rfl

theorem governs_escalated (h : Escalates i.event) : Governs sha256 registry b b i where
  returned := by
    rw [run_escalated h]
    exact ⟨_, rfl, rfl⟩
  bounded := by
    rw [run_escalated h]
    exact Nat.zero_le _
  legal := by
    rw [run_escalated h]
    exact (legal_started i b).moved (.tail _ (.head _)) _
  settled := by
    rw [run_escalated h]
    exact .tail _ (.tail _ (.head _))
  alone := rfl

theorem governs_looped (hb : 1 ≤ b.maxAttempts) (h : ¬ Escalates i.event) (hplans : i.plansKnown sha256 registry b) :
    Governs sha256 registry b b i := by
  have hplanning : Planning (started i b) := .inl rfl
  obtain ⟨result, s', hloop⟩ := loop_returns hplanning hb (Nat.le_add_left _ _) hplans
  obtain ⟨-, k, hfinished⟩ := loop_finished hplanning hloop
  have hrun : run sha256 registry i b = (.ok result, s') := (run_looped h).trans hloop
  have hpasses : s'.passes = k := hfinished.counted.trans (Nat.zero_add k)
  exact {
    returned := by
      rw [hrun]
      exact ⟨result, rfl, hfinished.result.1⟩
    bounded := by
      rw [hrun, hpasses]
      exact hfinished.bounded.2
    legal := by
      rw [hrun]
      exact hfinished.legal (legal_started i b)
    settled := by
      rw [hrun]
      exact hfinished.settled
    alone := rfl }

/-- A run of the loop that returns. -/
theorem run_finished {result : PipelineResult} (h : ¬ Escalates i.event)
    (hrun : (run sha256 registry i b).1 = .ok result) : i.plansKnown sha256 registry b ∧
      ∃ k, Finished b.maxAttempts k (started i b) result (run sha256 registry i b).2 := by
  have hloop : run sha256 registry i b = _ := run_looped h
  rw [returned_eq hrun] at hloop
  exact loop_finished (.inl rfl) hloop.symm

/-- An attempt of an earlier run shows in every later one. -/
theorem not_governs_used {fresh : RetryBudget} (hused : fresh.attemptsUsed < b.attemptsUsed) :
    ¬ Governs sha256 registry fresh b i := by
  rintro ⟨⟨result, hresult, -⟩, -, -, -, halone⟩
  obtain ⟨hsame, hdecisions⟩ := Prod.mk.inj halone
  rw [hresult] at hsame
  obtain ⟨result', hresult', hpair⟩ := ok_of_map hsame.symm
  have hattempts : result'.attempts = result.attempts := congrArg Prod.snd hpair
  by_cases hescalates : Escalates i.event
  · rw [run_escalated hescalates] at hresult hresult'
    cases hresult
    cases hresult'
    have : fresh.attemptsUsed = b.attemptsUsed := hattempts
    omega
  · obtain ⟨-, k, hb⟩ := run_finished hescalates hresult
    obtain ⟨-, k', hfresh⟩ := run_finished hescalates hresult'
    obtain ⟨ds, hds, hone, hfirst⟩ := hb.decisions
    obtain ⟨ds', hds', hone', hfirst'⟩ := hfresh.decisions
    have heq : ds = ds' := by
      rw [hds, hds'] at hdecisions
      exact hdecisions
    subst heq
    have hk : result.attempts = b.attemptsUsed + k := hb.result.2.trans hb.attempts
    have hk' : result'.attempts = fresh.attemptsUsed + k' := hfresh.result.2.trans hfresh.attempts
    cases ds with
    | nil =>
      have hk1 := hone rfl
      have hk1' := hone' rfl
      omega
    | cons d ds =>
      have hd : d.attemptsUsed = b.attemptsUsed + 1 := hfirst d rfl
      have hd' : d.attemptsUsed = fresh.attemptsUsed + 1 := hfirst' d rfl
      omega

/-- Every run of a sequence on one pipeline is bounded, legal and the same as alone exactly when none but the last gets
past the classifier, and the last asks for plans with registered tools only. -/
theorem runs_alone_iff (hb : 1 ≤ b.maxAttempts) (incidents : List Incident) :
    Exec.Along (serve sha256 registry) (fun used i => Governs sha256 registry b used i) incidents b ↔
      ∀ before i after, incidents = before ++ i :: after → ¬ Escalates i.event →
        after = [] ∧ i.plansKnown sha256 registry b := by
  induction incidents with
  | nil =>
    refine ⟨fun _ before i after h => ?_, fun _ => trivial⟩
    cases before <;> cases h
  | cons i rest ih =>
    rw [Exec.Along]
    by_cases hescalates : Escalates i.event
    · rw [serve_escalated hescalates, ih]
      constructor
      · rintro ⟨-, hrest⟩ before j after heq hj
        cases before with
        | nil =>
          cases heq
          exact absurd hescalates hj
        | cons i' before =>
          cases heq
          exact hrest before j after rfl hj
      · refine fun h => ⟨governs_escalated hescalates, fun before j after heq hj => ?_⟩
        exact h (i :: before) j after (by rw [heq]; rfl) hj
    · constructor
      · rintro ⟨hgoverns, hrest⟩
        obtain ⟨result, hresult, -⟩ := hgoverns.returned
        obtain ⟨hplans, k, hfinished⟩ := run_finished hescalates hresult
        have hnil : rest = [] := by
          cases rest with
          | nil => rfl
          | cons j rest =>
            refine absurd hrest.1 (not_governs_used ?_)
            show b.attemptsUsed < (run sha256 registry i b).2.budget.attemptsUsed
            rw [hfinished.attempts]
            exact Nat.lt_add_of_pos_right hfinished.bounded.1
        subst hnil
        intro before j after heq _
        cases before with
        | nil =>
          cases heq
          exact ⟨rfl, hplans⟩
        | cons i' before =>
          obtain ⟨-, hnil⟩ := List.cons.inj heq
          cases before <;> cases hnil
      · intro h
        obtain ⟨rfl, hplans⟩ := h [] i rest rfl hescalates
        exact ⟨governs_looped hb hescalates hplans, trivial⟩

end

def lintFailure : FailureEvent where
  runId := "run-1".toList
  job := "lint".toList
  failedStep := "ruff".toList
  message := "ruff check failed".toList

def typeFailure : FailureEvent where
  runId := "run-2".toList
  job := "types".toList
  failedStep := "mypy".toList
  message := "mypy found an error".toList

/-- The second attempt passes and is approved. -/
def secondTry (i : Nat) : Answers where
  tools := ["log_inspection".toList]
  proposal := ⟨"prop".toList, if i = 0 then "first".toList else "second".toList⟩
  evaluation := ⟨i ≠ 0⟩
  outcome := .approve

/-- A failure that no rule of the classifier knows. -/
def unknownFailure : FailureEvent where
  runId := "run-0".toList
  message := "something broke".toList

theorem typeFailure_alone : Exec.Along (@serve asciiData id ["log_inspection".toList])
    (fun used i => @Governs asciiData id ["log_inspection".toList] {} used i)
    [⟨unknownFailure, secondTry⟩, ⟨typeFailure, secondTry⟩] {} := by
  let _ := asciiData
  have hescalates : Escalates unknownFailure := by decide +kernel
  refine (runs_alone_iff (b := {}) (by decide) _).mpr ?_
  intro before i after heq hpasses
  match before with
  | [] =>
    cases heq
    exact absurd hescalates hpasses
  | [_] =>
    cases heq
    exact ⟨rfl, fun i _ t ht => ht⟩
  | _ :: _ :: before =>
    obtain ⟨-, hnil⟩ := List.cons.inj (List.cons.inj heq).2
    cases before <;> cases hnil

/-- The same failure behind another one finds the budget spent: it is handed to a human after one attempt, as the third. -/
theorem typeFailure_behind : ¬ Exec.Along (@serve asciiData id ["log_inspection".toList])
    (fun used i => @Governs asciiData id ["log_inspection".toList] {} used i)
    [⟨lintFailure, secondTry⟩, ⟨typeFailure, secondTry⟩] {} := by
  let _ := asciiData
  rintro ⟨-, ⟨-, -, -, -, halone⟩, -⟩
  have hused := congrArg (fun r => r.2.map (·.attemptsUsed)) halone
  revert hused
  decide +kernel

end GovernedPipeline

end FailureOrchestrator
