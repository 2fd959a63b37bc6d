import FailureOrchestrator.RetryHistory

namespace FailureOrchestrator

open Exec RetryDecisionEngine

/-- The history is not part of the journal. -/
theorem onJournal_history {P B : History → Prop} (hPB : ∀ h, P h → B h) {x : Exec Journal RunError Unit} :
    Triple (fun w => P w.history) (onJournal x) (fun _ w => P w.history) (fun _ w => B w.history) := by
  apply Triple.zoom
  intro w hw
  exact Triple.of_forall (fun _ _ => hw) fun _ _ => hPB _ hw

/-- Only the history of a run matters to `P`, so no write, transition or audit event touches it. -/
theorem historyDiscipline {env : Env} {P B : History → Prop} (hPB : ∀ h, P h → B h) :
    Discipline env (fun _ => True) (fun w => P w.history) (fun _ w => B w.history) where
  usual _ _ := trivial
  live _ _ := ⟨trivial, trivial⟩
  raised _ _ hw := hPB _ hw
  move _ _ _ hw _ _ _ := hw
  tools _ _ _ hw := hw
  emit _ _ _ _ _ _ := onJournal_history hPB
  checkpoint _ _ := onJournal_history hPB
  write _ _ := onJournal_history hPB

namespace Foundation

variable (f : Foundation)

def Within (w : World) : Prop := RetryBounded f.retryBudget (proposalFingerprint f.sha256) w.history

def Between (k : Nat) (w : World) : Prop := Ready f.retryBudget (proposalFingerprint f.sha256) k w.history

variable {f} {env : Env} {k : Nat} {h : History}

theorem within_discipline : Discipline env (fun _ => True) f.Within (fun _ => f.Within) := historyDiscipline fun _ h => h

/-- Attempt `k + 1` under way: what it has added so far to the history `h`. -/
def During (k : Nat) (h : History) (ps : List RepairProposal) (as : List AttemptRecord) (ds : List RetryDecision)
    (w : World) : Prop :=
  w.history = ⟨k + 1, h.proposals ++ ps, h.attempts ++ as, h.decisions ++ ds⟩

section

variable (hr : Ready f.retryBudget (proposalFingerprint f.sha256) k h) {ps : List RepairProposal}
  {as : List AttemptRecord} {ds : List RetryDecision} (hadds : Adds (proposalFingerprint f.sha256) ps as)

include hr hadds

theorem within_of_during {w : World} (hw : During k h ps as ds w) : f.Within w := by
  unfold Within
  rw [hw]
  exact hr.bounded hadds

theorem during_discipline : Discipline env (fun _ => True) (During k h ps as ds) (fun _ => f.Within) := by
  refine historyDiscipline (P := fun h' => h' = _) ?_
  rintro h' rfl
  exact hr.bounded hadds

theorem onJournal_during {x : Exec Journal RunError Unit} :
    Triple (During k h ps as ds) (onJournal x) (fun _ => During k h ps as ds) (fun _ => f.Within) := by
  refine onJournal_history (P := fun h' => h' = _) ?_
  rintro h' rfl
  exact hr.bounded hadds

end

/-- How an attempt leaves the history: ready for the next one, or at the end of the run. -/
def Continues (f : Foundation) (k : Nat) (outcome : Option FoundationResult) (w : World) : Prop :=
  outcome.elim (f.Between (k + 1) w) fun _ => f.Within w

theorem continues_of_ended {r : FoundationResult} {w : World} (h : Ended f.Within r w) : f.Continues k (some r) w := h.1

/-- The retry decision on attempt `k + 1`. -/
theorem decideStage_continues (hr : Ready f.retryBudget (proposalFingerprint f.sha256) k h) {p : RepairProposal}
    {a : AttemptRecord} {evaluation : EvaluationResult} (hfp : a.proposalFingerprint = proposalFingerprint f.sha256 p)
    (hnumber : a.attemptNumber = k + 1) :
    Triple (During k h [p] [a] []) (do
      let decision ← f.decideStage env (k + 1) evaluation
      if decision.shouldRetry then do
        f.startRetry env decision
        return none
      else some <$> f.stopRun env decision) (f.Continues k) (fun _ => f.Within) := by
  have hbefore : Discipline env (fun _ => True) (During k h [p] [a] []) (fun _ => f.Within) :=
    during_discipline hr (.attempt hfp)
  have hafter : ∀ d, Discipline env (fun _ => True) (fun w => d = decide f.retryBudget (h.attempts ++ [a]) evaluation ∧
      During k h [p] [a] [d] w) (fun _ => f.Within) := fun d => (during_discipline hr (.attempt hfp)).side _
  apply Triple.bind
  · apply hbefore.upkeep.decideStage fun d => (hafter d).upkeep
    intro w hw
    have hattempts : w.attempts = h.attempts ++ [a] := congrArg History.attempts hw
    have hdecisions : w.decisions = h.decisions ++ [] := congrArg History.decisions hw
    have hstarted : w.started = k + 1 := congrArg History.started hw
    have hproposals : w.proposals = h.proposals ++ [p] := congrArg History.proposals hw
    refine ⟨by rw [hattempts], ?_⟩
    unfold During World.history World.addDecision
    simp only [hattempts, hdecisions, hstarted, hproposals, List.append_nil]
  intro d
  apply Triple.cond
  · intro hretry
    apply Triple.bind (hafter d).upkeep.startRetry
    intro _
    apply Triple.ret
    rintro w ⟨hd, hw⟩
    show Ready _ _ _ w.history
    rw [hw, hd]
    exact hr.next hfp hnumber (hd ▸ hretry)
  · intro _
    apply Triple.map
    refine within_discipline.upkeep.stopRun.mono ?_ (fun _ _ h => continues_of_ended h) fun _ _ h => h
    exact fun w hw => within_of_during hr (.attempt hfp) hw.2

variable [UnicodeData]

/-- One attempt keeps the history within the budget, wherever it raises. -/
theorem attempt_continues {event : FailureEvent} :
    Triple (f.Between k) (f.attempt env event (k + 1)) (f.Continues k) (fun _ => f.Within) := by
  intro w₀ hr
  change Ready _ _ k w₀.history at hr
  refine (?_ : Triple (fun w => w.history = w₀.history) _ _ _) w₀ rfl
  generalize w₀.history = h at hr ⊢
  have hstarted : Discipline env (fun _ => True) (During k h [] [] []) (fun _ => f.Within) :=
    during_discipline hr .nothing
  have hproposed : ∀ p, Discipline env (fun _ => True) (During k h [p] [] []) (fun _ => f.Within) :=
    fun p => during_discipline hr (.proposal p)
  apply Triple.bind (Q := fun _ => During k h [] [] [])
  · apply Triple.update
    intro w hw
    unfold During
    simp only [List.append_nil]
    rw [← hw]
    rfl
  intro _
  apply Triple.bind hstarted.upkeep.buildContextStage
  intro context
  apply Triple.bind hstarted.upkeep.classifyStage
  intro classification
  apply Triple.bind hstarted.upkeep.startAttempt
  intro _
  apply Triple.bind hstarted.upkeep.planStage
  intro plan
  apply Triple.bind (hstarted.upkeep.moveTo trivial)
  intro _
  apply Triple.bind
  · exact hstarted.upkeep.toolSteps (journaled_keeps (onJournal_during hr .nothing)) 0
  intro _
  apply Triple.bind (Q := fun p => During k h [p] [] [])
  · apply Upkeep.proposeStage (fun p => (hproposed p).upkeep) hstarted.raised
    intro w p hw
    have hproposals : w.proposals = h.proposals ++ [] := congrArg History.proposals hw
    have hattempts : w.attempts = h.attempts ++ [] := congrArg History.attempts hw
    have hdecisions : w.decisions = h.decisions ++ [] := congrArg History.decisions hw
    have hstarted : w.started = k + 1 := congrArg History.started hw
    unfold During World.history
    simp only [hattempts, hdecisions, hstarted, hproposals, List.append_nil]
  intro p
  apply Triple.bind
  · exact (hproposed p).upkeep.sandboxStage fun before =>
      journaled_keeps (onJournal_during hr (.proposal p))
  intro sandbox
  apply Triple.bind (((hproposed p).upkeep.evaluateStage trivial fun _ _ h => h).mono (fun _ h => h) (fun _ _ h => h.2.2) fun _ _ h => h)
  intro evaluation
  let a := buildAttemptRecord f.sha256 (k + 1) plan.goal p evaluation sandbox event classification h.attempts.getLast?
  have hrecorded : Discipline env (fun _ => True) (During k h [p] [a] []) (fun _ => f.Within) :=
    during_discipline hr (.attempt rfl)
  apply Triple.bind (Q := fun _ => During k h [p] [a] [])
  · apply hrecorded.upkeep.recordStage
    intro w hw
    have hproposals : w.proposals = h.proposals ++ [p] := congrArg History.proposals hw
    have hattempts : w.attempts = h.attempts ++ [] := congrArg History.attempts hw
    have hdecisions : w.decisions = h.decisions ++ [] := congrArg History.decisions hw
    have hstarted : w.started = k + 1 := congrArg History.started hw
    unfold During World.history World.addAttempt
    simp only [hattempts, hdecisions, hstarted, hproposals, List.append_nil]
    rfl
  intro _
  apply Triple.cond
  · intro _
    apply Triple.map
    refine Triple.mono (P := f.Within) ?_ (fun w hw => within_of_during hr (.attempt rfl) hw) (fun _ _ h => h)
      fun _ _ h => h
    exact within_discipline.runPolicyGate (fun _ _ h => h) (fun _ _ h => h)
      (fun _ _ _ _ _ _ => (within_discipline.upkeep.approveBranch trivial).mono (fun _ h => h)
        (fun _ _ h => continues_of_ended h) fun _ _ h => h)
      fun _ _ h => continues_of_ended h
  · intro _
    exact decideStage_continues hr rfl rfl

/-- The loop neither leaves the budget nor runs out: the last attempt is never retried. -/
theorem attempts_within {event : FailureEvent} (count : Nat) (hcount : k + count = f.retryBudget.maxAttempts) :
    Triple (f.Between k) (f.attempts env event (k + 1) count)
      (fun outcome w => outcome ≠ none ∧ f.Within w) (fun _ => f.Within) := by
  induction count generalizing k with
  | zero =>
    intro w hw
    exact absurd hw.budget_left (by omega)
  | succ count ih =>
    apply Triple.bind attempt_continues
    intro outcome
    cases outcome with
    | some r => exact Triple.ret fun w hw => ⟨nofun, hw⟩
    | none => exact ih (by omega)

theorem attemptLoop_within {event : FailureEvent} :
    Triple (fun w => w.history = {}) (f.attemptLoop env event)
      (fun outcome w => outcome ≠ none ∧ f.Within w) (fun _ => f.Within) := by
  apply Triple.bind (Q := fun _ => f.Between 0)
  · refine Triple.mono (journaled_keeps (onJournal_history (P := fun h => h = {}) ?_)) (fun _ h => h) ?_
      fun _ _ h => h
    · rintro h rfl
      exact retryBounded_empty
    · intro _ w hw
      unfold Between
      rw [hw]
      exact ready_zero
  intro _
  exact attempts_within _ (Nat.zero_add _)

theorem run_within (event : FailureEvent) : f.Within (f.run env event).2 := by
  have hbody : Triple (fun w => w.history = {}) (f.runBody env (receivedEvent env event)) (fun _ => f.Within)
      (fun _ => f.Within) := by
    apply Triple.bind attemptLoop_within
    intro outcome
    cases outcome with
    | some r => exact Triple.ret fun w hw => hw.2
    | none => exact fun w hw => absurd rfl hw.1
  have hrun : Triple (fun w => w.history = {}) (handle (f.runBody env (receivedEvent env event))
      fun e => if e.isPersistence then persistenceFailed e else f.runFailed env e) (fun _ => f.Within)
      (fun _ => f.Within) := by
    have hd : Discipline env (fun _ => True) f.Within (fun _ => f.Within) := within_discipline
    apply Triple.handle hbody
    intro e
    apply Triple.cond
    · exact fun _ => hd.upkeep.persistenceFailed.mono (fun _ h => h) (fun _ _ h => h.1) fun _ _ h => h
    · exact fun _ => (hd.upkeep.runFailed fun _ _ h => h).mono (fun _ h => h) (fun _ _ h => h.1) fun _ _ h => h
  exact hrun.after rfl

/-- Every run stays within its retry budget, and the code after the attempt loop is never reached. -/
theorem run_retryBounded (f : Foundation) (env : Env) (event : FailureEvent) :
    RetryBounded f.retryBudget (proposalFingerprint f.sha256) (f.run env event).2.history ∧
      (f.attemptLoop env (receivedEvent env event) (initialWorld env event)).1 ≠ .ok none := by
  refine ⟨run_within event, ?_⟩
  intro hnone
  obtain ⟨hne, -⟩ := attemptLoop_within.ok (s := initialWorld env event) rfl hnone
  exact hne rfl

end Foundation

end FailureOrchestrator
