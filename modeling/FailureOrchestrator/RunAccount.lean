import FailureOrchestrator.RunKnown
import FailureOrchestrator.RunLoop

namespace FailureOrchestrator

open Exec RunPersistence

/-- The stored status of a run is the one that its last event leaves. -/
def RunStore.Explained (s : RunStore) : Prop :=
  ∃ d e, s.state = some d ∧ s.events.getLast? = some e ∧ e.stateAfter = some d.workflowStatus

/-- The review package of an escalated run is built and written: the builder and the writer return on what the run hands
them. -/
def Foundation.Packaged [UnicodeData] (f : Foundation) (w : World) : Prop :=
  ∀ decision, w.state.policyDecision = some decision → decision.outcome = .escalate →
    ∃ classification proposal evaluation escalation artifacts, w.state.classification = some classification ∧
      w.state.proposal = some proposal ∧ w.state.evaluation = some evaluation ∧
      f.buildEscalation decision proposal evaluation w.attempts classification w.state.event
        (buildPolicyContext proposal evaluation (some classification) w.toolsUsed w.toolRisks w.attempts.length
          f.policyConfig) = .ok escalation ∧
      f.writeEscalation escalation proposal evaluation = .ok artifacts

section Journals

variable {env : Env} {status : Str} {j : Journal}

/-- The last event leaves the status. -/
def Last (env : Env) (status : Str) (j : Journal) : Prop :=
  j.Live ∧ ∃ e, (j.store env).events.getLast? = some e ∧ e.stateAfter = some status

/-- The stored run has the status. -/
def SavedAs (env : Env) (status : Str) (j : Journal) : Prop := ∃ d, (j.store env).state = some d ∧ d.workflowStatus = status

/-- The last event and the stored run agree on the status. -/
def Told (env : Env) (status : Str) (j : Journal) : Prop := Last env status j ∧ SavedAs env status j

theorem Told.explained (h : Told env status j) : (j.store env).Explained := by
  obtain ⟨⟨-, e, he, hafter⟩, d, hd, hstatus⟩ := h
  exact ⟨d, e, hd, he, hafter.trans (congrArg some hstatus.symm)⟩

theorem not_explained {other : Str} (h : Last env status j) (hsaved : SavedAs env other j) (hne : other ≠ status) :
    ¬ (j.store env).Explained := by
  rintro ⟨d, e, hd, he, hafter⟩
  obtain ⟨-, e', he', hafter'⟩ := h
  obtain ⟨d', hd', hstatus⟩ := hsaved
  cases he.symm.trans he'
  cases hd.symm.trans hd'
  exact hne (hstatus.symm.trans (Option.some.inj (hafter.symm.trans hafter')))

theorem emit_told {t : AuditEventType} {before : Option Str} {refs : List DurableEvidenceRef} :
    Triple Journal.Live (emit env t before (some status) refs) (fun _ => Told env status) (fun _ => Journal.Refused) := by
  apply emit_triple
  · intro j hj hnone message
    unfold Journal.Live at hj
    rw [hnone] at hj
    cases hj
  · exact fun j d e message _ _ => j.refused_call _
  · exact fun j d id message _ _ _ => Journal.refused_call _ _
  · rintro j d id - - -
    refine ⟨⟨rfl, event id d t before (some status) refs, ?_, rfl⟩, advance d (some status), Journal.save_state, rfl⟩
    rw [Journal.save_events, Journal.append_events, List.getLast?_concat]

/-- An event, whatever its status. -/
theorem emit_live {t : AuditEventType} {before after : Option Str} {refs : List DurableEvidenceRef} :
    Triple Journal.Live (emit env t before after refs) (fun _ => Journal.Live) (fun _ => Journal.Refused) := by
  apply emit_triple
  · intro j hj hnone message
    unfold Journal.Live at hj
    rw [hnone] at hj
    cases hj
  · exact fun j d e message _ _ => j.refused_call _
  · exact fun j d id message _ _ _ => Journal.refused_call _ _
  · exact fun j d id _ _ _ => rfl

theorem checkpoint_live {c : Checkpoint} :
    Triple Journal.Live (checkpoint env c) (fun _ => Journal.Live) (fun _ => Journal.Refused) := by
  apply checkpoint_triple
  · intro j hj hnone message
    unfold Journal.Live at hj
    rw [hnone] at hj
    cases hj
  · exact fun j d message _ _ => Journal.refused_call _ _
  · exact fun j d _ _ => rfl

theorem checkpoint_last {c : Checkpoint} {other : Str} (hc : c.workflowStatus = some other) :
    Triple (Last env status) (checkpoint env c) (fun _ j => Last env status j ∧ SavedAs env other j)
      (fun _ => Journal.Refused) := by
  apply checkpoint_triple
  · rintro j ⟨hj, -⟩ hnone message
    unfold Journal.Live at hj
    rw [hnone] at hj
    cases hj
  · exact fun j d message _ _ => Journal.refused_call _ _
  · rintro j d ⟨-, e, he, hafter⟩ -
    refine ⟨⟨rfl, e, ?_, hafter⟩, c.apply d, Journal.save_state, ?_⟩
    · rw [Journal.save_events]
      exact he
    · show c.workflowStatus.getD d.workflowStatus = other
      rw [hc]
      rfl

/-- A written file, where a property of a stored run outlives the write. -/
theorem writeJson_lasts {P : Journal → Prop} (hlive : ∀ j, P j → j.Live)
    (hwrite : ∀ j ref document, P j → P (j.call (.write ref document) true)) {kind : String} {value : Json} {name : Str} :
    Triple P (writeJson env kind value name) (fun _ => P) (fun _ => Journal.Refused) := by
  apply Triple.bind (Q := fun _ => P)
  · refine (durable_triple (E := fun _ _ => False) ?_).mono (fun _ h => h) (fun _ _ h => h.1) fun _ _ h => h.elim
    intro j hj hnone message
    have hsome := hlive j hj
    unfold Journal.Live at hsome
    rw [hnone] at hsome
    cases hsome
  intro _
  apply Triple.bind (Q := fun _ => P)
  · apply perform_triple
    · exact fun j hj _ => hwrite j _ _ hj
    · exact fun j message _ => j.refused_call _
  intro _
  exact Triple.ret fun _ hj => hj

theorem writeJson_live {kind : String} {value : Json} {name : Str} :
    Triple Journal.Live (writeJson env kind value name) (fun _ => Journal.Live) (fun _ => Journal.Refused) :=
  writeJson_lasts (fun _ h => h) fun _ _ _ h => h

theorem writeJson_last {kind : String} {value : Json} {name : Str} :
    Triple (Last env status) (writeJson env kind value name) (fun _ => Last env status) (fun _ => Journal.Refused) := by
  refine writeJson_lasts (fun _ h => h.1) ?_
  rintro j ref document ⟨hj, e, he, hafter⟩
  refine ⟨hj, e, ?_, hafter⟩
  rw [Journal.store_call]
  exact he

end Journals

/-- The attempts and the tools of a run. -/
structure RunPast where
  attempts : List AttemptRecord
  toolsUsed : List String
  toolRisks : List ToolRiskLevel

def World.past (w : World) : RunPast := ⟨w.attempts, w.toolsUsed, w.toolRisks⟩

/-- A run at its policy gate: its journal, what the gate is asked about, the status of the machine and the past. -/
structure AtGate (P : Journal → Prop) (k : RunCore) (status : RunStatus) (past : RunPast) (w : World) : Prop where
  journal : P w.journal
  core : w.state.core = k
  machine : w.machine.status = status
  past : w.past = past

/-- How a run ends: a store call failed, or the log accounts for the status exactly when the package was made. -/
def Foundation.Settled [UnicodeData] (f : Foundation) (env : Env) (w : World) : Prop :=
  w.journal.Refused ∨ ((w.journal.store env).Explained ↔ f.Packaged w)

section Steps

variable {f : Foundation} {env : Env} {P Q : Journal → Prop} {K : RunCore → Prop} {k k' : RunCore} {status : RunStatus}
  {past : RunPast}

theorem gate_onJournal {α : Type} {x : Exec Journal RunError α} {Q : α → Journal → Prop}
    (hx : Triple P x Q fun _ => Journal.Refused) :
    Triple (AtGate P k status past) (onJournal x) (fun a => AtGate (Q a) k status past) (fun _ w => w.journal.Refused) := by
  refine (onJournal_lift (R := fun w => w.state.core = k ∧ w.machine.status = status ∧ w.past = past) hx fun _ _ hw => hw).mono
    ?_ ?_ fun _ _ hw => hw.2
  · exact fun w hw => ⟨⟨hw.core, hw.machine, hw.past⟩, hw.journal⟩
  · exact fun _ w hw => ⟨hw.2, hw.1.1, hw.1.2.1, hw.1.2.2⟩

theorem gate_journaled (hp : f.persistence = true) {x : Exec Journal RunError Unit}
    (hx : Triple P x (fun _ => Q) fun _ => Journal.Refused) :
    Triple (AtGate P k status past) (f.journaled x) (fun _ => AtGate Q k status past) (fun _ w => w.journal.Refused) :=
  Triple.cond (fun _ => gate_onJournal hx) fun hnot => absurd hp hnot

theorem gate_moveTo {target : RunStatus} {reason : Str} {E : RunError → World → Prop}
    (h : target ∈ allowedTransitions status) :
    Triple (AtGate P k status past) (moveTo target reason) (fun _ => AtGate P k target past) E := by
  apply moveTo_triple
  · exact fun w machine hw hm => ⟨hw.journal, hw.core, hm, hw.past⟩
  · rintro e w hw herror
    refine absurd ?_ (FoundationStateMachine.transition_refused herror)
    rw [hw.machine]
    exact h

theorem gate_modify {g : RunState → RunState} {E : RunError → World → Prop} (hg : ∀ s, s.core = k → (g s).core = k') :
    Triple (AtGate P k status past) (modifyState g) (fun _ => AtGate P k' status past) E :=
  Triple.update fun w hw => ⟨hw.journal, hg w.state hw.core, hw.machine, hw.past⟩

theorem result_keeps {I : World → Prop} {E : RunError → World → Prop} {stopReason : RetryReason} {technicalStatus : String}
    {policyDecision : Option PolicyDecision} {escalation : Option HumanEscalation} {artifacts : Option EscalationArtifacts} :
    Triple I (result stopReason technicalStatus policyDecision escalation artifacts) (fun _ => I) E :=
  result_status.mono (fun _ h => h) (fun _ _ h => h.1) fun _ _ h => h

/-- An event with a status, and a checkpoint with the same one. -/
theorem checkpoint_told {c : Checkpoint} {text : Str} (hc : c.workflowStatus = some text) :
    Triple (Told env text) (checkpoint env c) (fun _ => Told env text) (fun _ => Journal.Refused) :=
  (checkpoint_last hc).mono (fun _ h => h.1) (fun _ _ h => h) fun _ _ h => h

theorem told_live {text : Str} {j : Journal} (h : Told env text j) : j.Live := h.1.1

end Steps

end FailureOrchestrator
