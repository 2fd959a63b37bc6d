import FailureOrchestrator.EvidenceFiled
import FailureOrchestrator.RunLoop

namespace FailureOrchestrator

open Exec RunPersistence

namespace EvidenceName

/-- The attempt whose file it is; the files of the policy gate and of the reviewers belong to none. -/
def round : EvidenceName → Option Nat
  | .input => some 0
  | .classification => some 1
  | .plan n | .tool n _ | .proposal n | .patch n | .sandbox n | .evaluation n | .attempt n | .retry n => some n
  | .policy | .escalation | .decision => none

/-- The place of the file in its attempt. -/
def order : EvidenceName → Nat
  | .input => 0
  | .classification => 1
  | .plan _ => 2
  | .tool _ _ => 3
  | .proposal _ | .patch _ => 4
  | .sandbox _ => 5
  | .evaluation _ => 6
  | .attempt _ => 7
  | .retry _ => 8
  | .policy | .escalation | .decision => 9

/-- Written before the `k`-th stage of attempt `n`. -/
def Before (n k : Nat) (a : EvidenceName) : Prop := ∃ m, a.round = some m ∧ (m < n ∨ m = n ∧ a.order < k)

/-- Written by a run. -/
def OfRun (a : EvidenceName) : Prop := a ≠ .decision

theorem Before.mono {n k k' : Nat} (hk : k ≤ k') (a : EvidenceName) (h : a.Before n k) : a.Before n k' := by
  obtain ⟨m, hm, horder⟩ := h
  exact ⟨m, hm, horder.imp_right fun h => ⟨h.1, h.2.trans_le hk⟩⟩

theorem Before.ofRun {n k : Nat} (a : EvidenceName) (h : a.Before n k) : a.OfRun := by
  rintro rfl
  obtain ⟨m, hm, -⟩ := h
  cases hm

theorem before_self {n k : Nat} {a : EvidenceName} (ha : a.round = some n) (hk : a.order < k) : a.Before n k :=
  ⟨n, ha, .inr ⟨rfl, hk⟩⟩

theorem not_before_self {n k : Nat} {a : EvidenceName} (ha : a.round = some n) (hk : k ≤ a.order) : ¬ a.Before n k := by
  rintro ⟨m, hm, horder⟩
  cases ha.symm.trans hm
  rcases horder with hlt | ⟨-, hlt⟩ <;> omega

theorem Before.next {n : Nat} (a : EvidenceName) (h : a.Before n 9) : a.Before (n + 1) 0 := by
  obtain ⟨m, hm, horder⟩ := h
  exact ⟨m, hm, .inl (by omega)⟩

/-- The tool files of an attempt, next to what was written before it. -/
def Tooled (n : Nat) (used : List String) (a : EvidenceName) : Prop := a.Before n 3 ∨ ∃ t ∈ used, a = .tool n t

theorem Tooled.before {n : Nat} {used : List String} (a : EvidenceName) (h : a.Tooled n used) : a.Before n 4 := by
  rcases h with h | ⟨t, -, rfl⟩
  · exact h.mono (by omega)
  · exact before_self rfl (by simp [order])

theorem Tooled.snoc {n : Nat} {used : List String} {t : String} (a : EvidenceName) (h : a.Tooled n used) :
    a.Tooled n (used ++ [t]) :=
  h.imp_right fun ⟨u, hu, ha⟩ => ⟨u, List.mem_append_left _ hu, ha⟩

/-- Written up to the policy decision of the run. -/
def Gated (n : Nat) (a : EvidenceName) : Prop := a.Before n 8 ∨ a = .policy

theorem Gated.ofRun {n : Nat} (a : EvidenceName) (h : a.Gated n) : a.OfRun := by
  rcases h with h | rfl
  · exact h.ofRun
  · exact nofun

theorem endsWith_file {a : EvidenceName} (ha : ∀ n, a ≠ .patch n) : endsWith a.file ".json".toList = true := by
  have hnumbered : ∀ stem n, endsWith (numbered stem n ".json") ".json".toList = true :=
    fun stem n => List.isSuffixOf_iff_suffix.mpr (List.suffix_append _ _)
  cases a with
  | input | classification | policy | escalation | decision =>
    dsimp only [file]
    decide
  | plan n | proposal n | sandbox n | evaluation n | attempt n | retry n => exact hnumbered _ n
  | patch n => exact absurd rfl (ha n)
  | tool n name => exact List.isSuffixOf_iff_suffix.mpr (List.suffix_append _ _)

end EvidenceName

/-- The tools of a plan have different names, each of them a part of a file name. -/
def RepairPlan.OneEach (plan : RepairPlan) : Prop :=
  (plan.steps.map (·.tool)).Nodup ∧ ∀ step ∈ plan.steps, PlainTool step.tool

theorem lasting_holds {env : Env} {ref : Str} : Lasting (Journal.Holds env ref) where
  call _ _ _ h := h.call
  hold _ d h := h.hold d

section Journals

variable {env : Env} {s : RunStore} {past : List StoreStep} {A B : EvidenceName → Prop} (hstore : env.store = s.replay past)

include hstore

theorem filed_file {b : EvidenceName} (hb : b.Plain) (hfresh : ¬ A b) (hjson : ∀ n, b ≠ .patch n) (hAB : ∀ a, A a → B a)
    {value : Json} :
    Triple (Filed s past A) (writeJson env b.kind value b.file)
      (fun r j => r.ref = b.ref ∧ j.Holds env b.ref ∧ Filed s past A j) (fun _ => Filed s past B) :=
  (filed_writeJson hstore hb hfresh (EvidenceName.endsWith_file hjson)).mono (fun _ h => h) (fun _ _ h => h)
    fun _ _ h => h.mono hAB

theorem filed_text {b : EvidenceName} (hb : b.Plain) (hfresh : ¬ A b) {content : Str} {maxChars : Nat} :
    Triple (Filed s past A) (writeText env b.kind content b.file maxChars)
      (fun r j => r.ref = b.ref ∧ j.Holds env b.ref ∧ Filed s past A j) (fun _ => Filed s past A) := by
  apply Triple.bind keeps_durable.triple
  intro _
  apply Triple.bind (filed_write hstore hb hfresh)
  intro _
  exact Triple.ret fun _ h => ⟨rfl, h⟩

/-- A file that is there stays through a checkpoint. -/
theorem filed_checkpointed {P : Journal → Prop} (hP : Lasting P) {c : Checkpoint} (hAB : ∀ a, A a → B a) :
    Triple (fun j => P j ∧ Filed s past A j) (checkpoint env c) (fun _ j => P j ∧ Filed s past A j)
      (fun _ => Filed s past B) :=
  (hP.checkpoint.triple.both (filed_checkpoint hstore).triple).mono (fun _ h => h) (fun _ _ h => h)
    fun _ _ h => h.2.mono hAB

/-- An event about one file. -/
theorem filed_cite {b : EvidenceName} (hb : b.Plain) (hB : B b) (hAB : ∀ a, A a → B a) {r : DurableEvidenceRef}
    (hr : r.ref = b.ref) {t : AuditEventType} {before after : Option Str} :
    Triple (fun j => j.Holds env b.ref ∧ Filed s past A j) (emit env t before after [r]) (fun _ => Filed s past B)
      (fun _ => Filed s past B) := by
  refine (filed_emit hstore hAB).mono (fun j h => ⟨?_, h.2⟩) (fun _ _ h => h) fun _ _ h => h
  intro r' hmem
  obtain rfl := List.mem_singleton.mp hmem
  rw [hr]
  exact ⟨h.1, b, hB, hb, rfl⟩

/-- A document under a new name, and the event about it. -/
theorem filed_record {b : EvidenceName} (hb : b.Plain) (hfresh : ¬ A b) (hjson : ∀ n, b ≠ .patch n) (hB : B b)
    (hAB : ∀ a, A a → B a) {document : Json} {field : RefField} {t : AuditEventType} {before : Option RunStatus}
    {after : RunStatus} :
    Triple (Filed s past A) (Foundation.record env b.kind document b.file field t before after) (fun _ => Filed s past B)
      (fun _ => Filed s past B) := by
  apply Triple.bind (filed_file hstore hb hfresh hjson hAB)
  intro r
  apply Triple.given
  intro hr
  apply Triple.bind (filed_checkpointed hstore lasting_holds hAB)
  intro _
  exact filed_cite hstore hb hB hAB hr

/-- A document under a new name, and the event about it without a checkpoint. -/
theorem filed_logged {b : EvidenceName} (hb : b.Plain) (hfresh : ¬ A b) (hjson : ∀ n, b ≠ .patch n) (hB : B b)
    (hAB : ∀ a, A a → B a) {document : Json} {t : AuditEventType} {before after : Option Str} :
    Triple (Filed s past A) (writeJson env b.kind document b.file >>= fun r => emit env t before after [r])
      (fun _ => Filed s past B) (fun _ => Filed s past B) := by
  apply Triple.bind (filed_file hstore hb hfresh hjson hAB)
  intro r
  apply Triple.given
  exact fun hr => filed_cite hstore hb hB hAB hr

end Journals

/-- The log of a run is preserved, and its events refer to files of the given names. -/
abbrev Evidence (env : Env) (A : EvidenceName → Prop) : World → Prop := Known (Filed env.store [] A) fun _ => True

section Stages

open EvidenceName

variable {f : Foundation} {env : Env} {A B : EvidenceName → Prop} {n : Nat} {event : FailureEvent}

theorem Known.evidence {w : World} (h : Evidence env A w) (hAB : ∀ a, A a → B a) : Evidence env B w := ⟨h.1.mono hAB, trivial⟩

/-- What writes no evidence. -/
theorem evidence_quiet {α : Type} {x : Run α} (hA : ∀ a, A a → a.OfRun) (hx : Keeps (Evidence env A) x) :
    Triple (Evidence env A) x (fun _ => Evidence env A) (fun _ => Evidence env OfRun) :=
  hx.triple.mono (fun _ h => h) (fun _ _ h => h) fun _ _ h => h.evidence hA

theorem evidence_before {α : Type} {x : Run α} {k : Nat} (hx : Keeps (Evidence env (Before n k)) x) :
    Triple (Evidence env (Before n k)) x (fun _ => Evidence env (Before n k)) (fun _ => Evidence env OfRun) :=
  evidence_quiet Before.ofRun hx

theorem evidence_journaled {x : Exec Journal RunError Unit} (hAB : ∀ a, A a → B a) (hB : ∀ a, B a → a.OfRun)
    (hx : Triple (Filed env.store [] A) x (fun _ => Filed env.store [] B) (fun _ => Filed env.store [] B)) :
    Triple (Evidence env A) (f.journaled x) (fun _ => Evidence env B) (fun _ => Evidence env OfRun) := by
  apply Triple.cond
  · intro _
    refine (onJournal_triple hx).mono (fun _ h => h.1) (fun _ _ h => ⟨h, trivial⟩) ?_
    exact fun _ _ h => ⟨Filed.mono h hB, trivial⟩
  · exact fun _ => Triple.ret fun _ h => h.evidence hAB

theorem evidence_audit {t : AuditEventType} {before after : Option RunStatus} :
    Keeps (Evidence env A) (f.audit env t before after) := known_journaled (filed_mark rfl)

theorem evidence_checkpoint {c : Checkpoint} : Keeps (Evidence env A) (f.journaled (checkpoint env c)) :=
  known_journaled (filed_checkpoint rfl)

theorem evidence_buildContext : Keeps (Evidence env A) (f.buildContextStage env n event) := by
  refine Keeps.read_bind fun w _ => ?_
  refine Keeps.bind Keeps.lift fun context => ?_
  refine Keeps.bind ?_ fun _ => ?_
  · apply keeps_when
    refine Keeps.bind known_moveTo fun _ => ?_
    exact evidence_audit
  refine Keeps.bind (known_modify fun _ => rfl) fun _ => ?_
  exact Keeps.ret

theorem evidence_modify {g : RunState → RunState} : Keeps (Evidence env A) (modifyState g) :=
  Keeps.update fun _ h => ⟨h.1, trivial⟩

theorem evidence_classify :
    Triple (Evidence env (Before n 1)) (f.classifyStage env n event) (fun _ => Evidence env (Before n 2))
      (fun _ => Evidence env OfRun) := by
  apply Triple.read_keep
  intro w _
  apply Triple.bind (evidence_before Keeps.lift)
  intro classification
  apply Triple.bind (evidence_before (keeps_when known_moveTo))
  intro _
  apply Triple.bind (evidence_before evidence_modify)
  intro _
  apply Triple.bind (Q := fun _ => Evidence env (Before n 2))
  · apply Triple.cond
    · rintro rfl
      apply evidence_journaled (Before.mono (by omega)) Before.ofRun
      exact filed_record (b := .classification) rfl trivial (not_before_self rfl (by simp [order])) nofun
        (before_self rfl (by simp [order])) (Before.mono (by omega))
    · exact fun _ => Triple.ret fun _ h => h.evidence (Before.mono (by omega))
  intro _
  exact Triple.ret fun _ h => h

theorem evidence_startAttempt : Keeps (Evidence env A) (f.startAttempt env n) := by
  refine Keeps.read_bind fun w _ => ?_
  apply known_journaled
  refine Keeps.bind (filed_mark rfl) fun _ => ?_
  exact filed_checkpoint rfl

theorem evidence_plan {context : FailureContext} {classification : FailureClassification} :
    Triple (Evidence env (Before n 2)) (f.planStage env n context classification)
      (fun plan w => (∃ retry, f.plan n context classification retry = .ok plan) ∧ Evidence env (Before n 3) w)
      (fun _ => Evidence env OfRun) := by
  apply Triple.read_keep
  intro w _
  apply Triple.bind (Q := fun plan w' => f.plan n context classification (f.retryContext n w) = .ok plan ∧
    Evidence env (Before n 2) w')
  · exact Triple.lift (fun _ hr _ hw => ⟨hr, hw⟩) fun _ _ _ hw => hw.evidence Before.ofRun
  intro plan
  apply Triple.given
  intro hplan
  apply Triple.bind (evidence_before (Keeps.cond known_moveTo (keeps_when known_moveTo)))
  intro _
  apply Triple.bind (evidence_before evidence_modify)
  intro _
  apply Triple.read_keep
  intro w' _
  apply Triple.bind (Q := fun _ => Evidence env (Before n 3))
  · apply evidence_journaled (Before.mono (by omega)) Before.ofRun
    exact filed_record (b := .plan n) rfl trivial (not_before_self rfl (by simp [order])) nofun (before_self rfl (by simp [order]))
      (Before.mono (by omega))
  intro _
  exact Triple.ret fun _ h => ⟨⟨_, hplan⟩, h⟩

theorem evidence_toolStep {index : Nat} {context : FailureContext} {step : PlanStep} {used : List String}
    (hplain : PlainTool step.tool) (hnew : step.tool ∉ used) :
    Triple (Evidence env (Tooled n used)) (f.toolStep env n index event context step)
      (fun _ => Evidence env (Tooled n (used ++ [step.tool]))) (fun _ => Evidence env OfRun) := by
  have hofRun : ∀ {used : List String} (a : EvidenceName), a.Tooled n used → a.OfRun := fun _ h => h.before.ofRun
  have hquiet : ∀ {α : Type} {x : Run α}, Keeps (Evidence env (Tooled n used)) x → Triple (Evidence env (Tooled n used)) x
      (fun _ => Evidence env (Tooled n used)) (fun _ => Evidence env OfRun) := fun hx => evidence_quiet hofRun hx
  apply Triple.bind (hquiet Keeps.lift)
  intro forceFail
  apply Triple.bind (hquiet evidence_audit)
  intro _
  apply Triple.bind (hquiet Keeps.lift)
  intro call
  apply Triple.bind (Q := fun _ => Evidence env (Tooled n used))
  · exact hquiet (Keeps.update fun _ h => h)
  intro _
  apply evidence_journaled Tooled.snoc hofRun
  refine filed_logged (b := .tool n step.tool) rfl hplain ?_ nofun
    (.inr ⟨step.tool, List.mem_append_right _ (List.mem_singleton_self _), rfl⟩) Tooled.snoc
  rintro (hbefore | ⟨t, ht, heq⟩)
  · exact not_before_self rfl (by simp [order]) hbefore
  · exact hnew ((EvidenceName.tool.inj heq).2 ▸ ht)

/-- The files of the remaining steps are new, and stay apart from each other. -/
theorem evidence_toolSteps {context : FailureContext} {steps : List PlanStep} {used : List String} (index : Nat)
    (hplain : ∀ step ∈ steps, PlainTool step.tool) (hnodup : (used ++ steps.map (·.tool)).Nodup) :
    Triple (Evidence env (Tooled n used)) (f.toolSteps env n event context index steps)
      (fun _ => Evidence env (Before n 4)) (fun _ => Evidence env OfRun) := by
  induction steps generalizing index used with
  | nil => exact Triple.ret fun _ h => h.evidence Tooled.before
  | cons step rest ih =>
    have hnew : step.tool ∉ used := by
      intro hmem
      exact (List.nodup_append.mp hnodup).2.2 _ hmem _ List.mem_cons_self rfl
    apply Triple.bind (evidence_toolStep (hplain step List.mem_cons_self) hnew)
    intro _
    refine ih (index + 1) (fun s hs => hplain s (List.mem_cons_of_mem _ hs)) ?_
    rw [List.append_assoc]
    exact hnodup

theorem evidence_propose {context : FailureContext} {plan : RepairPlan} {classification : FailureClassification} :
    Triple (Evidence env (Before n 4)) (f.proposeStage env n event context plan classification)
      (fun _ => Evidence env (Before n 5)) (fun _ => Evidence env OfRun) := by
  have hmono : ∀ a : EvidenceName, a.Before n 4 → a.Before n 5 := Before.mono (by omega)
  have hproposal : (EvidenceName.proposal n).Before n 5 := before_self rfl (by simp [order])
  have hpatch : (EvidenceName.patch n).Before n 5 := before_self rfl (by simp [order])
  apply Triple.bind (evidence_before Keeps.lift)
  intro proposal
  apply Triple.bind (Q := fun _ => Evidence env (Before n 4))
  · exact evidence_before (Keeps.update fun _ h => h)
  intro _
  apply Triple.read_keep
  intro w _
  apply Triple.bind (evidence_before known_moveTo)
  intro _
  apply Triple.bind (evidence_before evidence_modify)
  intro _
  apply Triple.bind (Q := fun _ => Evidence env (Before n 5))
  · apply evidence_journaled hmono Before.ofRun
    apply Triple.bind (filed_file (b := .proposal n) rfl trivial (not_before_self rfl (by simp [order])) nofun hmono)
    intro r
    apply Triple.given
    intro hr
    apply Triple.bind (Q := fun r' j => r'.ref = (EvidenceName.patch n).ref ∧
      (j.Holds env (EvidenceName.proposal n).ref ∧ j.Holds env (EvidenceName.patch n).ref) ∧
      Filed env.store [] (Before n 4) j)
    · refine (lasting_holds.writeText.triple.both (filed_text (b := .patch n) rfl trivial
        (not_before_self rfl (by simp [order])))).mono (fun _ h => h) ?_ fun _ _ h => h.2.mono hmono
      exact fun r' j h => ⟨h.2.1, ⟨h.1, h.2.2.1⟩, h.2.2.2⟩
    intro r'
    apply Triple.given
    intro hr'
    have hlasting : Lasting fun j => j.Holds env (EvidenceName.proposal n).ref ∧ j.Holds env (EvidenceName.patch n).ref :=
      ⟨fun _ _ _ h => ⟨h.1.call, h.2.call⟩, fun _ d h => ⟨h.1.hold d, h.2.hold d⟩⟩
    apply Triple.bind (filed_checkpointed rfl hlasting hmono)
    intro _
    refine (filed_emit rfl hmono).mono (fun j h => ⟨?_, h.2⟩) (fun _ _ h => h) fun _ _ h => h
    intro q hq
    rcases List.mem_cons.mp hq with rfl | hq
    · rw [hr]
      exact ⟨h.1.1, .proposal n, hproposal, trivial, rfl⟩
    · obtain rfl := List.mem_singleton.mp hq
      rw [hr']
      exact ⟨h.1.2, .patch n, hpatch, trivial, rfl⟩
  intro _
  exact Triple.ret fun _ h => h

theorem evidence_sandbox {plan : RepairPlan} {proposal : RepairProposal} :
    Triple (Evidence env (Before n 5)) (f.sandboxStage env n plan proposal) (fun _ => Evidence env (Before n 6))
      (fun _ => Evidence env OfRun) := by
  apply Triple.read_keep
  intro w _
  apply Triple.bind (evidence_before known_moveTo)
  intro _
  apply Triple.bind (evidence_before evidence_audit)
  intro _
  apply Triple.bind (evidence_before Keeps.lift)
  intro targetFails
  apply Triple.bind (evidence_before Keeps.lift)
  intro sandbox
  apply Triple.bind (evidence_before evidence_modify)
  intro _
  apply Triple.bind (Q := fun _ => Evidence env (Before n 6))
  · apply evidence_journaled (Before.mono (by omega)) Before.ofRun
    exact filed_logged (b := .sandbox n) rfl trivial (not_before_self rfl (by simp [order])) nofun
      (before_self rfl (by simp [order])) (Before.mono (by omega))
  intro _
  exact Triple.ret fun _ h => h

theorem evidence_evaluate {proposal : RepairProposal} {sandbox : SandboxResult} :
    Triple (Evidence env (Before n 6)) (f.evaluateStage env n proposal sandbox) (fun _ => Evidence env (Before n 7))
      (fun _ => Evidence env OfRun) := by
  apply Triple.bind (evidence_before known_moveTo)
  intro _
  apply Triple.bind (evidence_before Keeps.lift)
  intro evaluation
  apply Triple.bind (evidence_before known_moveTo)
  intro _
  apply Triple.bind (evidence_before evidence_modify)
  intro _
  apply Triple.bind (Q := fun _ => Evidence env (Before n 7))
  · apply evidence_journaled (Before.mono (by omega)) Before.ofRun
    exact filed_record (b := .evaluation n) rfl trivial (not_before_self rfl (by simp [order])) nofun
      (before_self rfl (by simp [order])) (Before.mono (by omega))
  intro _
  exact Triple.ret fun _ h => h

/-- The record of an attempt is written, and no event refers to it. -/
theorem evidence_record [UnicodeData] {classification : FailureClassification} {plan : RepairPlan} {proposal : RepairProposal}
    {sandbox : SandboxResult} {evaluation : EvaluationResult} :
    Triple (Evidence env (Before n 7)) (f.recordStage env n event classification plan proposal sandbox evaluation)
      (fun _ => Evidence env (Before n 8)) (fun _ => Evidence env OfRun) := by
  have hmono : ∀ a : EvidenceName, a.Before n 7 → a.Before n 8 := Before.mono (by omega)
  apply Triple.read_keep
  intro w _
  apply Triple.bind (Q := fun _ => Evidence env (Before n 7))
  · exact Triple.update fun _ h => ⟨h.1, trivial⟩
  intro _
  apply Triple.bind (Q := fun _ => Evidence env (Before n 8))
  · apply evidence_journaled hmono Before.ofRun
    apply Triple.bind (filed_file (b := .attempt n) rfl trivial (not_before_self rfl (by simp [order])) nofun hmono)
    intro r
    exact Triple.ret fun _ h => h.2.2.mono hmono
  intro _
  exact evidence_quiet Before.ofRun evidence_modify

theorem evidence_decide {evaluation : EvaluationResult} :
    Triple (Evidence env (Before n 8)) (f.decideStage env n evaluation) (fun _ => Evidence env (Before n 9))
      (fun _ => Evidence env OfRun) := by
  apply Triple.bind (evidence_before known_moveTo)
  intro _
  apply Triple.read_keep
  intro w _
  apply Triple.bind (Q := fun _ => Evidence env (Before n 8))
  · exact Triple.update fun _ h => ⟨h.1, trivial⟩
  intro _
  apply Triple.bind (Q := fun _ => Evidence env (Before n 9))
  · apply evidence_journaled (Before.mono (by omega)) Before.ofRun
    exact filed_record (b := .retry n) rfl trivial (not_before_self rfl (by simp [order])) nofun
      (before_self rfl (by simp [order])) (Before.mono (by omega))
  intro _
  exact Triple.ret fun _ h => h

theorem evidence_startRetry {decision : RetryDecision} : Keeps (Evidence env A) (f.startRetry env decision) := by
  refine Keeps.bind known_moveTo fun _ => ?_
  refine Keeps.bind evidence_audit fun _ => ?_
  exact evidence_checkpoint

end Stages

end FailureOrchestrator
