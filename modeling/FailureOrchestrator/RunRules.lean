import FailureOrchestrator.Recovery
import FailureOrchestrator.RunLoop

namespace FailureOrchestrator

open Exec RunPersistence

/-- Events that announce work in the world whose end another event reports. -/
def AuditEventType.opensCall : AuditEventType → Bool
  | .toolCalled | .sandboxStarted => true
  | _ => false

/-- `I` holds between the steps of a run and `E` after a step that raised, as long as only the `allowed` statuses
are entered, no call is opened and no evaluation is made. -/
structure Discipline (env : Env) (allowed : RunStatus → Prop) (I : World → Prop) (E : RunError → World → Prop) :
    Prop where
  usual : ∀ s, s ≠ .approved → allowed s
  live : ∀ w, I w → allowed w.machine.status ∧ allowed w.state.status
  raised : ∀ e w, I w → E e w
  move : ∀ w machine state, I w → allowed machine.status → allowed state.status →
    state.evaluation = w.state.evaluation → I { w with machine, state }
  tools : ∀ w toolsUsed toolRisks, I w → I { w with toolsUsed, toolRisks }
  emit : ∀ (t : AuditEventType) before (after : Option RunStatus) refs, t.opensCall = false →
    (∀ s, after = some s → allowed s) →
    Triple I (onJournal (emit env t before (after.map RunStatus.value) refs)) (fun _ => I) E
  checkpoint : ∀ c : Checkpoint, (∀ s, c.workflowStatus = some s → ∃ status, allowed status ∧ s = status.value) →
    Triple I (onJournal (checkpoint env c)) (fun _ => I) E
  write : ∀ ref document, Triple I (onJournal (perform env (.write ref document))) (fun _ => I) E

/-- Statuses of a run whose proposal was evaluated. -/
def RunStatus.judged : RunStatus → Bool
  | .evaluated | .policyReview | .approved | .rejected | .awaitingHuman => true
  | _ => false

/-- The run's directory has a file of this name. -/
def Journal.Holds (env : Env) (ref : Str) (j : Journal) : Prop := (j.store env).isFile ref = true

def World.Holds (env : Env) (ref : Str) (w : World) : Prop := w.journal.Holds env ref

/-- A discipline that may ask more: a run state refers to files that exist, and some of the `judged` statuses need not be
allowed. -/
structure Upkeep (env : Env) (allowed : RunStatus → Prop) (I : World → Prop) (E : RunError → World → Prop) : Prop where
  usual : ∀ s, s.judged = false → allowed s
  live : ∀ w, I w → allowed w.machine.status ∧ allowed w.state.status
  raised : ∀ e w, I w → E e w
  move : ∀ w machine state, I w → allowed machine.status → allowed state.status →
    state.evaluation = w.state.evaluation → I { w with machine, state }
  tools : ∀ w toolsUsed toolRisks, I w → I { w with toolsUsed, toolRisks }
  emit : ∀ (t : AuditEventType) before (after : Option RunStatus) refs, t.opensCall = false →
    (∀ s, after = some s → allowed s) →
    Triple I (onJournal (emit env t before (after.map RunStatus.value) refs)) (fun _ => I) E
  checkpoint : ∀ c : Checkpoint, (∀ s, c.workflowStatus = some s → ∃ status, allowed status ∧ s = status.value) →
    Triple (fun w => (∀ r ∈ c.refs, w.Holds env r.2) ∧ I w) (onJournal (checkpoint env c)) (fun _ => I) E
  write : ∀ ref document, Triple I (onJournal (perform env (.write ref document))) (fun _ => I) E

theorem onJournal_bind {α β : Type} {P : World → Prop} {Q : α → World → Prop} {R : β → World → Prop}
    {E : RunError → World → Prop} {x : Exec Journal RunError α} {g : α → Exec Journal RunError β}
    (hx : Triple P (onJournal x) Q E) (hg : ∀ a, Triple (Q a) (onJournal (g a)) R E) :
    Triple P (onJournal (x >>= g)) R E := by
  unfold onJournal
  rw [zoom_bind]
  · exact Triple.bind hx hg
  · exact fun _ _ => rfl
  · exact fun _ _ _ => rfl

theorem onJournal_ret {α : Type} {P : World → Prop} {Q : α → World → Prop} {E : RunError → World → Prop} {a : α}
    (h : ∀ w, P w → Q a w) : Triple P (onJournal (pure a)) Q E := h

/-- A step of the journal leaves the rest of the run as it is. -/
theorem onJournal_lift {α : Type} {R : World → Prop} {J : Journal → Prop} {Q : α → Journal → Prop}
    {K : RunError → Journal → Prop} {x : Exec Journal RunError α} (h : Triple J x Q K)
    (hR : ∀ w j, R w → R { w with journal := j }) :
    Triple (fun w => R w ∧ J w.journal) (onJournal x) (fun a w => R w ∧ Q a w.journal)
      (fun e w => R w ∧ K e w.journal) := by
  apply Triple.zoom
  rintro w ⟨hw, hj⟩
  refine h.mono ?_ (fun a j hq => ⟨hR w j hw, hq⟩) fun e j hk => ⟨hR w j hw, hk⟩
  rintro j rfl
  exact hj

theorem onJournal_triple {α : Type} {P : Journal → Prop} {Q : α → Journal → Prop} {E : RunError → Journal → Prop}
    {x : Exec Journal RunError α} (h : Triple P x Q E) :
    Triple (fun w => P w.journal) (onJournal x) (fun a w => Q a w.journal) (fun e w => E e w.journal) := by
  apply Triple.zoom
  intro w hw
  refine h.mono ?_ (fun _ _ hq => hq) fun _ _ he => he
  rintro j rfl
  exact hw

/-- What does not look at the journal outlives every step of it. -/
theorem onJournal_keeps {α : Type} {R : World → Prop} {x : Exec Journal RunError α}
    (hR : ∀ w j, R w → R { w with journal := j }) : Triple R (onJournal x) (fun _ => R) (fun _ => R) := by
  apply Triple.zoom
  intro w hw
  exact Triple.of_forall (fun _ j => hR w j hw) fun _ j => hR w j hw

theorem onJournal_frame {α : Type} {R P : World → Prop} {Q : α → World → Prop} {E : RunError → World → Prop}
    {x : Exec Journal RunError α} (h : Triple P (onJournal x) Q E) (hR : ∀ w j, R w → R { w with journal := j }) :
    Triple (fun w => R w ∧ P w) (onJournal x) (fun a w => R w ∧ Q a w) (fun e w => R w ∧ E e w) := by
  intro w hw
  have hx := h w hw.2
  have hkept := hR w (x w.journal).2 hw.1
  unfold onJournal zoom at hx ⊢
  rcases hxs : x w.journal with ⟨e | a, j⟩
  · rw [hxs] at hx hkept
    exact ⟨hkept, hx⟩
  · rw [hxs] at hx hkept
    exact ⟨hkept, hx⟩

/-- Reading the run's state changes nothing. -/
theorem onJournal_durable {P : World → Prop} {E : RunError → World → Prop} (h : ∀ e w, P w → E e w) :
    Triple P (onJournal durable) (fun _ => P) E := by
  apply Triple.zoom
  intro w hw
  refine (durable_triple (P := fun j => j = w.journal) (E := fun _ j => j = w.journal) fun _ hj _ _ => hj).mono
    (fun _ hj => hj) ?_ ?_
  · rintro d j ⟨rfl, -⟩
    exact hw
  · rintro e j rfl
    exact h e w hw

section

variable {f : Foundation} {I : World → Prop} {E : RunError → World → Prop}

theorem when_keeps {c : Prop} [Decidable c] {x : Run Unit} (h : Triple I x (fun _ => I) E) :
    Triple I (when c x) (fun _ => I) E :=
  Triple.cond (fun _ => h) fun _ => Triple.ret fun _ hw => hw

theorem journaled_keeps {x : Exec Journal RunError Unit} (h : Triple I (onJournal x) (fun _ => I) E) :
    Triple I (f.journaled x) (fun _ => I) E := when_keeps h

/-- A transition ends in its target, or raises and moves nothing. -/
theorem moveTo_triple {P Q : World → Prop} {target : RunStatus} {reason : Str}
    (hok : ∀ w machine, P w → machine.status = target →
      Q { w with machine, state := { w.state with status := machine.status } })
    (herror : ∀ e w, P w → w.machine.transition target reason = .error e → E e w) : Triple P (moveTo target reason) (fun _ => Q) E := by
  apply Triple.read_bind
  intro w hw
  cases hm : w.machine.transition target reason with
  | error e =>
    apply Triple.bind (Q := fun _ _ => False)
    · refine Triple.lift (fun _ hr => nomatch hr) ?_
      rintro e' hr w' rfl
      cases hr
      exact herror e _ hw hm
    · exact fun _ _ hfalse => hfalse.elim
  | ok machine =>
    apply Triple.bind (Q := fun a w' => a = machine ∧ w' = w)
    · refine Triple.lift ?_ fun _ hr => nomatch hr
      rintro a hr w' rfl
      cases hr
      exact ⟨rfl, rfl⟩
    · intro a
      apply Triple.update
      rintro w' ⟨rfl, rfl⟩
      exact hok w' a hw (FoundationStateMachine.transition_status hm)

/-- A result shows the status of the state it is made from. -/
theorem result_status {stopReason : RetryReason} {technicalStatus : String} {policyDecision : Option PolicyDecision}
    {escalation : Option HumanEscalation} {artifacts : Option EscalationArtifacts} :
    Triple I (result stopReason technicalStatus policyDecision escalation artifacts)
      (fun r w => I w ∧ r.status = w.state.status) E := by
  apply Triple.read_bind
  intro w hw
  apply Triple.ret
  rintro w' rfl
  exact ⟨hw, rfl⟩

end

/-- Files stay. -/
theorem Journal.Holds.call {env : Env} {ref : Str} {j : Journal} {op : StoreOp} {done : Bool} (h : j.Holds env ref) :
    (j.call op done).Holds env ref := by
  unfold Journal.Holds at h ⊢
  rw [Journal.store_call]
  cases done with
  | false => exact h
  | true =>
    cases op with
    | createRun run => exact h
    | saveRun run => exact h
    | append event => exact h
    | write other document =>
      show List.any ((other, document) :: (j.store env).files) _ = true
      rw [List.any_cons, Bool.or_eq_true]
      exact .inr h

theorem Journal.Holds.hold {env : Env} {ref : Str} {j : Journal} (h : j.Holds env ref) (d : DurableRunState) :
    (j.hold d).Holds env ref := h

theorem holds_perform {env : Env} {ref : Str} {op : StoreOp} :
    Triple (World.Holds env ref) (onJournal (perform env op)) (fun _ => World.Holds env ref)
      (fun _ => World.Holds env ref) :=
  onJournal_triple (Q := fun _ => Journal.Holds env ref) (E := fun _ => Journal.Holds env ref)
    (perform_triple (fun _ h _ => h.call) fun _ _ h => h.call)

theorem holds_written {env : Env} {ref : Str} {document : Document} {P : World → Prop} :
    Triple P (onJournal (perform env (.write ref document))) (fun _ => World.Holds env ref) (fun _ _ => True) := by
  refine (onJournal_triple (P := fun _ => True) (Q := fun _ => Journal.Holds env ref) (E := fun _ _ => True)
    (perform_triple ?_ fun _ _ _ => trivial)).mono (fun _ _ => trivial) (fun _ _ h => h) fun _ _ _ => trivial
  intro j _ _
  unfold Journal.Holds
  rw [Journal.store_call]
  show List.any ((ref, document) :: (j.store env).files) _ = true
  simp

theorem holds_emit {env : Env} {ref : Str} {t : AuditEventType} {before after : Option Str}
    {refs : List DurableEvidenceRef} : Triple (World.Holds env ref) (onJournal (emit env t before after refs))
      (fun _ => World.Holds env ref) (fun _ => World.Holds env ref) := by
  refine onJournal_triple (Q := fun _ => Journal.Holds env ref) (E := fun _ => Journal.Holds env ref)
    (emit_triple ?_ ?_ ?_ ?_)
  · exact fun _ h _ _ => h
  · exact fun _ _ _ _ h _ => h.call
  · exact fun _ _ _ _ h _ _ => (h.call.hold _).call
  · exact fun _ _ _ h _ _ => (h.call.hold _).call

theorem holds_checkpoint {env : Env} {ref : Str} {c : Checkpoint} :
    Triple (World.Holds env ref) (onJournal (checkpoint env c)) (fun _ => World.Holds env ref)
      (fun _ => World.Holds env ref) := by
  refine onJournal_triple (Q := fun _ => Journal.Holds env ref) (E := fun _ => Journal.Holds env ref)
    (checkpoint_triple ?_ ?_ ?_)
  · exact fun _ h _ _ => h
  · exact fun _ _ _ h _ => (h.hold _).call
  · exact fun _ _ h _ => (h.hold _).call

namespace Upkeep

variable {f : Foundation} {env : Env} {allowed : RunStatus → Prop} {I : World → Prop} {E : RunError → World → Prop}
  (hd : Upkeep env allowed I E)

include hd

theorem side (c : Prop) : Upkeep env allowed (fun w => c ∧ I w) E where
  usual := hd.usual
  live w hw := hd.live w hw.2
  raised e w hw := hd.raised e w hw.2
  move w machine state hw hm hs he := ⟨hw.1, hd.move w machine state hw.2 hm hs he⟩
  tools w used risks hw := ⟨hw.1, hd.tools w used risks hw.2⟩
  emit t before after refs ht ha := (hd.emit t before after refs ht ha).side c
  checkpoint cp hs := ((hd.checkpoint cp hs).side c).mono (fun _ hw => ⟨hw.2.1, hw.1, hw.2.2⟩) (fun _ _ h => h)
    fun _ _ h => h
  write ref document := (hd.write ref document).side c

/-- A file that exists goes on to exist. -/
theorem holding (ref : Str) : Upkeep env allowed (fun w => w.Holds env ref ∧ I w) E where
  usual := hd.usual
  live w hw := hd.live w hw.2
  raised e w hw := hd.raised e w hw.2
  move w machine state hw hm hs he := ⟨hw.1, hd.move w machine state hw.2 hm hs he⟩
  tools w used risks hw := ⟨hw.1, hd.tools w used risks hw.2⟩
  emit t before after refs ht ha :=
    (holds_emit.both (hd.emit t before after refs ht ha)).mono (fun _ h => h) (fun _ _ h => h) fun _ _ h => h.2
  checkpoint cp hs := (holds_checkpoint.both (hd.checkpoint cp hs)).mono (fun _ hw => ⟨hw.2.1, hw.1, hw.2.2⟩)
    (fun _ _ h => h) fun _ _ h => h.2
  write other document :=
    (holds_perform.both (hd.write other document)).mono (fun _ h => h) (fun _ _ h => h) fun _ _ h => h.2

/-- The evaluation stays what it is. -/
theorem framed (evaluation : Option EvaluationResult) :
    Upkeep env allowed (fun w => w.state.evaluation = evaluation ∧ I w)
      (fun e w => w.state.evaluation = evaluation ∧ E e w) where
  usual := hd.usual
  live w hw := hd.live w hw.2
  raised e w hw := ⟨hw.1, hd.raised e w hw.2⟩
  move w machine state hw hm hs he := ⟨he.trans hw.1, hd.move w machine state hw.2 hm hs he⟩
  tools w used risks hw := ⟨hw.1, hd.tools w used risks hw.2⟩
  emit t before after refs ht ha := onJournal_frame (hd.emit t before after refs ht ha) fun _ _ hw => hw
  checkpoint cp hs := (onJournal_frame (hd.checkpoint cp hs) fun _ _ hw => hw).mono (fun _ hw => ⟨hw.2.1, hw.1, hw.2.2⟩)
    (fun _ _ h => h) fun _ _ h => h
  write ref document := onJournal_frame (hd.write ref document) fun _ _ hw => hw

theorem collaborator {α : Type} {r : Except RunError α} : Triple I (lift r : Run α) (fun _ => I) E :=
  Triple.lift (fun _ _ _ hw => hw) fun e _ w hw => hd.raised e w hw

theorem moveTo {target : RunStatus} {reason : Str} (h : allowed target) :
    Triple I (FailureOrchestrator.moveTo target reason) (fun _ => I) E := by
  apply moveTo_triple
  · exact fun w machine hw hm => hd.move w machine _ hw (hm ▸ h) (hm ▸ h) rfl
  · exact fun e w hw _ => hd.raised e w hw

theorem modifyState {g : RunState → RunState}
    (h : ∀ s, ((g s).status = s.status ∨ allowed (g s).status) ∧ (g s).evaluation = s.evaluation) :
    Triple I (FailureOrchestrator.modifyState g) (fun _ => I) E := by
  apply Triple.update
  intro w hw
  obtain ⟨hstatus, hevaluation⟩ := h w.state
  refine hd.move w w.machine (g w.state) hw (hd.live w hw).1 ?_ hevaluation
  rcases hstatus with hs | hs
  · exact hs ▸ (hd.live w hw).2
  · exact hs

theorem auditTo {t : AuditEventType} {before : Option RunStatus} {after : RunStatus} {refs : List DurableEvidenceRef}
    (ht : t.opensCall = false) (h : allowed after) :
    Triple I (f.audit env t before (some after) refs) (fun _ => I) E := by
  apply journaled_keeps (hd.emit t _ (some after) refs ht ?_)
  rintro s ⟨⟩
  exact h

theorem written (ref : Str) (document : Document) :
    Triple I (onJournal (perform env (.write ref document))) (fun _ w => w.Holds env ref ∧ I w) E :=
  (holds_written.both (hd.write ref document)).mono (fun _ hw => ⟨hw, hw⟩) (fun _ _ h => h) fun _ _ h => h.2

theorem writeJson {kind : String} {value : Json} {name : Str} :
    Triple I (onJournal (RunPersistence.writeJson env kind value name)) (fun r w => w.Holds env r.ref ∧ I w) E := by
  apply onJournal_bind (onJournal_durable hd.raised)
  intro _
  apply onJournal_bind (hd.written _ _)
  intro _
  exact onJournal_ret fun _ hw => hw

theorem writeText {kind : String} {content name : Str} {maxChars : Nat} :
    Triple I (onJournal (RunPersistence.writeText env kind content name maxChars)) (fun r w => w.Holds env r.ref ∧ I w)
      E := by
  apply onJournal_bind (onJournal_durable hd.raised)
  intro _
  apply onJournal_bind (hd.written _ _)
  intro _
  exact onJournal_ret fun _ hw => hw

/-- A checkpoint with the value of an allowed status and references to files that exist. -/
theorem saveRefs {c : Checkpoint} {status : RunStatus} (hs : allowed status)
    (hc : c.workflowStatus = some status.value) :
    Triple (fun w => (∀ r ∈ c.refs, w.Holds env r.2) ∧ I w) (onJournal (RunPersistence.checkpoint env c)) (fun _ => I)
      E := by
  apply hd.checkpoint
  intro s h
  exact ⟨status, hs, Option.some.inj (h.symm.trans hc)⟩

/-- A checkpoint with the value of an allowed status. -/
theorem save {c : Checkpoint} {status : RunStatus} (hs : allowed status) (hc : c.workflowStatus = some status.value)
    (hrefs : c.refs = []) : Triple I (onJournal (RunPersistence.checkpoint env c)) (fun _ => I) E := by
  refine (hd.saveRefs hs hc).mono (fun _ hw => ⟨?_, hw⟩) (fun _ _ h => h) fun _ _ h => h
  rw [hrefs]
  exact fun _ hr => nomatch hr

/-- A checkpoint with the value of an allowed status and a reference to a file that exists. -/
theorem saveRef {c : Checkpoint} {status : RunStatus} {field : RefField} {ref : Str} (hs : allowed status)
    (hc : c.workflowStatus = some status.value) (hrefs : c.refs = [(field, ref)]) :
    Triple (fun w => w.Holds env ref ∧ I w) (onJournal (RunPersistence.checkpoint env c)) (fun _ => I) E := by
  refine (hd.saveRefs hs hc).mono (fun w hw => ⟨?_, hw.2⟩) (fun _ _ h => h) fun _ _ h => h
  rw [hrefs]
  intro r hr
  rw [List.mem_singleton.mp hr]
  exact hw.1

theorem record {kind : String} {document : Json} {name : Str} {field : RefField} {t : AuditEventType}
    {before : Option RunStatus} {after : RunStatus} (ht : t.opensCall = false) (h : allowed after) :
    Triple I (onJournal (Foundation.record env kind document name field t before after)) (fun _ => I) E := by
  apply onJournal_bind hd.writeJson
  intro ref
  apply onJournal_bind (hd.saveRef h rfl rfl)
  intro _
  apply hd.emit t _ (some after) _ ht
  rintro s ⟨⟩
  exact h

end Upkeep

namespace Discipline

variable {f : Foundation} {env : Env} {allowed : RunStatus → Prop} {I : World → Prop} {E : RunError → World → Prop}
  (hd : Discipline env allowed I E)

include hd

theorem side (c : Prop) : Discipline env allowed (fun w => c ∧ I w) E where
  usual := hd.usual
  live w hw := hd.live w hw.2
  raised e w hw := hd.raised e w hw.2
  move w machine state hw hm hs he := ⟨hw.1, hd.move w machine state hw.2 hm hs he⟩
  tools w used risks hw := ⟨hw.1, hd.tools w used risks hw.2⟩
  emit t before after refs ht ha := (hd.emit t before after refs ht ha).side c
  checkpoint cp hs := (hd.checkpoint cp hs).side c
  write ref document := (hd.write ref document).side c

/-- The evaluation stays what it is. -/
theorem framed (evaluation : Option EvaluationResult) :
    Discipline env allowed (fun w => w.state.evaluation = evaluation ∧ I w)
      (fun e w => w.state.evaluation = evaluation ∧ E e w) where
  usual := hd.usual
  live w hw := hd.live w hw.2
  raised e w hw := ⟨hw.1, hd.raised e w hw.2⟩
  move w machine state hw hm hs he := ⟨he.trans hw.1, hd.move w machine state hw.2 hm hs he⟩
  tools w used risks hw := ⟨hw.1, hd.tools w used risks hw.2⟩
  emit t before after refs ht ha := onJournal_frame (hd.emit t before after refs ht ha) fun _ _ hw => hw
  checkpoint cp hs := onJournal_frame (hd.checkpoint cp hs) fun _ _ hw => hw
  write ref document := onJournal_frame (hd.write ref document) fun _ _ hw => hw

/-- The demands of an upkeep are met. -/
theorem upkeep : Upkeep env allowed I E where
  usual s hs := hd.usual s fun heq => by
    rw [heq] at hs
    cases hs
  live := hd.live
  raised := hd.raised
  move := hd.move
  tools := hd.tools
  emit := hd.emit
  checkpoint cp hs := (hd.checkpoint cp hs).mono (fun _ hw => hw.2) (fun _ _ h => h) fun _ _ h => h
  write := hd.write

end Discipline

end FailureOrchestrator
