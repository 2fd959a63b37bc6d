import FailureOrchestrator.EvidenceNames
import FailureOrchestrator.RunKnown

namespace FailureOrchestrator

open Exec RunPersistence

/-- The content of an evidence file. -/
def RunStore.file (s : RunStore) (ref : Str) : Option Document := s.files.lookup ref

/-- A logged event refers to the file. -/
def Cited (calls : List StoreStep) (ref : Str) : Prop :=
  ∃ e, ⟨.append e, true⟩ ∈ calls ∧ ref ∈ e.evidenceRefs.map (·.ref)

/-- Every file that a logged event refers to exists, and has the content that it had when the event was logged. -/
def Preserved (s : RunStore) (calls : List StoreStep) : Prop :=
  ∀ before e after, calls = before ++ ⟨.append e, true⟩ :: after → ∀ ref ∈ e.evidenceRefs.map (·.ref),
    ∃ document, (s.replay before).file ref = some document ∧ (s.replay calls).file ref = some document

section Histories

variable {s : RunStore} {calls : List StoreStep} {call : StoreStep} {ref : Str}

theorem RunStore.file_isSome (h : s.isFile ref = true) : ∃ document, s.file ref = some document := by
  refine Option.ne_none_iff_exists'.mp fun hnone => ?_
  obtain ⟨x, hx, href⟩ := List.any_eq_true.mp h
  have hne := List.lookup_eq_none_iff.mp hnone x hx
  rw [of_decide_eq_true href] at hne
  simp at hne

/-- A call that does not write the file leaves its content. -/
theorem RunStore.file_step (h : ∀ document, call ≠ ⟨.write ref document, true⟩) : (s.step call).file ref = s.file ref := by
  obtain ⟨op, done⟩ := call
  cases done with
  | false => rfl
  | true =>
    cases op with
    | createRun run => rfl
    | saveRun run => rfl
    | append event => rfl
    | write other document =>
      have hne : ref ≠ other := by
        rintro rfl
        exact h document rfl
      show ((other, document) :: s.files).lookup ref = s.files.lookup ref
      rw [List.lookup_cons, beq_false_of_ne hne]

theorem cited_snoc (h : Cited (calls ++ [call]) ref) :
    Cited calls ref ∨ ∃ e, call = ⟨.append e, true⟩ ∧ ref ∈ e.evidenceRefs.map (·.ref) := by
  obtain ⟨e, hmem, href⟩ := h
  rcases List.mem_append.mp hmem with hmem | hmem
  · exact .inl ⟨e, hmem, href⟩
  · exact .inr ⟨e, (List.mem_singleton.mp hmem).symm, href⟩

/-- A call after a preserved history: it writes no file that is referred to, and what it refers to is there. -/
theorem Preserved.snoc (h : Preserved s calls)
    (hwrite : ∀ ref document, call = ⟨.write ref document, true⟩ → ¬ Cited calls ref)
    (happend : ∀ e, call = ⟨.append e, true⟩ → ∀ ref ∈ e.evidenceRefs.map (·.ref), (s.replay calls).isFile ref = true) :
    Preserved s (calls ++ [call]) := by
  intro before e after hsplit ref href
  rw [RunStore.replay_append]
  rcases List.eq_nil_or_concat after with rfl | ⟨after, last, rfl⟩
  · obtain ⟨rfl, hlast⟩ := List.append_inj' hsplit rfl
    obtain rfl := (List.cons.inj hlast).1
    obtain ⟨document, hdocument⟩ := RunStore.file_isSome (happend e rfl ref href)
    exact ⟨document, hdocument, hdocument⟩
  · rw [List.concat_eq_append, ← List.cons_append, ← List.append_assoc] at hsplit
    obtain ⟨rfl, -⟩ := List.append_inj' hsplit rfl
    obtain ⟨document, hbefore, hnow⟩ := h before e after rfl ref href
    refine ⟨document, hbefore, ?_⟩
    rw [RunStore.file_step, hnow]
    rintro document' rfl
    exact hwrite ref document' rfl ⟨e, List.mem_append_right _ List.mem_cons_self, href⟩

end Histories

/-- The history is preserved, and its events refer to files of the given names. -/
structure Filed (s : RunStore) (past : List StoreStep) (A : EvidenceName → Prop) (j : Journal) : Prop where
  preserved : Preserved s (past ++ j.trace)
  named : ∀ ref, Cited (past ++ j.trace) ref → ∃ a : EvidenceName, A a ∧ a.Plain ∧ a.ref = ref

section Journals

variable {env : Env} {s : RunStore} {past : List StoreStep} {A B : EvidenceName → Prop} {j : Journal}

theorem Filed.mono (h : Filed s past A j) (hAB : ∀ a, A a → B a) : Filed s past B j where
  preserved := h.preserved
  named ref hcited := by
    obtain ⟨a, ha, hplain, href⟩ := h.named ref hcited
    exact ⟨a, hAB a ha, hplain, href⟩

theorem Filed.hold (h : Filed s past A j) (d : DurableRunState) : Filed s past A (j.hold d) := ⟨h.preserved, h.named⟩

theorem Filed.not_cited {b : EvidenceName} (h : Filed s past A j) (hb : b.Plain) (hfresh : ¬ A b) :
    ¬ Cited (past ++ j.trace) b.ref := by
  intro hcited
  obtain ⟨a, ha, hplain, href⟩ := h.named _ hcited
  exact hfresh (EvidenceName.ref_injective hplain hb href ▸ ha)

/-- One store call: a written file has a new name, and an event refers to files that are there. -/
theorem Filed.call {op : StoreOp} {done : Bool} (hstore : env.store = s.replay past) (h : Filed s past A j)
    (hAB : ∀ a, A a → B a) (hwrite : ∀ ref document, op = .write ref document → ∃ b : EvidenceName, b.Plain ∧ ¬ A b ∧ b.ref = ref)
    (happend : ∀ e, op = .append e → ∀ ref ∈ e.evidenceRefs.map (·.ref),
      j.Holds env ref ∧ ∃ b : EvidenceName, B b ∧ b.Plain ∧ b.ref = ref) : Filed s past B (j.call op done) := by
  have hreplay : s.replay (past ++ j.trace) = j.store env := by
    unfold Journal.store
    rw [hstore]
    exact List.foldl_append
  have htrace : past ++ (j.call op done).trace = past ++ j.trace ++ [⟨op, done⟩] := (List.append_assoc _ _ _).symm
  constructor
  · rw [htrace]
    refine h.preserved.snoc ?_ ?_
    · rintro ref document hcall
      obtain ⟨b, hb, hfresh, rfl⟩ := hwrite ref document (StoreStep.mk.inj hcall).1
      exact h.not_cited hb hfresh
    · rintro e hcall ref href
      rw [hreplay]
      exact (happend e (StoreStep.mk.inj hcall).1 ref href).1
  · intro ref hcited
    rw [htrace] at hcited
    rcases cited_snoc hcited with hcited | ⟨e, hcall, href⟩
    · exact (h.mono hAB).named ref hcited
    · exact (happend e (StoreStep.mk.inj hcall).1 ref href).2

variable (hstore : env.store = s.replay past)

include hstore

theorem filed_save {d : DurableRunState} : Keeps (Filed s past A) (perform env (.saveRun d)) :=
  fun _ hj => (perform_triple (Q := fun _ => Filed s past A) (E := fun _ => Filed s past A)
    (fun _ h _ => h.call hstore (fun _ ha => ha) nofun nofun)
    fun _ _ h => h.call hstore (fun _ ha => ha) nofun nofun).after hj

theorem filed_create {d : DurableRunState} : Keeps (Filed s past A) (perform env (.createRun d)) :=
  fun _ hj => (perform_triple (Q := fun _ => Filed s past A) (E := fun _ => Filed s past A)
    (fun _ h _ => h.call hstore (fun _ ha => ha) nofun nofun)
    fun _ _ h => h.call hstore (fun _ ha => ha) nofun nofun).after hj

theorem filed_write {b : EvidenceName} (hb : b.Plain) (hfresh : ¬ A b) {document : Document} :
    Triple (Filed s past A) (perform env (.write b.ref document)) (fun _ j => j.Holds env b.ref ∧ Filed s past A j)
      (fun _ => Filed s past A) := by
  have hcall : ∀ j done, Filed s past A j → Filed s past A (j.call (.write b.ref document) done) := by
    intro j done h
    refine h.call hstore (fun _ ha => ha) ?_ nofun
    rintro ref document' ⟨⟩
    exact ⟨b, hb, hfresh, rfl⟩
  apply perform_triple
  · intro j h _
    refine ⟨?_, hcall j true h⟩
    unfold Journal.Holds
    rw [Journal.store_call]
    show List.any ((b.ref, document) :: (j.store env).files) _ = true
    simp
  · exact fun j _ h => hcall j false h

theorem filed_checkpoint {c : Checkpoint} : Keeps (Filed s past A) (checkpoint env c) := by
  refine Keeps.bind keeps_durable fun d => ?_
  refine Keeps.bind (Keeps.update fun _ h => h.hold _) fun _ => ?_
  exact filed_save hstore

/-- The references that an event may have. -/
def Referable (env : Env) (B : EvidenceName → Prop) (refs : List DurableEvidenceRef) (j : Journal) : Prop :=
  ∀ r ∈ refs, j.Holds env r.ref ∧ ∃ b : EvidenceName, B b ∧ b.Plain ∧ b.ref = r.ref

theorem filed_append {e : AuditEvent} (hAB : ∀ a, A a → B a) :
    Triple (fun j => Referable env B e.evidenceRefs j ∧ Filed s past A j) (perform env (.append e))
      (fun _ => Filed s past B) (fun _ => Filed s past B) := by
  have hcall : ∀ j done, Referable env B e.evidenceRefs j ∧ Filed s past A j → Filed s past B (j.call (.append e) done) := by
    rintro j done ⟨hrefs, h⟩
    refine h.call hstore hAB nofun ?_
    rintro e' ⟨⟩ ref href
    obtain ⟨r, hr, rfl⟩ := List.mem_map.mp href
    exact hrefs r hr
  exact perform_triple (fun j h _ => hcall j true h) fun j _ h => hcall j false h

theorem filed_emit {t : AuditEventType} {before after : Option Str} {refs : List DurableEvidenceRef}
    (hAB : ∀ a, A a → B a) :
    Triple (fun j => Referable env B refs j ∧ Filed s past A j) (emit env t before after refs) (fun _ => Filed s past B)
      (fun _ => Filed s past B) := by
  apply Triple.bind
  · exact durable_triple fun j h _ _ => h.2.mono hAB
  intro d
  apply Triple.read_keep
  intro j _
  apply Triple.bind
  · exact (filed_append hstore hAB).mono (fun _ h => h.1) (fun _ _ h => h) fun _ _ h => h
  intro _
  apply Triple.bind (Q := fun _ => Filed s past B)
  · exact Triple.update fun _ h => h.hold _
  intro _
  exact (filed_save hstore).triple

/-- An event without references. -/
theorem filed_mark {t : AuditEventType} {before after : Option Str} : Keeps (Filed s past A) (emit env t before after) :=
  fun _ hj => ((filed_emit hstore fun _ ha => ha).mono (fun _ h => ⟨fun _ hr => absurd hr List.not_mem_nil, h⟩) (fun _ _ h => h) fun _ _ h => h).after hj

theorem filed_writeJson {b : EvidenceName} (hb : b.Plain) (hfresh : ¬ A b) (hjson : endsWith b.file ".json".toList = true)
    {value : Json} :
    Triple (Filed s past A) (writeJson env b.kind value b.file)
      (fun r j => r.ref = b.ref ∧ j.Holds env b.ref ∧ Filed s past A j) (fun _ => Filed s past A) := by
  apply Triple.bind keeps_durable.triple
  intro _
  rw [if_pos hjson]
  apply Triple.bind (filed_write hstore hb hfresh)
  intro _
  exact Triple.ret fun _ h => ⟨rfl, h⟩

end Journals

end FailureOrchestrator
