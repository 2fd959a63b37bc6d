import FailureOrchestrator.StoreAgreement
import FailureOrchestrator.TornLog

namespace FailureOrchestrator

variable {F : Type} [PyFloat F] {refuses : AuditRow F → Option Str} {s : AuditFiles} {rows : List (AuditRow F)}
  {events : Str → List (AuditRecord F)} {i : Nat} {e : AuditRecord F} {c : AppendCall F}

open FileAuditStore

namespace Mirrors

omit [PyFloat F] in
theorem update_snoc (runId : Str) :
    (Function.update events e.runId (events e.runId ++ [e])) runId =
      events runId ++ if runId = e.runId then [e] else [] := by
  by_cases hrun : runId = e.runId
  · rw [hrun, Function.update_self, if_pos rfl]
  · rw [Function.update_of_ne hrun, if_neg hrun, List.append_nil]

/-- An event that both stores take is the last one of its run. -/
theorem snoc (h : Mirrors s rows events) (hname : RunName s.root e.runId) (hnext : NextEvent s e) (i : Nat) :
    Mirrors (((FileAuditStore.loaded s i e.runId (storedEvents F s e.runId)).write e.runId (e.line ++ ['\n'])).remember i
      e.runId [e.eventId]) (rows ++ [e.row e.toDict]) (Function.update events e.runId (events e.runId ++ [e])) := by
  have hload := h.after_load i hname
  have hroot := loaded_root s i e.runId (storedEvents F s e.runId)
  have hloadName : RunName (FileAuditStore.loaded s i e.runId (storedEvents F s e.runId)).root e.runId := hroot ▸ hname
  constructor
  · intro runId hrunName
    rw [AuditFiles.text_remember]
    by_cases hrun : runId = e.runId
    · rw [hrun, Function.update_self, List.map_append, List.map_singleton, unlines_append, ← hload.text e.runId hloadName]
      exact AuditFiles.text_write _ rfl _
    · rw [Function.update_of_ne hrun, ← hload.text runId hrunName]
      refine AuditFiles.text_write_ne _ ?_ _
      exact fun hpath => hrun (hrunName.path_inj hloadName hpath)
  · intro runId hsome
    by_cases hrun : runId = e.runId
    · rw [hrun]
      exact hloadName
    · rw [Function.update_of_ne hrun] at hsome
      exact hload.named runId hsome
  · intro runId
    rw [List.filter_append, h.stored runId, update_snoc runId, List.map_append]
    congr 1
    by_cases hrun : runId = e.runId
    · have hrow : (e.row e.toDict).runId = runId := hrun.symm
      rw [if_pos hrun, List.filter_singleton, decide_eq_true hrow]
      rfl
    · have hrow : ¬ (e.row e.toDict).runId = runId := fun heq => hrun heq.symm
      rw [if_neg hrun, List.filter_singleton, decide_eq_false hrow]
      rfl
  · intro runId d hd
    rw [update_snoc runId] at hd
    rcases List.mem_append.mp hd with hd | hd
    · exact h.dumpable runId d hd
    · split at hd
      · rw [List.mem_singleton.mp hd]
        exact hnext.dumpable
      · cases hd
  · intro runId
    by_cases hrun : runId = e.runId
    · have hsequence := hnext.sequence
      rw [h.lastSequence_stored hname, h.latest_eq] at hsequence
      rw [hrun, Function.update_self, List.map_append, h.sequence e.runId, List.length_append, List.length_singleton,
        List.range'_concat, List.map_singleton, hsequence, Nat.one_mul, Nat.add_comm 1]
    · rw [Function.update_of_ne hrun]
      exact h.sequence runId
  · intro j runId eventId hid
    rw [update_snoc runId, List.map_append, List.mem_append]
    unfold AuditFiles.remember at hid
    dsimp only at hid
    split at hid
    next hsame =>
      obtain ⟨rfl, rfl⟩ := hsame
      rcases List.mem_append.mp hid with hid | hid
      · exact .inl (hload.seen j e.runId eventId hid)
      · right
        rw [List.mem_singleton.mp hid, if_pos rfl]
        exact List.mem_singleton_self _
    next => exact .inl (hload.seen j runId eventId hid)

variable (refuses) in
/-- Each store takes a call for reasons of its own. -/
theorem same_iff (h : Mirrors s rows events) (i : Nat) {e : AuditRecord F} (hname : RunName s.root e.runId) :
    ((append i e s).1.isOk = (SqlAuditStore.append refuses e rows).1.isOk ↔
      (NextEvent s e → SharedKnowledge refuses s ⟨i, e⟩)) ∧
    ((append i e s).1.isOk = (SqlAuditStore.append refuses e rows).1.isOk →
      ∃ events', Mirrors (append i e s).2 (SqlAuditStore.append refuses e rows).2 events') := by
  by_cases hfile : NextEvent s e ∧ e.eventId ∉ known s i e.runId (storedEvents F s e.runId)
  · obtain ⟨hnext, hnew⟩ := hfile
    rw [h.file_ok hname hnext hnew]
    by_cases hsql : (∀ runId, RunName s.root runId → e.eventId ∉ storedIds F s runId) ∧ refuses (e.row e.toDict) = none
    · obtain ⟨hfresh, htaken⟩ := hsql
      rw [h.sql_ok hname hnext hfresh htaken]
      refine ⟨⟨fun _ _ => ⟨fun runId hrun hid => absurd hid (hfresh runId hrun), fun _ => htaken⟩, fun _ => rfl⟩, fun _ => ?_⟩
      exact ⟨_, h.snoc hname hnext i⟩
    · obtain ⟨error, herror⟩ := h.sql_error refuses hname fun hall => hsql hall.2
      rw [herror]
      refine ⟨⟨fun hsame => (nomatch hsame), fun hshared => ?_⟩, fun hsame => (nomatch hsame)⟩
      obtain ⟨hknown, htaken⟩ := hshared hnext
      have hfresh : ∀ runId, RunName s.root runId → e.eventId ∉ storedIds F s runId :=
        fun runId hrun hid => hnew (hknown runId hrun hid)
      exact absurd ⟨hfresh, htaken hfresh⟩ hsql
  · obtain ⟨error, s', herror, hkeep⟩ := h.file_error hname hfile
    rw [herror]
    have hsql : ¬ (NextEvent s e ∧ (∀ runId, RunName s.root runId → e.eventId ∉ storedIds F s runId) ∧
        refuses (e.row e.toDict) = none) := by
      rintro ⟨hnext, hfresh, -⟩
      exact hfile ⟨hnext, fun hknown => hfresh e.runId hname (h.known_stored hname hknown)⟩
    obtain ⟨error', herror'⟩ := h.sql_error refuses hname hsql
    rw [herror']
    refine ⟨⟨fun _ hnext => ?_, fun _ => rfl⟩, fun _ => ⟨events, hkeep⟩⟩
    have hknown : e.eventId ∈ known s i e.runId (storedEvents F s e.runId) :=
      not_not.mp fun hnew => hfile ⟨hnext, hnew⟩
    exact ⟨fun _ _ _ => hknown, fun hfresh => absurd (h.known_stored hname hknown) (hfresh e.runId hname)⟩

end Mirrors

variable (F) in
def fileCall (c : AppendCall F) : Exec AuditFiles StoreError Unit := append c.store c.event

def sqlCall (refuses : AuditRow F → Option Str) (c : AppendCall F) : Exec (List (AuditRow F)) StoreError Unit :=
  SqlAuditStore.append refuses c.event

theorem fileCall_root (c : AppendCall F) (s : AuditFiles) : (fileCall F c s).2.root = s.root := by
  have hroot := (prepare_files (i := c.store) (e := c.event) (s := s)).1
  unfold fileCall
  rcases hprepare : prepare c.store c.event s with ⟨error | line, s1⟩
  · rw [append_error hprepare]
    rwa [hprepare] at hroot
  · rw [append_ok hprepare]
    rwa [hprepare] at hroot

/-- An accepted call adds its event's id to the ids of its run. -/
theorem Mirrors.storedIds_fileCall (h : Mirrors s rows events) (hname : RunName s.root e.runId) (hnext : NextEvent s e)
    (hnew : e.eventId ∉ known s i e.runId (storedEvents F s e.runId)) {runId : Str}
    (hrun : RunName (fileCall F ⟨i, e⟩ s).2.root runId) :
    storedIds F (fileCall F ⟨i, e⟩ s).2 runId = storedIds F s runId ++ if runId = e.runId then [e.eventId] else [] := by
  have hbefore : RunName s.root runId := fileCall_root ⟨i, e⟩ s ▸ hrun
  unfold fileCall at hrun ⊢
  rw [h.file_ok hname hnext hnew] at hrun ⊢
  rw [(h.snoc hname hnext i).storedIds_eq hrun, update_snoc, List.map_append, h.storedIds_eq hbefore]
  split <;> rfl

/-- After the calls, and for each of them, the stores cannot be told apart. -/
structure SameResults (root : PosixPath) (refuses : AuditRow F → Option Str) (calls : List (AppendCall F)) : Prop where
  outcomes : (Exec.outcomes (fileCall F) calls (AuditFiles.empty root)).1 = (Exec.outcomes (sqlCall refuses) calls []).1
  events : ∀ runId, RunName root runId → readEvents (Exec.outcomes (fileCall F) calls (AuditFiles.empty root)).2 runId =
    SqlAuditStore.readEvents (Exec.outcomes (sqlCall refuses) calls []).2 runId
  latest : ∀ runId, RunName root runId →
    latestSequence F (Exec.outcomes (fileCall F) calls (AuditFiles.empty root)).2 runId =
      .ok (SqlAuditStore.latest (Exec.outcomes (sqlCall refuses) calls []).2 runId)

/-- The two stores give the same results of a sequence of calls, on runs whose ids are names of directories, exactly when every
call that carries the next event of its run finds, in its own store instance, what is known of the event's id anywhere. -/
theorem sameResults_iff (root : PosixPath) (refuses : AuditRow F → Option Str) (calls : List (AppendCall F))
    (hnames : ∀ c ∈ calls, RunName root c.event.runId) :
    SameResults root refuses calls ↔ Exec.Along (fileCall F)
      (fun s c => NextEvent s c.event → SharedKnowledge refuses s c) calls (AuditFiles.empty root) := by
  have hname : ∀ (s : AuditFiles), s.root = root → ∀ c ∈ calls, RunName s.root c.event.runId :=
    fun s hroot c hc => hroot.symm ▸ hnames c hc
  have hrun := Exec.outcomes_eq_iff (f := fileCall F) (g := sqlCall refuses)
    (R := fun s rows => s.root = root ∧ ∃ events, Mirrors s rows events)
    (P := fun s c => NextEvent s c.event → SharedKnowledge refuses s c) calls
    (fun s rows c hc ⟨hroot, events, hm⟩ => (hm.same_iff refuses c.store (hname s hroot c hc)).1)
    (fun s rows c hc ⟨hroot, events, hm⟩ hsame =>
      ⟨(fileCall_root c s).trans hroot, (hm.same_iff refuses c.store (hname s hroot c hc)).2 hsame⟩)
    ⟨rfl, _, Mirrors.empty root⟩
  constructor
  · exact fun hsame => hrun.1.mp hsame.outcomes
  · intro halong
    have houtcomes := hrun.1.mpr halong
    obtain ⟨hroot, events, hm⟩ := hrun.2 houtcomes
    refine ⟨houtcomes, fun runId hrunName => ?_, fun runId hrunName => ?_⟩
    · rw [hm.readEvents_eq (hroot.symm ▸ hrunName), hm.sqlReadEvents_eq]
    · rw [hm.latestSequence_eq (hroot.symm ▸ hrunName), hm.latest_eq]

section Samples

/-- One event id in two runs. -/
def sampleTwoRuns : List (AppendCall Unit) :=
  [⟨0, sampleRecord "e1" 1⟩, ⟨0, { sampleRecord "e1" 1 with runId := "run-2".toList }⟩]

/-- The first instance does not know of the event that the second one appends. -/
def sampleTwoStores : List (AppendCall Unit) :=
  [⟨0, sampleRecord "e1" 1⟩, ⟨1, sampleRecord "e2" 2⟩, ⟨0, sampleRecord "e2" 3⟩]

/-- Two ids that are the same path. -/
def sampleTwoNames : List (AppendCall Unit) :=
  [⟨0, sampleRecord "e1" 1⟩, ⟨0, { sampleRecord "e2" 1 with runId := "./run-1".toList }⟩]

theorem stores_disagree :
    (Exec.outcomes (@fileCall Unit noFloats) sampleTwoRuns (AuditFiles.empty artifacts)).1 = [true, true] ∧
    (Exec.outcomes (@sqlCall Unit noFloats fun _ => none) sampleTwoRuns []).1 = [true, false] ∧
    (Exec.outcomes (@fileCall Unit noFloats) sampleTwoStores (AuditFiles.empty artifacts)).1 = [true, true, true] ∧
    (Exec.outcomes (@sqlCall Unit noFloats fun _ => none) sampleTwoStores []).1 = [true, true, false] ∧
    (Exec.outcomes (@fileCall Unit noFloats) sampleTwoNames (AuditFiles.empty artifacts)).1 = [true, false] ∧
    (Exec.outcomes (@sqlCall Unit noFloats fun _ => none) sampleTwoNames []).1 = [true, true] ∧
    ¬ @SameResults Unit noFloats artifacts (fun _ => none) sampleTwoRuns ∧
    ¬ @SameResults Unit noFloats artifacts (fun _ => none) sampleTwoStores ∧
    ¬ @SameResults Unit noFloats artifacts (fun _ => none) sampleTwoNames := by
  have hfileRuns : (Exec.outcomes (@fileCall Unit noFloats) sampleTwoRuns (AuditFiles.empty artifacts)).1 =
      [true, true] := by decide +kernel
  have hsqlRuns : (Exec.outcomes (@sqlCall Unit noFloats fun _ => none) sampleTwoRuns []).1 = [true, false] := by
    decide +kernel
  have hfileStores : (Exec.outcomes (@fileCall Unit noFloats) sampleTwoStores (AuditFiles.empty artifacts)).1 =
      [true, true, true] := by decide +kernel
  have hsqlStores : (Exec.outcomes (@sqlCall Unit noFloats fun _ => none) sampleTwoStores []).1 =
      [true, true, false] := by decide +kernel
  have hfileNames : (Exec.outcomes (@fileCall Unit noFloats) sampleTwoNames (AuditFiles.empty artifacts)).1 =
      [true, false] := by decide +kernel
  have hsqlNames : (Exec.outcomes (@sqlCall Unit noFloats fun _ => none) sampleTwoNames []).1 = [true, true] := by
    decide +kernel
  refine ⟨hfileRuns, hsqlRuns, hfileStores, hsqlStores, hfileNames, hsqlNames, fun hsame => ?_, fun hsame => ?_,
    fun hsame => ?_⟩
  · have houtcomes := @SameResults.outcomes Unit noFloats _ _ _ hsame
    rw [hfileRuns, hsqlRuns] at houtcomes
    cases houtcomes
  · have houtcomes := @SameResults.outcomes Unit noFloats _ _ _ hsame
    rw [hfileStores, hsqlStores] at houtcomes
    cases houtcomes
  · have houtcomes := @SameResults.outcomes Unit noFloats _ _ _ hsame
    rw [hfileNames, hsqlNames] at houtcomes
    cases houtcomes

/-- Two runs with an event each, through two instances. -/
def samplePlainRuns : List (AppendCall Unit) :=
  [⟨0, sampleRecord "e1" 1⟩, ⟨1, { sampleRecord "e2" 1 with runId := "run-2".toList }⟩]

theorem samplePlainRuns_named : ∀ c ∈ samplePlainRuns, RunName artifacts c.event.runId := by
  intro c hc
  rcases List.mem_pair.mp hc with rfl | rfl
  · exact ⟨⟨by decide, by decide, by decide, by decide⟩, by decide +kernel, by decide +kernel⟩
  · exact ⟨⟨by decide, by decide, by decide, by decide⟩, by decide +kernel, by decide +kernel⟩

/-- The second event has an id of its own, and both stores take it. -/
theorem samplePlainRuns_same : @SameResults Unit noFloats artifacts (fun _ => none) samplePlainRuns := by
  refine (@sameResults_iff Unit noFloats artifacts (fun _ => none) samplePlainRuns samplePlainRuns_named).mpr ?_
  have hempty := @Mirrors.empty Unit noFloats artifacts
  have hname : RunName artifacts (sampleRecord "e1" 1).runId := samplePlainRuns_named _ List.mem_cons_self
  have hnext := @NextEvent.mk Unit noFloats (AuditFiles.empty artifacts) (sampleRecord "e1" 1) (by decide)
    (by decide +kernel) (by decide +kernel)
  have hnone : ∀ runId, RunName artifacts runId →
      @storedIds Unit noFloats (AuditFiles.empty artifacts) runId = [] :=
    fun runId hrun => @Mirrors.storedIds_eq Unit noFloats _ _ _ hempty _ hrun
  refine ⟨fun _ => @SharedKnowledge.mk Unit noFloats _ _ _ (fun runId hrun hid => ?_) fun _ => rfl,
    fun _ => @SharedKnowledge.mk Unit noFloats _ _ _ (fun runId hrun hid => ?_) fun _ => rfl, trivial⟩
  · rw [hnone runId hrun] at hid
    cases hid
  · have hroot := @fileCall_root Unit noFloats ⟨0, sampleRecord "e1" 1⟩ (AuditFiles.empty artifacts)
    have hbefore : RunName (AuditFiles.empty artifacts).root runId := hroot ▸ hrun
    rw [@Mirrors.storedIds_fileCall Unit noFloats _ _ _ 0 _ hempty hname hnext (by decide +kernel) _ hrun,
      hnone runId hbefore, List.nil_append] at hid
    split at hid
    next => exact absurd hid (by decide)
    next => cases hid

end Samples

end FailureOrchestrator
