import FailureOrchestrator.CiAudit

namespace FailureOrchestrator

/-! ## Counters -/

section

variable {key k : Str} {n : Nat} {counter : List (Str × Nat)}

theorem sum_addCount : ((addCount key n counter).map Prod.snd).sum = (counter.map Prod.snd).sum + n := by
  induction counter with
  | nil => simp [addCount]
  | cons e counter ih =>
    obtain ⟨k, m⟩ := e
    unfold addCount
    split
    next =>
      simp only [List.map_cons, List.sum_cons]
      omega
    next =>
      simp only [List.map_cons, List.sum_cons, ih]
      omega

theorem keys_addCount : (addCount key n counter).map Prod.fst =
    if key ∈ counter.map Prod.fst then counter.map Prod.fst else counter.map Prod.fst ++ [key] := by
  induction counter with
  | nil => rfl
  | cons e counter ih =>
    obtain ⟨k, m⟩ := e
    unfold addCount
    by_cases hk : k = key
    · simp [hk]
    · have hne : key ≠ k := Ne.symm hk
      rw [if_neg hk, List.map_cons, ih]
      split
      next hmem => simp [hmem]
      next hmem => simp [hmem, hne]

theorem mem_keys_addCount (h : k ∈ (addCount key n counter).map Prod.fst) : k = key ∨ k ∈ counter.map Prod.fst := by
  rw [keys_addCount] at h
  split at h
  next => exact .inr h
  next =>
    rcases List.mem_append.mp h with h | h
    · exact .inr h
    · exact .inl (List.mem_singleton.mp h)

theorem nodup_keys_addCount (h : (counter.map Prod.fst).Nodup) : ((addCount key n counter).map Prod.fst).Nodup := by
  rw [keys_addCount]
  split
  next => exact h
  next hmem => exact (List.perm_append_singleton _ _).nodup_iff.mpr (List.nodup_cons.mpr ⟨hmem, h⟩)

theorem sum_ite_of_mem {names : List Str} (hnames : names.Nodup) (hk : k ∈ names) :
    (names.map fun name => if name = k then n else 0).sum = n := by
  induction names with
  | nil => cases hk
  | cons name names ih =>
    obtain ⟨hfresh, hnames⟩ := List.nodup_cons.mp hnames
    rw [List.map_cons, List.sum_cons]
    rcases List.mem_cons.mp hk with rfl | hk
    · have hzero : (names.map fun name => if name = k then n else 0) = names.map fun _ => 0 :=
        List.map_congr_left fun name hname => if_neg fun heq => hfresh (by rwa [← heq])
      rw [if_pos rfl, hzero]
      simp
    · have hne : name ≠ k := fun heq => hfresh (by rwa [heq])
      rw [if_neg hne, ih hnames hk, Nat.zero_add]

/-- Reading a counter at all of its keys, and at others, gives its sum. -/
theorem sum_lookup {names : List Str} (hnames : names.Nodup) (hkeys : (counter.map Prod.fst).Nodup)
    (hsub : ∀ k ∈ counter.map Prod.fst, k ∈ names) :
    (names.map fun name => (counter.lookup name).getD 0).sum = (counter.map Prod.snd).sum := by
  induction counter with
  | nil => simp
  | cons e counter ih =>
    obtain ⟨k, m⟩ := e
    obtain ⟨hk, hrest⟩ := List.nodup_cons.mp hkeys
    obtain ⟨hmem, hsub⟩ := List.forall_mem_cons.mp hsub
    have hnone : counter.lookup k = none := by
      rw [List.lookup_eq_none_iff]
      intro e he
      exact bne_iff_ne.mpr fun heq => hk (List.mem_map.mpr ⟨e, he, heq.symm⟩)
    have hsplit : ∀ name, (((k, m) :: counter).lookup name).getD 0 =
        (if name = k then m else 0) + (counter.lookup name).getD 0 := by
      intro name
      rw [List.lookup_cons]
      by_cases heq : name = k
      · rw [heq, hnone]
        simp
      · rw [beq_false_of_ne heq, if_neg heq, Nat.zero_add]
    simp only [hsplit]
    rw [List.sum_map_add, sum_ite_of_mem hnames hmem, ih hrest hsub, List.map_cons, List.sum_cons]

end

/-! ## The loop over the jobs -/

section

variable [IsoFormat] {completed : List AuditRun} {duplicates : List Int} {jobs done : List AuditJob} {job : AuditJob}
  {t t' : Tally}

/-- The minutes of a job whose times can be compared. -/
def AuditJob.minutes (job : AuditJob) : Nat × Nat :=
  match jobMinutes job with
  | .ok m => m
  | .error _ => (0, 0)

omit [IsoFormat] in
/-- The job of a completed run. -/
def counted (completed : List AuditRun) (job : AuditJob) : Bool := (runOf completed job).isSome

omit [IsoFormat] in
/-- The waste that a job is counted as. -/
def countsAs (completed : List AuditRun) (duplicates : List Int) (kind : WasteKind) (job : AuditJob) : Bool :=
  (runOf completed job).any fun run => decide (wasteKind duplicates run job = some kind)

/-- The counts after the jobs that are done. -/
structure Tallied (completed : List AuditRun) (duplicates : List Int) (done : List AuditJob) (t : Tally) : Prop where
  raw : t.raw = ((done.filter (counted completed)).map fun job => job.minutes.1).sum
  billed : t.billed = ((done.filter (counted completed)).map fun job => job.minutes.2).sum
  osMinutes : (t.osMinutes.map Prod.snd).sum = t.billed
  perWorkflow : (t.perWorkflow.map Prod.snd).sum = t.billed
  workflows : (t.perWorkflow.map Prod.fst).Nodup
  names : ∀ k ∈ t.perWorkflow.map Prod.fst, k ∈ completed.map AuditRun.wf
  waste : ∀ kind, t.waste kind = ((done.filter (countsAs completed duplicates kind)).map fun job => job.minutes.2).sum
  bounded : t.wasteTotal ≤ t.billed
  failed : t.failed =
    ((done.filter fun job => counted completed job && isFailed job.conclusion).map fun job => job.minutes.2).sum

theorem tallied_start : Tallied completed duplicates [] {} := by
  refine ⟨rfl, rfl, rfl, rfl, List.nodup_nil, ?_, fun _ => rfl, le_refl 0, rfl⟩
  intro k hk
  cases hk

omit [IsoFormat] in
theorem runOf_mem {run : AuditRun} (h : runOf completed job = some run) : run ∈ completed ∧ run.id = job.runId :=
  ⟨List.mem_reverse.mp (List.mem_of_find?_eq_some h), by simpa using List.find?_some h⟩

/-- One job adds its minutes along every grouping, and to at most one kind of waste. -/
theorem Tallied.step (h : Tallied completed duplicates done t)
    (hadd : addJob completed duplicates t job = .ok t') : Tallied completed duplicates (done ++ [job]) t' := by
  unfold addJob at hadd
  split at hadd
  next hnone =>
    cases hadd
    have hcounted : counted completed job = false := by simp [counted, hnone]
    have hcounts : ∀ kind, countsAs completed duplicates kind job = false := fun kind => by simp [countsAs, hnone]
    refine ⟨?_, ?_, h.osMinutes, h.perWorkflow, h.workflows, h.names, fun kind => ?_, h.bounded, ?_⟩
    · rw [h.raw, List.filter_append, List.filter_singleton, hcounted]
      simp
    · rw [h.billed, List.filter_append, List.filter_singleton, hcounted]
      simp
    · rw [h.waste kind, List.filter_append, List.filter_singleton, hcounts kind]
      simp
    · rw [h.failed, List.filter_append, List.filter_singleton, hcounted]
      simp
  next run hrun =>
    obtain ⟨⟨raw, billed⟩, hminutes, hadd⟩ := bind_eq_ok hadd
    cases hadd
    have hcounted : counted completed job = true := by simp [counted, hrun]
    have hvalue : job.minutes = (raw, billed) := by simp [AuditJob.minutes, hminutes]
    refine ⟨?_, ?_, ?_, ?_, nodup_keys_addCount h.workflows, ?_, fun kind => ?_, ?_, ?_⟩
    · rw [List.filter_append, List.filter_singleton, hcounted]
      simp [Tally.add, h.raw, hvalue]
    · rw [List.filter_append, List.filter_singleton, hcounted]
      simp [Tally.add, h.billed, hvalue]
    · simp only [Tally.add, sum_addCount, h.osMinutes]
    · simp only [Tally.add, sum_addCount, h.perWorkflow]
    · intro k hk
      rcases mem_keys_addCount hk with rfl | hk
      · exact List.mem_map_of_mem (runOf_mem hrun).1
      · exact h.names k hk
    · rw [List.filter_append, List.filter_singleton, List.map_append, List.sum_append, ← h.waste kind]
      by_cases hkind : wasteKind duplicates run job = some kind
      · simp [Tally.add, countsAs, hrun, hkind, hvalue]
      · simp [Tally.add, countsAs, hrun, hkind]
    · have hbounded := h.bounded
      unfold Tally.wasteTotal at hbounded
      cases hkind : wasteKind duplicates run job with
      | none =>
        simp [Tally.wasteTotal, Tally.add, hkind]
        omega
      | some kind => cases kind <;> simp [Tally.wasteTotal, Tally.add, hkind] <;> omega
    · rw [List.filter_append, List.filter_singleton, List.map_append, List.sum_append, ← h.failed, hcounted]
      by_cases hfailed : isFailed job.conclusion = true
      · simp [Tally.add, hfailed, hvalue]
      · simp [Tally.add, hfailed]

theorem Tallied.loop (h : Tallied completed duplicates done t)
    (hloop : jobs.foldlM (addJob completed duplicates) t = .ok t') :
    Tallied completed duplicates (done ++ jobs) t' := by
  induction jobs generalizing done t with
  | nil =>
    cases hloop
    rwa [List.append_nil]
  | cons job jobs ih =>
    obtain ⟨mid, hadd, hrest⟩ := bind_eq_ok hloop
    have hall := ih (h.step hadd) hrest
    rwa [List.append_assoc] at hall

theorem tally_tallied (h : tally completed duplicates jobs = .ok t) : Tallied completed duplicates jobs t :=
  tallied_start.loop h

theorem addJob_none (h : runOf completed job = none) : addJob completed duplicates t job = .ok t := by
  unfold addJob
  rw [h]

theorem addJob_some {run : AuditRun} (h : runOf completed job = some run) : addJob completed duplicates t job =
    jobMinutes job >>= fun m => pure (t.add duplicates run job m.1 m.2) := by
  unfold addJob
  rw [h]

/-- The loop ends without an exception exactly when the minutes of every job that counts can be computed. -/
theorem tally_ok_iff : (∃ t, tally completed duplicates jobs = .ok t) ↔
    ∀ job ∈ jobs, counted completed job = true → ∃ m, jobMinutes job = .ok m := by
  have hloop : ∀ t, (∃ t', jobs.foldlM (addJob completed duplicates) t = .ok t') ↔
      ∀ job ∈ jobs, counted completed job = true → ∃ m, jobMinutes job = .ok m := by
    induction jobs with
    | nil => exact fun t => ⟨fun _ => nofun, fun _ => ⟨t, rfl⟩⟩
    | cons job jobs ih =>
      intro t
      rw [List.forall_mem_cons, List.foldlM_cons]
      cases hrun : runOf completed job with
      | none =>
        rw [addJob_none hrun, ← ih t]
        have hcounted : counted completed job = false := by simp [counted, hrun]
        exact ⟨fun h => ⟨fun hc => absurd hc (by simp [hcounted]), h⟩, And.right⟩
      | some run =>
        have hcounted : counted completed job = true := by simp [counted, hrun]
        rw [addJob_some hrun]
        cases hminutes : jobMinutes job with
        | error e =>
          constructor
          · rintro ⟨t', h⟩
            cases h
          · rintro ⟨h, -⟩
            obtain ⟨m, hm⟩ := h hcounted
            cases hm
        | ok m =>
          rw [← ih (t.add duplicates run job m.1 m.2)]
          exact ⟨fun h => ⟨fun _ => ⟨m, rfl⟩, h⟩, And.right⟩
  exact hloop {}

end

end FailureOrchestrator
