import FailureOrchestrator.CiAuditMinutes

namespace FailureOrchestrator

section

variable {completed completed' : List AuditRun} {jobs jobs' : List AuditJob}

/-! ## Groups -/

/-- The runs of a workflow and a commit. -/
def groupOf (completed : List AuditRun) (key : Option Int × Option Str) : List AuditRun :=
  completed.filter fun run => run.key = key

theorem mem_groupOf {key : Option Int × Option Str} {run : AuditRun} :
    run ∈ groupOf completed key ↔ run ∈ completed ∧ run.key = key := by simp [groupOf]

theorem mem_groupsOf {group : List AuditRun} :
    group ∈ groupsOf completed ↔ ∃ run ∈ completed, groupOf completed run.key = group := by
  unfold groupsOf
  simp only [List.mem_map, mem_fromKeys]
  constructor
  · rintro ⟨k, ⟨run, hrun, rfl⟩, rfl⟩
    exact ⟨run, hrun, rfl⟩
  · rintro ⟨run, hrun, rfl⟩
    exact ⟨_, ⟨run, hrun, rfl⟩, rfl⟩

theorem mem_byCreation {group : List AuditRun} {run : AuditRun} : run ∈ byCreation group ↔ run ∈ group :=
  List.mem_insertionSort _

/-- The creation times of the runs of each workflow and commit are distinct. -/
def DistinctTimes (completed : List AuditRun) : Prop :=
  ∀ a ∈ completed, ∀ b ∈ completed, a.key = b.key → a.created = b.created → a = b

theorem groupOf_perm (h : completed'.Perm completed) (key : Option Int × Option Str) :
    (groupOf completed' key).Perm (groupOf completed key) := h.filter _

/-- The order of creation does not depend on the order of the runs. -/
theorem byCreation_perm (h : completed'.Perm completed) (htimes : DistinctTimes completed) (key : Option Int × Option Str) :
    byCreation (groupOf completed' key) = byCreation (groupOf completed key) := by
  have hgroup := groupOf_perm h key
  have hsorted : ∀ group : List AuditRun, (byCreation group).Pairwise fun a b => a.created ≤ b.created :=
    fun group => List.pairwise_insertionSort _ group
  refine List.Perm.eq_of_pairwise (fun a b ha hb hab hba => ?_) (hsorted _) (hsorted _)
    ((List.perm_insertionSort _ _).trans (hgroup.trans (List.perm_insertionSort _ _).symm))
  obtain ⟨ha, hakey⟩ := mem_groupOf.mp (mem_byCreation.mp ha)
  obtain ⟨hb, hbkey⟩ := mem_groupOf.mp (mem_byCreation.mp hb)
  exact htimes a (h.mem_iff.mp ha) b hb (hakey.trans hbkey.symm) (List.le_antisymm hab hba)

theorem ranTwice_perm {group group' : List AuditRun} (h : group'.Perm group) : ranTwice group' = ranTwice group := by
  unfold ranTwice
  congr 1
  funext event
  exact h.any_eq

/-! ## Duplicate runs -/

theorem mem_duplicateRunIds {id : Int} : id ∈ duplicateRunIds completed ↔
    ∃ run ∈ completed, ranTwice (groupOf completed run.key) = true ∧
      id ∈ (byCreation (groupOf completed run.key)).tail.map AuditRun.id := by
  unfold duplicateRunIds
  rw [mem_fromKeys, List.mem_flatMap]
  constructor
  · rintro ⟨group, hgroup, hid⟩
    obtain ⟨run, hrun, rfl⟩ := mem_groupsOf.mp hgroup
    split at hid
    next htwice => exact ⟨run, hrun, htwice, hid⟩
    next => cases hid
  · rintro ⟨run, hrun, htwice, hid⟩
    exact ⟨_, mem_groupsOf.mpr ⟨run, hrun, rfl⟩, by rwa [if_pos htwice]⟩

theorem mem_duplicateRunIds_perm (h : completed'.Perm completed) (htimes : DistinctTimes completed) {id : Int} :
    id ∈ duplicateRunIds completed' ↔ id ∈ duplicateRunIds completed := by
  simp only [mem_duplicateRunIds, h.mem_iff, byCreation_perm h htimes]
  refine exists_congr fun run => and_congr_right fun _ => and_congr_left fun _ => ?_
  rw [ranTwice_perm (groupOf_perm h run.key)]

/-- The first run of every workflow and commit is not counted as a duplicate. -/
theorem exists_kept (hids : (completed.map AuditRun.id).Nodup) {run : AuditRun} (hrun : run ∈ completed) :
    ∃ kept ∈ completed, kept.key = run.key ∧ kept.id ∉ duplicateRunIds completed := by
  have hgroup : run ∈ byCreation (groupOf completed run.key) := mem_byCreation.mpr (mem_groupOf.mpr ⟨hrun, rfl⟩)
  cases hsorted : byCreation (groupOf completed run.key) with
  | nil =>
    rw [hsorted] at hgroup
    cases hgroup
  | cons first rest =>
    have hfirst : first ∈ byCreation (groupOf completed run.key) := by
      rw [hsorted]
      exact List.mem_cons_self
    obtain ⟨hmem, hkey⟩ := mem_groupOf.mp (mem_byCreation.mp hfirst)
    refine ⟨first, hmem, hkey, fun hdup => ?_⟩
    obtain ⟨other, -, -, hid⟩ := mem_duplicateRunIds.mp hdup
    obtain ⟨twin, htwin, htid⟩ := List.mem_map.mp hid
    obtain ⟨htmem, htkey⟩ := mem_groupOf.mp (mem_byCreation.mp (List.mem_of_mem_tail htwin))
    obtain rfl : twin = first := List.inj_on_of_nodup_map hids htmem hmem htid
    rw [← htkey, hkey, hsorted, List.tail_cons] at htwin
    have hnodup : (twin :: rest).Nodup := by
      rw [← hsorted]
      exact (List.perm_insertionSort _ _).nodup_iff.mpr (hids.of_map.filter _)
    exact (List.nodup_cons.mp hnodup).1 htwin

/-! ## Flaky groups -/

theorem keys_setDefault {α β : Type} [DecidableEq α] {found : List (α × β)} {key k : α} {value : β} :
    k ∈ (setDefault found key value).map Prod.fst ↔ k ∈ found.map Prod.fst ∨ k = key := by
  unfold setDefault
  split
  next hmem => exact ⟨.inl, fun h => h.elim id fun heq => heq ▸ hmem⟩
  next => simp

theorem nodup_setDefault {α β : Type} [DecidableEq α] {found : List (α × β)} (key : α) (value : β)
    (h : (found.map Prod.fst).Nodup) : ((setDefault found key value).map Prod.fst).Nodup := by
  unfold setDefault
  split
  next => exact h
  next hmem =>
    rw [List.map_append, List.map_singleton]
    exact (List.perm_append_singleton _ _).nodup_iff.mpr (List.nodup_cons.mpr ⟨hmem, h⟩)

theorem foldl_setDefault {α β γ : Type} [DecidableEq α] (key : γ → α) (value : γ → β) (xs : List γ) {found : List (α × β)}
    (h : (found.map Prod.fst).Nodup) :
    ((xs.foldl (fun found x => setDefault found (key x) (value x)) found).map Prod.fst).Nodup ∧
      ∀ k, k ∈ (xs.foldl (fun found x => setDefault found (key x) (value x)) found).map Prod.fst ↔
        k ∈ found.map Prod.fst ∨ ∃ x ∈ xs, key x = k := by
  induction xs generalizing found with
  | nil => exact ⟨h, by simp⟩
  | cons x xs ih =>
    obtain ⟨hnodup, hmem⟩ := ih (nodup_setDefault (key x) (value x) h)
    refine ⟨hnodup, fun k => ?_⟩
    rw [List.foldl_cons, hmem k, keys_setDefault, or_assoc, List.exists_mem_cons_iff, eq_comm (a := k)]

theorem flaky_keys (completed : List AuditRun) (jobs : List AuditJob) :
    ((flaky completed jobs).map Prod.fst).Nodup ∧
    ∀ k, k ∈ (flaky completed jobs).map Prod.fst ↔
      (∃ run ∈ completed, rerunPassed jobs run = true ∧ run.key = k) ∨
      ∃ run ∈ completed, ∃ passed, passedAfterFailure false (byCreation (groupOf completed run.key)) = some passed ∧
        passed.key = k := by
  have hempty : (([] : List ((Option Int × Option Str) × FlakyGroup)).map Prod.fst).Nodup := List.nodup_nil
  obtain ⟨hrerun, hrerunKeys⟩ := foldl_setDefault AuditRun.key
    (fun run => FlakyGroup.mk run.wf run.headSha "rerun_passed" run.htmlUrl) (completed.filter (rerunPassed jobs)) hempty
  obtain ⟨hnodup, hkeys⟩ := foldl_setDefault AuditRun.key
    (fun run => FlakyGroup.mk run.wf run.headSha "fail_then_pass_same_commit" run.htmlUrl)
    ((groupsOf completed).filterMap fun group => passedAfterFailure false (byCreation group)) hrerun
  refine ⟨hnodup, fun k => (hkeys k).trans ?_⟩
  rw [hrerunKeys]
  refine or_congr ?_ ?_
  · simp [and_assoc]
  · simp only [List.mem_filterMap, mem_groupsOf]
    constructor
    · rintro ⟨passed, ⟨group, ⟨run, hrun, rfl⟩, hpassed⟩, hk⟩
      exact ⟨run, hrun, passed, hpassed, hk⟩
    · rintro ⟨run, hrun, passed, hpassed, hk⟩
      exact ⟨passed, ⟨_, ⟨run, hrun, rfl⟩, hpassed⟩, hk⟩

theorem rerunPassed_perm (h : jobs'.Perm jobs) (run : AuditRun) : rerunPassed jobs' run = rerunPassed jobs run := by
  unfold rerunPassed
  rw [h.any_eq]

theorem length_flaky_perm (hruns : completed'.Perm completed) (hjobs : jobs'.Perm jobs) (htimes : DistinctTimes completed) :
    (flaky completed' jobs').length = (flaky completed jobs).length := by
  obtain ⟨hnodup', hkeys'⟩ := flaky_keys completed' jobs'
  obtain ⟨hnodup, hkeys⟩ := flaky_keys completed jobs
  have hperm : ((flaky completed' jobs').map Prod.fst).Perm ((flaky completed jobs).map Prod.fst) := by
    refine (List.perm_ext_iff_of_nodup hnodup' hnodup).mpr fun k => ?_
    rw [hkeys', hkeys]
    simp only [hruns.mem_iff, rerunPassed_perm hjobs, byCreation_perm hruns htimes]
  simpa using hperm.length_eq

/-! ## The loop and the rows -/

theorem runOf_eq_some_iff (hids : (completed.map AuditRun.id).Nodup) {job : AuditJob} {run : AuditRun} :
    runOf completed job = some run ↔ run ∈ completed ∧ run.id = job.runId := by
  constructor
  · exact runOf_mem
  · rintro ⟨hmem, hid⟩
    cases hfound : runOf completed job with
    | none =>
      have hnone := List.find?_eq_none.mp hfound run (List.mem_reverse.mpr hmem)
      exact absurd hid (by simpa using hnone)
    | some other =>
      obtain ⟨hother, hoid⟩ := runOf_mem hfound
      rw [List.inj_on_of_nodup_map hids hother hmem (hoid.trans hid.symm)]

theorem runOf_perm (h : completed'.Perm completed) (hids : (completed.map AuditRun.id).Nodup) (job : AuditJob) :
    runOf completed' job = runOf completed job := by
  have hids' : (completed'.map AuditRun.id).Nodup := (h.map AuditRun.id).nodup_iff.mpr hids
  refine Option.ext fun run => ?_
  rw [runOf_eq_some_iff hids', runOf_eq_some_iff hids, h.mem_iff]

theorem counted_perm (h : completed'.Perm completed) (hids : (completed.map AuditRun.id).Nodup) :
    counted completed' = counted completed := by
  funext job
  unfold counted
  rw [runOf_perm h hids]

theorem countsAs_perm (h : completed'.Perm completed) (hids : (completed.map AuditRun.id).Nodup)
    (htimes : DistinctTimes completed) (kind : WasteKind) :
    countsAs completed' (duplicateRunIds completed') kind = countsAs completed (duplicateRunIds completed) kind := by
  funext job
  unfold countsAs wasteKind
  simp only [runOf_perm h hids, mem_duplicateRunIds_perm h htimes]

theorem sum_filter_perm (h : jobs'.Perm jobs) (p : AuditJob → Bool) (f : AuditJob → Nat) :
    ((jobs'.filter p).map f).sum = ((jobs.filter p).map f).sum := ((h.filter p).map f).sum_eq

section

variable [IsoFormat]

/-- The sums of the loop do not depend on the order of runs and jobs. -/
theorem tally_perm (hruns : completed'.Perm completed) (hjobs : jobs'.Perm jobs) (hids : (completed.map AuditRun.id).Nodup)
    (htimes : DistinctTimes completed) {t : Tally} (h : tally completed (duplicateRunIds completed) jobs = .ok t) :
    ∃ t', tally completed' (duplicateRunIds completed') jobs' = .ok t' ∧ t'.raw = t.raw ∧ t'.billed = t.billed ∧
      t'.waste = t.waste ∧ t'.failed = t.failed := by
  have hok : ∃ t', tally completed' (duplicateRunIds completed') jobs' = .ok t' := by
    rw [tally_ok_iff, counted_perm hruns hids]
    have hall := tally_ok_iff.mp ⟨t, h⟩
    exact fun job hjob => hall job (hjobs.mem_iff.mp hjob)
  obtain ⟨t', ht'⟩ := hok
  have hsums := tally_tallied h
  have hsums' := tally_tallied ht'
  refine ⟨t', ht', ?_, ?_, ?_, ?_⟩
  · rw [hsums'.raw, hsums.raw, counted_perm hruns hids, sum_filter_perm hjobs]
  · rw [hsums'.billed, hsums.billed, counted_perm hruns hids, sum_filter_perm hjobs]
  · funext kind
    rw [hsums'.waste, hsums.waste, countsAs_perm hruns hids htimes, sum_filter_perm hjobs]
  · rw [hsums'.failed, hsums.failed, counted_perm hruns hids, sum_filter_perm hjobs]

/-- The durations and waiting times of the run can be computed. -/
def Timed (run : AuditRun) : Prop :=
  (∃ m, minutesBetween run.runStartedAt run.updatedAt = .ok m) ∧ ∃ m, minutesBetween run.createdAt run.runStartedAt = .ok m

theorem workflowRow_ok_iff {t : Tally} {name : Str} :
    (∃ row, workflowRow completed t name = .ok row) ↔ ∀ run ∈ completed, run.wf = name → Timed run := by
  have hgroup : ∀ f : AuditRun → Except AuditError (Option ℚ),
      (∃ ms, (completed.filter fun run => run.wf = name).mapM f = .ok ms) ↔
        ∀ run ∈ completed, run.wf = name → ∃ m, f run = .ok m := by
    intro f
    rw [mapM_ok_iff]
    simp
  constructor
  · rintro ⟨row, h⟩ run hrun hname
    obtain ⟨durations, hdurations, h⟩ := bind_eq_ok h
    obtain ⟨queues, hqueues, -⟩ := bind_eq_ok h
    exact ⟨(hgroup _).mp ⟨_, hdurations⟩ run hrun hname, (hgroup _).mp ⟨_, hqueues⟩ run hrun hname⟩
  · intro h
    obtain ⟨durations, hdurations⟩ := (hgroup fun run => minutesBetween run.runStartedAt run.updatedAt).mpr
      fun run hrun hname => (h run hrun hname).1
    obtain ⟨queues, hqueues⟩ := (hgroup fun run => minutesBetween run.createdAt run.runStartedAt).mpr
      fun run hrun hname => (h run hrun hname).2
    exact ⟨_, bind_ok hdurations (bind_ok hqueues rfl)⟩

theorem workflowRows_ok_iff {t : Tally} : (∃ rows, workflowRows completed t = .ok rows) ↔ ∀ run ∈ completed, Timed run := by
  have hmap : (∃ rows, workflowRows completed t = .ok rows) ↔
      ∃ rows, (sortStrs (fromKeys (completed.map AuditRun.wf))).mapM (workflowRow completed t) = .ok rows := by
    constructor
    · rintro ⟨rows, h⟩
      obtain ⟨rows', hrows, -⟩ := bind_eq_ok h
      exact ⟨rows', hrows⟩
    · rintro ⟨rows, hrows⟩
      exact ⟨_, bind_ok hrows rfl⟩
  have hmem : ∀ name, name ∈ sortStrs (fromKeys (completed.map AuditRun.wf)) ↔ ∃ run ∈ completed, run.wf = name := by
    intro name
    unfold sortStrs
    rw [List.mem_insertionSort, mem_fromKeys, List.mem_map]
  rw [hmap, mapM_ok_iff]
  simp only [hmem, workflowRow_ok_iff]
  constructor
  · exact fun h run hrun => h run.wf ⟨run, hrun, rfl⟩ run hrun rfl
  · exact fun h name _ run hrun _ => h run hrun

end

end

section

section

variable [IsoFormat]

/-- The billed minutes of some jobs. -/
def billedSum (jobs : List AuditJob) : Nat := (jobs.map fun job => job.minutes.2).sum

end

namespace AuditExport

variable (e : AuditExport)

/-- The jobs of completed runs. -/
def completedJobs : List AuditJob := e.jobs.filter fun job => e.completed.any fun run => run.id = job.runId

/-- The jobs that are counted as a kind of waste. -/
def wasted (kind : WasteKind) : List AuditJob := e.completedJobs.filter (countsAs e.completed e.duplicates kind)

/-- The same export in another order. -/
def reordered (runs : List AuditRun) (jobs : List AuditJob) : AuditExport := { e with runs, jobs }

end AuditExport

variable {completed : List AuditRun} {e : AuditExport} {a : Analysis}

theorem counted_eq : counted completed = fun job => completed.any fun run => decide (run.id = job.runId) := by
  funext job
  unfold counted runOf
  rw [Bool.eq_iff_iff, List.find?_isSome]
  simp

theorem counted_of_countsAs {duplicates : List Int} {kind : WasteKind} {job : AuditJob}
    (h : countsAs completed duplicates kind job = true) : counted completed job = true := by
  unfold countsAs at h
  unfold counted
  cases hrun : runOf completed job with
  | none =>
    rw [hrun] at h
    cases h
  | some run => rfl

theorem wasted_eq (kind : WasteKind) : e.wasted kind = e.jobs.filter (countsAs e.completed e.duplicates kind) := by
  unfold AuditExport.wasted AuditExport.completedJobs
  rw [← counted_eq, List.filter_filter]
  refine List.filter_congr fun job _ => ?_
  rw [Bool.eq_iff_iff, Bool.and_eq_true]
  exact ⟨And.left, fun h => ⟨h, counted_of_countsAs h⟩⟩

/-- No job is counted as two kinds of waste. -/
theorem countsAs_unique {duplicates : List Int} {kind kind' : WasteKind} {job : AuditJob}
    (h : countsAs completed duplicates kind job = true) (h' : countsAs completed duplicates kind' job = true) :
    kind = kind' := by
  unfold countsAs at h h'
  cases hrun : runOf completed job with
  | none =>
    rw [hrun] at h
    cases h
  | some run =>
    rw [hrun, Option.any_some, decide_eq_true_eq] at h h'
    exact Option.some.inj (h.symm.trans h')

/-- The totals of a reordered export. -/
theorem totals_reordered {runs : List AuditRun} {jobs : List AuditJob} {t t' : Tally} (hruns : runs.Perm e.runs)
    (hjobs : jobs.Perm e.jobs) (htimes : DistinctTimes e.completed) (hraw : t'.raw = t.raw)
    (hbilled : t'.billed = t.billed) (monthlyBilled : Int) :
    (e.reordered runs jobs).totals t' monthlyBilled = e.totals t monthlyBilled := by
  have hcompleted : (e.reordered runs jobs).completed.Perm e.completed := hruns.filter _
  have hlength : (e.reordered runs jobs).runs.length = e.runs.length := hruns.length_eq
  have hflaky : (e.reordered runs jobs).flakyGroups.length = e.flakyGroups.length :=
    length_flaky_perm hcompleted hjobs htimes
  have hfailures : (e.reordered runs jobs).failures = e.failures := rfl
  unfold AuditExport.totals AuditExport.failed AuditExport.succeeded AuditExport.reruns
  simp only [hcompleted.countP_eq, hcompleted.length_eq, hlength, hflaky, hfailures, hraw, hbilled]

theorem waste_reordered {runs : List AuditRun} {jobs : List AuditJob} {t t' : Tally} (hruns : runs.Perm e.runs)
    (htimes : DistinctTimes e.completed) (hwaste : t'.waste = t.waste) (hbilled : t'.billed = t.billed)
    (hfailed : t'.failed = t.failed) (monthlyWaste : Int) :
    (e.reordered runs jobs).waste t' monthlyWaste = e.waste t monthlyWaste := by
  have hcompleted : (e.reordered runs jobs).completed.Perm e.completed := hruns.filter _
  have hduplicates : (e.reordered runs jobs).duplicates.Perm e.duplicates :=
    (List.perm_ext_iff_of_nodup (nodup_fromKeys _) (nodup_fromKeys _)).mpr fun _ =>
      mem_duplicateRunIds_perm hcompleted htimes
  unfold AuditExport.waste Tally.wasteTotal
  simp only [hduplicates.length_eq, hwaste, hbilled, hfailed]

section

variable [IsoFormat]

theorem workflowRow_billed {t : Tally} {name : Str} {row : WorkflowRow} (h : workflowRow completed t name = .ok row) :
    row.billedMinutes = (t.perWorkflow.lookup name).getD 0 := by
  obtain ⟨durations, -, h⟩ := bind_eq_ok h
  obtain ⟨queues, -, h⟩ := bind_eq_ok h
  cases h
  rfl

/-- The rows of the workflows hold all the minutes of the loop. -/
theorem workflowRows_sum {duplicates : List Int} {jobs : List AuditJob} {t : Tally} {rows : List WorkflowRow}
    (ht : Tallied completed duplicates jobs t) (h : workflowRows completed t = .ok rows) :
    (rows.map WorkflowRow.billedMinutes).sum = t.billed := by
  obtain ⟨rows', hrows, h⟩ := bind_eq_ok h
  cases h
  have hnames : (sortStrs (fromKeys (completed.map AuditRun.wf))).Nodup :=
    (List.perm_insertionSort _ _).nodup_iff.mpr (nodup_fromKeys _)
  have hbilled : rows'.map WorkflowRow.billedMinutes =
      (sortStrs (fromKeys (completed.map AuditRun.wf))).map fun name => (t.perWorkflow.lookup name).getD 0 := by
    rw [← List.forall₂_eq_eq_eq, List.forall₂_map_left_iff, List.forall₂_map_right_iff]
    exact (mapM_ok_forall₂ hrows).flip.imp fun _ _ hrow => workflowRow_billed hrow
  have hsub : ∀ k ∈ t.perWorkflow.map Prod.fst, k ∈ sortStrs (fromKeys (completed.map AuditRun.wf)) := by
    intro k hk
    unfold sortStrs
    rw [List.mem_insertionSort, mem_fromKeys]
    exact ht.names k hk
  calc ((rows'.insertionSort _).map WorkflowRow.billedMinutes).sum = (rows'.map WorkflowRow.billedMinutes).sum :=
        ((List.perm_insertionSort _ _).map _).sum_eq
    _ = (t.perWorkflow.map Prod.snd).sum := by rw [hbilled, sum_lookup hnames ht.workflows hsub]
    _ = t.billed := ht.perWorkflow

variable [UnicodeData]

/-- What an analysis is made of. -/
theorem analyzeExport_ok (h : analyzeExport e = .ok a) : ∃ t monthlyBilled monthlyWaste, e.schema = some exportSchema ∧
    e.windowDays ≠ 0 ∧ tally e.completed e.duplicates e.jobs = .ok t ∧ workflowRows e.completed t = .ok a.workflows ∧
    monthly t.billed e.windowDays = .ok monthlyBilled ∧ monthly t.wasteTotal e.windowDays = .ok monthlyWaste ∧
    a.totals = e.totals t monthlyBilled ∧ a.waste = e.waste t monthlyWaste ∧ a.osMinutes = t.osMinutes := by
  unfold analyzeExport at h
  split at h
  next => cases h
  next hschema =>
    rw [not_not] at hschema
    split at h
    next => cases h
    next hdays =>
      obtain ⟨t, htally, h⟩ := bind_eq_ok h
      obtain ⟨rows, hrows, h⟩ := bind_eq_ok h
      obtain ⟨monthlyBilled, hbilled, h⟩ := bind_eq_ok h
      obtain ⟨monthlyWaste, hwaste, h⟩ := bind_eq_ok h
      cases h
      exact ⟨t, monthlyBilled, monthlyWaste, hschema, hdays, htally, hrows, hbilled, hwaste, rfl, rfl, rfl⟩

theorem analyzeExport_of {t : Tally} {rows : List WorkflowRow} {monthlyBilled monthlyWaste : Int}
    (hschema : e.schema = some exportSchema) (hdays : e.windowDays ≠ 0)
    (htally : tally e.completed e.duplicates e.jobs = .ok t) (hrows : workflowRows e.completed t = .ok rows)
    (hbilled : monthly t.billed e.windowDays = .ok monthlyBilled)
    (hwaste : monthly t.wasteTotal e.windowDays = .ok monthlyWaste) :
    ∃ a, analyzeExport e = .ok a ∧ a.totals = e.totals t monthlyBilled ∧ a.waste = e.waste t monthlyWaste := by
  unfold analyzeExport
  rw [if_neg (not_not.mpr hschema), if_neg hdays]
  exact ⟨_, bind_ok htally (bind_ok hrows (bind_ok hbilled (bind_ok hwaste rfl))), rfl, rfl⟩

/-- The minutes are the same along every grouping, every wasted minute is counted once, every group keeps a run, and the
order of runs and jobs does not matter. -/
theorem analyzeExport_conserves (h : analyzeExport e = .ok a) (hids : (e.runs.map AuditRun.id).Nodup) :
    (∀ job ∈ e.completedJobs, jobMinutes job = .ok job.minutes) ∧
    (a.osMinutes.map Prod.snd).sum = billedSum e.completedJobs ∧
    (a.workflows.map WorkflowRow.billedMinutes).sum = billedSum e.completedJobs ∧
    a.totals.billedMinutes = billedSum e.completedJobs ∧
    a.waste.duplicateMinutes = billedSum (e.wasted .duplicate) ∧ a.waste.rerunMinutes = billedSum (e.wasted .rerun) ∧
    a.waste.cancelledMinutes = billedSum (e.wasted .cancelled) ∧
    (∀ kind kind', kind ≠ kind' → (e.wasted kind).Disjoint (e.wasted kind')) ∧
    a.waste.totalMinutes ≤ a.totals.billedMinutes ∧
    (∀ run ∈ e.completed, ∃ kept ∈ e.completed, kept.key = run.key ∧ kept.id ∉ e.duplicates) ∧
    (DistinctTimes e.completed → ∀ runs jobs, runs.Perm e.runs → jobs.Perm e.jobs →
      ∃ a', analyzeExport (e.reordered runs jobs) = .ok a' ∧ a'.totals = a.totals ∧ a'.waste = a.waste) := by
  obtain ⟨t, monthlyBilled, monthlyWaste, hschema, hdays, htally, hrows, hbilled, hwaste, htotals, hwasted, hos⟩ :=
    analyzeExport_ok h
  have hsums := tally_tallied htally
  have hcompleted : (e.completed.map AuditRun.id).Nodup := hids.sublist (List.filter_sublist.map _)
  have hjobs : e.jobs.filter (counted e.completed) = e.completedJobs := by
    rw [counted_eq]
    rfl
  have hbilledSum : t.billed = billedSum e.completedJobs := by
    rw [hsums.billed, hjobs]
    rfl
  have hwasteSum : ∀ kind, t.waste kind = billedSum (e.wasted kind) := by
    intro kind
    rw [hsums.waste, wasted_eq]
    rfl
  refine ⟨?_, ?_, ?_, ?_, ?_, ?_, ?_, ?_, ?_, ?_, ?_⟩
  · intro job hjob
    rw [← hjobs] at hjob
    obtain ⟨hmem, hcounted⟩ := List.mem_filter.mp hjob
    obtain ⟨m, hm⟩ := tally_ok_iff.mp ⟨t, htally⟩ job hmem hcounted
    unfold AuditJob.minutes
    rw [hm]
  · rw [hos, hsums.osMinutes, hbilledSum]
  · rw [workflowRows_sum hsums hrows, hbilledSum]
  · rw [htotals, ← hbilledSum]
    rfl
  · rw [hwasted, ← hwasteSum]
    rfl
  · rw [hwasted, ← hwasteSum]
    rfl
  · rw [hwasted, ← hwasteSum]
    rfl
  · intro kind kind' hne job hjob hjob'
    exact hne (countsAs_unique (List.mem_filter.mp hjob).2 (List.mem_filter.mp hjob').2)
  · rw [hwasted, htotals]
    exact hsums.bounded
  · exact fun run hrun => exists_kept hcompleted hrun
  · intro htimes runs jobs hruns hjobsPerm
    have hcompletedPerm : (e.reordered runs jobs).completed.Perm e.completed := hruns.filter _
    obtain ⟨t', htally', hraw', hbilled', hwaste', hfailed'⟩ := tally_perm hcompletedPerm hjobsPerm hcompleted htimes htally
    have htotal' : t'.wasteTotal = t.wasteTotal := by
      unfold Tally.wasteTotal
      rw [hwaste']
    have hrows' : ∃ rows, workflowRows (e.reordered runs jobs).completed t' = .ok rows := by
      rw [workflowRows_ok_iff]
      have hall := workflowRows_ok_iff.mp ⟨_, hrows⟩
      exact fun run hrun => hall run (hcompletedPerm.mem_iff.mp hrun)
    obtain ⟨rows', hrows'⟩ := hrows'
    rw [← hbilled'] at hbilled
    rw [← htotal'] at hwaste
    obtain ⟨a', ha', htotalsA, hwasteA⟩ := analyzeExport_of (e := e.reordered runs jobs) hschema hdays htally' hrows'
      hbilled hwaste
    refine ⟨a', ha', ?_, ?_⟩
    · rw [htotalsA, htotals]
      exact totals_reordered hruns hjobsPerm htimes hraw' hbilled' monthlyBilled
    · rw [hwasteA, hwasted]
      exact waste_reordered hruns htimes hwaste' hbilled' hfailed' monthlyWaste

end

/-- The times from ten to eleven o'clock on one day, in whole minutes. -/
@[reducible] def tenOClock : IsoFormat where
  fromisoformat s :=
    let digit place := (s.getD place '0').toNat - '0'.toNat
    if "2026-09-20T10:".toList.isPrefixOf s then some ⟨true, 60000000 * (10 * digit 14 + digit 15)⟩ else none

/-- A push and a pull request of one commit, and a run of two attempts. -/
def pushedExport : AuditExport where
  schema := some exportSchema
  windowDays := 30
  runs :=
    let ran (id workflowId : Int) (event sha created : String) (attempt : Int) : AuditRun :=
      { id, workflowId, name := some "CI".toList, event := some event.toList, headSha := some sha.toList,
        status := some "completed".toList, conclusion := some "success".toList, runAttempt := some attempt,
        createdAt := some created.toList }
    [ran 101 1 "pull_request" "aaa" "2026-09-20T10:00:00Z" 2, ran 102 1 "push" "bbb" "2026-09-20T10:20:00Z" 1,
      ran 103 1 "pull_request" "bbb" "2026-09-20T10:21:00Z" 1]
  jobs :=
    let job (runId attempt : Int) (conclusion started completed os : String) : AuditJob :=
      ⟨runId, some attempt, some conclusion.toList, some started.toList, some completed.toList, os.toList⟩
    [job 101 1 "failure" "2026-09-20T10:00:00Z" "2026-09-20T10:05:00Z" "linux",
      job 101 2 "success" "2026-09-20T10:10:00Z" "2026-09-20T10:15:00Z" "linux",
      job 102 1 "success" "2026-09-20T10:20:00Z" "2026-09-20T10:30:00Z" "windows",
      job 103 1 "success" "2026-09-20T10:21:00Z" "2026-09-20T10:25:00Z" "linux"]
  failures := 1

theorem pushedExport_conserves : ∃ a a', @analyzeExport tenOClock asciiData pushedExport = .ok a ∧
    @analyzeExport tenOClock asciiData
      (pushedExport.reordered pushedExport.runs.reverse pushedExport.jobs.reverse) = .ok a' ∧
    a.totals.billedMinutes = 34 ∧ (a.osMinutes.map Prod.snd).sum = 34 ∧
    (a.workflows.map WorkflowRow.billedMinutes).sum = 34 ∧ a.waste.duplicateMinutes = 4 ∧ a.waste.rerunMinutes = 5 ∧
    a'.totals = a.totals ∧ a'.waste = a.waste := by
  let _ := tenOClock
  let _ := asciiData
  have hok : ∃ a, analyzeExport pushedExport = .ok a := by
    cases h : analyzeExport pushedExport with
    | ok a => exact ⟨a, rfl⟩
    | error err =>
      have hisOk : (@analyzeExport tenOClock asciiData pushedExport).isOk = true := by decide +kernel
      rw [h] at hisOk
      cases hisOk
  obtain ⟨a, ha⟩ := hok
  obtain ⟨-, hos, hrows, hbilled, hduplicate, hrerun, -, -, -, -, horder⟩ :=
    analyzeExport_conserves ha (by decide +kernel)
  have hcreated : (pushedExport.completed.map AuditRun.created).Nodup := by decide +kernel
  have htimes : DistinctTimes pushedExport.completed := fun _ hrun _ hother _ heq =>
    List.inj_on_of_nodup_map hcreated hrun hother heq
  obtain ⟨a', ha', htotals, hwaste⟩ := horder htimes _ _ (List.reverse_perm _) (List.reverse_perm _)
  have hsum : billedSum pushedExport.completedJobs = 34 := by decide +kernel
  have hduplicateSum : billedSum (pushedExport.wasted .duplicate) = 4 := by decide +kernel
  have hrerunSum : billedSum (pushedExport.wasted .rerun) = 5 := by decide +kernel
  rw [hsum] at hos hrows hbilled
  rw [hduplicateSum] at hduplicate
  rw [hrerunSum] at hrerun
  exact ⟨a, a', ha, ha', hbilled, hos, hrows, hduplicate, hrerun, htotals, hwaste⟩

end

end FailureOrchestrator
