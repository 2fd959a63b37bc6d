import FailureOrchestrator.CiVerification
import FailureOrchestrator.SectionPath
import FailureOrchestrator.StateStores
import FailureOrchestrator.VerificationGates

namespace FailureOrchestrator

/-- Normalized state of one real CI run. -/
inductive CIRunState where
  | pending
  | success
  | failure
  | skipped
  deriving DecidableEq, Repr

structure CIRunStatus where
  runId : Str
  state : CIRunState
  conclusion : Str := []
  name : Str := []
  url : Str := []
  deriving DecidableEq, Repr

/-- A workflow run as the API returns it; a field that is `null` is `none`. -/
structure WorkflowRun where
  id : Nat
  headSha : Str
  status : Option Str := none
  conclusion : Option Str := none
  name : Option Str := none
  htmlUrl : Option Str := none
  positive : 0 < id
  deriving DecidableEq

structure WorkflowJob where
  name : Str
  conclusion : Option Str

/-- What a request to the provider can raise, with its message. -/
inductive ProviderError where
  | gitHubApi (message : Str)
  | valueError (message : Str)
  | keyError (message : Str)

def ProviderError.message : ProviderError → Str
  | .gitHubApi message | .valueError message | .keyError message => message

/-- The requests of `GitHubActionsClient`. -/
structure GitHubClient where
  listRunsForCommit : Str → Except ProviderError (List WorkflowRun)
  getRun : Int → Except ProviderError WorkflowRun
  listLatestJobs : Int → Except ProviderError (List WorkflowJob)
  rerunWorkflowRun : Int → Except ProviderError Unit

def githubFailed : List String :=
  ["failure", "timed_out", "cancelled", "action_required", "startup_failure", "stale"]

def WorkflowRun.state (run : WorkflowRun) : CIRunState :=
  if run.status.getD [] ≠ "completed".toList then .pending
  else if run.conclusion.getD [] = "success".toList then .success
  else if inSet (run.conclusion.getD []) githubFailed then .failure
  else .skipped

/-- The status of a run that was asked for by `runId`. -/
def WorkflowRun.statusAs (run : WorkflowRun) (runId : Str) : CIRunStatus where
  runId
  state := run.state
  conclusion := run.conclusion.getD []
  name := run.name.getD []
  url := run.htmlUrl.getD []

/-- True when every finished run succeeded; `none` while anything is pending or nothing proves success. -/
def realCiPassed (statuses : List CIRunStatus) : Option Bool :=
  if statuses.isEmpty || statuses.any (·.state = .pending) then none
  else if statuses.any (·.state = .failure) then some false
  else if statuses.any (·.state = .success) then some true
  else none

/-- The text of a number without its sign. -/
def unsigned : Str → Str
  | '-' :: rest => rest
  | '+' :: rest => rest
  | s => s

section Provider

variable [UnicodeData]

/-- `int(s)` of any text: white space around it, a sign, and single underscores between digits are read. -/
def pyIntText (s : Str) : Except ProviderError Int :=
  let groups := splitChar '_' (unsigned (strip s))
  if groups.all fun g => !g.isEmpty && g.all isDecimal then
    match pyInt groups.flatten with
    | .ok n => .ok (if (strip s).head? = some '-' then -n else n)
    | .error _ => .error (.valueError "Exceeds the limit (4300 digits) for integer string conversion".toList)
  else .error (.valueError ("invalid literal for int() with base 10: ".toList ++ pyRepr s))

namespace GitHubActionsCIProvider

/-- The ids of workflow runs whose head SHA matches the commit. -/
def findRuns (client : GitHubClient) (commitSha : Str) : Except ProviderError (List Str) := do
  let runs ← client.listRunsForCommit commitSha
  return (runs.filter fun run => run.id ≠ 0 ∧ run.headSha = commitSha).map fun run => natStr run.id

def rerun (client : GitHubClient) (runId : Str) : Except ProviderError Unit := do
  client.rerunWorkflowRun (← pyIntText runId)

def getStatus (client : GitHubClient) (runId : Str) : Except ProviderError CIRunStatus := do
  let run ← client.getRun (← pyIntText runId)
  return run.statusAs runId

/-- The names of the latest jobs that concluded as failed. -/
def getFailedJobs (client : GitHubClient) (runId : Str) : Except ProviderError (List Str) := do
  let jobs ← client.listLatestJobs (← pyIntText runId)
  return (jobs.filter fun job => inSet (job.conclusion.getD []) githubFailed).map (·.name)

end GitHubActionsCIProvider

end Provider

/-- The workflow runs that the provider holds at one moment. -/
structure ProviderState where
  runs : List WorkflowRun
  distinct : (runs.map (·.id)).Nodup

/-- The runs of a commit on the one page that `list_runs_for_commit` asks for. -/
def ProviderState.page (s : ProviderState) (commit : Str) : List WorkflowRun :=
  (s.runs.filter fun run => run.headSha = commit).take 100

/-- The requests of one poll, answered with the provider's state at that time or not at all; `late` says that the
deadline has passed when the poll is over. -/
structure Poll where
  state : ProviderState
  client : GitHubClient
  late : Bool
  page : ∀ commit runs, client.listRunsForCommit commit = .ok runs → runs = state.page commit
  run : ∀ n run, client.getRun n = .ok run → run ∈ state.runs ∧ (run.id : Int) = n

section Verify

variable [UnicodeData]

/-- The given runs, or else the commit's runs. -/
def Poll.current (p : Poll) (ids : List Str) (commit : Str) : Except ProviderError (List Str) :=
  if ids.isEmpty then GitHubActionsCIProvider.findRuns p.client commit else .ok ids

def Poll.statuses (p : Poll) (ids : List Str) (commit : Str) : Except ProviderError (List CIRunStatus) := do
  let current ← p.current ids commit
  current.mapM (GitHubActionsCIProvider.getStatus p.client)

/-- The polling loop: the last poll with its statuses; `none` when it goes on after these polls. -/
def pollRuns (ids : List Str) (commit : Str) : List Poll → Except ProviderError (Option (Poll × List CIRunStatus))
  | [] => .ok none
  | p :: polls => do
    let statuses ← p.statuses ids commit
    if (realCiPassed statuses).isSome || p.late then return some (p, statuses)
    else pollRuns ids commit polls

/-- The files of a run that `verify_real_ci` reads; `none` is a missing file. -/
structure FixFiles where
  verification : Option Str
  remediation : Option Str
  applied : Option Str
  state : Except StateError StateRecord

structure CiArguments where
  ciRunIds : List Str := []
  rerun : Bool := false

/-- What `verify_real_ci` records through `record_verification`. -/
structure RealCiRecord where
  commit : Str
  passed : Bool
  runs : List CIRunStatus
  failedJobs : List (Str × List Str)
  decision : RemediationDecision
  repairAttempt : Int
  failureReceivedAt : Str

inductive CiOutcome where
  | error (message : Str)
  | polling
  | pending (commit : Str) (runs : List CIRunStatus)
  | recorded (record : RealCiRecord)

/-- What `verify_real_ci` does not catch. -/
inductive CiError where
  | fileNotFound
  | record (e : RecordError)
  | state (e : StateError)

section

variable (F : Type) [PyFloat F]

omit [UnicodeData] in
/-- `json.loads(text)`. -/
def loadJson (text : Str) : Except RecordError (JsonValue F) :=
  (JsonValue.loads text).elim (.error .malformed) .ok

omit [UnicodeData] [PyFloat F] in
/-- A value that is used as a dict. -/
def asDict : JsonValue F → Except RecordError (List (Str × JsonValue F))
  | .obj d => .ok d
  | _ => .error .uncaught

/-- The commit that `apply.json` names, empty when there is no such file. -/
def FixFiles.commit (files : FixFiles) : Except RecordError Str :=
  match files.applied with
  | none => .ok []
  | some text => do textField (← asDict F (← loadJson F text)) "commit" []

omit [PyFloat F] in
/-- The reruns that the arguments ask for. -/
def requestReruns (reruns : GitHubClient) (args : CiArguments) : Except ProviderError Unit :=
  if args.rerun then args.ciRunIds.forM (GitHubActionsCIProvider.rerun reruns) else .ok ()

/-- The requests to the provider: reruns of the given runs, the polls, and the failed jobs of the last one. -/
def askProvider (reruns : GitHubClient) (args : CiArguments) (commit : Str) (polls : List Poll) :
    Except ProviderError (Option (List CIRunStatus × List (Str × List Str))) := do
  requestReruns reruns args
  match ← pollRuns args.ciRunIds commit polls with
  | none => return none
  | some (p, statuses) => do
    let failedJobs ← (statuses.filter (·.state = .failure)).mapM fun s => do
      return (s.runId, ← GitHubActionsCIProvider.getFailedJobs p.client s.runId)
    return some (statuses, failedJobs)

/-- `verify_real_ci`, with the provider's answers to each poll. -/
def verifyRealCiOf (files : FixFiles) (reruns : GitHubClient) (args : CiArguments) (polls : List Poll) :
    Except CiError CiOutcome :=
  match files.verification with
  | none => .ok (.error "no local repair verification record for this run".toList)
  | some text => do
    let _ ← (loadJson F text).mapError .record
    let summary ← files.remediation.elim (.error .fileNotFound) fun text => (loadJson F text).mapError .record
    let commit ← (files.commit F).mapError .record
    if args.ciRunIds.isEmpty && commit.isEmpty then
      return .error "the candidate has not been applied; run fix-repo-apply --push (or pass --ci-run-id)".toList
    match askProvider reruns args commit polls with
    | .error e => return .error ("CI provider error: ".toList ++ e.message)
    | .ok none => return .polling
    | .ok (some (statuses, failedJobs)) =>
      match realCiPassed statuses with
      | none => return .pending commit statuses
      | some passed =>
        let state ← files.state.mapError .state
        let decision ← (verifyRealCi F text passed (state.stopReason = some "human_approve".toList)).mapError .record
        let summary ← (asDict F summary).mapError .record
        let repairAttempt ← (stateInt summary "repair_attempt").mapError .state
        let failureReceivedAt ← (fieldOr summary "failure_received_at" []).mapError .record
        return .recorded { commit, passed, runs := statuses, failedJobs, decision, repairAttempt, failureReceivedAt }

end

variable {ids : List Str} {commit : Str} {p : Poll} {statuses : List CIRunStatus}

omit [UnicodeData] in
/-- Real CI passed exactly when nothing is pending or failed and something succeeded. -/
theorem realCiPassed_true_iff : realCiPassed statuses = some true ↔
    (∀ s ∈ statuses, s.state ≠ .pending ∧ s.state ≠ .failure) ∧ ∃ s ∈ statuses, s.state = .success := by
  unfold realCiPassed
  constructor
  · intro h
    split at h
    · cases h
    next hopen =>
      split at h
      · cases h
      next hfailed =>
        split at h
        next hsucceeded =>
          simp only [Bool.or_eq_true, List.any_eq_true, decide_eq_true_eq, not_or, not_exists, not_and] at hopen hfailed
          simp only [List.any_eq_true, decide_eq_true_eq] at hsucceeded
          exact ⟨fun s hs => ⟨hopen.2 s hs, hfailed s hs⟩, hsucceeded⟩
        · cases h
  · rintro ⟨hsettled, s, hs, hsuccess⟩
    have hopen : (statuses.isEmpty || statuses.any (·.state = .pending)) = false := by
      simp only [Bool.or_eq_false_iff, List.isEmpty_eq_false_iff, List.any_eq_false, decide_eq_true_eq]
      exact ⟨List.ne_nil_of_mem hs, fun s hs => (hsettled s hs).1⟩
    have hfailed : statuses.any (·.state = .failure) = false := by
      simp only [List.any_eq_false, decide_eq_true_eq]
      exact fun s hs => (hsettled s hs).2
    have hsucceeded : statuses.any (·.state = .success) = true := by
      simp only [List.any_eq_true, decide_eq_true_eq]
      exact ⟨s, hs, hsuccess⟩
    rw [hopen, hfailed, hsucceeded]
    rfl

/-- A poll after which the loop goes on. -/
def Poll.GoesOn (q : Poll) (ids : List Str) (commit : Str) : Prop :=
  q.late = false ∧ ∃ earlier, q.statuses ids commit = .ok earlier ∧ realCiPassed earlier = none

/-- The loop ends at a poll whose predecessors all went on. -/
theorem pollRuns_last {polls : List Poll} (h : pollRuns ids commit polls = .ok (some (p, statuses))) :
    ∃ before after, polls = before ++ p :: after ∧ p.statuses ids commit = .ok statuses ∧
      ∀ q ∈ before, q.GoesOn ids commit := by
  induction polls with
  | nil => cases h
  | cons q polls ih =>
    obtain ⟨earlier, hearlier, h⟩ := bind_eq_ok h
    split at h
    · cases h
      exact ⟨[], polls, rfl, hearlier, nofun⟩
    next hon =>
      obtain ⟨before, after, rfl, hp, hbefore⟩ := ih h
      refine ⟨q :: before, after, rfl, hp, ?_⟩
      intro r hr
      rcases List.mem_cons.mp hr with rfl | hr
      · simp only [Bool.or_eq_true, not_or, Bool.not_eq_true, Option.isSome_eq_false_iff, Option.isNone_iff_eq_none] at hon
        exact ⟨hon.2, earlier, hearlier, hon.1⟩
      · exact hbefore r hr

/-- The loop does not go on after the deadline. -/
theorem pollRuns_ends {polls : List Poll} (h : ∃ q ∈ polls, q.late = true) : pollRuns ids commit polls ≠ .ok none := by
  induction polls with
  | nil =>
    obtain ⟨q, hq, -⟩ := h
    cases hq
  | cons q polls ih =>
    intro hnone
    obtain ⟨earlier, -, hnone⟩ := bind_eq_ok hnone
    split at hnone
    · cases hnone
    next hon =>
      refine ih ?_ hnone
      obtain ⟨r, hr, hlate⟩ := h
      rcases List.mem_cons.mp hr with rfl | hr
      · exact absurd hlate (by simp only [Bool.or_eq_true, not_or] at hon; exact hon.2)
      · exact ⟨r, hr, hlate⟩

theorem pyIntText_natStr {k : Nat} {n : Int} (h : pyIntText (natStr k) = .ok n) : n = k := by
  obtain ⟨c, t, hct⟩ := List.exists_cons_of_ne_nil (natStr_ne_nil k)
  have hdigit : ∀ d ∈ natStr k, d.isDigit = true := fun d hd => natStr_isDigit hd
  have hc : c.isDigit = true := hdigit c (by rw [hct]; exact List.mem_cons_self)
  have hstrip : strip (natStr k) = natStr k := by
    obtain ⟨u, d, hends⟩ := List.eq_nil_or_concat (natStr k) |>.resolve_left (natStr_ne_nil k)
    have hd : d.isDigit = true := hdigit d (by rw [hends]; simp)
    rw [List.concat_eq_append, hct] at hends
    rw [hct]
    exact strip_solid (isSpace_of_isDigit hc) (isSpace_of_isDigit hd) hends
  have hsplit : splitChar '_' (natStr k) = [natStr k] := by
    refine List.splitOn_eq_singleton ?_
    intro hmem
    cases hdigit '_' hmem
  have hminus : c ≠ '-' := by
    rintro rfl
    cases hc
  have hplus : c ≠ '+' := by
    rintro rfl
    cases hc
  have hunsigned : unsigned (natStr k) = natStr k := by
    rw [hct]
    unfold unsigned
    split
    · next heq => exact absurd (List.cons.inj heq).1 hminus
    · next heq => exact absurd (List.cons.inj heq).1 hplus
    · rfl
  have hgroups : ([natStr k].all fun g => !g.isEmpty && g.all isDecimal) = true := by
    simp only [List.all_cons, List.all_nil, Bool.and_true, Bool.and_eq_true, Bool.not_eq_true', List.isEmpty_eq_false_iff,
      List.all_eq_true]
    exact ⟨natStr_ne_nil k, fun d hd => natStr_isDecimal hd⟩
  unfold pyIntText at h
  dsimp only at h
  rw [hstrip, hunsigned, hsplit, if_pos hgroups, List.flatten_singleton] at h
  by_cases hconv : Convertible k
  · rw [pyInt_natStr hconv, hct] at h
    have hsign : ¬ (c :: t).head? = some '-' := fun hh => hminus (Option.some.inj hh)
    dsimp only at h
    rw [if_neg hsign] at h
    exact (Except.ok.inj h).symm
  · obtain ⟨e, he⟩ := pyInt_natStr_error hconv
    rw [he] at h
    cases h

theorem getStatus_ok {client : GitHubClient} {runId : Str} {s : CIRunStatus}
    (h : GitHubActionsCIProvider.getStatus client runId = .ok s) :
    ∃ n run, pyIntText runId = .ok n ∧ client.getRun n = .ok run ∧ s = run.statusAs runId := by
  obtain ⟨n, hn, h⟩ := bind_eq_ok h
  obtain ⟨run, hrun, h⟩ := bind_eq_ok h
  cases h
  exact ⟨n, run, hn, hrun, rfl⟩

omit [UnicodeData] in
theorem ProviderState.run_unique {state : ProviderState} {run run' : WorkflowRun} (hrun : run ∈ state.runs)
    (hrun' : run' ∈ state.runs) (hid : run.id = run'.id) : run = run' :=
  List.inj_on_of_nodup_map state.distinct hrun hrun' hid

omit [UnicodeData] in
/-- The ids that a poll finds are those of the commit's runs on the page. -/
theorem Poll.findRuns_ok {found : List Str} (h : p.current [] commit = .ok found) :
    found = (p.state.page commit).map fun run => natStr run.id := by
  have h : GitHubActionsCIProvider.findRuns p.client commit = .ok found := h
  obtain ⟨runs, hruns, h⟩ := bind_eq_ok h
  cases h
  rw [p.page commit runs hruns]
  congr 1
  refine List.filter_eq_self.mpr fun run hrun => ?_
  have hmem := List.mem_filter.mp (List.mem_of_mem_take hrun)
  simpa [run.positive.ne'] using hmem.2

/-- The statuses of a poll are those of runs that the provider holds. -/
theorem Poll.statuses_used (h : p.statuses ids commit = .ok statuses) {s : CIRunStatus} (hs : s ∈ statuses) :
    ∃ run ∈ p.state.runs, s = run.statusAs s.runId ∧ pyIntText s.runId = .ok run.id ∧
      (ids = [] → run.headSha = commit) := by
  obtain ⟨current, hcurrent, h⟩ := bind_eq_ok h
  obtain ⟨runId, hrunId, hstatus⟩ := (mapM_mem h).2 s hs
  obtain ⟨n, run, hn, hrun, rfl⟩ := getStatus_ok hstatus
  obtain ⟨hmem, hid⟩ := p.run n run hrun
  refine ⟨run, hmem, rfl, hid ▸ hn, ?_⟩
  rintro rfl
  rw [Poll.findRuns_ok hcurrent] at hrunId
  obtain ⟨listed, hlisted, rfl⟩ := List.mem_map.mp hrunId
  have hpage := List.mem_filter.mp (List.mem_of_mem_take hlisted)
  have hsame : run.id = listed.id := by
    have := pyIntText_natStr hn
    omega
  rw [p.state.run_unique hmem hpage.1 hsame]
  simpa using hpage.2

theorem getStatus_runIds {client : GitHubClient} (h : ids.mapM (GitHubActionsCIProvider.getStatus client) = .ok statuses) :
    statuses.map (·.runId) = ids := by
  induction ids generalizing statuses with
  | nil =>
    cases h
    rfl
  | cons runId rest ih =>
    rw [List.mapM_cons] at h
    obtain ⟨s, hs, h⟩ := bind_eq_ok h
    obtain ⟨others, hothers, h⟩ := bind_eq_ok h
    cases h
    obtain ⟨n, run, -, -, rfl⟩ := getStatus_ok hs
    rw [List.map_cons, ih hothers]
    rfl

/-- The statuses of given runs stand in the order of the runs. -/
theorem Poll.statuses_given (h : p.statuses ids commit = .ok statuses) (hne : ids ≠ []) : statuses.map (·.runId) = ids := by
  obtain ⟨current, hcurrent, h⟩ := bind_eq_ok h
  unfold Poll.current at hcurrent
  rw [if_neg (by simpa using hne)] at hcurrent
  cases hcurrent
  exact getStatus_runIds h

/-- Without given runs every run of the commit's page has its status among those of the poll. -/
theorem Poll.page_used (h : p.statuses [] commit = .ok statuses) {run : WorkflowRun} (hrun : run ∈ p.state.page commit) :
    ∃ s ∈ statuses, s = run.statusAs s.runId := by
  obtain ⟨current, hcurrent, h⟩ := bind_eq_ok h
  obtain ⟨s, hs, hstatus⟩ := (mapM_mem h).1 (natStr run.id)
    (by rw [Poll.findRuns_ok hcurrent]; exact List.mem_map_of_mem hrun)
  obtain ⟨n, found, hn, hgot, rfl⟩ := getStatus_ok hstatus
  obtain ⟨hmem, hid⟩ := p.run n found hgot
  have hsame : found.id = run.id := by
    have := pyIntText_natStr hn
    omega
  rw [p.state.run_unique hmem (List.mem_filter.mp (List.mem_of_mem_take hrun)).1 hsame] at hs
  exact ⟨_, hs, rfl⟩

/-- What real CI showed at the poll that a record rests on: runs that the provider holds, none of them open or failed;
the given runs in their order, and without given runs those of the commit. -/
structure Confirmed (args : CiArguments) (commit : Str) (p : Poll) (runs : List CIRunStatus) : Prop where
  used : ∀ s ∈ runs, ∃ run ∈ p.state.runs, s = run.statusAs s.runId ∧ pyIntText s.runId = .ok run.id ∧
    (args.ciRunIds = [] → run.headSha = commit)
  given_runs : args.ciRunIds ≠ [] → runs.map (·.runId) = args.ciRunIds
  settled : ∀ s ∈ runs, s.state ≠ .pending ∧ s.state ≠ .failure
  succeeded : ∃ s ∈ runs, s.state = .success
  page : args.ciRunIds = [] → ∀ run ∈ p.state.page commit, run.state ≠ .pending ∧ run.state ≠ .failure

theorem confirmed_of_passed {args : CiArguments} (h : p.statuses args.ciRunIds commit = .ok statuses)
    (hpassed : realCiPassed statuses = some true) : Confirmed args commit p statuses := by
  obtain ⟨hsettled, hsucceeded⟩ := realCiPassed_true_iff.mp hpassed
  refine ⟨fun s hs => p.statuses_used h hs, fun hgiven => p.statuses_given h hgiven, hsettled, hsucceeded, ?_⟩
  intro hnone run hrun
  rw [hnone] at h
  obtain ⟨s, hs, heq⟩ := p.page_used h hrun
  have hstate : s.state = run.state := by
    rw [heq]
    rfl
  exact hstate ▸ hsettled s hs

theorem askProvider_polled {reruns : GitHubClient} {args : CiArguments} {polls : List Poll} {failedJobs : List (Str × List Str)}
    (h : askProvider reruns args commit polls = .ok (some (statuses, failedJobs))) :
    ∃ p, pollRuns args.ciRunIds commit polls = .ok (some (p, statuses)) := by
  obtain ⟨-, -, h⟩ := bind_eq_ok h
  obtain ⟨last, hlast, h⟩ := bind_eq_ok h
  cases last with
  | none => cases h
  | some last =>
    obtain ⟨jobs, -, h⟩ := bind_eq_ok h
    cases h
    exact ⟨last.1, hlast⟩

/-- A decision on a record counts real CI as it came out. -/
theorem verifyRealCi_passed {F : Type} [PyFloat F] {text : Str} {passed human : Bool} {d : RemediationDecision}
    (h : verifyRealCi F text passed human = .ok d) (hverified : d.state = .verifiedFixed) : passed = true := by
  obtain ⟨previous, -, h⟩ := bind_eq_ok h
  rw [fromDict_withRealCi] at h
  cases h
  have hfix := ((state_verifiedFixed_iff _).mp hverified).1
  have hreal := (isVerifiedFix_iff.mp hfix).2.2.2.2.2.2.2.2.2.2.2.2.2
  exact Option.some.inj hreal

/-- Without given runs a repair is verified only on the real CI of its own commit, and with them on those runs. -/
theorem verifyRealCiOf_verified {F : Type} [PyFloat F] {files : FixFiles} {reruns : GitHubClient} {args : CiArguments}
    {polls : List Poll} {r : RealCiRecord} (h : verifyRealCiOf F files reruns args polls = .ok (.recorded r))
    (hverified : r.decision.state = .verifiedFixed) :
    ∃ before p after, polls = before ++ p :: after ∧ (∀ q ∈ before, q.GoesOn args.ciRunIds r.commit) ∧
      Confirmed args r.commit p r.runs ∧ files.commit F = .ok r.commit ∧ (args.ciRunIds = [] → r.commit ≠ []) := by
  unfold verifyRealCiOf at h
  split at h
  · cases h
  next text _ =>
    obtain ⟨-, -, h⟩ := bind_eq_ok h
    obtain ⟨summary, -, h⟩ := bind_eq_ok h
    obtain ⟨commit, hcommit, h⟩ := bind_eq_ok h
    split at h
    · cases h
    next hnamed =>
      split at h
      · cases h
      · cases h
      next statuses failedJobs hask =>
        split at h
        · cases h
        next passed hpassed =>
          obtain ⟨state, -, h⟩ := bind_eq_ok h
          obtain ⟨decision, hdecision, h⟩ := bind_eq_ok h
          obtain ⟨dict, -, h⟩ := bind_eq_ok h
          obtain ⟨attempt, -, h⟩ := bind_eq_ok h
          obtain ⟨receivedAt, -, h⟩ := bind_eq_ok h
          cases h
          obtain ⟨p, hpolled⟩ := askProvider_polled hask
          obtain ⟨before, after, hpolls, hstatuses, hbefore⟩ := pollRuns_last hpolled
          refine ⟨before, p, after, hpolls, hbefore, ?_, ?_, ?_⟩
          · have hdecision := mapError_eq_ok.mp hdecision
            obtain rfl : passed = true := verifyRealCi_passed hdecision hverified
            exact confirmed_of_passed hstatuses hpassed
          · exact mapError_eq_ok.mp hcommit
          · rintro hnone rfl
            exact hnamed (by rw [hnone]; rfl)

end Verify

/-- A client that answers every request with what the provider holds. -/
def answers (state : ProviderState) : GitHubClient where
  listRunsForCommit := fun commit => .ok (state.page commit)
  getRun := fun n =>
    match state.runs.find? fun run => (run.id : Int) = n with
    | some run => .ok run
    | none => .error (.gitHubApi "GitHub API returned HTTP 404".toList)
  listLatestJobs := fun _ => .ok []
  rerunWorkflowRun := fun _ => .ok ()

def answeredPoll (state : ProviderState) (late : Bool) : Poll where
  state
  client := answers state
  late
  page := by
    intro commit runs h
    cases h
    rfl
  run := by
    intro n run h
    simp only [answers] at h
    split at h
    next found hfound =>
      cases h
      exact ⟨List.mem_of_find?_eq_some hfound, by simpa using List.find?_some hfound⟩
    next => cases h

def greenRun (headSha : String) : WorkflowRun where
  id := 7
  headSha := headSha.toList
  status := some "completed".toList
  conclusion := some "success".toList
  positive := by decide

def greenPoll (headSha : String) : Poll := answeredPoll ⟨[greenRun headSha], List.nodup_singleton _⟩ true

/-- A run that was applied as a commit and awaits real CI. -/
def appliedRun (text : Str) : FixFiles where
  verification := some text
  remediation := some "\x7b\x7d".toList
  applied := some "\x7b\"commit\": \"c0ffee\"\x7d".toList
  state := .ok { schemaVersion := durableSchema, runId := "run-1".toList, workflowStatus := "APPROVED".toList,
                 createdAt := [], updatedAt := [] }

theorem appliedRun_recorded {args : CiArguments} {p : Poll} {text : Str}
    (hwrite : @evidenceText asciiData Unit noFloats awaitingRecord = some text) {statuses : List CIRunStatus}
    (hask : @askProvider asciiData p.client args "c0ffee".toList [p] = .ok (some (statuses, [])))
    (hpassed : realCiPassed statuses = some true) :
    ∃ r, @verifyRealCiOf asciiData Unit noFloats (appliedRun text) p.client args [p] = .ok (.recorded r) ∧
      r.decision.state = .verifiedFixed ∧ r.commit = "c0ffee".toList ∧ r.runs = statuses := by
  have hjson : @loadJson Unit noFloats text = .ok (.obj (@JsonValue.sanitizeEntries asciiData Unit
      (@verificationRecord Unit asciiData "run-1".toList "2026-01-01T00:00:00Z".toList awaitingCi (.obj []) .null) [])) := by
    unfold loadJson
    rw [@loads_evidenceText asciiData Unit noFloats _ _ hwrite]
    rfl
  have hdecision : @verifyRealCi asciiData Unit noFloats text true false =
      .ok (@decideRemediation asciiData ((@VerificationResult.stored asciiData awaitingCi).afterCi true false)) :=
    @verifyRealCi_evidenceText asciiData Unit noFloats awaitingCi true false _ _ _ _ _ hwrite
  have hsummary : @loadJson Unit noFloats "\x7b\x7d".toList = .ok (.obj []) := by rfl
  have hcommit : @FixFiles.commit Unit noFloats (appliedRun text) = .ok "c0ffee".toList := by
    unfold FixFiles.commit appliedRun
    dsimp only
    decide +kernel
  have hstate : (@decideRemediation asciiData ((@VerificationResult.stored asciiData awaitingCi).afterCi true false)).state =
      .verifiedFixed := by
    have hsame := (@Alike.decide asciiData _ _ (@alike_stored asciiData (awaitingCi.afterCi true false))).1
    exact hsame.trans (by decide +kernel)
  refine ⟨⟨"c0ffee".toList, true, statuses, [],
    @decideRemediation asciiData ((@VerificationResult.stored asciiData awaitingCi).afterCi true false), 0, []⟩, ?_, hstate, rfl, rfl⟩
  unfold verifyRealCiOf
  rw [hcommit]
  dsimp only [appliedRun]
  rw [hjson]
  simp only [Option.elim_some, hsummary, Except.mapError, bind, Except.bind]
  rw [if_neg (by simp)]
  rw [hask]
  dsimp only
  rw [hpassed]
  dsimp only
  have hhuman : decide ((none : Option Str) = some "human_approve".toList) = false := rfl
  rw [hhuman, hdecision]
  rfl

theorem ownRun_verified : ∃ text r, @verifyRealCiOf asciiData Unit noFloats (appliedRun text) (greenPoll "c0ffee").client {}
      [greenPoll "c0ffee"] = .ok (.recorded r) ∧ r.decision.state = .verifiedFixed ∧
    ∃ before p after, [greenPoll "c0ffee"] = before ++ p :: after ∧ (∀ q ∈ before, @Poll.GoesOn asciiData q [] r.commit) ∧
      @Confirmed asciiData {} r.commit p r.runs ∧
      @FixFiles.commit Unit noFloats (appliedRun text) = .ok r.commit ∧ (([] : List Str) = [] → r.commit ≠ []) := by
  obtain ⟨text, hwrite⟩ := awaitingRecord_text
  have hask : @askProvider asciiData (greenPoll "c0ffee").client {} "c0ffee".toList [greenPoll "c0ffee"] =
      .ok (some ([(greenRun "c0ffee").statusAs "7".toList], [])) := by rfl
  obtain ⟨r, hr, hverified, -, -⟩ := appliedRun_recorded hwrite hask rfl
  exact ⟨text, r, hr, hverified, @verifyRealCiOf_verified asciiData Unit noFloats _ _ _ _ _ hr hverified⟩

/-- A run of another commit that the operator names verifies the repair. -/
theorem otherRun_verified : ∃ text r, @verifyRealCiOf asciiData Unit noFloats (appliedRun text) (greenPoll "deadbeef").client
      { ciRunIds := ["7".toList] } [greenPoll "deadbeef"] = .ok (.recorded r) ∧ r.decision.state = .verifiedFixed ∧
    r.commit = "c0ffee".toList ∧ r.runs = [(greenRun "deadbeef").statusAs "7".toList] ∧
    ∀ run ∈ (greenPoll "deadbeef").state.runs, run.headSha ≠ r.commit := by
  obtain ⟨text, hwrite⟩ := awaitingRecord_text
  have hask : @askProvider asciiData (greenPoll "deadbeef").client { ciRunIds := ["7".toList] } "c0ffee".toList
      [greenPoll "deadbeef"] = .ok (some ([(greenRun "deadbeef").statusAs "7".toList], [])) := by rfl
  obtain ⟨r, hr, hverified, hcommit, hruns⟩ := appliedRun_recorded hwrite hask rfl
  refine ⟨text, r, hr, hverified, hcommit, hruns, ?_⟩
  intro run hrun
  rw [List.mem_singleton.mp hrun, hcommit]
  decide

end FailureOrchestrator
