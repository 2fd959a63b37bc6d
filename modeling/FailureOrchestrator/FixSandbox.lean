import FailureOrchestrator.AddedSecrets
import FailureOrchestrator.Evaluator
import FailureOrchestrator.OutputTails
import FailureOrchestrator.PatchSandbox
import FailureOrchestrator.RunEvidence

namespace FailureOrchestrator

open Exec

/-- What a `fix-repo` run fixes for its sandbox. -/
structure FixSession where
  repo : Str
  baseCommit : Str
  commands : List VerifyCommand
  taskId : Str
  proposalSource : Str
  agent : Str

inductive AttemptStatus where
  | noPatch
  | refused
  | patchRejected
  | verificationFailed
  | verified
  deriving DecidableEq

structure Attempt where
  taskId : Str
  runId : Str
  number : Nat
  agent : Str
  proposalSource : Str
  status : AttemptStatus
  error : Option Str
  patchSha256 : Option Str
  filesChanged : List Str
  deriving DecidableEq

/-- The attempts, the feedback for the next prompt, and what was done on the machine. -/
structure FixBench where
  log : List SandboxEvent := []
  attempt : Nat := 0
  feedback : List Feedback := []
  attempts : List Attempt := []
  lastError : Option Str := none

/-- The verifier of the session: `WorktreePatchVerifier(commands=[(c.name, c.argv) for c in commands], …)`. -/
def FixSession.verifier (session : FixSession) (envAllowlist : List Str) : WorktreePatchVerifier where
  commands := session.commands.map fun c => (c.name, c.argv)
  envAllowlist := envAllowlist

/-- `displays.get(name, name)`; of commands with one name the last one counts. -/
def FixSession.display (session : FixSession) (name : Str) : Str :=
  ((session.commands.reverse.find? fun c => c.name = name).map (·.display)).getD name

section Sandbox

variable [UnicodeData] (host : SandboxHost) (recording : List Attempt → Except Str Unit) (session : FixSession)
  (verifier : WorktreePatchVerifier)

/-- `_record`. -/
def noteFeedback (reason output : Str) : Exec FixBench Str Unit :=
  update fun b => { b with feedback := recordFeedback b.feedback b.attempt reason output }

/-- `_attempt`; the record cannot always be written. -/
def writeAttempt (proposal : RunProposal) (status : AttemptStatus) (error : Option Str) : Exec FixBench Str Unit := fun b =>
  match recording b.attempts with
  | .error e => (.error e, b)
  | .ok _ => (.ok (), { b with attempts := b.attempts ++ [{
      taskId := session.taskId
      runId := proposal.runId
      number := b.attempt
      agent := session.agent
      proposalSource := session.proposalSource
      status := status
      error := error
      patchSha256 := if strip proposal.patch ≠ [] then some (host.sha256 proposal.patch) else none
      filesChanged := proposal.filesChanged }] })

/-- The first reason to refuse the patch before a worktree is created. -/
def patchRefusal (proposal : RunProposal) : Option Str :=
  ((patchViolation proposal.patch).map String.toList).or
    (if proposal.filesChanged.any Patches.isUnsafePath then some "forbidden_path_outside_repo".toList else none)

def refusedRun (proposal : RunProposal) (files : List Str) (error : Str) : SandboxRun where
  runId := proposal.runId
  proposalId := proposal.proposalId
  success := false
  patchApplied := false
  changedFiles := files
  error := some error

/-- The step that a report names. -/
def failingStep (result : PatchVerification) : Option VerificationStep := result.steps.find? fun s => !s.passed

def failingLabel (result : PatchVerification) (absent : String) : Str :=
  (failingStep result).elim absent.toList fun s => session.display s.name

def commandResults (result : PatchVerification) : List CommandResult :=
  result.steps.map (fun step =>
    { toolName := "verify:" ++ String.ofList step.name
      success := step.passed
      exitCode := step.returncode
      stdout := step.stdout
      stderr := step.stderr
      metadata := [("command", .str (session.display step.name))] }) ++
  if result.applied then
    [{ toolName := "test_runner"
       success := result.passed
       exitCode := if result.passed then 0 else (failingStep result).elim 1 (·.returncode)
       stdout := if result.passed then "all verification commands passed".toList
         else "failed: ".toList ++ failingLabel session result "no commands"
       metadata := [("steps", .num result.steps.length), ("patch_sha256", .str result.patchSha256)] }]
  else []

def verificationTimedOut (result : PatchVerification) : Bool :=
  result.steps.any fun s => s.returncode = 124 && hasSub s.stderr "verification_timeout".toList

def verifiedRun (proposal : RunProposal) (result : PatchVerification) : SandboxRun where
  runId := proposal.runId
  proposalId := proposal.proposalId
  success := result.passed
  patchApplied := result.applied
  changedFiles := fromKeys (result.changedFiles ++ proposal.filesChanged)
  timeout := verificationTimedOut result
  error := if result.applied then none else some (firstNonEmpty (result.reason.getD []) "patch_apply_failed".toList)
  commandResults := commandResults session result

/-- What the attempt of a verified patch leaves for the next prompt and for the records. -/
def reportAttempt (proposal : RunProposal) (result : PatchVerification) : Exec FixBench Str Unit := do
  if !result.applied then
    let error := firstNonEmpty (result.reason.getD []) "patch_apply_failed".toList
    noteFeedback error "git apply rejected the patch; context lines must match the base files exactly.".toList
    writeAttempt host recording session proposal .patchRejected (some error)
  else if !result.passed then
    let reason := "verification command failed: ".toList ++ failingLabel session result "verification"
    noteFeedback reason ((failingStep result).elim [] fun s => strip s.output)
    writeAttempt host recording session proposal .verificationFailed (some reason)
  else writeAttempt host recording session proposal .verified none

/-- `WorktreeSandbox.execute`. -/
def WorktreeSandbox.execute (proposal : RunProposal) : Exec FixBench Str SandboxRun := do
  update fun b => { b with attempt := b.attempt + 1 }
  if strip proposal.patch = [] then
    let b ← read
    let error := firstNonEmpty (b.lastError.getD []) "no_patch_extracted".toList
    noteFeedback error "No unified diff was found in the response.".toList
    writeAttempt host recording session proposal .noPatch (some error)
    return refusedRun proposal [] error
  else match patchRefusal proposal with
    | some violation =>
      noteFeedback violation "Patch refused before any worktree was created.".toList
      writeAttempt host recording session proposal .refused (some violation)
      return refusedRun proposal proposal.filesChanged violation
    | none =>
      let result ← zoom FixBench.log (fun log b => { b with log := log })
        (verifier.verify host session.repo proposal.patch session.baseCommit fun _ => none)
      reportAttempt host recording session proposal result
      return verifiedRun session proposal result

end Sandbox

section Outcomes

variable [UnicodeData] (host : SandboxHost) (recording : List Attempt → Except Str Unit) (session : FixSession)
  (verifier : WorktreePatchVerifier) (proposal : RunProposal) {b : FixBench}

/-- One attempt was recorded, with the number of the call; the machine was left alone. -/
def AttemptMade (status : AttemptStatus) (b b' : FixBench) : Prop :=
  b'.log = b.log ∧ ∃ attempt, b'.attempts = b.attempts ++ [attempt] ∧ attempt.status = status ∧ attempt.number = b.attempt ∧
    attempt.filesChanged = proposal.filesChanged ∧
    attempt.patchSha256 = if strip proposal.patch ≠ [] then some (host.sha256 proposal.patch) else none

omit [UnicodeData] in
theorem writeAttempt_triple (status : AttemptStatus) (error : Option Str) {c : FixBench} (hlog : c.log = b.log)
    (hattempts : c.attempts = b.attempts) (hattempt : c.attempt = b.attempt) :
    Triple (· = c) (writeAttempt host recording session proposal status error)
      (fun _ b' => AttemptMade host proposal status b b') fun _ b' => b'.log = b.log := by
  rintro s rfl
  unfold writeAttempt
  cases recording s.attempts with
  | error e => exact hlog
  | ok _ =>
    refine ⟨hlog, _, congrArg (· ++ _) hattempts, rfl, hattempt, rfl, rfl⟩

/-- What an attempt on a patch is recorded as. -/
def PatchVerification.status (result : PatchVerification) : AttemptStatus :=
  if !result.applied then .patchRejected else if !result.passed then .verificationFailed else .verified

theorem reportAttempt_triple (result : PatchVerification) {c : FixBench} (hlog : c.log = b.log)
    (hattempts : c.attempts = b.attempts) (hattempt : c.attempt = b.attempt) :
    Triple (· = c) (reportAttempt host recording session proposal result)
      (fun _ b' => AttemptMade host proposal result.status b b') fun _ b' => b'.log = b.log := by
  unfold reportAttempt PatchVerification.status
  refine .cond (fun happlied => ?_) fun happlied => ?_
  · rw [if_pos happlied]
    refine Triple.bind (Q := fun _ s => s.log = b.log ∧ s.attempts = b.attempts ∧ s.attempt = b.attempt) ?_ ?_
    · exact .update fun s hs => by rw [hs]; exact ⟨hlog, hattempts, hattempt⟩
    · exact fun _ s ⟨hlog', hattempts', hattempt'⟩ =>
        writeAttempt_triple host recording session proposal _ _ hlog' hattempts' hattempt' s rfl
  · rw [if_neg happlied]
    refine .cond (fun hpassed => ?_) fun hpassed => ?_
    · rw [if_pos hpassed]
      refine Triple.bind (Q := fun _ s => s.log = b.log ∧ s.attempts = b.attempts ∧ s.attempt = b.attempt) ?_ ?_
      · exact .update fun s hs => by rw [hs]; exact ⟨hlog, hattempts, hattempt⟩
      · exact fun _ s ⟨hlog', hattempts', hattempt'⟩ =>
          writeAttempt_triple host recording session proposal _ _ hlog' hattempts' hattempt' s rfl
    · rw [if_neg hpassed]
      exact writeAttempt_triple host recording session proposal _ _ hlog hattempts hattempt

/-- The call has counted itself. -/
def FixBench.next (b : FixBench) : FixBench := { b with attempt := b.attempt + 1 }

/-- What a call that returned has done. -/
inductive Executed (b : FixBench) (run : SandboxRun) (b' : FixBench) : Prop where
  | noPatch (hblank : strip proposal.patch = []) (happlied : run.patchApplied = false)
    (hmade : AttemptMade host proposal .noPatch b.next b')
  | refused (hpatch : strip proposal.patch ≠ []) (hrefused : patchRefusal proposal ≠ none) (happlied : run.patchApplied = false)
    (hmade : AttemptMade host proposal .refused b.next b')
  | verified (hpatch : strip proposal.patch ≠ []) (hallowed : patchRefusal proposal = none) (result : PatchVerification)
    (log : List SandboxEvent)
    (hverify : verifier.verify host session.repo proposal.patch session.baseCommit (fun _ => none) b.log = (.ok result, log))
    (hrun : run = verifiedRun session proposal result)
    (hmade : AttemptMade host proposal result.status { b.next with log := log } b')

/-- Only a patch that is not refused reaches the machine. -/
def LogLeft (b b' : FixBench) : Prop :=
  b'.log = b.log ∨ (strip proposal.patch ≠ [] ∧ patchRefusal proposal = none ∧
    b'.log = (verifier.verify host session.repo proposal.patch session.baseCommit (fun _ => none) b.log).2)

theorem execute_triple (b : FixBench) :
    Triple (· = b) (WorktreeSandbox.execute host recording session verifier proposal)
      (fun run b' => Executed host session verifier proposal b run b')
      fun _ b' => LogLeft host session verifier proposal b b' := by
  unfold WorktreeSandbox.execute
  refine Triple.bind (Q := fun _ s => s = b.next) (.update fun s hs => by rw [hs]; rfl) fun _ => ?_
  have hnote : ∀ reason output, Triple (· = b.next) (noteFeedback reason output)
      (fun _ s => s.log = b.next.log ∧ s.attempts = b.next.attempts ∧ s.attempt = b.next.attempt)
      fun _ b' => LogLeft host session verifier proposal b b' := by
    intro reason output
    exact .update fun s hs => by rw [hs]; exact ⟨rfl, rfl, rfl⟩
  have hwrite : ∀ status error, Triple
      (fun s => s.log = b.next.log ∧ s.attempts = b.next.attempts ∧ s.attempt = b.next.attempt)
      (writeAttempt host recording session proposal status error)
      (fun _ b' => AttemptMade host proposal status b.next b')
      fun _ b' => LogLeft host session verifier proposal b b' := by
    rintro status error s ⟨hlog, hattempts, hattempt⟩
    exact (writeAttempt_triple host recording session proposal status error hlog hattempts hattempt).mono (fun _ h => h)
      (fun _ _ h => h) (fun _ _ h => .inl h) s rfl
  refine .cond (fun hblank => ?_) fun hpatch => ?_
  · refine .read_keep fun _ _ => (hnote _ _).bind fun _ => (hwrite _ _).bind fun _ => .ret fun s hs => ?_
    exact .noPatch hblank rfl hs
  · split
    next violation hviolation =>
      refine (hnote _ _).bind fun _ => (hwrite _ _).bind fun _ => .ret fun s hs => ?_
      exact .refused hpatch (by rw [hviolation]; exact Option.some_ne_none _) rfl hs
    next hallowed =>
      refine Triple.bind (Q := fun result s => ∃ log, verifier.verify host session.repo proposal.patch session.baseCommit
        (fun _ => none) b.log = (.ok result, log) ∧ s = { b.next with log := log }) ?_ fun result => ?_
      · refine .zoom ?_
        rintro _ rfl log rfl
        have hlog : b.next.log = b.log := rfl
        rw [hlog]
        rcases hverify : verifier.verify host session.repo proposal.patch session.baseCommit (fun _ => none) b.log
          with ⟨e | result, log⟩
        · exact .inr ⟨hpatch, hallowed, by rw [hverify]⟩
        · exact ⟨log, rfl, rfl⟩
      · refine Triple.bind (Q := fun _ b' => Executed host session verifier proposal b (verifiedRun session proposal result) b')
          ?_ fun _ => .ret fun _ h => h
        rintro _ ⟨log, hverify, rfl⟩
        refine (reportAttempt_triple host recording session proposal result rfl rfl rfl).mono (fun _ h => h) ?_ ?_ _ rfl
        · exact fun _ b' hmade => .verified hpatch hallowed result log hverify rfl hmade
        · intro _ b' hlog
          exact .inr ⟨hpatch, hallowed, by rw [hverify]; exact hlog⟩

variable {host recording session verifier proposal} {run : SandboxRun} {b' : FixBench}

theorem execute_ok (h : WorktreeSandbox.execute host recording session verifier proposal b = (.ok run, b')) :
    Executed host session verifier proposal b run b' := by
  have hdone := execute_triple host recording session verifier proposal b b rfl
  rw [h] at hdone
  exact hdone

omit [UnicodeData] in
/-- The verdict of the verification is the first test run that the evaluator finds. -/
theorem target_verifiedRun (session : FixSession) (proposal : RunProposal) (result : PatchVerification) {c : CommandResult}
    (h : LocalEvaluator.target (verifiedRun session proposal result) = some c) : c.success = result.passed := by
  have hsteps : (result.steps.map fun step =>
      ({ toolName := "verify:" ++ String.ofList step.name
         success := step.passed
         exitCode := step.returncode
         stdout := step.stdout
         stderr := step.stderr
         metadata := [("command", .str (session.display step.name))] } : CommandResult)).find?
      (fun c => c.toolName = "test_runner") = none := by
    refine List.find?_eq_none.mpr fun d hd => ?_
    obtain ⟨step, -, rfl⟩ := List.mem_map.mp hd
    rw [decide_eq_true_iff]
    intro hname
    have hchars := congrArg String.toList hname
    rw [String.toList_append] at hchars
    cases hchars
  unfold LocalEvaluator.target verifiedRun commandResults at h
  rw [List.find?_append, hsteps, Option.none_or] at h
  split at h
  · have hc := List.mem_singleton.mp (List.mem_of_find?_eq_some h)
    rw [hc]
  · cases h

/-- A patch that is blank or that a rule refuses reaches no process and no worktree, and its run is never evaluated as
passed. -/
theorem execute_refused (host : SandboxHost) (recording : List Attempt → Except Str Unit) (session : FixSession)
    (verifier : WorktreePatchVerifier) (b : FixBench) (h : strip proposal.patch = [] ∨ patchRefusal proposal ≠ none) :
    (WorktreeSandbox.execute host recording session verifier proposal b).2.log = b.log ∧
      ∀ run, (WorktreeSandbox.execute host recording session verifier proposal b).1 = .ok run →
        (∀ result, LocalEvaluator.evaluate proposal run = .ok result → result.passed = false) ∧
        ∃ status, (status = .noPatch ∨ status = .refused) ∧ AttemptMade host proposal status b.next
          (WorktreeSandbox.execute host recording session verifier proposal b).2 := by
  have hnot : ¬ (strip proposal.patch ≠ [] ∧ patchRefusal proposal = none) := by
    rintro ⟨hpatch, hallowed⟩
    exact h.elim hpatch fun hrefused => hrefused hallowed
  have hdone := execute_triple host recording session verifier proposal b b rfl
  rcases hexec : WorktreeSandbox.execute host recording session verifier proposal b with ⟨e | run, b'⟩
  · rw [hexec] at hdone
    obtain hlog | ⟨hpatch, hallowed, -⟩ := hdone
    · exact ⟨hlog, nofun⟩
    · exact absurd ⟨hpatch, hallowed⟩ hnot
  · rw [hexec] at hdone
    have hfailed : run.patchApplied = false →
        ∀ result, LocalEvaluator.evaluate proposal run = .ok result → result.passed = false := by
      intro happlied result heval
      rw [← Bool.not_eq_true, LocalEvaluator.passed_iff heval]
      intro haccepts
      have htrue := haccepts.patchApplied
      rw [happlied] at htrue
      cases htrue
    cases hdone with
    | noPatch hblank happlied hmade =>
      refine ⟨hmade.1, fun run' hrun' => ?_⟩
      cases hrun'
      exact ⟨hfailed happlied, .noPatch, .inl rfl, hmade⟩
    | refused hpatch hrefused happlied hmade =>
      refine ⟨hmade.1, fun run' hrun' => ?_⟩
      cases hrun'
      exact ⟨hfailed happlied, .refused, .inr rfl, hmade⟩
    | verified hpatch hallowed => exact absurd ⟨hpatch, hallowed⟩ hnot

/-- An evaluation that passes stands for a patch that is there, that no rule refuses and that keeps off the forbidden paths, and
for a disposable worktree in which this very patch was applied and every verification command then answered 0. -/
theorem evaluation_sound {result : Evaluation}
    (hexec : WorktreeSandbox.execute host recording session verifier proposal b = (.ok run, b'))
    (heval : LocalEvaluator.evaluate proposal run = .ok result) (hpassed : result.passed = true) :
    strip proposal.patch ≠ [] ∧ patchRefusal proposal = none ∧
      (∀ path ∈ proposal.filesChanged, LocalEvaluator.isForbidden path = false) ∧
      AttemptMade host proposal .verified { b.next with log := b'.log } b' ∧
      ∃ events, b'.log = b.log ++ events ∧
        Disposed (host.resolve session.repo) (verifier.env host fun _ => none) session.baseCommit
          (Confined (verifier.env host fun _ => none) fun temp => [(patchFileIn temp, proposal.patch)]) events ∧
        ∃ temp before taken between runs after, events = before ++ (taken ++ (between ++ (runs ++ after))) ∧
          WorktreePatchVerifier.Taken proposal.patch (verifier.env host fun _ => none) temp taken ∧
          verifier.commands ≠ [] ∧
          List.Forall₂ (Succeeded (worktreeIn temp) (verifier.env host fun _ => none)) verifier.commands runs := by
  have haccepts := (LocalEvaluator.passed_iff heval).mp hpassed
  have hrejected : run.patchApplied = false → False := fun h => Bool.false_ne_true (h.symm.trans haccepts.patchApplied)
  cases execute_ok hexec with
  | noPatch hblank happlied => exact (hrejected happlied).elim
  | refused hpatch hrefused happlied => exact (hrejected happlied).elim
  | verified hpatch hallowed p log hverify hrun hmade =>
    rw [hrun] at haccepts
    obtain ⟨c, htarget, hsuccess⟩ := haccepts.tested
    have happlied : p.applied = true := haccepts.patchApplied
    have hgood : p.passed = true := (target_verifiedRun session proposal p htarget).symm.trans hsuccess
    have hstatus : p.status = .verified := by
      unfold PatchVerification.status
      rw [happlied, hgood]
      rfl
    obtain ⟨events, hevents, hdisposed, hresult⟩ := verifier.verify_logs host proposal.patch session.baseCommit session.repo
      (fun _ => none) b.log
    rw [hverify] at hevents hresult
    obtain ⟨-, temp, before, taken, between, runs, after, hshape, htaken, -, hiff⟩ :=
      (WorktreePatchVerifier.settled_of_logs (hresult p rfl)).2 happlied
    obtain ⟨hcommands, hruns⟩ := hiff.mp hgood
    rw [hstatus] at hmade
    obtain ⟨hlog, hattempt⟩ := hmade
    have hb' : b'.log = b.log ++ events := hlog.trans hevents
    refine ⟨hpatch, hallowed, fun path hpath => haccepts.allowed path ?_, ⟨rfl, hattempt⟩, events, hb', hdisposed, temp, before, taken,
      between, runs, after, hshape, htaken, hcommands, hruns⟩
    unfold LocalEvaluator.changedPaths
    split
    · exact hpath
    · exact mem_fromKeys.mpr (List.mem_append_right _ hpath)

end Outcomes

section Samples

def sampleFixProposal : RunProposal where
  proposalId := "prop-1".toList
  runId := "run-1".toList
  filesChanged := ["app.py".toList]
  patch := "--- a/app.py\n+++ b/app.py\n@@ -1 +1 @@\n-x = 1\n+x = 2\n".toList

def sampleFixSession : FixSession where
  repo := "/srv/app".toList
  baseCommit := "c0ffee".toList
  commands := [⟨"step-1".toList, "pytest".toList, ["pytest".toList]⟩, ⟨"step-2".toList, "ruff".toList, ["ruff".toList]⟩]
  taskId := "task-1".toList
  proposalSource := "patch-file".toList
  agent := "operator".toList

/-- A machine on which every process answers 0. -/
def sampleMachine : SandboxHost where
  answer _ _ := .ok (.completed 0 [] [])
  temporary _ := .ok "/tmp/w".toList
  removal _ := .ok ()
  writing _ := .ok ()
  environ _ := none
  resolve s := s
  isRepo _ := true
  sha256 s := s

def sampleFix : Except Str SandboxRun × FixBench :=
  @WorktreeSandbox.execute asciiData sampleMachine (fun _ => .ok ()) sampleFixSession (sampleFixSession.verifier [])
    sampleFixProposal {}

def sampleFixPassed : Bool :=
  (sampleFix.1.toOption.bind fun run => (@LocalEvaluator.evaluate asciiData sampleFixProposal run).toOption).any (·.passed)

theorem sampleFix_passed : sampleFixPassed = true := by decide +kernel

theorem sampleFix_sound : @patchRefusal asciiData sampleFixProposal = none ∧ ∃ attempt : Attempt,
    sampleFix.2.attempts = [] ++ [attempt] ∧ attempt.status = .verified ∧ attempt.number = 1 := by
  have hpassed := sampleFix_passed
  unfold sampleFixPassed at hpassed
  rcases hexec : sampleFix with ⟨e | run, b'⟩
  · rw [hexec] at hpassed
    cases hpassed
  · rw [hexec] at hpassed
    cases heval : @LocalEvaluator.evaluate asciiData sampleFixProposal run with
    | error e =>
      have hnone : (none : Option Evaluation).any (·.passed) = true := by
        rw [← show (Except.error e : Except EvaluationError Evaluation).toOption = none from rfl, ← heval]
        exact hpassed
      cases hnone
    | ok result =>
      have hresult : result.passed = true := by
        have hsome : (some result).any (·.passed) = true := by
          rw [← show (Except.ok result : Except EvaluationError Evaluation).toOption = some result from rfl, ← heval]
          exact hpassed
        exact hsome
      obtain ⟨-, hallowed, -, ⟨-, attempt, hattempt, hstatus, hnumber, -⟩, -⟩ :=
        @evaluation_sound asciiData sampleMachine (fun _ => .ok ()) sampleFixSession (sampleFixSession.verifier [])
          sampleFixProposal {} run b' result hexec heval hresult
      exact ⟨hallowed, attempt, hattempt, hstatus, hnumber⟩

/-- A patch that leaves the repository. -/
def sampleEscape : RunProposal :=
  { sampleFixProposal with patch := "--- a/../app.py\n+++ b/../app.py\n@@ -1 +1 @@\n-x = 1\n+x = 2\n".toList }

theorem sampleEscape_refused :
    (@WorktreeSandbox.execute asciiData sampleMachine (fun _ => .ok ()) sampleFixSession (sampleFixSession.verifier [])
      sampleEscape {}).2.log = [] ∧
    ∀ run, (@WorktreeSandbox.execute asciiData sampleMachine (fun _ => .ok ()) sampleFixSession
        (sampleFixSession.verifier []) sampleEscape {}).1 = .ok run →
      ∀ result, @LocalEvaluator.evaluate asciiData sampleEscape run = .ok result → result.passed = false := by
  have hrefused : @patchRefusal asciiData sampleEscape ≠ none := by decide +kernel
  obtain ⟨hlog, hruns⟩ := @execute_refused asciiData sampleEscape sampleMachine (fun _ => .ok ()) sampleFixSession
    (sampleFixSession.verifier []) {} (.inr hrefused)
  exact ⟨hlog, fun run hrun => (hruns run hrun).1⟩

end Samples

end FailureOrchestrator
