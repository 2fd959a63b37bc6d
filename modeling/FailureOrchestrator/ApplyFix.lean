import FailureOrchestrator.AddedSecrets
import FailureOrchestrator.Fingerprint
import FailureOrchestrator.HumanDecision
import FailureOrchestrator.UntrustedText

namespace FailureOrchestrator

open Exec

inductive ApplyStatus where
  | applied
  | blocked
  | partlyApplied
  | dryRun
  deriving DecidableEq

structure ApplyResult where
  status : ApplyStatus
  runId : Str
  message : Str
  repoPath : Str := []
  branch : Str := []
  commit : Str := []
  pushed : Bool := false
  prUrl : Str := []
  nextSteps : List Str := []
  rollback : List Str := []
  files : List Str := []
  deriving DecidableEq

/-- The outcome of a command; one that ran out of time has the code 124. -/
structure Completed where
  returncode : Int
  stdout : Str
  stderr : Str

/-- The outcome of a command that cannot succeed. -/
def Completed.failed (done : Completed) (code : Int) : Completed :=
  if done.returncode = 0 then { done with returncode := code } else done

/-- What `metadata.json` says of a verified patch. -/
structure FixMetadata where
  patchSha256 : Str
  filesChanged : List Str
  repoPath : Str
  baseCommit : Str
  failureMessage : Str
  verifyCommands : List Str

structure RemediationRecord where
  state : Str
  reasons : List Str

/-- The bytes of `final.patch`: a text, or bytes that are no UTF-8, with their digest and what decoding them raises. -/
inductive PatchFile where
  | text (patch : Str)
  | undecodable (digest : Str) (e : RunError)

/-- The files of the `fix-repo` directory that a call finds; a JSON file holds a record, or reading it raises. -/
structure FixRepoFiles where
  metadata : Option (Except RunError FixMetadata) := none
  finalPatch : Option PatchFile := none
  remediation : Option (Except RunError RemediationRecord) := none

/-- The arguments of `apply_fix`, the files it finds, and what reading the run's files raises: for the consistency check,
and the events once more. -/
structure ApplyCall where
  runId : Str
  repoPath : Option Str := none
  branch : Option Str := none
  remote : Str := "origin".toList
  push : Bool := false
  openPr : Bool := false
  actor : Str := "operator".toList
  dryRun : Bool := false
  fix : FixRepoFiles
  checkRaises : Option RunError := none
  eventsRaise : Option RunError := none

structure Head where
  repo : Str
  branch : Str
  commit : Str
  deriving DecidableEq

/-- A branch of a remote, and the repository that it was pushed from. -/
structure RemoteHead where
  remote : Str
  head : Head
  deriving DecidableEq

/-- The branches of the target repositories and their remotes, and how many commands were run. -/
structure Target where
  heads : List Head := []
  remoteHeads : List RemoteHead := []
  commands : Nat := 0

/-- What the commands answer, by the number of commands run before, or what their start raises. `reached` tells of an
`update-ref` or a push that failed whether the branch is there all the same; `temporary` and `removal` are what making and
removing the temporary directory raises. -/
structure CommandHost where
  answer : Nat → Str → List Str → Completed
  raises : Nat → Option RunError
  reached : Nat → Bool
  temporary : Nat → Option RunError
  removal : Nat → Option RunError
  resolve : Str → Str
  isRepo : Str → Bool
  gh : Option Str
  pullRequest : Nat → Option Completed
  sha256 : Str → Str

/-- The directory of the run that the calls name, and the target repositories. -/
structure Bench where
  journal : Journal := {}
  target : Target := {}

/-- How a call ends early: it answers `BLOCKED`, or an exception leaves it. -/
inductive ApplyStop where
  | blocked (message : Str)
  | raised (e : RunError)

abbrev Apply := Exec Bench ApplyStop

def Bench.tick (w : Bench) : Bench := { w with target := { w.target with commands := w.target.commands + 1 } }

def require (c : Prop) [Decidable c] (message : Str) : Apply Unit := if c then pure () else raise (.blocked message)

/-- What happens at this number of commands: nothing, or an exception. -/
def disturb (raises : Nat → Option RunError) : Apply Unit := fun w =>
  ((raises w.target.commands).elim (.ok ()) fun e => .error (.raised e), w)

def onStore {α : Type} (x : Exec Journal RunError α) : Apply α := fun w =>
  ((x w.journal).1.mapError .raised, { w with journal := (x w.journal).2 })

def removePrefix (p s : Str) : Str := if startsWith s p then s.drop p.length else s

def Target.has (t : Target) (repo branch : Str) : Bool := t.heads.any fun h => h.repo = repo ∧ h.branch = branch

def Target.remoteHas (t : Target) (repo remote branch : Str) : Bool :=
  t.remoteHeads.any fun r => r.remote = remote ∧ r.head.repo = repo ∧ r.head.branch = branch

section Git

variable (host : CommandHost)

/-- A command that changes no branch. -/
def git (repo : Str) (args : List Str) : Apply Completed := do
  disturb host.raises
  fun w => (.ok (host.answer w.target.commands repo args), w.tick)

/-- `git rev-parse --verify --quiet refs/heads/<branch>` succeeds only when the branch exists. -/
def revParse (repo branch : Str) : Apply Completed := do
  disturb host.raises
  fun w =>
    let done := host.answer w.target.commands repo
      ["rev-parse".toList, "--verify".toList, "--quiet".toList, "refs/heads/".toList ++ branch]
    (.ok (if w.target.has repo branch then done else done.failed 1), w.tick)

def updateRefArgs (branch commit : Str) : List Str := ["update-ref".toList, "refs/heads/".toList ++ branch, commit, []]

/-- `git update-ref refs/heads/<branch> <commit> ""`: the empty old value says that the branch must not exist. -/
def updateRef (repo branch commit : Str) : Apply Completed := do
  disturb host.raises
  fun w =>
    let done := host.answer w.target.commands repo (updateRefArgs branch commit)
    if w.target.has repo branch then (.ok (done.failed 128), w.tick)
    else if done.returncode = 0 ∨ host.reached w.target.commands then
      (.ok done, { w.tick with target := { w.tick.target with heads := ⟨repo, branch, commit⟩ :: w.target.heads } })
    else (.ok done, w.tick)

/-- `git ls-remote --heads <remote> refs/heads/<branch>`; what it lists is at least the branch itself. -/
def lsRemote (repo remote branch : Str) : Apply Completed := do
  disturb host.raises
  fun w =>
    let done := host.answer w.target.commands repo
      ["ls-remote".toList, "--heads".toList, remote, "refs/heads/".toList ++ branch]
    (.ok (if w.target.remoteHas repo remote branch then { done with stdout := "refs/heads/".toList ++ branch } else done),
      w.tick)

/-- `git push --set-upstream <remote> refs/heads/<branch>:refs/heads/<branch>` -/
def pushBranch (remote : Str) (head : Head) : Apply Completed := do
  disturb host.raises
  fun w =>
    let done := host.answer w.target.commands head.repo
      ["push".toList, "--set-upstream".toList, remote,
        "refs/heads/".toList ++ head.branch ++ ":refs/heads/".toList ++ head.branch]
    if done.returncode = 0 ∨ host.reached w.target.commands then
      (.ok done, { w.tick with target := { w.tick.target with remoteHeads := ⟨remote, head⟩ :: w.target.remoteHeads } })
    else (.ok done, w.tick)

/-- `subprocess.run` of `gh pr create`; nothing when it runs out of time. -/
def createPullRequest : Apply (Option Completed) := do
  disturb host.raises
  fun w => (.ok (host.pullRequest w.target.commands), w.tick)

/-- `with tempfile.TemporaryDirectory`: the directory is removed however its block ends. -/
def inTemporary {α : Type} (x : Apply α) : Apply α := do
  disturb host.temporary
  let a ← handle x fun stop => do
    disturb host.removal
    raise stop
  disturb host.removal
  return a

end Git

def blockingRemediationStates : List Str :=
  ["POLICY_REJECTED".toList, "REGRESSION_DETECTED".toList, "NOT_FIXED".toList]

/-- What the gates leave to commit. -/
structure ApprovedFix where
  run : DurableRunState
  metadata : FixMetadata
  patch : Str
  files : List Str

section Body

variable [UnicodeData] (env : Env) (host : CommandHost)

def PatchFile.sha256 : PatchFile → Str
  | .text patch => host.sha256 patch
  | .undecodable digest _ => digest

def PatchFile.decode : PatchFile → Except RunError Str
  | .text patch => .ok patch
  | .undecodable _ e => .error e

def checkRemediation (fix : FixRepoFiles) : Except ApplyStop Unit :=
  match fix.remediation with
  | none => .ok ()
  | some (.error e) => .error (.raised e)
  | some (.ok r) =>
    if r.state ∈ blockingRemediationStates then
      .error (.blocked ("repair verification decided ".toList ++ r.state ++ ": ".toList ++ joinWith ", ".toList r.reasons))
    else .ok ()

def orRaise (raises : Option RunError) : Except ApplyStop Unit := raises.elim (.ok ()) fun e => .error (.raised e)

/-- The gate that reads the events. -/
def checkUnapplied (s : RunStore) (eventsRaise : Option RunError) : Except ApplyStop Unit := do
  orRaise eventsRaise
  if ∃ e ∈ s.events, e.eventType = AuditEventType.targetPatchApplied.value then
    .error (.blocked "this run's patch was already applied to the target repository".toList)
  else .ok ()

/-- The gates that read the metadata and the patch. -/
def checkPatch (d : DurableRunState) (metadata : Except RunError FixMetadata) (file : PatchFile) :
    Except ApplyStop ApprovedFix :=
  match metadata with
  | .error e => .error (.raised e)
  | .ok metadata =>
    if file.sha256 host ≠ metadata.patchSha256 then
      .error (.blocked "final.patch does not match the verified patch hash".toList)
    else match file.decode with
      | .error e => .error (.raised e)
      | .ok patch =>
        if parsePatchFiles patch ≠ metadata.filesChanged then
          .error (.blocked "final.patch files do not match the verified file list".toList)
        else match patchViolation patch with
          | some violation => .error (.blocked ("final.patch refused: ".toList ++ violation.toList))
          | none => .ok ⟨d, metadata, patch, parsePatchFiles patch⟩

/-- The gates that read the stored run. -/
def checkRun (s : RunStore) (c : ApplyCall) : Except ApplyStop DurableRunState :=
  match loadRun s c.runId with
  | .error e => .error (.blocked ("cannot load run: ".toList ++ e.message))
  | .ok d => do
    orRaise c.checkRaises
    if verifyRunConsistency s d ≠ [] then
      .error (.blocked ("run is inconsistent: ".toList ++
        joinWith "; ".toList ((verifyRunConsistency s d).map (·.message))))
    else if d.workflowStatus ≠ RunStatus.approved.value then
      .error (.blocked ("fix-repo-apply requires workflow APPROVED, found ".toList ++ d.workflowStatus ++
        ". Escalated runs need `foundation-decide --action APPROVE` first.".toList))
    else .ok d

/-- The gates that read the stored run and the files of the fix. -/
def applyGates (s : RunStore) (c : ApplyCall) : Except ApplyStop ApprovedFix := do
  let d ← checkRun s c
  match c.fix.metadata, c.fix.finalPatch with
  | some metadata, some file =>
    checkRemediation c.fix
    let g ← checkPatch host d metadata file
    checkUnapplied s c.eventsRaise
    return g
  | _, _ => .error (.blocked "not a fix-repo run (fix-repo/metadata.json or final.patch missing)".toList)

def alwaysProtectedBranches : List Str := ["main".toList, "master".toList]

/-- The names of `protected_branches`, from what `git symbolic-ref` says of the remote's default branch. -/
def protectedNames (remote : Str) (head : Completed) : List Str :=
  alwaysProtectedBranches ++
    if head.returncode = 0 ∧ strip head.stdout ≠ [] then
      [UnicodeData.lower (removePrefix (remote ++ "/".toList) (strip head.stdout))]
    else []

def symbolicRefArgs (remote : Str) : List Str :=
  ["symbolic-ref".toList, "--quiet".toList, "--short".toList, "refs/remotes/".toList ++ remote ++ "/HEAD".toList]

def protectedBranches (repo remote : Str) : Apply (List Str) := do
  let head ← git host repo (symbolicRefArgs remote)
  return protectedNames remote head

def ApplyCall.repo (c : ApplyCall) (g : ApprovedFix) : Str := host.resolve (c.repoPath.getD g.metadata.repoPath)

def ApplyCall.branchName (c : ApplyCall) : Str :=
  firstNonEmpty (c.branch.getD []) ("ci-orchestrator/fix-".toList ++ c.runId)

/-- The gates that read the target repository. -/
def checkTarget (c : ApplyCall) (g : ApprovedFix) : Apply Unit := do
  let repo := c.repo host g
  let branch := c.branchName
  require (host.isRepo repo) ("not a git repository: ".toList ++ repo)
  let base ← git host repo ["cat-file".toList, "-e".toList, g.metadata.baseCommit ++ "^\x7bcommit\x7d".toList]
  require (base.returncode = 0) ("base commit ".toList ++ g.metadata.baseCommit ++ " not found in ".toList ++ repo)
  let format ← git host repo ["check-ref-format".toList, "--branch".toList, branch]
  require (format.returncode = 0) ("invalid branch name: ".toList ++ branch)
  let names ← protectedBranches host repo c.remote
  require (UnicodeData.lower (removePrefix "refs/heads/".toList branch) ∉ names)
    ("refusing to write to protected branch ".toList ++ branch ++ "; fixes only go to new branches".toList)
  let existing ← revParse host repo branch
  require (existing.returncode ≠ 0) ("branch already exists: ".toList ++ branch)

def approvalText (d : DurableRunState) : Str :=
  if d.stopReason = some "human_approve".toList then "human APPROVE (human_approve)".toList else "policy APPROVE".toList

def commitMessage (metadata : FixMetadata) (runId approval : Str) : Str :=
  let summary := ((splitlines (firstNonEmpty metadata.failureMessage "repair failing CI check".toList)).head?.getD []).take 60
  cleanUntrusted (joinWith ['\n'] (["fix(ci): ".toList ++ summary, [],
    "Verified by ci-failure-orchestrator run ".toList ++ runId ++ ".".toList, "Approval: ".toList ++ approval,
    "Verification commands:".toList] ++ metadata.verifyCommands.map ("  - ".toList ++ ·) ++
    ["Patch sha256: ".toList ++ metadata.patchSha256]) ++ ['\n'])

def stderrHead (done : Completed) (n : Nat) : Str := (strip done.stderr).take n

/-- A step of git that must succeed; the error names it. -/
def gitStep (repo : Str) (label : Str) (args : List Str) : Apply Completed := do
  let done ← git host repo args
  require (done.returncode = 0) ("git ".toList ++ label ++ " failed: ".toList ++ stderrHead done 500)
  return done

/-- Reads the base commit into a temporary index and applies the patch to it. -/
def stagePatch (c : ApplyCall) (g : ApprovedFix) : Apply Unit := do
  let repo := c.repo host g
  let _ ← gitStep host repo "read-tree".toList ["read-tree".toList, g.metadata.baseCommit]
  let check := if c.dryRun then ["--check".toList] else []
  let _ ← gitStep host repo "apply".toList
    (["apply".toList, "--cached".toList, "--whitespace=nowarn".toList] ++ check ++ [g.patch])

def dryRunResult (c : ApplyCall) (g : ApprovedFix) : ApplyResult :=
  let planned := ["create branch ".toList ++ c.branchName ++ " from ".toList ++ g.metadata.baseCommit.take 12 ++
      " with ".toList ++ natStr g.files.length ++ " changed file(s)".toList] ++
    (if c.push ∨ c.openPr then ["push ".toList ++ c.branchName ++ " to ".toList ++ c.remote] else []) ++
    (if c.openPr then ["open a draft pull request with the GitHub CLI".toList] else [])
  { status := .dryRun
    runId := c.runId
    message := "Dry run: every gate passed and the patch applies to the base commit; nothing was written. Would: ".toList ++
      joinWith "; ".toList planned ++ ".".toList
    repoPath := c.repo host g
    branch := c.branchName
    files := g.files }

/-- The names that `git diff --name-only` lists, as a set. -/
def diffNames (done : Completed) : List Str := ((splitlines done.stdout).filter fun line => line ≠ []).dedup

def diffArgs (base commit : Str) : List Str := ["diff".toList, "--name-only".toList, base, commit]

/-- The text of a list of file names. -/
def listText (names : List Str) : Str := ['['] ++ joinWith ", ".toList (names.map pyRepr) ++ [']']

/-- Commits the staged patch. -/
def commitTree (c : ApplyCall) (g : ApprovedFix) : Apply Str := do
  let repo := c.repo host g
  let tree ← gitStep host repo "write-tree".toList ["write-tree".toList]
  let commit ← git host repo ["commit-tree".toList, strip tree.stdout, "-p".toList, g.metadata.baseCommit, "-F".toList,
    commitMessage g.metadata c.runId (approvalText g.run)]
  require (commit.returncode = 0)
    ("git commit-tree failed (is user.name/user.email configured?): ".toList ++ stderrHead commit 500)
  return strip commit.stdout

/-- The commit of the staged patch; a dry run has none. -/
def stageAndCommit (c : ApplyCall) (g : ApprovedFix) : Apply (Option Str) := do
  stagePatch host c g
  if c.dryRun then return none
  else return some (← commitTree host c g)

/-- The files in which the commit differs from the base. -/
def checkCommit (c : ApplyCall) (g : ApprovedFix) (commit : Str) : Apply (List Str) := do
  let diff ← git host (c.repo host g) (diffArgs g.metadata.baseCommit commit)
  let names := diffNames diff
  require (names ≠ [] ∧ ∀ name ∈ names, name ∈ g.files)
    ("commit contents do not match the verified patch: ".toList ++ listText (sortStrs names))
  return names

def createBranch (head : Head) : Apply Unit := do
  let created ← updateRef host head.repo head.branch head.commit
  require (created.returncode = 0)
    ("could not create branch ".toList ++ head.branch ++ ": ".toList ++ stderrHead created 500)

def applyRef : DurableEvidenceRef := { kind := "target", ref := "target/apply.json".toList }

def operatorCall (c : ApplyCall) (eventType : AuditEventType) (refs : List DurableEvidenceRef) : OperatorCall :=
  { runId := c.runId, eventType, actor := c.actor, component := "fix_repo_apply".toList, evidenceRefs := refs }

/-- The evidence file and the audit event of a created branch. -/
def recordApplied (c : ApplyCall) (g : ApprovedFix) (head : Head) (names : List Str) : Apply Unit := do
  onStore (perform env (.write applyRef.ref (.json (.obj [
    ("repo_path", .str head.repo), ("branch", .str head.branch), ("commit", .str head.commit),
    ("base_commit", .str g.metadata.baseCommit), ("files", .arr ((sortStrs names).map .str)),
    ("approval", .str (approvalText g.run)), ("working_tree_touched", .bool false)]))))
  let _ ← onStore (appendOperatorEvent env (operatorCall c .targetPatchApplied [applyRef]))

def appliedResult (c : ApplyCall) (head : Head) (names : List Str) : ApplyResult :=
  { status := .applied
    runId := c.runId
    message := "Created branch ".toList ++ head.branch ++ " at ".toList ++ head.commit.take 12 ++
      "; working tree and current branch untouched.".toList
    repoPath := head.repo
    branch := head.branch
    commit := head.commit
    files := sortStrs names }

def ApplyResult.degrade (r : ApplyResult) (text : Str) (nextSteps : List Str) : ApplyResult :=
  { r with status := .partlyApplied, message := r.message ++ text, nextSteps }

/-- The first half of `_publish`: a branch that the remote does not have is pushed. A result without `pushed` ends it. -/
def publishBranch (c : ApplyCall) (head : Head) (r : ApplyResult) : Apply ApplyResult := do
  let existing ← lsRemote host head.repo c.remote head.branch
  if existing.returncode ≠ 0 then
    return r.degrade (" Not pushed: cannot check ".toList ++ c.remote ++ " for an existing branch: ".toList ++
      stderrHead existing 300) r.nextSteps
  else if strip existing.stdout ≠ [] then
    return r.degrade (" Not pushed: remote branch ".toList ++ head.branch ++ " already exists on ".toList ++ c.remote ++
      ".".toList) r.nextSteps
  else
    let pushed ← pushBranch host c.remote head
    if pushed.returncode ≠ 0 then
      let late := if pushed.returncode = 124 then
        " The push may have reached ".toList ++ c.remote ++ "; check before retrying.".toList else []
      return r.degrade (" Push failed: ".toList ++ stderrHead pushed 500 ++ late)
        ["git -C ".toList ++ head.repo ++ " push --set-upstream ".toList ++ c.remote ++ " ".toList ++ head.branch]
    else
      let _ ← onStore (appendOperatorEvent env (operatorCall c .targetBranchPushed []))
      return { r with pushed := true }

/-- The second half of `_publish`: a draft pull request. -/
def publishPullRequest (c : ApplyCall) (head : Head) (r : ApplyResult) : Apply ApplyResult := do
  if host.gh = none then
    return r.degrade " GitHub CLI (gh) not found; PR not opened.".toList
      ["gh pr create --draft --head ".toList ++ head.branch ++ " --fill".toList]
  else
    match ← createPullRequest host with
    | none =>
      return r.degrade " gh pr create timed out after 300s; a draft PR may exist. Check before retrying.".toList
        ["gh pr list --head ".toList ++ head.branch]
    | some pr =>
      if pr.returncode ≠ 0 then return r.degrade (" gh pr create failed: ".toList ++ stderrHead pr 500) r.nextSteps
      else
        let _ ← onStore (appendOperatorEvent env (operatorCall c .targetPrOpened []))
        return { r with prUrl := (splitlines (strip pr.stdout)).getLast?.getD [] }

def publish (c : ApplyCall) (head : Head) (r : ApplyResult) : Apply ApplyResult := do
  if c.push ∨ c.openPr then
    let r ← publishBranch env host c head r
    if r.status = .partlyApplied ∨ c.openPr = false then return r
    else publishPullRequest env host c head r
  else
    return { r with
      nextSteps := ["git -C ".toList ++ head.repo ++ " switch ".toList ++ head.branch,
        "git -C ".toList ++ head.repo ++ " push --set-upstream ".toList ++ c.remote ++ " ".toList ++ head.branch] }

def rollbackCommands (r : ApplyResult) (remote : Str) : List Str :=
  (if r.prUrl ≠ [] then ["gh pr close ".toList ++ r.prUrl] else []) ++
  (if r.pushed then ["git -C ".toList ++ r.repoPath ++ " push ".toList ++ remote ++ " --delete ".toList ++ r.branch]
    else []) ++
  if r.branch ≠ [] ∧ r.commit ≠ [] then ["git -C ".toList ++ r.repoPath ++ " branch -D ".toList ++ r.branch] else []

/-- Creates the branch of a committed patch, records it and publishes it. -/
def finishApply (c : ApplyCall) (g : ApprovedFix) (commit : Str) (names : List Str) : Apply ApplyResult := do
  let head : Head := ⟨c.repo host g, c.branchName, commit⟩
  createBranch host head
  recordApplied env c g head names
  let r ← publish env host c head (appliedResult c head names)
  return { r with rollback := rollbackCommands r c.remote }

def applyBody (c : ApplyCall) : Apply ApplyResult := do
  let w ← read
  let g ← lift (applyGates host (w.journal.store env) c)
  checkTarget host c g
  match ← inTemporary host (stageAndCommit host c g) with
  | none => return dryRunResult host c g
  | some commit =>
    let names ← checkCommit host c g commit
    finishApply env host c g commit names

def applyFix (c : ApplyCall) : Apply ApplyResult :=
  handle (applyBody env host c) fun
    | .blocked message => return { status := .blocked, runId := c.runId, message }
    | .raised e => raise (.raised e)

end Body

end FailureOrchestrator
