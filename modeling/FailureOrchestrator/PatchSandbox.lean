import FailureOrchestrator.Exec
import FailureOrchestrator.Verification

namespace FailureOrchestrator

open Exec

/-- A process that the sandbox starts. -/
structure SandboxCommand where
  argv : List Str
  cwd : Str
  env : Str → Option Str

inductive SandboxEvent where
  | made (dir : Str)
  | removed (dir : Str)
  | wrote (path text : Str)
  | ran (command : SandboxCommand) (answer : Except Str CommandOutcome)

abbrev Sandbox := Exec (List SandboxEvent) Str

/-- The machine. What a process answers, and whether a directory can be made or removed, depends on all that was done
before; an answer that is an error stands for an exception of any other kind than those of `CommandOutcome`. -/
structure SandboxHost where
  answer : List SandboxEvent → SandboxCommand → Except Str CommandOutcome
  temporary : List SandboxEvent → Except Str Str
  removal : List SandboxEvent → Except Str Unit
  writing : List SandboxEvent → Except Str Unit
  environ : Str → Option Str
  resolve : Str → Str
  isRepo : Str → Bool
  sha256 : Str → Str

/-- `stop_on_failure` as the constructor leaves it when it is not given. -/
structure WorktreePatchVerifier where
  commands : List NamedCommand
  envAllowlist : List Str
  stopOnFailure : Bool := true

structure PatchVerification where
  applied : Bool
  cleanAfterApply : Bool
  passed : Bool
  patchSha256 : Str
  changedFiles : List Str
  steps : List VerificationStep
  reason : Option Str := none
  deriving DecidableEq

namespace SandboxHost

variable (host : SandboxHost)

def execute (command : SandboxCommand) : Sandbox CommandOutcome := fun log =>
  (host.answer log command, log ++ [.ran command (host.answer log command)])

/-- `_run`: a timeout and a program that cannot be started are exceptions. -/
def run (command : SandboxCommand) : Sandbox (Int × Str) := do
  match ← host.execute command with
  | .completed returncode stdout _ => return (returncode, stdout)
  | .timedOut _ _ => raise "TimeoutExpired".toList
  | .notRunnable message => raise message

/-- `subprocess.run` without a time limit, for a process whose answer is not looked at. -/
def call (command : SandboxCommand) : Sandbox Unit := do
  match ← host.execute command with
  | .notRunnable message => raise message
  | _ => return ()

def makeTemporary : Sandbox Str := fun log =>
  match host.temporary log with
  | .error e => (.error e, log)
  | .ok dir => (.ok dir, log ++ [.made dir])

def removeTemporary (dir : Str) : Sandbox Unit := fun log => (host.removal log, log ++ [.removed dir])

def writeBytes (path text : Str) : Sandbox Unit := fun log => (host.writing log, log ++ [.wrote path text])

/-- `with tempfile.TemporaryDirectory() as temp_dir`. -/
def withTemporary {α : Type} (body : Str → Sandbox α) : Sandbox α := do
  let dir ← host.makeTemporary
  always (body dir) (host.removeTemporary dir)

end SandboxHost

def byteExactCheckout : List Str := ["-c".toList, "core.autocrlf=false".toList]

def addArgs (worktree baseRef : Str) : List Str :=
  ["git".toList] ++ byteExactCheckout ++ ["worktree".toList, "add".toList, "--detach".toList, worktree, baseRef]

def removeArgs (worktree : Str) : List Str :=
  ["git".toList, "worktree".toList, "remove".toList, "--force".toList, worktree]

def pruneArgs : List Str := ["git".toList, "worktree".toList, "prune".toList]

def worktreeIn (temp : Str) : Str := temp ++ "/repo".toList

def patchFileIn (temp : Str) : Str := temp ++ "/agent.patch".toList

namespace WorktreePatchVerifier

variable (v : WorktreePatchVerifier) (host : SandboxHost)

/-- `_env`. -/
def env (extraEnv : Str → Option Str) (key : Str) : Option Str :=
  (extraEnv key).orElse fun _ => if key ∈ v.envAllowlist then host.environ key else none

/-- `_run_steps`. -/
def runSteps (worktree : Str) (env : Str → Option Str) : List NamedCommand → Sandbox (List VerificationStep)
  | [] => return []
  | command :: rest => do
    let outcome ← host.execute ⟨command.2, worktree, env⟩
    let step := runStep (fun _ _ => outcome) command
    if !step.passed && v.stopOnFailure then return [step]
    else
      let steps ← runSteps worktree env rest
      return step :: steps

def requireRepo (repoPath : Str) : Sandbox Str :=
  if host.isRepo (host.resolve repoPath) then return host.resolve repoPath
  else raise ("not a git repository: ".toList ++ host.resolve repoPath)

def removeWorktree (repo worktree : Str) (env : Str → Option Str) : Sandbox Unit := do
  host.call ⟨removeArgs worktree, repo, env⟩
  host.call ⟨pruneArgs, repo, env⟩

/-- Runs `body` in a worktree of its own; both `reproduce` and `verify` have this frame. -/
def inWorktree {α : Type} (repo baseRef : Str) (env : Str → Option Str) (refused : α) (body : Str → Sandbox α) :
    Sandbox α :=
  host.withTemporary fun temp => do
    let added ← host.run ⟨addArgs (worktreeIn temp) baseRef, repo, env⟩
    if added.1 ≠ 0 then return refused
    else always (body temp) (removeWorktree host repo (worktreeIn temp) env)

def reproduce (repoPath baseRef : Str) (extraEnv : Str → Option Str) : Sandbox (Option (List VerificationStep)) := do
  let repo ← requireRepo host repoPath
  let env := v.env host extraEnv
  inWorktree host repo baseRef env none fun temp => do
    let steps ← v.runSteps host (worktreeIn temp) env v.commands
    return some steps

def rejected (patchSha256 : Str) (reason : String) : PatchVerification :=
  ⟨false, true, false, patchSha256, [], [], some reason.toList⟩

/-- The part of `verify` behind a patch that was applied. -/
def runVerification (patch : Str) (env : Str → Option Str) (temp : Str) : Sandbox PatchVerification := do
  let git (args : List String) : SandboxCommand := ⟨"git".toList :: args.map String.toList, worktreeIn temp, env⟩
  let diff ← host.run (git ["diff", "--name-only"])
  let untracked ← host.run (git ["ls-files", "--others", "--exclude-standard"])
  let changed := fromKeys (((splitlines (diff.2 ++ ['\n'] ++ untracked.2)).map strip).filter fun line => line ≠ [])
  let before ← host.run (git ["status", "--porcelain"])
  let steps ← v.runSteps host (worktreeIn temp) env v.commands
  let after ← host.run (git ["status", "--porcelain"])
  let passed := !steps.isEmpty && steps.all (·.passed)
  return ⟨true, before.2 = after.2, passed, host.sha256 patch, changed, steps,
    if passed then none else some "verification_failed".toList⟩

def applyArgs (flag : String) (temp : Str) : List Str := ["git".toList, "apply".toList, flag.toList, patchFileIn temp]

/-- What `verify` does in the worktree. -/
def applyAndRun (patch : Str) (env : Str → Option Str) (temp : Str) : Sandbox PatchVerification := do
  host.writeBytes (patchFileIn temp) patch
  let check ← host.run ⟨applyArgs "--check" temp, worktreeIn temp, env⟩
  if check.1 ≠ 0 then return rejected (host.sha256 patch) "patch_check_failed"
  else
    let applied ← host.run ⟨applyArgs "--whitespace=error" temp, worktreeIn temp, env⟩
    if applied.1 ≠ 0 then return rejected (host.sha256 patch) "patch_apply_failed"
    else v.runVerification host patch env temp

def verify (repoPath patch baseRef : Str) (extraEnv : Str → Option Str) : Sandbox PatchVerification := do
  let repo ← requireRepo host repoPath
  if strip patch = [] then return rejected (host.sha256 []) "empty_patch"
  else
    inWorktree host repo baseRef (v.env host extraEnv) (rejected (host.sha256 patch) "worktree_create_failed")
      (v.applyAndRun host patch (v.env host extraEnv))

end WorktreePatchVerifier

/-! ## What a call leaves behind -/

section Shapes

variable (repo worktree : Str) (env : Str → Option Str)

/-- The worktree is removed, and git forgets it unless the removal cannot be started. -/
inductive Removal : List SandboxEvent → Prop where
  | started (answer : Except Str CommandOutcome) : Removal [.ran ⟨removeArgs worktree, repo, env⟩ answer]
  | pruned (answer answer' : Except Str CommandOutcome) :
    Removal [.ran ⟨removeArgs worktree, repo, env⟩ answer, .ran ⟨pruneArgs, repo, env⟩ answer']

/-- A temporary directory comes and goes, and with it a worktree. In the primary repository nothing runs but the commands
that add and remove the worktree. -/
inductive Disposed (baseRef : Str) (inside : Str → List SandboxEvent → Prop) : List SandboxEvent → Prop where
  | unmade : Disposed baseRef inside []
  | refused (temp : Str) (answer : Except Str CommandOutcome) (h : ∀ out err, answer ≠ .ok (.completed 0 out err)) :
    Disposed baseRef inside [.made temp, .ran ⟨addArgs (worktreeIn temp) baseRef, repo, env⟩ answer, .removed temp]
  | used (temp out err : Str) (events removal : List SandboxEvent) (hinside : inside temp events)
    (hremoval : Removal repo (worktreeIn temp) env removal) :
    Disposed baseRef inside (.made temp :: .ran ⟨addArgs (worktreeIn temp) baseRef, repo, env⟩
      (.ok (.completed 0 out err)) :: (events ++ (removal ++ [.removed temp])))

def RanIn (event : SandboxEvent) : Prop := ∃ argv answer, event = .ran ⟨argv, worktree, env⟩ answer

/-- Everything happens in the worktree, but for the files written next to it. -/
def Confined (files : Str → List (Str × Str)) (temp : Str) (events : List SandboxEvent) : Prop :=
  ∀ event ∈ events, (∃ file ∈ files temp, event = .wrote file.1 file.2) ∨ RanIn (worktreeIn temp) env event

def Succeeded (command : NamedCommand) (event : SandboxEvent) : Prop :=
  ∃ out err, event = .ran ⟨command.2, worktree, env⟩ (.ok (.completed 0 out err))

/-- The commands that were run, with their steps, up to the one that ends the run. -/
inductive StepsRan (stopOnFailure : Bool) : List NamedCommand → List VerificationStep → List SandboxEvent → Prop where
  | done : StepsRan stopOnFailure [] [] []
  | stopped (command : NamedCommand) (rest : List NamedCommand) (outcome : CommandOutcome)
    (hstop : (!(runStep (fun _ _ => outcome) command).passed && stopOnFailure) = true) :
    StepsRan stopOnFailure (command :: rest) [runStep (fun _ _ => outcome) command]
      [.ran ⟨command.2, worktree, env⟩ (.ok outcome)]
  | next (command : NamedCommand) (rest : List NamedCommand) (outcome : CommandOutcome) (steps : List VerificationStep)
    (runs : List SandboxEvent) (hgo : ¬ (!(runStep (fun _ _ => outcome) command).passed && stopOnFailure) = true)
    (hrest : StepsRan stopOnFailure rest steps runs) :
    StepsRan stopOnFailure (command :: rest) (runStep (fun _ _ => outcome) command :: steps)
      (.ran ⟨command.2, worktree, env⟩ (.ok outcome) :: runs)

end Shapes

section Steps

variable {worktree : Str} {env : Str → Option Str} {stop : Bool}

theorem runStep_passed_iff (command : NamedCommand) (outcome : CommandOutcome) :
    (runStep (fun _ _ => outcome) command).passed = true ↔ ∃ out err, outcome = .completed 0 out err := by
  unfold VerificationStep.passed
  rw [decide_eq_true_iff]
  cases outcome with
  | completed returncode out err =>
    constructor
    · intro h
      exact ⟨out, err, congrArg (fun n => CommandOutcome.completed n out err) (h : returncode = 0)⟩
    · rintro ⟨_, _, h⟩
      exact (CommandOutcome.completed.inj h).1
  | timedOut out err => exact ⟨fun h => absurd h (show (124 : Int) ≠ 0 by decide), nofun⟩
  | notRunnable message => exact ⟨fun h => absurd h (show (127 : Int) ≠ 0 by decide), nofun⟩

theorem StepsRan.inside {commands : List NamedCommand} {steps : List VerificationStep} {runs : List SandboxEvent}
    (h : StepsRan worktree env stop commands steps runs) :
    ∀ event ∈ runs, RanIn worktree env event := by
  induction h with
  | done => exact nofun
  | stopped command rest outcome =>
    intro event hevent
    exact ⟨_, _, List.mem_singleton.mp hevent⟩
  | next command rest outcome steps runs _ _ ih => exact List.forall_mem_cons.mpr ⟨⟨_, _, rfl⟩, ih⟩

/-- The steps all passed exactly when every command was run and answered 0. -/
theorem StepsRan.all_passed_iff {commands : List NamedCommand} {steps : List VerificationStep} {runs : List SandboxEvent}
    (h : StepsRan worktree env stop commands steps runs) :
    steps.all (·.passed) = true ↔ List.Forall₂ (Succeeded worktree env) commands runs := by
  induction h with
  | done => exact ⟨fun _ => .nil, fun _ => rfl⟩
  | stopped command rest outcome hstop =>
    have hfailed : (runStep (fun _ _ => outcome) command).passed = false := by
      cases hpassed : (runStep (fun _ _ => outcome) command).passed with
      | false => rfl
      | true =>
        rw [hpassed] at hstop
        cases hstop
    constructor
    · intro hall
      rw [List.all_cons, hfailed] at hall
      cases hall
    · intro hall
      cases hall with
      | cons hfirst _ =>
        obtain ⟨out, err, hrun⟩ := hfirst
        cases hrun
        rw [(runStep_passed_iff command _).mpr ⟨out, err, rfl⟩] at hfailed
        cases hfailed
  | next command rest outcome steps runs hgo _ ih =>
    rw [List.all_cons, Bool.and_eq_true, ih, List.forall₂_cons, runStep_passed_iff]
    refine and_congr_left' ?_
    constructor
    · rintro ⟨out, err, rfl⟩
      exact ⟨out, err, rfl⟩
    · rintro ⟨out, err, hrun⟩
      cases hrun
      exact ⟨out, err, rfl⟩

theorem StepsRan.isEmpty_eq {commands : List NamedCommand} {steps : List VerificationStep} {runs : List SandboxEvent}
    (h : StepsRan worktree env stop commands steps runs) : steps.isEmpty = commands.isEmpty := by
  cases h <;> rfl

end Steps

section Logs

variable (v : WorktreePatchVerifier) (host : SandboxHost) {repo worktree : Str} {env : Str → Option Str}

theorem execute_logs (command : SandboxCommand) :
    Logs (host.execute command) fun answer events => events = [.ran command answer] :=
  fun _ => ⟨_, rfl, rfl⟩

theorem run_logs (command : SandboxCommand) :
    Logs (host.run command) fun r events => ∃ answer, events = [.ran command answer] ∧
      (∀ code out, r = .ok (code, out) → ∃ err, answer = .ok (.completed code out err)) ∧
      ∀ code out err, answer = .ok (.completed code out err) → r = .ok (code, out) := by
  refine (execute_logs host command).bind ?_ ?_
  · rintro outcome events rfl
    cases outcome with
    | completed code out err =>
      refine .ret ⟨_, List.append_nil _, ?_, ?_⟩
      · rintro _ _ h
        cases h
        exact ⟨err, rfl⟩
      · rintro _ _ _ h
        cases h
        rfl
    | timedOut out err => exact .raise ⟨_, List.append_nil _, nofun, nofun⟩
    | notRunnable message => exact .raise ⟨_, List.append_nil _, nofun, nofun⟩
  · rintro e events rfl
    exact ⟨_, rfl, nofun, nofun⟩

theorem call_logs (command : SandboxCommand) :
    Logs (host.call command) fun _ events => ∃ answer, events = [.ran command answer] := by
  refine (execute_logs host command).bind ?_ ?_
  · rintro outcome events rfl
    cases outcome with
    | notRunnable message => exact .raise ⟨_, List.append_nil _⟩
    | completed code out err => exact .ret ⟨_, List.append_nil _⟩
    | timedOut out err => exact .ret ⟨_, List.append_nil _⟩
  · rintro e events rfl
    exact ⟨_, rfl⟩

namespace WorktreePatchVerifier

theorem runSteps_logs (worktree : Str) (env : Str → Option Str) (commands : List NamedCommand) :
    Logs (v.runSteps host worktree env commands) fun r events =>
      (∀ event ∈ events, RanIn worktree env event) ∧
      ∀ steps, r = .ok steps → StepsRan worktree env v.stopOnFailure commands steps events := by
  induction commands with
  | nil =>
    refine .ret ⟨nofun, ?_⟩
    rintro _ h
    cases h
    exact .done
  | cons command rest ih =>
    refine (execute_logs host _).bind ?_ ?_
    · rintro outcome events rfl
      refine .cond (fun hstop => .ret ⟨?_, ?_⟩) fun hgo => ih.bind ?_ ?_
      · exact fun event hevent => ⟨_, _, List.mem_singleton.mp hevent⟩
      · rintro _ h
        cases h
        exact .stopped command rest outcome hstop
      · rintro steps events ⟨-, hran⟩
        have hsteps := StepsRan.next command rest outcome steps events hgo (hran steps rfl)
        refine .ret ⟨?_, ?_⟩
        · rw [List.append_nil]
          exact hsteps.inside
        · rintro _ h
          cases h
          rw [List.append_nil]
          exact hsteps
      · rintro e events ⟨hinside, -⟩
        exact ⟨List.forall_mem_cons.mpr ⟨⟨_, _, rfl⟩, hinside⟩, nofun⟩
    · rintro e events rfl
      exact ⟨fun event hevent => ⟨_, _, List.mem_singleton.mp hevent⟩, nofun⟩

theorem removeWorktree_logs (repo worktree : Str) (env : Str → Option Str) :
    Logs (removeWorktree host repo worktree env) fun _ events => Removal repo worktree env events := by
  refine (call_logs host _).bind ?_ ?_
  · rintro _ events ⟨answer, rfl⟩
    refine (call_logs host _).mono ?_
    rintro _ events ⟨answer', rfl⟩
    exact .pruned answer answer'
  · rintro _ events ⟨answer, rfl⟩
    exact .started answer

theorem run_inside (argv : List Str) (worktree : Str) (env : Str → Option Str) :
    Logs (host.run ⟨argv, worktree, env⟩) fun _ events => ∀ event ∈ events, RanIn worktree env event := by
  refine (run_logs host _).mono ?_
  rintro _ events ⟨answer, rfl, -⟩ event hevent
  exact ⟨argv, answer, List.mem_singleton.mp hevent⟩

/-- The verification commands were run as the steps say, between other processes of the worktree. -/
def Verdict (worktree : Str) (env : Str → Option Str) (hash : Str) (p : PatchVerification) (events : List SandboxEvent) :
    Prop :=
  p.applied = true ∧ p.patchSha256 = hash ∧ p.passed = (!p.steps.isEmpty && p.steps.all (·.passed)) ∧
    ∃ before runs after, events = before ++ (runs ++ after) ∧
      StepsRan worktree env v.stopOnFailure v.commands p.steps runs

theorem runVerification_logs (patch : Str) (env : Str → Option Str) (temp : Str) :
    Logs (v.runVerification host patch env temp) fun r events => (∀ event ∈ events, RanIn (worktreeIn temp) env event) ∧
      ∀ p, r = .ok p → v.Verdict (worktreeIn temp) env (host.sha256 patch) p events := by
  -- A process in front of the rest changes nothing of what the rest says.
  have hbehind : ∀ {α : Type} {x : Sandbox α} {f : α → Sandbox PatchVerification},
      Logs x (fun _ events => ∀ event ∈ events, RanIn (worktreeIn temp) env event) →
      (∀ a, Logs (f a) fun r events => (∀ event ∈ events, RanIn (worktreeIn temp) env event) ∧
        ∀ p, r = .ok p → v.Verdict (worktreeIn temp) env (host.sha256 patch) p events) →
      Logs (x >>= f) fun r events => (∀ event ∈ events, RanIn (worktreeIn temp) env event) ∧
        ∀ p, r = .ok p → v.Verdict (worktreeIn temp) env (host.sha256 patch) p events := by
    intro α x f hx hf
    refine hx.bind (fun a first hfirst => (hf a).mono ?_) fun e events hevents => ⟨hevents, nofun⟩
    rintro r events ⟨hevents, hverdict⟩
    refine ⟨fun event hevent => (List.mem_append.mp hevent).elim (hfirst event) (hevents event), fun p hp => ?_⟩
    obtain ⟨happlied, hhash, hpassed, before, runs, after, rfl, hran⟩ := hverdict p hp
    exact ⟨happlied, hhash, hpassed, first ++ before, runs, after, (List.append_assoc ..).symm, hran⟩
  refine hbehind (run_inside host _ _ env) fun diff => hbehind (run_inside host _ _ env) fun untracked =>
    hbehind (run_inside host _ _ env) fun status => ?_
  refine (v.runSteps_logs host (worktreeIn temp) env v.commands).bind ?_ fun e events h => ⟨h.1, nofun⟩
  rintro steps runs ⟨hinside, hran⟩
  refine (run_inside host _ _ env).bind (fun after events hafter => .ret ⟨?_, ?_⟩) fun e events hafter => ⟨?_, nofun⟩
  · rw [List.append_nil]
    exact fun event hevent => (List.mem_append.mp hevent).elim (hinside event) (hafter event)
  · rintro p hp
    cases hp
    rw [List.append_nil]
    exact ⟨rfl, rfl, rfl, [], runs, events, rfl, hran steps rfl⟩
  · exact fun event hevent => (List.mem_append.mp hevent).elim (hinside event) (hafter event)

theorem makeTemporary_logs :
    Logs host.makeTemporary fun r events => (∀ temp, r = .ok temp → events = [.made temp]) ∧ ∀ e, r = .error e → events = [] := by
  intro log
  unfold SandboxHost.makeTemporary
  cases host.temporary log with
  | error e => exact ⟨[], (List.append_nil _).symm, nofun, fun _ _ => rfl⟩
  | ok dir => exact ⟨_, rfl, fun temp h => by cases h; rfl, nofun⟩

section Frame

variable {α : Type} (refused : α) (body : Str → Sandbox α) {P : Str → Except Str α → List SandboxEvent → Prop}

/-- What happens between the making and the removal of the temporary directory. -/
def Framed (repo baseRef : Str) (env : Str → Option Str) (P : Str → Except Str α → List SandboxEvent → Prop) (temp : Str)
    (r : Except Str α) (events : List SandboxEvent) : Prop :=
  (∃ answer, (∀ out err, answer ≠ .ok (.completed 0 out err)) ∧
    events = [.ran ⟨addArgs (worktreeIn temp) baseRef, repo, env⟩ answer] ∧ ∀ a, r = .ok a → a = refused) ∨
  ∃ out err inside removal r', events = .ran ⟨addArgs (worktreeIn temp) baseRef, repo, env⟩
    (.ok (.completed 0 out err)) :: (inside ++ removal) ∧ P temp r' inside ∧
      Removal repo (worktreeIn temp) env removal ∧ ∀ a, r = .ok a → r' = .ok a

theorem framed_logs (repo baseRef : Str) (env : Str → Option Str) (temp : Str) (hbody : Logs (body temp) (P temp)) :
    Logs (do
      let added ← host.run ⟨addArgs (worktreeIn temp) baseRef, repo, env⟩
      if added.1 ≠ 0 then return refused
      else always (body temp) (removeWorktree host repo (worktreeIn temp) env))
      (Framed refused repo baseRef env P temp) := by
  refine (run_logs host _).bind ?_ ?_
  · rintro ⟨code, out⟩ events ⟨answer, rfl, hanswer, -⟩
    obtain ⟨err, rfl⟩ := hanswer code out rfl
    refine .cond (fun hcode => .ret (.inl ⟨_, ?_, List.append_nil _, ?_⟩)) fun hcode => ?_
    · rintro _ _ h
      cases h
      exact hcode rfl
    · rintro _ h
      cases h
      rfl
    · obtain rfl : code = 0 := not_not.mp hcode
      refine hbody.always (removeWorktree_logs host repo _ env) ?_ ?_
      · intro r inside removal hinside hremoval
        exact .inr ⟨out, err, inside, removal, r, rfl, hinside, hremoval, fun _ h => h⟩
      · intro r e inside removal hinside hremoval
        exact .inr ⟨out, err, inside, removal, r, rfl, hinside, hremoval, nofun⟩
  · rintro e events ⟨answer, rfl, -, hanswer⟩
    refine .inl ⟨answer, ?_, rfl, nofun⟩
    intro out err h
    cases hanswer 0 out err h

/-- Whatever `body` does in the worktree, the frame leaves none. -/
theorem inWorktree_logs (repo baseRef : Str) (env : Str → Option Str) (hbody : ∀ temp, Logs (body temp) (P temp)) :
    Logs (inWorktree host repo baseRef env refused body) fun r events =>
      Disposed repo env baseRef (fun temp inside => ∃ r, P temp r inside) events ∧ ∀ a, r = .ok a → a = refused ∨
        ∃ temp before inside after, events = before ++ (inside ++ after) ∧ P temp (.ok a) inside := by
  refine (makeTemporary_logs host).bind ?_ ?_
  · rintro temp events ⟨hmade, -⟩
    rw [hmade temp rfl]
    refine (framed_logs host refused body repo baseRef env temp (hbody temp)).always
      (C := fun _ events => events = [.removed temp]) (fun log => ⟨_, rfl, rfl⟩) ?_ ?_
    · rintro r events _ (⟨answer, hanswer, rfl, hrefused⟩ | ⟨out, err, inside, removal, r', rfl, hinside, hremoval, hr⟩) rfl
      · exact ⟨.refused temp answer hanswer, fun a ha => .inl (hrefused a ha)⟩
      · rw [List.singleton_append, List.cons_append, List.append_assoc]
        refine ⟨.used temp out err inside removal ⟨r', hinside⟩ hremoval, fun a ha => .inr ?_⟩
        rw [hr a ha] at hinside
        exact ⟨temp, [_, _], inside, _, rfl, hinside⟩
    · rintro r e events _ (⟨answer, hanswer, rfl, -⟩ | ⟨out, err, inside, removal, r', rfl, hinside, hremoval, -⟩) rfl
      · exact ⟨.refused temp answer hanswer, nofun⟩
      · rw [List.singleton_append, List.cons_append, List.append_assoc]
        exact ⟨.used temp out err inside removal ⟨r', hinside⟩ hremoval, nofun⟩
  · rintro e events ⟨-, hunmade⟩
    rw [hunmade e rfl]
    exact ⟨.unmade, nofun⟩

end Frame

section Verify

variable (patch baseRef : Str)

/-- The patch was written next to the worktree, checked and applied. -/
def Taken (env : Str → Option Str) (temp : Str) (events : List SandboxEvent) : Prop :=
  ∃ out err out' err', events = [.wrote (patchFileIn temp) patch,
    .ran ⟨applyArgs "--check" temp, worktreeIn temp, env⟩ (.ok (.completed 0 out err)),
    .ran ⟨applyArgs "--whitespace=error" temp, worktreeIn temp, env⟩ (.ok (.completed 0 out' err'))]

/-- The patch is rejected, or was applied and judged by the verification commands. -/
def Judged (env : Str → Option Str) (temp : Str) (p : PatchVerification) (events : List SandboxEvent) : Prop :=
  (∃ hash reason, p = rejected hash reason) ∨
    ∃ taken rest, events = taken ++ rest ∧ Taken patch env temp taken ∧
      v.Verdict (worktreeIn temp) env (host.sha256 patch) p rest

def filesOf (temp : Str) : List (Str × Str) := [(patchFileIn temp, patch)]

theorem applyAndRun_logs (env : Str → Option Str) (temp : Str) :
    Logs (v.applyAndRun host patch env temp) fun r events =>
      Confined env (filesOf patch) temp events ∧ ∀ p, r = .ok p → v.Judged host patch env temp p events := by
  have hwrote : Confined env (filesOf patch) temp [.wrote (patchFileIn temp) patch] := fun event hevent =>
    .inl ⟨_, List.mem_singleton_self _, List.mem_singleton.mp hevent⟩
  have hran : ∀ {argv answer events}, Confined env (filesOf patch) temp events →
      Confined env (filesOf patch) temp (events ++ [.ran ⟨argv, worktreeIn temp, env⟩ answer]) := by
    intro argv answer events hevents event hevent
    rcases List.mem_append.mp hevent with hold | hnew
    · exact hevents event hold
    · exact .inr ⟨argv, answer, List.mem_singleton.mp hnew⟩
  refine Logs.bind (P := fun _ events => events = [.wrote (patchFileIn temp) patch]) (fun log => ⟨_, rfl, rfl⟩) ?_ ?_
  · rintro _ _ rfl
    refine (run_logs host _).bind ?_ ?_
    · rintro ⟨code, out⟩ _ ⟨answer, rfl, hanswer, -⟩
      obtain ⟨err, rfl⟩ := hanswer code out rfl
      refine .cond (fun _ => .ret ⟨hran hwrote, ?_⟩) fun hcode => (run_logs host _).bind ?_ ?_
      · rintro p hp
        cases hp
        exact .inl ⟨_, _, rfl⟩
      · rintro ⟨code', out'⟩ _ ⟨answer', rfl, hanswer', -⟩
        obtain ⟨err', rfl⟩ := hanswer' code' out' rfl
        refine .cond (fun _ => .ret ⟨hran (hran hwrote), ?_⟩) fun hcode' => (v.runVerification_logs host patch env temp).mono ?_
        · rintro p hp
          cases hp
          exact .inl ⟨_, _, rfl⟩
        · obtain rfl : code = 0 := not_not.mp hcode
          obtain rfl : code' = 0 := not_not.mp hcode'
          rintro r events ⟨hinside, hverdict⟩
          refine ⟨?_, fun p hp => .inr ⟨_, events, rfl, ⟨out, err, out', err', rfl⟩, hverdict p hp⟩⟩
          intro event hevent
          rcases List.mem_append.mp (show event ∈ [_, _, _] ++ events from hevent) with hold | hnew
          · exact hran (hran hwrote) event hold
          · exact .inr (hinside event hnew)
      · rintro e _ ⟨answer', rfl, -⟩
        exact ⟨hran (hran hwrote), nofun⟩
    · rintro e _ ⟨answer, rfl, -⟩
      exact ⟨hran hwrote, nofun⟩
  · rintro e _ rfl
    exact ⟨hwrote, nofun⟩

theorem verify_logs (repoPath : Str) (extraEnv : Str → Option Str) :
    Logs (v.verify host repoPath patch baseRef extraEnv) fun r events =>
      Disposed (host.resolve repoPath) (v.env host extraEnv) baseRef (Confined (v.env host extraEnv) (filesOf patch)) events ∧
      ∀ p, r = .ok p → (∃ hash reason, p = rejected hash reason) ∨
        ∃ temp before inside after, events = before ++ (inside ++ after) ∧
          v.Judged host patch (v.env host extraEnv) temp p inside := by
  unfold verify requireRepo
  refine Logs.bind (P := fun r events => events = [] ∧ ∀ repo, r = .ok repo → repo = host.resolve repoPath) ?_ ?_ ?_
  · refine .cond (fun _ => .ret ⟨rfl, ?_⟩) fun _ => .raise ⟨rfl, nofun⟩
    rintro _ h
    cases h
    rfl
  · rintro repo _ ⟨rfl, hrepo⟩
    obtain rfl := hrepo repo rfl
    refine .cond (fun _ => .ret ⟨.unmade, ?_⟩) fun _ => ?_
    · rintro p hp
      cases hp
      exact .inl ⟨_, _, rfl⟩
    · refine (inWorktree_logs host (rejected (host.sha256 patch) "worktree_create_failed") _ (host.resolve repoPath) baseRef
        (v.env host extraEnv) fun temp => v.applyAndRun_logs host patch (v.env host extraEnv) temp).mono ?_
      rintro r events ⟨hdisposed, hresult⟩
      refine ⟨?_, fun p hp => ?_⟩
      · cases hdisposed with
        | unmade => exact .unmade
        | refused temp answer h => exact .refused temp answer h
        | used temp out err inside removal hinside hremoval =>
          obtain ⟨_, hinside, -⟩ := hinside
          exact .used temp out err inside removal hinside hremoval
      · rcases hresult p hp with rfl | ⟨temp, before, inside, after, hevents, -, hjudged⟩
        · exact .inl ⟨_, _, rfl⟩
        · exact .inr ⟨temp, before, inside, after, hevents, hjudged p rfl⟩
  · rintro e _ ⟨rfl, -⟩
    exact ⟨.unmade, nofun⟩

theorem reproduce_logs (repoPath : Str) (extraEnv : Str → Option Str) :
    Logs (v.reproduce host repoPath baseRef extraEnv) fun _ events =>
      Disposed (host.resolve repoPath) (v.env host extraEnv) baseRef (Confined (v.env host extraEnv) fun _ => []) events := by
  unfold reproduce requireRepo
  refine Logs.bind (P := fun r events => events = [] ∧ ∀ repo, r = .ok repo → repo = host.resolve repoPath) ?_ ?_ ?_
  · refine .cond (fun _ => .ret ⟨rfl, ?_⟩) fun _ => .raise ⟨rfl, nofun⟩
    rintro _ h
    cases h
    rfl
  · rintro repo _ ⟨rfl, hrepo⟩
    obtain rfl := hrepo repo rfl
    refine (inWorktree_logs host none _ (host.resolve repoPath) baseRef (v.env host extraEnv)
      (P := fun temp _ events => Confined (v.env host extraEnv) (fun _ => []) temp events) fun temp => ?_).mono ?_
    · refine (v.runSteps_logs host (worktreeIn temp) _ v.commands).bind ?_ ?_
      · rintro steps events ⟨hinside, -⟩
        refine .ret fun event hevent => .inr (hinside event ?_)
        rwa [List.append_nil] at hevent
      · exact fun e events h event hevent => .inr (h.1 event hevent)
    · rintro r events ⟨hdisposed, -⟩
      cases hdisposed with
      | unmade => exact .unmade
      | refused temp answer h => exact .refused temp answer h
      | used temp out err inside removal hinside hremoval =>
        obtain ⟨_, hinside⟩ := hinside
        exact .used temp out err inside removal hinside hremoval
  · rintro e _ ⟨rfl, -⟩
    exact .unmade

/-- Whatever the processes answer and whichever of them raise, a call of `reproduce` or `verify` runs everything in a
worktree of its own, which it adds, removes and prunes, in the environment that the allowlist leaves; the primary
repository sees nothing else. -/
theorem verifier_disposes (repoPath : Str) (extraEnv : Str → Option Str) :
    Logs (v.reproduce host repoPath baseRef extraEnv) (fun _ events =>
      Disposed (host.resolve repoPath) (v.env host extraEnv) baseRef (Confined (v.env host extraEnv) fun _ => []) events) ∧
    Logs (v.verify host repoPath patch baseRef extraEnv) (fun _ events =>
      Disposed (host.resolve repoPath) (v.env host extraEnv) baseRef
        (Confined (v.env host extraEnv) fun temp => [(patchFileIn temp, patch)]) events) :=
  ⟨v.reproduce_logs host baseRef repoPath extraEnv, (v.verify_logs host patch baseRef repoPath extraEnv).mono fun _ _ h => h.1⟩

/-- What a result says of the events of its call: it passed exactly when there are commands and all of them answered 0
behind the patch. -/
def Settled (env : Str → Option Str) (p : PatchVerification) (events : List SandboxEvent) : Prop :=
  (p.applied = false → p.passed = false ∧ p.steps = []) ∧
  (p.applied = true → p.patchSha256 = host.sha256 patch ∧ ∃ temp before taken between runs after,
    events = before ++ (taken ++ (between ++ (runs ++ after))) ∧ Taken patch env temp taken ∧
    StepsRan (worktreeIn temp) env v.stopOnFailure v.commands p.steps runs ∧
    (p.passed = true ↔ v.commands ≠ [] ∧ List.Forall₂ (Succeeded (worktreeIn temp) env) v.commands runs))

variable {v host patch} in
theorem settled_of_logs {env : Str → Option Str} {p : PatchVerification} {events : List SandboxEvent}
    (h : (∃ hash reason, p = rejected hash reason) ∨ ∃ temp before inside after, events = before ++ (inside ++ after) ∧
      v.Judged host patch env temp p inside) : v.Settled host patch env p events := by
  have hrejected : (∃ hash reason, p = rejected hash reason) → v.Settled host patch env p events := by
    rintro ⟨hash, reason, rfl⟩
    exact ⟨fun _ => ⟨rfl, rfl⟩, nofun⟩
  rcases h with hno | ⟨temp, before, inside, after, rfl, hno | ⟨taken, rest, rfl, htaken, hverdict⟩⟩
  · exact hrejected hno
  · exact hrejected hno
  · obtain ⟨happlied, hhash, hpassed, between, runs, tail, rfl, hran⟩ := hverdict
    constructor
    · intro h
      rw [happlied] at h
      cases h
    · refine fun _ => ⟨hhash, temp, before, taken, between, runs, tail ++ after, ?_, htaken, hran, ?_⟩
      · simp only [List.append_assoc]
      · rw [hpassed, Bool.and_eq_true, hran.all_passed_iff, hran.isEmpty_eq, Bool.not_eq_true', List.isEmpty_eq_false_iff]

/-- A result that says that the patch passed stands for a worktree in which the very patch was checked and applied and
every verification command was run behind it and answered 0, and any other result of an applied patch for one that did
not; a patch that was not applied has not passed and has no steps. -/
theorem verify_verdict (repoPath : Str) (extraEnv : Str → Option Str) :
    Logs (v.verify host repoPath patch baseRef extraEnv) fun r events =>
      ∀ p, r = .ok p → v.Settled host patch (v.env host extraEnv) p events :=
  (v.verify_logs host patch baseRef repoPath extraEnv).mono fun _ _ h p hp => settled_of_logs (h.2 p hp)

end Verify

end WorktreePatchVerifier

end Logs

end FailureOrchestrator
