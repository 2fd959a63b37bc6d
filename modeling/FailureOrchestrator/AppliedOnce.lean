import FailureOrchestrator.ApplyFix
import FailureOrchestrator.SessionRuns

namespace FailureOrchestrator

open Exec

/-- Nothing but the number of commands has changed. -/
structure Bench.Same (w w' : Bench) : Prop where
  journal : w'.journal = w.journal
  heads : w'.target.heads = w.target.heads
  remoteHeads : w'.target.remoteHeads = w.target.remoteHeads

/-- The events of the run's audit log. -/
abbrev Bench.events (env : Env) (w : Bench) : List AuditEvent := (w.journal.store env).events

/-- The events tell that the patch was applied. -/
def LoggedIn (events : List AuditEvent) : Prop := ∃ e ∈ events, e.eventType = AuditEventType.targetPatchApplied.value

theorem LoggedIn.mono {events events' : List AuditEvent} (h : LoggedIn events) (hmore : events <+: events') :
    LoggedIn events' := by
  obtain ⟨e, he, htype⟩ := h
  exact ⟨e, hmore.subset he, htype⟩

section Gates

variable [UnicodeData]

/-- What the gates have read when they let a call pass. -/
structure ClearedFix (host : CommandHost) (s : RunStore) (c : ApplyCall) (g : ApprovedFix) : Prop where
  state : s.state = some g.run
  consistent : verifyRunConsistency s g.run = []
  approved : g.run.workflowStatus = RunStatus.approved.value
  metadata : c.fix.metadata = some (.ok g.metadata)
  finalPatch : c.fix.finalPatch = some (.text g.patch)
  remediation : ∀ r, c.fix.remediation = some r → ∃ record, r = .ok record ∧ record.state ∉ blockingRemediationStates
  hash : host.sha256 g.patch = g.metadata.patchSha256
  files : parsePatchFiles g.patch = g.metadata.filesChanged
  violation : patchViolation g.patch = none
  unapplied : ∀ e ∈ s.events, e.eventType ≠ AuditEventType.targetPatchApplied.value
  filesEq : g.files = parsePatchFiles g.patch

omit [UnicodeData] in
theorem checkRun_ok {s : RunStore} {c : ApplyCall} {d : DurableRunState} (h : checkRun s c = .ok d) :
    s.state = some d ∧ verifyRunConsistency s d = [] ∧ d.workflowStatus = RunStatus.approved.value := by
  unfold checkRun at h
  split at h
  next => cases h
  next d' hload =>
    obtain ⟨_, -, h⟩ := bind_eq_ok h
    split at h
    next => cases h
    next hissues =>
      split at h
      next => cases h
      next hstatus =>
        cases h
        exact ⟨loadRun_state hload, not_not.mp hissues, not_not.mp hstatus⟩

omit [UnicodeData] in
theorem checkRemediation_ok {fix : FixRepoFiles} (h : checkRemediation fix = .ok ()) {r : Except RunError RemediationRecord}
    (hr : fix.remediation = some r) : ∃ record, r = .ok record ∧ record.state ∉ blockingRemediationStates := by
  unfold checkRemediation at h
  rw [hr] at h
  cases r with
  | error e => cases h
  | ok record =>
    refine ⟨record, rfl, fun hin => ?_⟩
    simp only [hin, if_true] at h
    cases h

omit [UnicodeData] in
theorem PatchFile.decode_ok {file : PatchFile} {patch : Str} (h : file.decode = .ok patch) : file = .text patch := by
  cases file with
  | text p => exact congrArg PatchFile.text (Except.ok.inj h)
  | undecodable digest e => cases h

theorem checkPatch_ok {host : CommandHost} {d : DurableRunState} {metadata : Except RunError FixMetadata}
    {file : PatchFile} {g : ApprovedFix} (h : checkPatch host d metadata file = .ok g) :
    g.run = d ∧ metadata = .ok g.metadata ∧ file = .text g.patch ∧ host.sha256 g.patch = g.metadata.patchSha256 ∧
      parsePatchFiles g.patch = g.metadata.filesChanged ∧ patchViolation g.patch = none ∧
      g.files = parsePatchFiles g.patch := by
  unfold checkPatch at h
  split at h
  next => cases h
  next metadata =>
    split at h
    next => cases h
    next hhash =>
      split at h
      next => cases h
      next patch hdecode =>
        obtain rfl := PatchFile.decode_ok hdecode
        split at h
        next => cases h
        next hfiles =>
          split at h
          next => cases h
          next hviolation =>
            cases h
            exact ⟨rfl, rfl, rfl, not_not.mp hhash, not_not.mp hfiles, hviolation, rfl⟩

omit [UnicodeData] in
theorem checkUnapplied_ok {s : RunStore} {raises : Option RunError} (h : checkUnapplied s raises = .ok ()) :
    ∀ e ∈ s.events, e.eventType ≠ AuditEventType.targetPatchApplied.value := by
  obtain ⟨_, -, h⟩ := bind_eq_ok h
  split at h
  next => cases h
  next hevents => exact fun e he htype => hevents ⟨e, he, htype⟩

theorem applyGates_ok {host : CommandHost} {s : RunStore} {c : ApplyCall} {g : ApprovedFix}
    (h : applyGates host s c = .ok g) : ClearedFix host s c g := by
  obtain ⟨d, hrun, h⟩ := bind_eq_ok h
  obtain ⟨hstate, hconsistent, happroved⟩ := checkRun_ok hrun
  split at h
  next metadata file hmetadata hfile =>
    obtain ⟨_, hremediation, h⟩ := bind_eq_ok h
    obtain ⟨g', hpatch, h⟩ := bind_eq_ok h
    obtain ⟨_, hunapplied, h⟩ := bind_eq_ok h
    cases h
    obtain ⟨rfl, rfl, rfl, hhash, hfiles, hviolation, hfilesEq⟩ := checkPatch_ok hpatch
    exact {
      state := hstate
      consistent := hconsistent
      approved := happroved
      metadata := hmetadata
      finalPatch := hfile
      remediation := fun r hr => checkRemediation_ok hremediation hr
      hash := hhash
      files := hfiles
      violation := hviolation
      unapplied := checkUnapplied_ok hunapplied
      filesEq := hfilesEq }
  next => cases h

/-- What lets a call create a branch: its gates have passed, the branch is not protected, and git lists changed files of
the verified patch alone. -/
structure Allowed (env : Env) (host : CommandHost) (c : ApplyCall) (w : Bench) (head : Head) : Prop where
  cleared : ∃ g, ClearedFix host (w.journal.store env) c g ∧ ∃ n,
    diffNames (host.answer n head.repo (diffArgs g.metadata.baseCommit head.commit)) ≠ [] ∧
    ∀ name ∈ diffNames (host.answer n head.repo (diffArgs g.metadata.baseCommit head.commit)),
      name ∈ parsePatchFiles g.patch
  unprotected : ∃ n, UnicodeData.lower (removePrefix "refs/heads/".toList head.branch) ∉
    protectedNames c.remote (host.answer n head.repo (symbolicRefArgs c.remote))
  live : c.dryRun = false

end Gates

/-- `update-ref` has created the branch and reported a failure all the same, as when it ran out of time. -/
def Unconfirmed (host : CommandHost) (head : Head) : Prop :=
  ∃ n, host.reached n = true ∧ (host.answer n head.repo (updateRefArgs head.branch head.commit)).returncode ≠ 0

/-- What a call leaves that has created a branch; the branch is new. Of the remote it changes at most this branch, when it
was asked to and found no such branch there. -/
structure Wrote (env : Env) (c : ApplyCall) (w w' : Bench) (head : Head) : Prop where
  fresh : w.target.has head.repo head.branch = false
  heads : w'.target.heads = head :: w.target.heads
  events : w.events env <+: w'.events env
  remoteHeads : w'.target.remoteHeads = w.target.remoteHeads ∨
    (w'.target.remoteHeads = ⟨c.remote, head⟩ :: w.target.remoteHeads ∧ (c.push = true ∨ c.openPr = true) ∧
      w.target.remoteHas head.repo c.remote head.branch = false)

section Rules

variable {env : Env} {host : CommandHost} {w₀ : Bench} {P : Bench → Prop} {E : ApplyStop → Bench → Prop}

theorem Bench.Same.refl (w : Bench) : w.Same w := ⟨rfl, rfl, rfl⟩

theorem Bench.Same.tick {w : Bench} (h : w₀.Same w) : w₀.Same w.tick := ⟨h.journal, h.heads, h.remoteHeads⟩

theorem require_triple {c : Prop} [Decidable c] {message : Str} (h : ∀ w, P w → ¬ c → E (.blocked message) w) :
    Triple P (require c message) (fun _ w => c ∧ P w) E := by
  unfold require
  apply Triple.cond
  · exact fun hc => Triple.ret fun w hw => ⟨hc, hw⟩
  · exact fun hc => Triple.raise fun w hw => h w hw hc

theorem disturb_triple {raises : Nat → Option RunError} (h : ∀ e w, P w → E (.raised e) w) :
    Triple P (disturb raises) (fun _ w => P w) E := by
  intro w hw
  unfold disturb
  cases raises w.target.commands with
  | none => exact hw
  | some e => exact h e w hw

/-- A command that changes no branch is not noticed by what does not count commands. -/
theorem git_triple {repo : Str} {args : List Str} (h : ∀ e w, P w → E (.raised e) w) (htick : ∀ w, P w → P w.tick) :
    Triple P (git host repo args) (fun done w => (∃ n, done = host.answer n repo args) ∧ P w) E := by
  apply Triple.bind (disturb_triple h)
  exact fun _ w hw => ⟨⟨_, rfl⟩, htick w hw⟩

theorem Completed.failed_code {done : Completed} {code : Int} (h : code ≠ 0) : (done.failed code).returncode ≠ 0 := by
  unfold Completed.failed
  split
  next => exact h
  next hcode => exact hcode

theorem onStore_triple {α : Type} {x : Exec Journal RunError α} {Q : α → Bench → Prop}
    (h : ∀ w, P w → Triple (fun j => j = w.journal) x (fun a j => Q a { w with journal := j })
      fun e j => E (.raised e) { w with journal := j }) : Triple P (onStore x) Q E := by
  intro w hw
  have hx := h w hw w.journal rfl
  unfold onStore
  rcases hxw : x w.journal with ⟨e | a, j⟩
  · rw [hxw] at hx
    exact hx
  · rw [hxw] at hx
    exact hx

/-- No call of the store takes an event away. -/
theorem events_extended (j : Journal) (op : StoreOp) (done : Bool) :
    (j.store env).events <+: ((j.call op done).store env).events := by
  rw [Journal.store_call]
  cases done with
  | false => exact List.prefix_refl _
  | true =>
    cases op with
    | append e => exact ⟨[e], rfl⟩
    | createRun | saveRun | write => exact List.prefix_refl _

theorem perform_extends {events : List AuditEvent} {op : StoreOp} :
    Triple (fun j => events <+: (j.store env).events) (perform env op) (fun _ j => events <+: (j.store env).events)
      fun _ j => events <+: (j.store env).events :=
  perform_triple (fun j hj _ => hj.trans (events_extended j op true)) fun j _ hj => hj.trans (events_extended j op false)

/-- An operator's event is in the log when the call returns. -/
theorem appendOperatorEvent_logged {events : List AuditEvent} {c : OperatorCall} :
    Triple (fun j => events <+: (j.store env).events) (appendOperatorEvent env c)
      (fun _ j => events <+: (j.store env).events ∧ ∃ e ∈ (j.store env).events, e.eventType = c.eventType.value)
      fun _ j => events <+: (j.store env).events := by
  unfold appendOperatorEvent
  apply Triple.read_keep
  intro j hj
  apply Triple.bind (Q := fun _ j => events <+: (j.store env).events)
  · exact Triple.lift (fun _ _ _ h => h) fun _ _ _ h => h
  intro d
  apply Triple.bind (Q := fun _ j => events <+: (j.store env).events ∧
    ∃ e ∈ (j.store env).events, e.eventType = c.eventType.value)
  · apply appendNext_triple
    · intro j id hj hrefusal
      refine ⟨hj.trans (events_extended _ _ _), ?_⟩
      rw [Journal.append_events]
      exact ⟨_, List.mem_concat_self, rfl⟩
    · exact fun j e message hj => hj.trans (events_extended _ _ _)
  intro n
  apply Triple.bind (Q := fun _ j => events <+: (j.store env).events ∧
    ∃ e ∈ (j.store env).events, e.eventType = c.eventType.value)
  · apply perform_triple
    · rintro j ⟨hj, e, he, htype⟩ -
      exact ⟨hj.trans (events_extended _ _ _), e, (events_extended _ _ _).subset he, htype⟩
    · rintro j message ⟨hj, -⟩
      exact hj.trans (events_extended _ _ _)
  exact fun _ => Triple.ret fun _ h => h

end Rules

section Call

variable [UnicodeData] {env : Env} {host : CommandHost} {c : ApplyCall} {g : ApprovedFix} {w₀ : Bench} {head : Head}

/-- The call ends before it has changed anything. -/
def StoppedEarly (w₀ : Bench) (_ : ApplyStop) (w : Bench) : Prop := w₀.Same w

omit [UnicodeData] in
theorem disturb_same {raises : Nat → Option RunError} {facts : Prop} :
    Triple (fun w => facts ∧ w₀.Same w) (disturb raises) (fun _ w => facts ∧ w₀.Same w) (StoppedEarly w₀) :=
  disturb_triple fun _ _ h => h.2

omit [UnicodeData] in
theorem require_same {p : Prop} [Decidable p] {message : Str} {facts : Prop} :
    Triple (fun w => facts ∧ w₀.Same w) (require p message) (fun _ w => (p ∧ facts) ∧ w₀.Same w) (StoppedEarly w₀) :=
  (require_triple (P := fun w => facts ∧ w₀.Same w) fun _ h _ => h.2).mono (fun _ h => h)
    (fun _ _ h => ⟨⟨h.1, h.2.1⟩, h.2.2⟩) fun _ _ h => h

omit [UnicodeData] in
theorem git_same {repo : Str} {args : List Str} {facts : Prop} :
    Triple (fun w => facts ∧ w₀.Same w) (git host repo args)
      (fun done w => ((∃ n, done = host.answer n repo args) ∧ facts) ∧ w₀.Same w) (StoppedEarly w₀) :=
  (git_triple (P := fun w => facts ∧ w₀.Same w) (fun _ _ h => h.2) fun _ h => ⟨h.1, h.2.tick⟩).mono (fun _ h => h)
    (fun _ _ h => ⟨⟨h.1, h.2.1⟩, h.2.2⟩) fun _ _ h => h

omit [UnicodeData] in
theorem gitStep_same {repo label : Str} {args : List Str} {facts : Prop} :
    Triple (fun w => facts ∧ w₀.Same w) (gitStep host repo label args) (fun _ w => facts ∧ w₀.Same w) (StoppedEarly w₀) := by
  apply Triple.bind git_same
  intro done
  apply Triple.bind require_same
  exact fun _ => Triple.ret fun _ h => ⟨h.1.2.2, h.2⟩

/-- The name of the branch is none of the protected ones. -/
def TargetChecked (host : CommandHost) (c : ApplyCall) (repo branch : Str) : Prop :=
  ∃ n, UnicodeData.lower (removePrefix "refs/heads/".toList branch) ∉
    protectedNames c.remote (host.answer n repo (symbolicRefArgs c.remote))

omit [UnicodeData] in
theorem revParse_same {repo branch : Str} {facts : Prop} : Triple (fun w => facts ∧ w₀.Same w) (revParse host repo branch)
    (fun _ w => facts ∧ w₀.Same w) (StoppedEarly w₀) := by
  apply Triple.bind disturb_same
  exact fun _ w h => ⟨h.1, h.2.tick⟩

theorem checkTarget_same : Triple (fun w => True ∧ w₀.Same w) (checkTarget host c g)
    (fun _ w => TargetChecked host c (c.repo host g) c.branchName ∧ w₀.Same w) (StoppedEarly w₀) := by
  apply Triple.bind require_same
  intro _
  apply Triple.bind git_same
  intro base
  apply Triple.bind require_same
  intro _
  apply Triple.bind git_same
  intro format
  apply Triple.bind require_same
  intro _
  apply Triple.bind (Q := fun names w => (∃ n, names =
    protectedNames c.remote (host.answer n (c.repo host g) (symbolicRefArgs c.remote))) ∧ w₀.Same w)
  · apply Triple.bind git_same
    rintro done
    apply Triple.ret
    rintro w ⟨⟨⟨n, rfl⟩, -⟩, hsame⟩
    exact ⟨⟨n, rfl⟩, hsame⟩
  intro names
  apply Triple.bind require_same
  intro _
  apply Triple.bind revParse_same
  intro existing
  refine require_same.mono (fun _ h => h) ?_ fun _ _ h => h
  rintro _ w ⟨⟨-, hnot, n, rfl⟩, hsame⟩
  exact ⟨⟨n, hnot⟩, hsame⟩

omit [UnicodeData] in
theorem stagePatch_same {facts : Prop} :
    Triple (fun w => facts ∧ w₀.Same w) (stagePatch host c g) (fun _ w => facts ∧ w₀.Same w) (StoppedEarly w₀) := by
  apply Triple.bind gitStep_same
  intro _
  apply Triple.bind gitStep_same
  exact fun _ => Triple.ret fun _ h => h

/-- The commit differs from its base, and only in files of the verified patch. -/
def CommitChecked (host : CommandHost) (g : ApprovedFix) (repo commit : Str) : Prop :=
  ∃ n, diffNames (host.answer n repo (diffArgs g.metadata.baseCommit commit)) ≠ [] ∧
    ∀ name ∈ diffNames (host.answer n repo (diffArgs g.metadata.baseCommit commit)), name ∈ g.files

omit [UnicodeData] in
theorem inTemporary_same {α : Type} {x : Apply α} {facts : Prop} {result : α → Prop}
    (hx : Triple (fun w => facts ∧ w₀.Same w) x (fun a w => result a ∧ w₀.Same w) (StoppedEarly w₀)) :
    Triple (fun w => facts ∧ w₀.Same w) (inTemporary host x) (fun a w => result a ∧ w₀.Same w) (StoppedEarly w₀) := by
  apply Triple.bind disturb_same
  intro _
  apply Triple.bind (Q := fun a w => result a ∧ w₀.Same w)
  · apply Triple.handle hx
    intro stop
    apply Triple.bind (Q := fun _ w => w₀.Same w)
    · exact disturb_triple fun _ _ h => h
    · exact fun _ => Triple.raise fun _ h => h
  intro a
  apply Triple.bind disturb_same
  exact fun _ => Triple.ret fun _ h => h

theorem commitTree_same {facts : Prop} : Triple (fun w => facts ∧ w₀.Same w) (commitTree host c g)
    (fun _ w => facts ∧ w₀.Same w) (StoppedEarly w₀) := by
  apply Triple.bind gitStep_same
  intro tree
  apply Triple.bind git_same
  intro commit
  apply Triple.bind require_same
  exact fun _ => Triple.ret fun _ h => ⟨h.1.2.2, h.2⟩

/-- Only a call that is no dry run has a commit. -/
theorem stageAndCommit_same {facts : Prop} : Triple (fun w => facts ∧ w₀.Same w) (stageAndCommit host c g)
    (fun commit w => (facts ∧ (commit ≠ none → c.dryRun = false)) ∧ w₀.Same w) (StoppedEarly w₀) := by
  apply Triple.bind stagePatch_same
  intro _
  apply Triple.cond
  · exact fun _ => Triple.ret fun w h => ⟨⟨h.1, fun hsome => absurd rfl hsome⟩, h.2⟩
  · intro hlive
    apply Triple.bind commitTree_same
    exact fun _ => Triple.ret fun w h => ⟨⟨h.1, fun _ => by simpa using hlive⟩, h.2⟩

theorem checkCommit_same {commit : Str} {facts : Prop} :
    Triple (fun w => facts ∧ w₀.Same w) (checkCommit host c g commit)
      (fun _ w => (CommitChecked host g (c.repo host g) commit ∧ facts) ∧ w₀.Same w) (StoppedEarly w₀) := by
  apply Triple.bind git_same
  intro diff
  apply Triple.bind require_same
  intro _
  apply Triple.ret
  rintro w ⟨⟨⟨hne, hall⟩, ⟨n, rfl⟩, hfacts⟩, hsame⟩
  exact ⟨⟨⟨n, hne, hall⟩, hfacts⟩, hsame⟩

/-- How a call can end early that has created a branch. -/
def Escaped (env : Env) (host : CommandHost) (c : ApplyCall) (w₀ : Bench) (head : Head) (e : ApplyStop) (w : Bench) : Prop :=
  ((∃ error, e = .raised error) ∨ Unconfirmed host head) ∧ Wrote env c w₀ w head

omit [UnicodeData] in
/-- A branch that is there already is never written. -/
theorem updateRef_same (hhas : w₀.target.has head.repo head.branch = true) :
    Triple (fun w => w₀.Same w) (updateRef host head.repo head.branch head.commit)
      (fun done w => done.returncode ≠ 0 ∧ w₀.Same w) (StoppedEarly w₀) := by
  apply Triple.bind (Q := fun _ w => w₀.Same w)
  · exact disturb_triple fun _ _ h => h
  intro _ w hsame
  have hthere : w.target.has head.repo head.branch = true := by
    unfold Target.has at hhas ⊢
    rw [hsame.heads]
    exact hhas
  simp only [hthere, if_true]
  exact ⟨Completed.failed_code (by decide), hsame.tick⟩

omit [UnicodeData] in
theorem updateRef_wrote (hfresh : w₀.target.has head.repo head.branch = false) :
    Triple (fun w => w₀.Same w) (updateRef host head.repo head.branch head.commit)
      (fun done w => (done.returncode ≠ 0 ∧ w₀.Same w) ∨
        (done.returncode ≠ 0 → Unconfirmed host head) ∧ Wrote env c w₀ w head ∧
          w.target.remoteHeads = w₀.target.remoteHeads) (StoppedEarly w₀) := by
  apply Triple.bind (Q := fun _ w => w₀.Same w)
  · exact disturb_triple fun _ _ h => h
  intro _ w hsame
  have hnew : w.target.has head.repo head.branch = false := by
    unfold Target.has at hfresh ⊢
    rw [hsame.heads]
    exact hfresh
  by_cases hdone : (host.answer w.target.commands head.repo (updateRefArgs head.branch head.commit)).returncode = 0 ∨
      host.reached w.target.commands = true
  · simp only [hnew, Bool.false_eq_true, if_false, if_pos hdone]
    refine .inr ⟨fun hcode => ⟨w.target.commands, hdone.resolve_left hcode, hcode⟩, ?_, hsame.remoteHeads⟩
    exact {
      fresh := hfresh
      heads := by rw [← hsame.heads]
      events := by
        unfold Bench.events
        rw [← hsame.journal]
        exact List.prefix_refl _
      remoteHeads := .inl hsame.remoteHeads }
  · simp only [hnew, Bool.false_eq_true, if_false, if_neg hdone]
    exact .inl ⟨(not_or.mp hdone).1, hsame.tick⟩

omit [UnicodeData] in
theorem createBranch_wrote :
    Triple (fun w => w₀.Same w) (createBranch host head)
      (fun _ w => Wrote env c w₀ w head ∧ w.target.remoteHeads = w₀.target.remoteHeads)
      fun e w => StoppedEarly w₀ e w ∨ Escaped env host c w₀ head e w := by
  apply Triple.bind (Q := fun done w => (done.returncode ≠ 0 ∧ w₀.Same w) ∨
    (done.returncode ≠ 0 → Unconfirmed host head) ∧ Wrote env c w₀ w head ∧ w.target.remoteHeads = w₀.target.remoteHeads)
  · cases hhas : w₀.target.has head.repo head.branch with
    | true => exact (updateRef_same hhas).mono (fun _ h => h) (fun _ _ h => .inl h) fun _ _ h => .inl h
    | false => exact (updateRef_wrote hhas).mono (fun _ h => h) (fun _ _ h => h) fun _ _ h => .inl h
  intro done
  apply Triple.cond
  · intro hcode
    exact Triple.ret fun w h => (h.resolve_left fun hrefused => hrefused.1 hcode).2
  · intro hcode
    apply Triple.raise
    rintro w (⟨-, hsame⟩ | ⟨hunconfirmed, hwrote, -⟩)
    · exact .inl hsame
    · exact .inr ⟨.inr (hunconfirmed hcode), hwrote⟩

omit [UnicodeData] in
/-- What is written to the store in a call that has created a branch. -/
theorem onStore_wrote {α : Type} {x : Exec Journal RunError α} {facts : α → List AuditEvent → Prop}
    {known : List AuditEvent → Prop}
    (h : ∀ events, known events → Triple (fun j => events <+: (j.store env).events) x
      (fun a j => events <+: (j.store env).events ∧ facts a (j.store env).events)
      fun _ j => events <+: (j.store env).events) :
    Triple (fun w => known (w.events env) ∧ Wrote env c w₀ w head) (onStore x)
      (fun a w => facts a (w.events env) ∧ Wrote env c w₀ w head) (Escaped env host c w₀ head) := by
  apply onStore_triple
  rintro w ⟨hknown, hwrote⟩
  refine (h (w.events env) hknown).mono ?_ ?_ ?_
  · rintro j rfl
    exact List.prefix_refl _
  · rintro a j ⟨hmore, hfacts⟩
    exact ⟨hfacts, { hwrote with events := hwrote.events.trans hmore }⟩
  · rintro e j hmore
    exact ⟨.inl ⟨e, rfl⟩, { hwrote with events := hwrote.events.trans hmore }⟩

omit [UnicodeData] in
theorem recordApplied_wrote {names : List Str} :
    Triple (fun w => Wrote env c w₀ w head) (recordApplied env c g head names)
      (fun _ w => LoggedIn (w.events env) ∧ Wrote env c w₀ w head) (Escaped env host c w₀ head) := by
  apply Triple.bind (Q := fun _ w => True ∧ Wrote env c w₀ w head)
  · refine (@onStore_wrote env host c w₀ head _ _ (fun _ _ => True) (fun _ => True) ?_).mono (fun _ h => ⟨trivial, h⟩)
      (fun _ _ h => h) fun _ _ h => h
    intro events _
    exact perform_extends.mono (fun _ h => h) (fun _ _ h => ⟨h, trivial⟩) fun _ _ h => h
  intro _
  apply Triple.bind (Q := fun _ w => LoggedIn (w.events env) ∧ Wrote env c w₀ w head)
  · refine @onStore_wrote env host c w₀ head _ _ (fun _ => LoggedIn) (fun _ => True) ?_
    exact fun events _ => appendOperatorEvent_logged
  exact fun _ => Triple.ret fun _ h => h

omit [UnicodeData] in
/-- An operator's event keeps what the log told. -/
theorem operatorEvent_wrote {call : OperatorCall} :
    Triple (fun w => LoggedIn (w.events env) ∧ Wrote env c w₀ w head) (onStore (appendOperatorEvent env call))
      (fun _ w => LoggedIn (w.events env) ∧ Wrote env c w₀ w head) (Escaped env host c w₀ head) := by
  refine @onStore_wrote env host c w₀ head _ _ (fun _ => LoggedIn) LoggedIn ?_
  intro events hknown
  exact appendOperatorEvent_logged.mono (fun _ h => h) (fun _ _ h => ⟨h.1, hknown.mono h.1⟩) fun _ _ h => h

omit [UnicodeData] in
/-- What starts a command may raise once the branch is there. -/
theorem disturb_wrote {facts : Bench → Prop} {raises : Nat → Option RunError} :
    Triple (fun w => facts w ∧ Wrote env c w₀ w head) (disturb raises) (fun _ w => facts w ∧ Wrote env c w₀ w head)
      (Escaped env host c w₀ head) :=
  disturb_triple fun e _ h => ⟨.inl ⟨e, rfl⟩, h.2⟩

/-- What a call that has published leaves. -/
def Finished (env : Env) (c : ApplyCall) (w₀ : Bench) (head : Head) (r : ApplyResult) (w : Bench) : Prop :=
  (r.status = .applied ∨ r.status = .partlyApplied) ∧ LoggedIn (w.events env) ∧ Wrote env c w₀ w head

omit [UnicodeData] in
theorem Finished.degrade {r : ApplyResult} {w : Bench} {text : Str} {nextSteps : List Str}
    (h : LoggedIn (w.events env) ∧ Wrote env c w₀ w head) : Finished env c w₀ head (r.degrade text nextSteps) w :=
  ⟨.inr rfl, h⟩

omit [UnicodeData] in
/-- A remote that has the branch lists it. -/
theorem lsRemote_wrote :
    Triple (fun w => (LoggedIn (w.events env) ∧ w.target.remoteHeads = w₀.target.remoteHeads) ∧ Wrote env c w₀ w head)
      (lsRemote host head.repo c.remote head.branch)
      (fun done w => ((strip done.stdout = [] → w₀.target.remoteHas head.repo c.remote head.branch = false) ∧
        LoggedIn (w.events env) ∧ w.target.remoteHeads = w₀.target.remoteHeads) ∧ Wrote env c w₀ w head)
      (Escaped env host c w₀ head) := by
  apply Triple.bind disturb_wrote
  rintro _ w ⟨⟨hlogged, hremote⟩, hwrote⟩
  refine ⟨⟨fun hempty => ?_, hlogged, hremote⟩, { hwrote with }⟩
  by_contra htrue
  have hhas : w.target.remoteHas head.repo c.remote head.branch = true := by
    unfold Target.remoteHas at htrue ⊢
    rw [hremote]
    simpa using htrue
  simp only [hhas, if_true] at hempty
  have hspace := (strip_eq_nil_iff _).mp hempty 'r' (List.mem_append_left _ (by decide))
  exact absurd hspace (by decide)

omit [UnicodeData] in
/-- Pushing adds at most the new branch to the remote. -/
theorem pushBranch_wrote (hasked : c.push = true ∨ c.openPr = true)
    (hnone : w₀.target.remoteHas head.repo c.remote head.branch = false) :
    Triple (fun w => (LoggedIn (w.events env) ∧ w.target.remoteHeads = w₀.target.remoteHeads) ∧ Wrote env c w₀ w head)
      (pushBranch host c.remote head) (fun _ w => LoggedIn (w.events env) ∧ Wrote env c w₀ w head)
      (Escaped env host c w₀ head) := by
  apply Triple.bind disturb_wrote
  rintro _ w ⟨⟨hlogged, hremote⟩, hwrote⟩
  by_cases harrived : (host.answer w.target.commands head.repo ["push".toList, "--set-upstream".toList, c.remote,
      "refs/heads/".toList ++ head.branch ++ ":refs/heads/".toList ++ head.branch]).returncode = 0 ∨
      host.reached w.target.commands = true
  · simp only [if_pos harrived]
    exact ⟨hlogged, { hwrote with remoteHeads := .inr ⟨by rw [← hremote], hasked, hnone⟩ }⟩
  · simp only [if_neg harrived]
    exact ⟨hlogged, { hwrote with remoteHeads := .inl hremote }⟩

omit [UnicodeData] in
theorem publishBranch_finished {r : ApplyResult} (hasked : c.push = true ∨ c.openPr = true) (hr : r.status = .applied) :
    Triple (fun w => (LoggedIn (w.events env) ∧ w.target.remoteHeads = w₀.target.remoteHeads) ∧ Wrote env c w₀ w head)
      (publishBranch env host c head r) (fun r w => Finished env c w₀ head r w) (Escaped env host c w₀ head) := by
  apply Triple.bind lsRemote_wrote
  intro existing
  apply Triple.cond
  · exact fun _ => Triple.ret fun w h => .degrade ⟨h.1.2.1, h.2⟩
  intro _
  apply Triple.cond
  · exact fun _ => Triple.ret fun w h => .degrade ⟨h.1.2.1, h.2⟩
  intro hempty
  apply Triple.bind (Q := fun _ w => LoggedIn (w.events env) ∧ Wrote env c w₀ w head)
  · rintro w ⟨⟨hnone, hlogged⟩, hwrote⟩
    exact pushBranch_wrote hasked (hnone (not_not.mp hempty)) w ⟨hlogged, hwrote⟩
  intro pushed
  apply Triple.cond
  · exact fun _ => Triple.ret fun w h => .degrade h
  intro _
  apply Triple.bind operatorEvent_wrote
  exact fun _ => Triple.ret fun w h => ⟨.inl hr, h⟩

omit [UnicodeData] in
theorem publishPullRequest_finished {r : ApplyResult} (hr : r.status = .applied) :
    Triple (fun w => LoggedIn (w.events env) ∧ Wrote env c w₀ w head) (publishPullRequest env host c head r)
      (fun r w => Finished env c w₀ head r w) (Escaped env host c w₀ head) := by
  apply Triple.cond
  · exact fun _ => Triple.ret fun w h => .degrade h
  intro _
  apply Triple.bind (Q := fun _ w => LoggedIn (w.events env) ∧ Wrote env c w₀ w head)
  · apply Triple.bind disturb_wrote
    exact fun _ w h => ⟨h.1, { h.2 with }⟩
  intro done
  cases done with
  | none => exact Triple.ret fun w h => .degrade h
  | some pr =>
    apply Triple.cond
    · exact fun _ => Triple.ret fun w h => .degrade h
    intro _
    apply Triple.bind operatorEvent_wrote
    exact fun _ => Triple.ret fun w h => ⟨.inl hr, h⟩

omit [UnicodeData] in
theorem publish_finished {r : ApplyResult} (hr : r.status = .applied) :
    Triple (fun w => (LoggedIn (w.events env) ∧ w.target.remoteHeads = w₀.target.remoteHeads) ∧ Wrote env c w₀ w head)
      (publish env host c head r) (fun r w => Finished env c w₀ head r w) (Escaped env host c w₀ head) := by
  apply Triple.cond
  · intro hasked
    apply Triple.bind (publishBranch_finished hasked hr)
    intro r'
    apply Triple.cond
    · exact fun _ => Triple.ret fun _ h => h
    · intro hlive
      have hstatus : r'.status ≠ .partlyApplied := fun h => hlive (.inl h)
      refine Triple.mono (P := fun w => r'.status = .applied ∧ LoggedIn (w.events env) ∧ Wrote env c w₀ w head)
        (Triple.given publishPullRequest_finished) ?_ (fun _ _ h => h) fun _ _ h => h
      exact fun w h => ⟨h.1.resolve_right hstatus, h.2⟩
  · exact fun _ => Triple.ret fun w h => ⟨.inl hr, h.1.1, h.2⟩

omit [UnicodeData] in
theorem onStore_target {α : Type} {x : Exec Journal RunError α} {t : Target} :
    Triple (fun w => w.target = t) (onStore x) (fun _ w => w.target = t) fun _ w => w.target = t :=
  onStore_triple fun _ hw => Triple.of_forall (fun _ _ => hw) fun _ _ => hw

omit [UnicodeData] in
theorem recordApplied_target {names : List Str} {t : Target} : Triple (fun w => w.target = t)
    (recordApplied env c g head names) (fun _ w => w.target = t) fun _ w => w.target = t := by
  apply Triple.bind onStore_target
  intro _
  apply Triple.bind onStore_target
  exact fun _ => Triple.ret fun _ h => h

omit [UnicodeData] in
theorem recordApplied_kept {names : List Str} :
    Triple (fun w => Wrote env c w₀ w head ∧ w.target.remoteHeads = w₀.target.remoteHeads) (recordApplied env c g head names)
      (fun _ w => (LoggedIn (w.events env) ∧ w.target.remoteHeads = w₀.target.remoteHeads) ∧ Wrote env c w₀ w head)
      (Escaped env host c w₀ head) := by
  rintro w ⟨hwrote, hremote⟩
  have hwritten : Triple (fun w => Wrote env c w₀ w head) (recordApplied env c g head names)
      (fun _ w => LoggedIn (w.events env) ∧ Wrote env c w₀ w head) (Escaped env host c w₀ head) := recordApplied_wrote
  have h := hwritten.both (recordApplied_target (t := w.target)) w ⟨hwrote, rfl⟩
  rcases hrun : recordApplied env c g head names w with ⟨e | a, w'⟩
  · rw [hrun] at h
    exact h.1
  · rw [hrun] at h
    exact ⟨⟨h.1.1, by rw [h.2, hremote]⟩, h.1.2⟩

omit [UnicodeData] in
/-- A call that has committed its patch is stopped early or has created the branch. -/
theorem finishApply_finished {commit : Str} {names : List Str} :
    Triple (fun w => w₀.Same w) (finishApply env host c g commit names)
      (fun r w => Finished env c w₀ ⟨c.repo host g, c.branchName, commit⟩ r w)
      fun e w => StoppedEarly w₀ e w ∨ Escaped env host c w₀ ⟨c.repo host g, c.branchName, commit⟩ e w := by
  let head : Head := ⟨c.repo host g, c.branchName, commit⟩
  apply Triple.bind (Q := fun _ w => Wrote env c w₀ w head ∧ w.target.remoteHeads = w₀.target.remoteHeads)
  · exact createBranch_wrote
  intro _
  apply Triple.bind (Q := fun _ w => (LoggedIn (w.events env) ∧ w.target.remoteHeads = w₀.target.remoteHeads) ∧
    Wrote env c w₀ w head)
  · exact recordApplied_kept.mono (fun _ h => h) (fun _ _ h => h) fun _ _ h => .inr h
  intro _
  apply Triple.bind (Q := fun r w => Finished env c w₀ head r w)
  · exact (publish_finished rfl).mono (fun _ h => h) (fun _ _ h => h) fun _ _ h => .inr h
  exact fun _ => Triple.ret fun _ h => h

/-- How a call ends that was let create its branch. -/
def Branched (env : Env) (host : CommandHost) (c : ApplyCall) (w : Bench) (result : Except ApplyStop ApplyResult)
    (w' : Bench) : Prop :=
  ∃ head, Allowed env host c w head ∧
    match result with
    | .ok r => Finished env c w head r w'
    | .error e => Escaped env host c w head e w'

theorem applyBody_outcome (w₀ : Bench) : Triple (fun w => w = w₀) (applyBody env host c)
    (fun r w => (r.status = .dryRun ∧ w₀.Same w) ∨ Branched env host c w₀ (.ok r) w)
    fun e w => StoppedEarly w₀ e w ∨ Branched env host c w₀ (.error e) w := by
  apply Triple.read_bind
  intro w hw
  rw [hw]
  apply Triple.bind (Q := fun g w => ClearedFix host (w₀.journal.store env) c g ∧ w₀.Same w)
  · apply Triple.lift
    · rintro g hgates w' rfl
      exact ⟨applyGates_ok hgates, .refl _⟩
    · rintro e - w' rfl
      exact .inl (.refl _)
  intro g
  apply Triple.given
  intro hcleared
  apply Triple.bind (Q := fun _ w' => TargetChecked host c (c.repo host g) c.branchName ∧ w₀.Same w')
  · exact checkTarget_same.mono (fun _ h => ⟨trivial, h⟩) (fun _ _ h => h) fun _ _ h => .inl h
  intro _
  apply Triple.bind (Q := fun commit w' =>
    (TargetChecked host c (c.repo host g) c.branchName ∧ (commit ≠ none → c.dryRun = false)) ∧ w₀.Same w')
  · exact (inTemporary_same stageAndCommit_same).mono (fun _ h => h) (fun _ _ h => h) fun _ _ h => .inl h
  intro commit
  cases commit with
  | none => exact Triple.ret fun w' h => .inl ⟨rfl, h.2⟩
  | some commit =>
    apply Triple.bind (Q := fun _ w' => (CommitChecked host g (c.repo host g) commit ∧
      TargetChecked host c (c.repo host g) c.branchName ∧ (some commit ≠ none → c.dryRun = false)) ∧ w₀.Same w')
    · exact checkCommit_same.mono (fun _ h => h) (fun _ _ h => h) fun _ _ h => .inl h
    intro names
    apply Triple.given
    rintro ⟨⟨n, hne, hall⟩, htarget, hlive⟩
    have hallowed : Allowed env host c w₀ ⟨c.repo host g, c.branchName, commit⟩ := {
      cleared := ⟨g, hcleared, n, hne, fun name h => hcleared.filesEq ▸ hall name h⟩
      unprotected := htarget
      live := hlive nofun }
    exact finishApply_finished.mono (fun _ h => h) (fun _ _ h => .inr ⟨_, hallowed, h⟩) fun _ _ h =>
      h.imp id fun h => ⟨_, hallowed, h⟩

/-- A call changes nothing, or it has created an allowed branch. -/
theorem applyFix_outcome (w₀ : Bench) : Triple (fun w => w = w₀) (applyFix env host c)
    (fun r w => ((r.status = .blocked ∨ r.status = .dryRun) ∧ w₀.Same w) ∨
      ∃ head, Allowed env host c w₀ head ∧ Wrote env c w₀ w head ∧
        (((r.status = .applied ∨ r.status = .partlyApplied) ∧ LoggedIn (w.events env)) ∨
          r.status = .blocked ∧ Unconfirmed host head))
    fun _ w => w₀.Same w ∨ ∃ head, Allowed env host c w₀ head ∧ Wrote env c w₀ w head := by
  apply Triple.handle ((applyBody_outcome w₀).mono (fun _ h => h) ?_ fun _ _ h => h)
  · intro e
    cases e with
    | blocked message =>
      refine Triple.ret ?_
      rintro w (hsame | ⟨head, hallowed, hescaped, hwrote⟩)
      · exact .inl ⟨.inl rfl, hsame⟩
      · refine .inr ⟨head, hallowed, hwrote, .inr ⟨rfl, hescaped.resolve_left ?_⟩⟩
        rintro ⟨error, herror⟩
        cases herror
    | raised error =>
      refine Triple.raise ?_
      rintro w (hsame | ⟨head, hallowed, -, hwrote⟩)
      · exact .inl hsame
      · exact .inr ⟨head, hallowed, hwrote⟩
  · rintro r w (⟨hstatus, hsame⟩ | ⟨head, hallowed, hstatus, hlogged, hwrote⟩)
    · exact .inl ⟨.inr hstatus, hsame⟩
    · exact .inr ⟨head, hallowed, hwrote, .inl ⟨hstatus, hlogged⟩⟩

end Call

section Calls

variable [UnicodeData]

/-- A call that creates no allowed branch leaves everything as it was, however it ends. -/
theorem applyFix_effect (env : Env) (host : CommandHost) (c : ApplyCall) (w : Bench) :
    w.Same (applyFix env host c w).2 ∨
      ∃ head, Allowed env host c w head ∧ Wrote env c w (applyFix env host c w).2 head := by
  have h := @applyFix_outcome _ env host c w w rfl
  rcases hrun : applyFix env host c w with ⟨e | r, w'⟩
  · rw [hrun] at h
    exact h
  · rw [hrun] at h
    exact h.imp (fun h => h.2) fun ⟨head, hallowed, hwrote, _⟩ => ⟨head, hallowed, hwrote⟩

/-- A call changes no branch, no event and no run state, and answers `BLOCKED` or `DRY_RUN` if it returns; or it has created
one allowed branch. Then it has logged that if it returns `APPLIED` or `PARTIAL`; and it returns `BLOCKED` only when
`update-ref` reported a failure after it had created the branch. -/
theorem applyFix_gated (env : Env) (host : CommandHost) (c : ApplyCall) (w : Bench) :
    (w.Same (applyFix env host c w).2 ∧
      ∀ r, (applyFix env host c w).1 = .ok r → r.status = .blocked ∨ r.status = .dryRun) ∨
    ∃ head, Allowed env host c w head ∧ Wrote env c w (applyFix env host c w).2 head ∧
      ∀ r, (applyFix env host c w).1 = .ok r →
        ((r.status = .applied ∨ r.status = .partlyApplied) ∧ LoggedIn ((applyFix env host c w).2.events env)) ∨
          r.status = .blocked ∧ Unconfirmed host head := by
  cases hend : (applyFix env host c w).1 with
  | error e =>
    rcases applyFix_effect env host c w with hsame | ⟨head, hallowed, hwrote⟩
    · exact .inl ⟨hsame, nofun⟩
    · exact .inr ⟨head, hallowed, hwrote, nofun⟩
  | ok r =>
    rcases (applyFix_outcome w).ok rfl hend with ⟨hstatus, hsame⟩ | ⟨head, hallowed, hwrote, hreturned⟩
    · refine .inl ⟨hsame, ?_⟩
      rintro r' ⟨⟩
      exact hstatus
    · refine .inr ⟨head, hallowed, hwrote, ?_⟩
      rintro r' ⟨⟩
      exact hreturned

end Calls

theorem exists_of_isOk {ε α : Type} {x : Except ε α} (h : x.isOk = true) : ∃ a, x = .ok a := by
  cases x with
  | error e => cases h
  | ok a => exact ⟨a, rfl⟩

section Session

variable [PyReview] {env : Env} {host : CommandHost} {runId : Str}

/-- What an operator does to a run. -/
inductive OperatorAction where
  | apply (c : ApplyCall)
  | other (step : OperatorStep)

/-- The same step, for this run. -/
def OperatorStep.forRun (runId : Str) : OperatorStep → OperatorStep
  | .resume _ => .resume runId
  | .decide c => .decide { c with runId }
  | .append c => .append { c with runId }

def ApplyCall.forRun (runId : Str) (c : ApplyCall) : ApplyCall := { c with runId }

/-- A step for the run whose directory this is. -/
def OperatorAction.act (env : Env) (host : CommandHost) (runId : Str) (w : Bench) : OperatorAction → Bench
  | .apply c => (applyFix env host (c.forRun runId) w).2
  | .other step => { w with journal := ((step.forRun runId).exec env w.journal).2 }

/-- The steps for one run, one after the other. -/
def applySession (env : Env) (host : CommandHost) (runId : Str) (steps : List OperatorAction) (w : Bench) : Bench :=
  steps.foldl (OperatorAction.act env host runId) w

/-- No exception leaves a call of `apply_fix`. -/
def Returned (env : Env) (host : CommandHost) (runId : Str) : List OperatorAction → Bench → Prop
  | [], _ => True
  | action :: steps, w => (∀ c, action = .apply c → ∃ r, (applyFix env host (c.forRun runId) w).1 = .ok r) ∧
      Returned env host runId steps (action.act env host runId w)

/-- `update-ref` never creates a branch and reports a failure. -/
def Confirms (host : CommandHost) : Prop := ∀ head, ¬ Unconfirmed host head

omit [PyReview] in
theorem perform_logged {op : StoreOp} : Keeps (fun j => LoggedIn (j.store env).events) (perform env op) := by
  intro j hj
  have h : Triple (fun j => LoggedIn (j.store env).events) (perform env op) (fun _ j => LoggedIn (j.store env).events)
      fun _ j => LoggedIn (j.store env).events :=
    perform_triple (fun j hj _ => hj.mono (events_extended j op true)) fun j _ hj => hj.mono (events_extended j op false)
  exact h.after hj

omit [PyReview] in
theorem appendNext_keeps {event : Str → Nat → AuditEvent} :
    Keeps (fun j => LoggedIn (j.store env).events) (appendNext env event) :=
  Keeps.read_bind fun _ _ => Keeps.bind perform_logged fun _ => Keeps.ret

omit [PyReview] in
theorem recordDecision_logged {c : ReviewCall} {d : DurableRunState} {action : ReviewerAction} {escalationId : Str} :
    Keeps (fun j => LoggedIn (j.store env).events) (recordDecision env c d action escalationId) := by
  apply Keeps.bind perform_logged
  intro _
  rw [humanTransition_ok]
  apply Keeps.bind appendNext_keeps
  intro n
  apply Keeps.bind perform_logged
  intro _
  cases action.transition.event with
  | none => exact Keeps.ret
  | some terminal =>
    exact Keeps.bind appendNext_keeps fun _ => Keeps.bind perform_logged fun _ => Keeps.ret

/-- No other step of an operator takes the event of an applied patch away. -/
theorem OperatorStep.exec_logged (step : OperatorStep) :
    Keeps (fun j => LoggedIn (j.store env).events) (step.exec env) := by
  cases step with
  | resume runId =>
    refine Keeps.bind (Keeps.read_bind fun j _ => Keeps.bind Keeps.lift fun d => Keeps.bind ?_ fun _ => Keeps.ret) fun _ => Keeps.ret
    apply Keeps.cond
    · exact Keeps.read_bind fun _ _ => Keeps.bind perform_logged fun _ => perform_logged
    · exact Keeps.ret
  | decide call =>
    refine Keeps.bind (Keeps.read_bind fun j _ => ?_) fun _ => Keeps.ret
    cases loadRun (j.store env) call.runId with
    | error e => exact Keeps.ret
    | ok d =>
      cases hjudged : call.judge d (verifyRunConsistency (j.store env) d) with
      | error r =>
        simp only [hjudged]
        exact Keeps.ret
      | ok action =>
        simp only [hjudged]
        refine Keeps.bind (Keeps.lift (r := call.resolve (j.store env) d)) fun resolved => ?_
        cases resolved with
        | error r => exact Keeps.ret
        | ok escalationId => exact recordDecision_logged
  | append call =>
    refine Keeps.bind (Keeps.read_bind fun j _ => Keeps.bind Keeps.lift fun d => ?_) fun _ => Keeps.ret
    exact Keeps.bind appendNext_keeps fun _ => Keeps.bind perform_logged fun _ => Keeps.ret

/-- Where the log tells that the patch was applied, no step changes a branch. -/
theorem OperatorAction.act_logged (action : OperatorAction) {w : Bench} (h : LoggedIn (w.events env)) :
    LoggedIn ((action.act env host runId w).events env) ∧ (action.act env host runId w).target.heads = w.target.heads ∧
      (action.act env host runId w).target.remoteHeads = w.target.remoteHeads := by
  cases action with
  | apply c =>
    rcases applyFix_effect env host (c.forRun runId) w with hsame | ⟨head, hallowed, -⟩
    · have hlogged : LoggedIn ((applyFix env host (c.forRun runId) w).2.events env) := by
        unfold Bench.events
        rw [hsame.journal]
        exact h
      exact ⟨hlogged, hsame.heads, hsame.remoteHeads⟩
    · obtain ⟨g, hcleared, -⟩ := hallowed.cleared
      obtain ⟨e, he, htype⟩ := h
      exact absurd htype (hcleared.unapplied e he)
  | other step => exact ⟨(step.forRun runId).exec_logged w.journal h, rfl, rfl⟩

theorem applySession_logged (steps : List OperatorAction) {w : Bench} (h : LoggedIn (w.events env)) :
    (applySession env host runId steps w).target.heads = w.target.heads ∧
      (applySession env host runId steps w).target.remoteHeads = w.target.remoteHeads := by
  induction steps generalizing w with
  | nil => exact ⟨rfl, rfl⟩
  | cons action steps ih =>
    obtain ⟨hlogged, hheads, hremote⟩ : LoggedIn ((action.act env host runId w).events env) ∧ _ ∧ _ := action.act_logged h
    obtain ⟨hheads', hremote'⟩ := ih hlogged
    exact ⟨hheads'.trans hheads, hremote'.trans hremote⟩

theorem applySession_append (steps steps' : List OperatorAction) (w : Bench) :
    applySession env host runId (steps ++ steps') w
      = applySession env host runId steps' (applySession env host runId steps w) :=
  List.foldl_append

/-- A call that returns leaves the branches alone or adds one and logs it. -/
theorem OperatorAction.act_returned {action : OperatorAction} {w : Bench} (hconfirms : Confirms host)
    (h : ∀ c, action = .apply c → ∃ r, (applyFix env host (c.forRun runId) w).1 = .ok r) :
    (action.act env host runId w).target.heads = w.target.heads ∨
      (LoggedIn ((action.act env host runId w).events env) ∧
        ∃ head, (action.act env host runId w).target.heads = head :: w.target.heads) := by
  cases action with
  | apply c =>
    obtain ⟨r, hr⟩ := h c rfl
    rcases (applyFix_outcome w).ok rfl hr with ⟨-, hsame⟩ | ⟨head, -, hwrote, ⟨-, hlogged⟩ | ⟨-, hunconfirmed⟩⟩
    · exact .inl hsame.heads
    · exact .inr ⟨hlogged, head, hwrote.heads⟩
    · exact absurd hunconfirmed (hconfirms head)
  | other step => exact .inl rfl

theorem returned_heads {steps : List OperatorAction} {w : Bench} (hconfirms : Confirms host)
    (h : Returned env host runId steps w) : (applySession env host runId steps w).target.heads = w.target.heads ∨
      ∃ head, (applySession env host runId steps w).target.heads = head :: w.target.heads := by
  induction steps generalizing w with
  | nil => exact .inl rfl
  | cons action steps ih =>
    obtain ⟨hfirst, hrest⟩ := h
    rcases action.act_returned hconfirms hfirst with hsame | ⟨hlogged, head, hhead⟩
    · exact (ih hrest).imp (fun h => h.trans hsame) fun ⟨head, h⟩ => ⟨head, h.trans (by rw [hsame])⟩
    · exact .inr ⟨head, (applySession_logged steps hlogged).1.trans hhead⟩

/-- In any sequence of calls of `apply_fix` and other operator steps for one run: once a call has answered that it applied the
patch, no branch changes any more, here or on a remote; and when every call returns, and `update-ref` reports no failure after
it has created its branch, at most one branch is created. -/
theorem applied_once (env : Env) (host : CommandHost) (runId : Str) (steps : List OperatorAction) (w : Bench) :
    (∀ earlier c later r, steps = earlier ++ .apply c :: later →
      (applyFix env host (c.forRun runId) (applySession env host runId earlier w)).1 = .ok r →
      (r.status = .applied ∨ r.status = .partlyApplied) →
      (applySession env host runId steps w).target.heads
        = (applySession env host runId (earlier ++ [.apply c]) w).target.heads ∧
      (applySession env host runId steps w).target.remoteHeads
        = (applySession env host runId (earlier ++ [.apply c]) w).target.remoteHeads) ∧
      (Confirms host → Returned env host runId steps w →
        (applySession env host runId steps w).target.heads = w.target.heads ∨
        ∃ head, (applySession env host runId steps w).target.heads = head :: w.target.heads) := by
  refine ⟨?_, fun hconfirms hreturned => returned_heads hconfirms hreturned⟩
  rintro earlier c later r rfl hr hstatus
  have hsplit : earlier ++ OperatorAction.apply c :: later = (earlier ++ [.apply c]) ++ later := by simp
  rw [hsplit, applySession_append _ later]
  refine applySession_logged later ?_
  rw [applySession_append]
  rcases (applyFix_outcome _).ok rfl hr with ⟨hrefused, -⟩ | ⟨-, -, -, ⟨-, hlogged⟩ | ⟨hblocked, -⟩⟩
  · rcases hstatus with h | h <;> rcases hrefused with h' | h' <;> · rw [h] at h'; cases h'
  · exact hlogged
  · rcases hstatus with h | h <;> · rw [h] at hblocked; cases hblocked

end Session

def samplePatchHash : Str := "f877365d4a176e0ab1bc2ef268bbf9c64a7e9103f4a4e51bb201990e66553af3".toList

def sampleMetadata : FixMetadata where
  patchSha256 := samplePatchHash
  filesChanged := ["f".toList]
  repoPath := "/repo".toList
  baseCommit := "b0".toList
  failureMessage := "test failed".toList
  verifyCommands := ["pytest".toList]

def sampleFixCall (branch : String) : ApplyCall where
  runId := "run".toList
  branch := some branch.toList
  fix := {
    metadata := some (.ok sampleMetadata)
    finalPatch := some (.text "--- a/f\n+++ b/f\n@@ -1 +1 @@\n-a\n+b\n".toList) }

/-- Every command succeeds; `git diff` lists the patched file. -/
def sampleHost : CommandHost where
  answer _ _ args := ⟨0, if args.head? = some "diff".toList then "f\n".toList else "c1\n".toList, []⟩
  raises _ := none
  reached _ := false
  temporary _ := none
  removal _ := none
  resolve path := path
  isRepo _ := true
  gh := none
  pullRequest _ := none
  sha256 _ := samplePatchHash

def evaluatedEvent : AuditEvent where
  eventId := "e1".toList
  runId := "run".toList
  sequence := 1
  eventType := AuditEventType.evaluationCompleted.value
  stateBefore := none
  stateAfter := none

def approvedEnv : Env where
  store := {
    state := some { runId := "run".toList, workflowStatus := RunStatus.approved.value, lastEventSequence := 1 }
    events := [evaluatedEvent] }
  newId kind n := kind.toList ++ natStr n

def sampleApplies : List OperatorAction := [.apply (sampleFixCall "one"), .apply (sampleFixCall "two")]

theorem sampleHost_confirms : Confirms sampleHost := fun _ ⟨_, hreached, _⟩ => nomatch hreached

theorem sampleApplies_returned : @Returned asciiReview approvedEnv sampleHost "run".toList sampleApplies {} := by
  refine ⟨?_, ?_, trivial⟩
  · rintro c ⟨⟩
    exact exists_of_isOk (by decide +kernel)
  · rintro c ⟨⟩
    exact exists_of_isOk (by decide +kernel)

/-- Of two calls for two branches the first one creates its branch. -/
theorem sampleApplies_once :
    ∃ head, (@applySession asciiReview approvedEnv sampleHost "run".toList sampleApplies {}).target.heads = [head] := by
  have hsome : (@applySession asciiReview approvedEnv sampleHost "run".toList sampleApplies {}).target.heads ≠ [] := by
    decide +kernel
  have honce := (@applied_once asciiReview approvedEnv sampleHost "run".toList sampleApplies {}).2 sampleHost_confirms
    sampleApplies_returned
  exact honce.resolve_left fun h => hsome h

end FailureOrchestrator
