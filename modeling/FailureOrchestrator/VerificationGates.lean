import FailureOrchestrator.VerificationRuns

namespace FailureOrchestrator

/-- The states that keep a repair from being applied. -/
def RemediationDecision.Blocked (d : RemediationDecision) : Prop :=
  d.state = .policyRejected ∨ d.state = .notFixed ∨ d.state = .regressionDetected

section Gates

variable {names : List Str} {before after : List VerificationStep} {beforeSum afterSum : TestRunSummary}
  {ignore : List Str}

/-- A command that passed before and fails after the patch fails its gate. -/
theorem commandGate_failed (name : Str) (hran : ∀ n ∈ names, (stepOf after n).isSome) (hname : name ∈ names)
    (hbefore : passedIn before name = true) (hafter : passedIn after name = false) :
    commandGate names before after = .failed := by
  unfold commandGate
  rw [if_neg, if_neg, if_neg, if_pos]
  · exact List.any_eq_true.mpr ⟨name, hname, by simp [hbefore, hafter]⟩
  · intro hall
    rw [List.all_eq_true.mp hall name hname] at hafter
    cases hafter
  · intro hany
    obtain ⟨n, hn, hnone⟩ := List.any_eq_true.mp hany
    have hsome := hran n hn
    rw [Option.isNone_iff_eq_none.mp hnone] at hsome
    cases hsome
  · rw [List.isEmpty_iff]
    exact List.ne_nil_of_mem hname

/-- A command that fails after the patch keeps its gate from passing. -/
theorem commandGate_failing (name : Str) (hran : ∀ n ∈ names, (stepOf after n).isSome) (hname : name ∈ names)
    (hafter : passedIn after name = false) :
    commandGate names before after = .failed ∨ commandGate names before after = .failedPreexisting := by
  unfold commandGate
  rw [if_neg, if_neg, if_neg]
  · split
    · exact .inl rfl
    · exact .inr rfl
  · intro hall
    rw [List.all_eq_true.mp hall name hname] at hafter
    cases hafter
  · intro hany
    obtain ⟨n, hn, hnone⟩ := List.any_eq_true.mp hany
    have hsome := hran n hn
    rw [Option.isNone_iff_eq_none.mp hnone] at hsome
    cases hsome
  · rw [List.isEmpty_iff]
    exact List.ne_nil_of_mem hname

theorem mem_sortStrs {t : Str} {xs : List Str} : t ∈ sortStrs xs ↔ t ∈ xs := List.mem_insertionSort _

theorem mem_newFailures {t : Str} {before after ignore : List Str} :
    t ∈ newFailures before after ignore ↔ t ∈ after ∧ t ∉ before ∧ t ∉ ignore := by
  simp [newFailures, mem_sortStrs, mem_fromKeys]

theorem testGate_failed (h : commandGate names before after = .failed) :
    (testGate names before after beforeSum afterSum ignore).1 = .failed := by
  simp [testGate, h]

/-- A failure that was there before fails the gate when a test fails that did not fail before. -/
theorem testGate_newFailure {t : Str}
    (h : commandGate names before after = .failed ∨ commandGate names before after = .failedPreexisting)
    (hafter : t ∈ afterSum.failedIds) (hbefore : t ∉ beforeSum.failedIds) (hignore : t ∉ ignore) :
    (testGate names before after beforeSum afterSum ignore).1 = .failed := by
  rcases h with h | h
  · exact testGate_failed h
  · have hnew : newFailures beforeSum.failedIds afterSum.failedIds ignore ≠ [] :=
      List.ne_nil_of_mem (mem_newFailures.mpr ⟨hafter, hbefore, hignore⟩)
    simp [testGate, h, hnew]

theorem waivable_failed {config : VerificationConfig} {gate : String} : waivable config gate .failed = .failed := rfl

theorem notRun_of_waived {config : VerificationConfig} {gate : String} {status : GateStatus}
    (hstatus : status ≠ .waived) (h : waivable config gate status = .waived) : status = .notRun := by
  unfold waivable at h
  split at h
  next hc => exact hc.1
  next => exact absurd h hstatus

theorem aggregateInvariants_failed {statuses : List GateStatus} (h : GateStatus.failed ∈ statuses) :
    aggregateInvariants statuses = .failed := by
  unfold aggregateInvariants
  rw [if_neg, if_pos]
  · exact List.any_eq_true.mpr ⟨_, h, rfl⟩
  · rw [List.isEmpty_iff]
    exact List.ne_nil_of_mem h

theorem commandGate_ne_waived : commandGate names before after ≠ .waived := by
  unfold commandGate
  split
  · exact nofun
  split
  · exact nofun
  split
  · exact nofun
  split <;> exact nofun

theorem testGate_ne_waived : (testGate names before after beforeSum afterSum ignore).1 ≠ .waived := by
  unfold testGate
  dsimp only
  split
  · exact nofun
  · exact commandGate_ne_waived

theorem aggregateInvariants_ne_waived {statuses : List GateStatus} : aggregateInvariants statuses ≠ .waived := by
  unfold aggregateInvariants
  split
  · exact nofun
  split
  · exact nofun
  split
  · exact nofun
  split <;> exact nofun

theorem coverageGate_ne_waived {tolerance : WithTop ℚ} {worktreesOk : Bool} :
    coverageGate beforeSum afterSum tolerance worktreesOk ≠ .waived := by
  unfold coverageGate
  split
  · split <;> exact nofun
  · exact nofun

theorem affectedGate_ne_waived {regression : GateStatus} (h : regression ≠ .waived) :
    (affectedGate before after beforeSum afterSum ignore regression).1 ≠ .waived := by
  unfold affectedGate
  split
  · exact testGate_ne_waived
  · split <;> exact nofun
  · exact h

end Gates

/-- The tests that a set of summaries reports as failed. -/
theorem mem_failures_foldl {t : Str} (fs seen : List TestFailure) :
    t ∈ (fs.foldl addFailure seen).map (·.nodeid) ↔ t ∈ seen.map (·.nodeid) ∨ t ∈ fs.map (·.nodeid) := by
  induction fs generalizing seen with
  | nil => simp
  | cons f fs ih =>
    rw [List.foldl_cons, ih, List.map_cons, List.mem_cons]
    unfold addFailure
    split
    next hmem =>
      constructor
      · rintro (h | h)
        · exact .inl h
        · exact .inr (.inr h)
      · rintro (h | rfl | h)
        · exact .inl h
        · exact .inl hmem
        · exact .inr h
    next => simp [or_assoc]

theorem mem_combineSummaries {t : Str} {items : List TestRunSummary} :
    t ∈ (combineSummaries items).failedIds ↔ ∃ s ∈ items, t ∈ s.failedIds := by
  show t ∈ ((items.flatMap (·.failures)).foldl addFailure []).map (·.nodeid) ↔ _
  rw [mem_failures_foldl]
  simp only [List.map_nil, List.not_mem_nil, false_or, List.map_flatMap, List.mem_flatMap]
  rfl

theorem mapM_mem {ε α β : Type} {f : α → Except ε β} {xs : List α} {ys : List β} (h : xs.mapM f = .ok ys) :
    (∀ x ∈ xs, ∃ y ∈ ys, f x = .ok y) ∧ ∀ y ∈ ys, ∃ x ∈ xs, f x = .ok y := by
  have hall := mapM_ok_forall₂ h
  exact ⟨exists_of_forall₂ hall.flip, exists_of_forall₂ hall⟩

end FailureOrchestrator
