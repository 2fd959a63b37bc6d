import FailureOrchestrator.Exec
import FailureOrchestrator.HunkHeader
import FailureOrchestrator.Verification
import FailureOrchestrator.VerifiedFix

namespace FailureOrchestrator

theorem natStr_injective {m n : Nat} (h : natStr m = natStr n) : m = n := by
  have hm := @decimalValue_natStr asciiData m
  have hn := @decimalValue_natStr asciiData n
  rw [h, hn] at hm
  exact hm.symm

/-- The stems of command names have no dash, so the number is read off the name. -/
theorem commandName_injective {stem stem' : String} {i j : Nat} (hs : '-' ∉ stem.toList) (hs' : '-' ∉ stem'.toList)
    (h : commandName stem i = commandName stem' j) : stem = stem' ∧ i = j := by
  have htake : ∀ {s : String} {n : Nat}, '-' ∉ s.toList → (commandName s n).takeWhile (· != '-') = s.toList := by
    intro s n hs
    unfold commandName
    rw [List.append_assoc, List.takeWhile_append_of_pos]
    · simp
    · intro c hc
      simp only [bne_iff_ne, ne_eq]
      rintro rfl
      exact hs hc
  have hstem : stem.toList = stem'.toList := (htake hs).symm.trans ((congrArg _ h).trans (htake hs'))
  refine ⟨String.toList_inj.mp hstem, ?_⟩
  unfold commandName at h
  rw [hstem] at h
  exact natStr_injective (List.append_cancel_left h)

theorem commandName_ne {stem : String} {i : Nat} {name : Str} (h : '-' ∉ name) : commandName stem i ≠ name := by
  rintro rfl
  exact h (by simp [commandName])

theorem commandNames_nodup {stem : String} (hs : '-' ∉ stem.toList) (count : Nat) : (commandNames stem count).Nodup := by
  apply List.Nodup.map
  · intro i j h
    have := (commandName_injective hs hs h).2
    omega
  · exact List.nodup_range

theorem commandNames_disjoint {stem stem' : String} (hs : '-' ∉ stem.toList) (hs' : '-' ∉ stem'.toList)
    (hne : stem ≠ stem') (m n : Nat) : List.Disjoint (commandNames stem m) (commandNames stem' n) := by
  intro name hm hn
  obtain ⟨i, -, rfl⟩ := List.mem_map.mp hm
  obtain ⟨j, -, heq⟩ := List.mem_map.mp hn
  exact hne (commandName_injective hs' hs heq).1.symm

theorem map_fst_numberedCommands {which : Str → Option Str} {stem : String} {commands : List Str} {idx : Nat}
    {named : List NamedCommand} (h : numberedCommands which stem idx commands = .ok named) :
    named.map Prod.fst = (List.range commands.length).map fun i => commandName stem (i + idx) := by
  induction commands generalizing idx named with
  | nil =>
    cases h
    rfl
  | cons command rest ih =>
    obtain ⟨argv, -, h⟩ := bind_eq_ok h
    obtain ⟨more, hmore, h⟩ := bind_eq_ok h
    cases h
    rw [List.map_cons, ih hmore, List.length_cons, List.range_succ_eq_map, List.map_cons, List.map_map, Nat.zero_add]
    congr 1
    apply List.map_congr_left
    intro i _
    show commandName stem (i + (idx + 1)) = commandName stem (i + 1 + idx)
    rw [Nat.add_right_comm, Nat.add_assoc]

theorem map_fst_numbered_one {which : Str → Option Str} {stem : String} {commands : List Str}
    {named : List NamedCommand} (h : numberedCommands which stem 1 commands = .ok named) :
    named.map Prod.fst = commandNames stem commands.length := map_fst_numberedCommands h

section

variable {execute : Str → List Str → CommandOutcome} {commands : List NamedCommand} {command : NamedCommand}

@[simp] theorem runStep_name : (runStep execute command).name = command.1 := by
  unfold runStep
  cases execute command.1 command.2 <;> rfl

/-- Names are unique, so a command finds its own result. -/
theorem stepOf_runStep (hnodup : (commands.map Prod.fst).Nodup) (hmem : command ∈ commands) :
    stepOf (commands.map (runStep execute)) command.1 = some (runStep execute command) := by
  unfold stepOf
  cases hfind : (commands.map (runStep execute)).reverse.find? fun s => s.name = command.1 with
  | none =>
    rw [List.find?_eq_none] at hfind
    have hstep := hfind (runStep execute command) (by simpa using ⟨_, _, hmem, rfl⟩)
    simp at hstep
  | some s =>
    have hs := List.find?_some hfind
    have hin := List.mem_of_find?_eq_some hfind
    obtain ⟨other, hother, rfl⟩ := List.mem_map.mp (List.mem_reverse.mp hin)
    have hname : other.1 = command.1 := by simpa using hs
    rw [List.inj_on_of_nodup_map hnodup hother hmem hname]

end

section

variable {config : VerificationConfig} {which : Str → Option Str} {shared : List NamedCommand}

/-- The shared commands, gate by gate. -/
structure Shared (which : Str → Option Str) (config : VerificationConfig) (shared : List NamedCommand) where
  gates : Gate → List NamedCommand
  invariants : List NamedCommand
  numbered : ∀ gate, numberedCommands which gate.name 1 (config.commands gate) = .ok (gates gate)
  declared : numberedCommands which "invariant" 1 (config.invariants.map (·.command)) = .ok invariants
  all : shared = Gate.all.flatMap gates ++ invariants

theorem exists_shared (h : sharedCommands which config = .ok shared) : Nonempty (Shared which config shared) := by
  obtain ⟨lists, hlists, h⟩ := bind_eq_ok h
  obtain ⟨invariants, hinvariants, h⟩ := bind_eq_ok h
  cases h
  unfold Gate.all at hlists
  simp only [List.mapM_cons, List.mapM_nil] at hlists
  obtain ⟨regression, hregression, hlists⟩ := bind_eq_ok hlists
  obtain ⟨_, h1, hlists⟩ := bind_eq_ok hlists
  cases hlists
  obtain ⟨lint, hlint, h1⟩ := bind_eq_ok h1
  obtain ⟨_, h2, h1⟩ := bind_eq_ok h1
  cases h1
  obtain ⟨typecheck, htypecheck, h2⟩ := bind_eq_ok h2
  obtain ⟨_, h3, h2⟩ := bind_eq_ok h2
  cases h2
  obtain ⟨security, hsecurity, h3⟩ := bind_eq_ok h3
  obtain ⟨_, h4, h3⟩ := bind_eq_ok h3
  cases h3
  obtain ⟨build, hbuild, h4⟩ := bind_eq_ok h4
  obtain ⟨_, h5, h4⟩ := bind_eq_ok h4
  cases h4
  cases h5
  refine ⟨⟨fun gate => gate.rec regression lint typecheck security build, invariants, ?_, hinvariants, rfl⟩⟩
  intro gate
  cases gate with
  | regression => exact hregression
  | lint => exact hlint
  | typecheck => exact htypecheck
  | security => exact hsecurity
  | build => exact hbuild

theorem Gate.no_dash (gate : Gate) : '-' ∉ gate.name.toList := by
  cases gate <;> decide

theorem Gate.name_injective {gate gate' : Gate} (h : gate.name = gate'.name) : gate = gate' := by
  cases gate <;> cases gate' <;> first | rfl | exact absurd h (by decide)

theorem Gate.name_ne_invariant (gate : Gate) : gate.name ≠ "invariant" := by
  cases gate <;> decide

namespace Shared

variable (S : Shared which config shared)

theorem names_gate (gate : Gate) :
    (S.gates gate).map Prod.fst = commandNames gate.name (config.commands gate).length :=
  map_fst_numbered_one (S.numbered gate)

theorem names_invariants : S.invariants.map Prod.fst = commandNames "invariant" config.invariants.length := by
  rw [map_fst_numbered_one S.declared, List.length_map]

theorem mem_gate {gate : Gate} {command : NamedCommand} (h : command ∈ S.gates gate) : command ∈ shared := by
  rw [S.all]
  refine List.mem_append_left _ (List.mem_flatMap.mpr ⟨gate, ?_, h⟩)
  cases gate <;> decide

theorem mem_invariants {command : NamedCommand} (h : command ∈ S.invariants) : command ∈ shared := by
  rw [S.all]
  exact List.mem_append_right _ h

theorem mem_cases {command : NamedCommand} (h : command ∈ shared) :
    (∃ gate, command ∈ S.gates gate) ∨ command ∈ S.invariants := by
  rw [S.all] at h
  rcases List.mem_append.mp h with h | h
  · obtain ⟨gate, -, h⟩ := List.mem_flatMap.mp h
    exact .inl ⟨gate, h⟩
  · exact .inr h

include S in
theorem names_nodup : (shared.map Prod.fst).Nodup := by
  have hinvariant : '-' ∉ "invariant".toList := by decide
  rw [S.all, List.map_append, List.map_flatMap, S.names_invariants]
  simp only [S.names_gate]
  rw [List.nodup_append', List.nodup_flatMap]
  refine ⟨⟨fun gate _ => commandNames_nodup gate.no_dash _, ?_⟩, commandNames_nodup hinvariant _, ?_⟩
  · have hne : Gate.all.Pairwise (· ≠ ·) := by decide
    apply hne.imp
    intro gate gate' hgate
    exact commandNames_disjoint gate.no_dash gate'.no_dash (fun h => hgate (Gate.name_injective h)) _ _
  · intro name hname hinv
    obtain ⟨gate, -, hgate⟩ := List.mem_flatMap.mp hname
    exact commandNames_disjoint gate.no_dash hinvariant gate.name_ne_invariant _ _ hgate hinv

include S in
theorem dash_mem {name : Str} (h : name ∈ shared.map Prod.fst) : '-' ∈ name := by
  obtain ⟨command, hcommand, rfl⟩ := List.mem_map.mp h
  have hnames : ∃ stem count, command.1 ∈ commandNames stem count := by
    rcases S.mem_cases hcommand with ⟨gate, hgate⟩ | hinv
    · exact ⟨_, _, S.names_gate gate ▸ List.mem_map_of_mem hgate⟩
    · exact ⟨_, _, S.names_invariants ▸ List.mem_map_of_mem hinv⟩
  obtain ⟨stem, count, hname⟩ := hnames
  obtain ⟨i, -, hi⟩ := List.mem_map.mp hname
  by_contra hdash
  exact commandName_ne hdash hi

include S in
/-- The extra commands have names of their own. -/
theorem names_nodup_extra {first last : List NamedCommand}
    (hfirst : first.map Prod.fst = [] ∨ first.map Prod.fst = [targetName])
    (hlast : last.map Prod.fst = [] ∨ last.map Prod.fst = [affectedName]) :
    ((first ++ shared ++ last).map Prod.fst).Nodup := by
  have htarget : targetName ∉ shared.map Prod.fst := fun h => absurd (S.dash_mem h) (by decide)
  have haffected : affectedName ∉ shared.map Prod.fst := fun h => absurd (S.dash_mem h) (by decide)
  have hne : targetName ≠ affectedName := by decide
  have hafter : (shared.map Prod.fst ++ [affectedName]).Nodup :=
    List.nodup_append'.mpr ⟨S.names_nodup, List.nodup_singleton _, by simpa using haffected⟩
  rw [List.map_append, List.map_append]
  rcases hfirst with hf | hf <;> rcases hlast with hl | hl <;> rw [hf, hl]
  · simpa using S.names_nodup
  · exact hafter
  · rw [List.append_nil]
    exact List.nodup_cons.mpr ⟨htarget, S.names_nodup⟩
  · exact List.nodup_cons.mpr ⟨by simp [htarget, hne], hafter⟩

end Shared

end

section

variable [UnicodeData] {c : Checkout} {v : VerificationInput} {localFailure : FailureFingerprint}
  {failing : Option VerificationStep} {plan : VerificationPlan}

omit [UnicodeData] in
theorem names_pytestRun (pytest : Option (List Str)) (name : Str) (tests : List Str) :
    (pytestRun pytest name tests).map Prod.fst = [] ∨ (pytestRun pytest name tests).map Prod.fst = [name] := by
  unfold pytestRun
  cases pytest with
  | none => exact .inl rfl
  | some argv =>
    dsimp only
    split
    · exact .inl rfl
    · exact .inr rfl

/-- Both runs hold the shared commands, under names that are unique in the run. -/
theorem verificationPlan_ok (h : verificationPlan c v localFailure failing = .ok plan) :
    ∃ shared, sharedCommands c.which v.config = .ok shared ∧ plan.targetIds = targetTests c localFailure ∧
      (∀ command ∈ shared, command ∈ plan.before ∧ command ∈ plan.after) ∧
      (plan.before.map Prod.fst).Nodup ∧ (plan.after.map Prod.fst).Nodup := by
  obtain ⟨diffs, -, h⟩ := bind_eq_ok h
  obtain ⟨pytest, -, h⟩ := bind_eq_ok h
  obtain ⟨shared, hshared, h⟩ := bind_eq_ok h
  cases h
  obtain ⟨S⟩ := exists_shared hshared
  refine ⟨shared, hshared, rfl, ?_, ?_, ?_⟩
  · intro command hcommand
    exact ⟨List.mem_append_left _ (List.mem_append_right _ hcommand),
      List.mem_append_left _ (List.mem_append_right _ hcommand)⟩
  · exact S.names_nodup_extra (names_pytestRun _ _ _) (names_pytestRun _ _ _)
  · exact S.names_nodup_extra (names_pytestRun _ _ _) (names_pytestRun _ _ _)

end

end FailureOrchestrator
