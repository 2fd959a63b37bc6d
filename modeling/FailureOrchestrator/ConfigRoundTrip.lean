import FailureOrchestrator.ConfigLoad
import FailureOrchestrator.PytestLog

namespace FailureOrchestrator

/-- A command, a name or a reason as it is stored. -/
structure Stripped (s : Str) : Prop where
  nonempty : s ≠ []
  stripped : strip s = s

theorem strip_strip (s : Str) : strip (strip s) = strip s := by
  unfold strip
  cases hcut : lstrip s with
  | nil => rfl
  | cons c t =>
    have hc : isSpace c = false := by
      have hhead := List.head_dropWhile_not isSpace (l := s) (by
        unfold lstrip at hcut
        rw [hcut]
        exact List.cons_ne_nil c t)
      unfold lstrip at hcut
      simpa only [hcut, List.head_cons, Bool.not_eq_true] using hhead
    exact strip_rstrip hc t

theorem stripped_strip {s : Str} (h : strip s ≠ []) : Stripped (strip s) := ⟨h, strip_strip s⟩

namespace LoadedConfig

/-- What every loaded config satisfies. -/
structure WellFormed {F : Type} [YamlFloat F] (config : LoadedConfig F) : Prop where
  regression : ∀ c ∈ config.regression, Stripped c
  lint : ∀ c ∈ config.lint, Stripped c
  typecheck : ∀ c ∈ config.typecheck, Stripped c
  security : ∀ c ∈ config.security, Stripped c
  build : ∀ c ∈ config.build, Stripped c
  invariants : ∀ i ∈ config.invariants, Stripped i.name ∧ Stripped i.command
  names : (config.invariants.map Invariant.name).Nodup
  waivers : ∀ w ∈ config.waivers, inSet w.1 waivableGates = true ∧ Stripped w.2
  gates : (config.waivers.map Prod.fst).Nodup
  affected : ∀ a ∈ config.affectedTests, ∀ c ∈ a.2, Stripped c
  sources : (config.affectedTests.map Prod.fst).Nodup
  tolerance : YamlFloat.negative config.coverageTolerance = false
  testCommand : ∀ c ∈ config.testCommand, Stripped c

end LoadedConfig

/-! ## Commands -/

section

variable {F : Type} {v : YamlValue F} {value : Option (YamlValue F)} {key t : Str}

theorem command_stripped (h : command v = some t) : Stripped t := by
  unfold command at h
  split at h
  next =>
    split at h
    next => cases h
    next hne =>
      cases h
      exact stripped_strip hne
  next => cases h

theorem command_str (h : Stripped t) : command (F := F) (.scalar (.str t)) = some t := by
  show (if strip t = [] then none else some (strip t)) = some t
  rw [h.stripped, if_neg h.nonempty]

theorem mapM_command_stripped {items : List (YamlValue F)} {cs : List Str} (h : items.mapM command = some cs) :
    ∀ c ∈ cs, Stripped c := by
  induction items generalizing cs with
  | nil =>
    cases h
    simp
  | cons v items ih =>
    rw [List.mapM_cons] at h
    obtain ⟨t, ht, hrest⟩ := Option.bind_eq_some_iff.mp h
    obtain ⟨ts, hts, hcons⟩ := Option.bind_eq_some_iff.mp hrest
    cases hcons
    exact List.forall_mem_cons.mpr ⟨command_stripped ht, ih hts⟩

theorem commandItems_stripped {items : List (YamlValue F)} {cs : List Str} (h : commandItems items key = .ok cs) :
    ∀ c ∈ cs, Stripped c := by
  unfold commandItems at h
  split at h
  next commands hmap =>
    cases h
    exact mapM_command_stripped hmap
  next => cases h

theorem commands_stripped {cs : List Str} (h : commands value key = .ok cs) : ∀ c ∈ cs, Stripped c := by
  unfold commands at h
  split at h
  next =>
    cases h
    simp
  next =>
    cases h
    simp
  next => exact commandItems_stripped h
  next => exact commandItems_stripped h

theorem commands_strList {cs : List Str} (h : ∀ c ∈ cs, Stripped c) :
    commands (F := F) (some (LoadedConfig.strList cs)) key = .ok cs := by
  have hmap : (cs.map fun c => YamlValue.scalar (F := F) (.str c)).mapM command = some cs := by
    induction cs with
    | nil => rfl
    | cons c cs ih =>
      obtain ⟨hc, hcs⟩ := List.forall_mem_cons.mp h
      rw [List.map_cons, List.mapM_cons, command_str hc, ih hcs]
      rfl
  show commandItems (cs.map fun c => YamlValue.scalar (F := F) (.str c)) key = .ok cs
  unfold commandItems
  rw [hmap]

end

/-! ## Invariants -/

section

variable [UnicodeData] {F : Type} [YamlFloat F] {idx : Nat} {items : List (YamlValue F)} {invariants result : List Invariant}

/-- The item of a list that declares an invariant. -/
structure Declares (item : YamlValue F) (i : Invariant) : Prop where
  name : fieldText item "name" = .ok i.name
  command : fieldText item "command" = .ok i.command
  named : i.name ≠ []
  commanded : i.command ≠ []

theorem fieldText_stripped {item : YamlValue F} {key : String} {t : Str} (h : fieldText item key = .ok t) (ht : t ≠ []) :
    Stripped t := by
  unfold fieldText at h
  split at h
  next =>
    split at h
    next text htext =>
      cases h
      exact stripped_strip ht
    next => cases h
  next =>
    cases h
    exact absurd rfl ht

theorem Declares.stripped {item : YamlValue F} {i : Invariant} (h : Declares item i) : Stripped i.name ∧ Stripped i.command :=
  ⟨fieldText_stripped h.name h.named, fieldText_stripped h.command h.commanded⟩

theorem declares_invariantDict {i : Invariant} (hname : Stripped i.name) (hcommand : Stripped i.command) :
    Declares (F := F) (LoadedConfig.invariantDict i) i := by
  have htext : ∀ (key : String) (t : Str), Stripped t →
      YamlValue.get key [(YamlScalar.str (F := F) "name".toList, .scalar (.str i.name)),
        (.str "command".toList, .scalar (.str i.command))] = some (.scalar (.str t)) →
      fieldText (LoadedConfig.invariantDict (F := F) i) key = .ok t := by
    intro key t ht hget
    have htruthy : (YamlValue.scalar (F := F) (.str t)).truthy = true := by
      show (!t.isEmpty) = true
      simpa using ht.nonempty
    unfold LoadedConfig.invariantDict fieldText YamlValue.getOr
    simp only [hget, htruthy, if_true]
    show Except.ok (strip t) = _
    rw [ht.stripped]
  exact ⟨htext "name" i.name hname rfl, htext "command" i.command hcommand rfl, hname.nonempty, hcommand.nonempty⟩

/-- The items that are accepted declare one invariant each, and no name is used twice. -/
theorem loadInvariants_ok_iff (hnames : (invariants.map Invariant.name).Nodup) :
    loadInvariants idx items invariants = .ok result ↔
      ∃ added, List.Forall₂ Declares items added ∧ result = invariants ++ added ∧ (result.map Invariant.name).Nodup := by
  induction items generalizing idx invariants with
  | nil =>
    constructor
    · intro h
      cases h
      exact ⟨[], .nil, (List.append_nil _).symm, hnames⟩
    · rintro ⟨added, hall, rfl, -⟩
      cases hall
      rw [List.append_nil]
      rfl
  | cons item items ih =>
    constructor
    · intro h
      obtain ⟨name, hname, h⟩ := bind_eq_ok h
      obtain ⟨command, hcommand, h⟩ := bind_eq_ok h
      split at h
      next => cases h
      next hboth =>
        rw [not_or] at hboth
        split at h
        next => cases h
        next hfresh =>
          have hnew : ((invariants ++ [Invariant.mk name command]).map Invariant.name).Nodup := by
            rw [List.map_append, List.nodup_append]
            refine ⟨hnames, List.nodup_singleton _, ?_⟩
            rintro a ha b hb rfl
            obtain rfl : a = name := by simpa using hb
            obtain ⟨i, hi, hia⟩ := List.mem_map.mp ha
            have hany : invariants.any (·.name = a) = true := List.any_eq_true.mpr ⟨i, hi, decide_eq_true hia⟩
            exact hfresh hany
          obtain ⟨added, hall, hresult, hnodup⟩ := (ih hnew).mp h
          refine ⟨⟨name, command⟩ :: added, .cons ⟨hname, hcommand, hboth.1, hboth.2⟩ hall, ?_, hnodup⟩
          rw [hresult, List.append_assoc]
          rfl
    · rintro ⟨added, hall, rfl, hnodup⟩
      cases hall with
      | cons hitem hrest =>
        rename_i i added
        have hnew : ((invariants ++ [i]).map Invariant.name).Nodup := by
          rw [← List.singleton_append (l := added), ← List.append_assoc, List.map_append] at hnodup
          exact (List.nodup_append.mp hnodup).1
        have hfresh : ¬ invariants.any (·.name = i.name) = true := by
          intro hany
          obtain ⟨j, hj, hji⟩ := List.any_eq_true.mp hany
          rw [List.map_append, List.nodup_append] at hnew
          exact hnew.2.2 j.name (List.mem_map_of_mem hj) i.name (by simp) (of_decide_eq_true hji)
        refine bind_ok hitem.name (bind_ok hitem.command ?_)
        rw [if_neg (not_or.mpr ⟨hitem.named, hitem.commanded⟩), if_neg hfresh]
        refine (ih hnew).mpr ⟨added, hrest, ?_, hnodup⟩
        rw [List.append_assoc]
        rfl

theorem loadInvariants_nil_iff :
    loadInvariants idx items [] = .ok result ↔ List.Forall₂ Declares items result ∧ (result.map Invariant.name).Nodup := by
  have hempty : (([] : List Invariant).map Invariant.name).Nodup := List.nodup_nil
  rw [loadInvariants_ok_iff hempty]
  constructor
  · rintro ⟨added, hall, rfl, hnodup⟩
    exact ⟨hall, hnodup⟩
  · rintro ⟨hall, hnodup⟩
    exact ⟨result, hall, rfl, hnodup⟩

end

/-! ## Waivers and test mapping -/

section

variable [UnicodeData] {F : Type} [YamlFloat F]

/-- A waiver that is accepted. -/
structure Waives (entry : YamlScalar F × YamlValue F) (w : Str × Str) : Prop where
  gate : waivedGate entry.1 = some w.1
  reason : command entry.2 = some w.2

omit [UnicodeData] [YamlFloat F] in
theorem waivedGate_inSet {gate : YamlScalar F} {name : Str} (h : waivedGate gate = some name) :
    inSet name waivableGates = true := by
  obtain ⟨-, hin⟩ := Option.filter_eq_some_iff.mp h
  exact hin

omit [UnicodeData] [YamlFloat F] in
theorem waives_str {w : Str × Str} (hgate : inSet w.1 waivableGates = true) (hreason : Stripped w.2) :
    Waives (F := F) (.str w.1, .scalar (.str w.2)) w :=
  ⟨Option.filter_eq_some_iff.mpr ⟨rfl, hgate⟩, command_str hreason⟩

theorem loadWaivers_ok_iff {entries : YamlDict F} {waivers result : List (Str × Str)} :
    loadWaivers entries waivers = .ok result ↔
      ∃ added, List.Forall₂ Waives entries added ∧ result = added.foldl (fun d w => setEntry w.1 w.2 d) waivers := by
  induction entries generalizing waivers with
  | nil =>
    constructor
    · intro h
      cases h
      exact ⟨[], .nil, rfl⟩
    · rintro ⟨added, hall, rfl⟩
      cases hall
      rfl
  | cons entry entries ih =>
    obtain ⟨gate, reason⟩ := entry
    unfold loadWaivers
    constructor
    · intro h
      split at h
      next =>
        split at h
        next => cases h
        next => cases h
      next name hgate =>
        split at h
        next => cases h
        next text hreason =>
          obtain ⟨added, hall, rfl⟩ := ih.mp h
          exact ⟨(name, text) :: added, .cons ⟨hgate, hreason⟩ hall, rfl⟩
    · rintro ⟨added, hall, rfl⟩
      cases hall with
      | cons hentry hrest =>
        simp only [hentry.gate, hentry.reason]
        exact ih.mpr ⟨_, hrest, rfl⟩

omit [UnicodeData] [YamlFloat F] in
theorem mem_foldl_setEntry {α : Type} {e : Str × α} {added d : List (Str × α)}
    (h : e ∈ added.foldl (fun d w => setEntry w.1 w.2 d) d) : e ∈ added ∨ e ∈ d := by
  induction added generalizing d with
  | nil => exact .inr h
  | cons w added ih =>
    rcases ih h with h | h
    · exact .inl (List.mem_cons_of_mem w h)
    · rcases mem_setEntry h with rfl | h
      · exact .inl List.mem_cons_self
      · exact .inr h

omit [UnicodeData] [YamlFloat F] in
theorem nodup_foldl_setEntry {α : Type} {added d : List (Str × α)} (h : (d.map Prod.fst).Nodup) :
    ((added.foldl (fun d w => setEntry w.1 w.2 d) d).map Prod.fst).Nodup := by
  induction added generalizing d with
  | nil => exact h
  | cons w added ih => exact ih (nodup_setEntry h)

omit [UnicodeData] [YamlFloat F] in
theorem foldl_setEntry_fresh {α : Type} {added d : List (Str × α)} (h : ((d ++ added).map Prod.fst).Nodup) :
    added.foldl (fun d w => setEntry w.1 w.2 d) d = d ++ added := by
  induction added generalizing d with
  | nil => exact (List.append_nil d).symm
  | cons w added ih =>
    have hfresh : w.1 ∉ d.map Prod.fst := by
      intro hmem
      rw [List.map_append, List.nodup_append] at h
      exact h.2.2 w.1 hmem w.1 List.mem_cons_self rfl
    rw [List.foldl_cons, setEntry_fresh hfresh, ih (by rwa [List.append_assoc, List.singleton_append]),
      List.append_assoc, List.singleton_append]

/-- An entry of the test mapping that is accepted. -/
structure Maps (entry : YamlScalar F × YamlValue F) (a : Str × List Str) : Prop where
  source : entry.1.text = some a.1
  tests : commands (some entry.2) ("affected_tests.".toList ++ a.1) = .ok a.2

theorem loadAffected_ok_iff {entries : YamlDict F} {affected result : List (Str × List Str)} :
    loadAffected entries affected = .ok result ↔
      ∃ added, List.Forall₂ Maps entries added ∧ result = added.foldl (fun d a => setEntry a.1 a.2 d) affected := by
  induction entries generalizing affected with
  | nil =>
    constructor
    · intro h
      cases h
      exact ⟨[], .nil, rfl⟩
    · rintro ⟨added, hall, rfl⟩
      cases hall
      rfl
  | cons entry entries ih =>
    obtain ⟨src, tests⟩ := entry
    unfold loadAffected
    constructor
    · intro h
      split at h
      next => cases h
      next path hsrc =>
        obtain ⟨paths, hpaths, h⟩ := bind_eq_ok h
        obtain ⟨added, hall, rfl⟩ := ih.mp h
        exact ⟨(path, paths) :: added, .cons ⟨hsrc, hpaths⟩ hall, rfl⟩
    · rintro ⟨added, hall, rfl⟩
      cases hall with
      | cons hentry hrest =>
        simp only [hentry.source]
        exact bind_ok hentry.tests (ih.mpr ⟨_, hrest, rfl⟩)

omit [UnicodeData] in
theorem loadTolerance_nonneg {value : Option (YamlValue F)} {x : F} (h : loadTolerance value = .ok x) :
    YamlFloat.negative x = false := by
  unfold loadTolerance at h
  split at h
  next =>
    cases h
    exact YamlFloat.half_nonneg
  next n =>
    split at h
    next => cases h
    next hn =>
      split at h
      next y hy =>
        cases h
        exact YamlFloat.ofInt_nonneg (by omega) hy
      next => cases h
  next y =>
    split at h
    next => cases h
    next hy =>
      cases h
      simpa using hy
  next => cases h

omit [UnicodeData] [YamlFloat F] in
theorem loadTestCommand_stripped {value : Option (YamlValue F)} {text : Option Str} (h : loadTestCommand value = .ok text) :
    ∀ c ∈ text, Stripped c := by
  unfold loadTestCommand at h
  split at h
  next =>
    cases h
    simp
  next =>
    cases h
    simp
  next =>
    split at h
    next t ht =>
      cases h
      intro c hc
      cases hc
      exact command_stripped ht
    next => cases h

end

/-! ## The round trip -/

section

variable [UnicodeData] {F : Type} [YamlFloat F] {data : Option (YamlDict F)} {regression : List Str}
  {config : LoadedConfig F}

theorem load_wellFormed (h : loadVerificationConfig data regression = .ok config) : config.WellFormed := by
  obtain ⟨-, -, h⟩ := bind_eq_ok h
  obtain ⟨items, -, h⟩ := bind_eq_ok h
  obtain ⟨invariants, hinvariants, h⟩ := bind_eq_ok h
  obtain ⟨waiverEntries, -, h⟩ := bind_eq_ok h
  obtain ⟨waivers, hwaivers, h⟩ := bind_eq_ok h
  obtain ⟨affectedEntries, -, h⟩ := bind_eq_ok h
  obtain ⟨affected, haffected, h⟩ := bind_eq_ok h
  obtain ⟨tolerance, htolerance, h⟩ := bind_eq_ok h
  obtain ⟨testCommand, htest, h⟩ := bind_eq_ok h
  obtain ⟨own, hown, h⟩ := bind_eq_ok h
  obtain ⟨lint, hlint, h⟩ := bind_eq_ok h
  obtain ⟨typecheck, htypecheck, h⟩ := bind_eq_ok h
  obtain ⟨security, hsecurity, h⟩ := bind_eq_ok h
  obtain ⟨build, hbuild, h⟩ := bind_eq_ok h
  cases h
  obtain ⟨hdeclares, hnames⟩ := loadInvariants_nil_iff.mp hinvariants
  obtain ⟨waived, hwaives, rfl⟩ := loadWaivers_ok_iff.mp hwaivers
  obtain ⟨mapped, hmaps, rfl⟩ := loadAffected_ok_iff.mp haffected
  refine ⟨?_, commands_stripped hlint, commands_stripped htypecheck, commands_stripped hsecurity, commands_stripped hbuild,
    ?_, hnames, ?_, nodup_foldl_setEntry List.nodup_nil, ?_, nodup_foldl_setEntry List.nodup_nil,
    loadTolerance_nonneg htolerance, loadTestCommand_stripped htest⟩
  · intro c hc
    rcases List.mem_append.mp hc with hc | hc
    · exact commands_stripped hown c hc
    · obtain ⟨hmem, hne⟩ := List.mem_filter.mp hc
      obtain ⟨s, -, rfl⟩ := List.mem_map.mp hmem
      exact stripped_strip (of_decide_eq_true hne)
  · intro i hi
    obtain ⟨item, -, hitem⟩ := exists_of_forall₂ hdeclares i hi
    exact hitem.stripped
  · intro w hw
    obtain ⟨entry, -, hentry⟩ := exists_of_forall₂ hwaives w ((mem_foldl_setEntry hw).resolve_right (by simp))
    exact ⟨waivedGate_inSet hentry.gate, command_stripped hentry.reason⟩
  · intro a ha
    obtain ⟨entry, -, hentry⟩ := exists_of_forall₂ hmaps a ((mem_foldl_setEntry ha).resolve_right (by simp))
    exact commands_stripped hentry.tests

omit [UnicodeData] in
theorem rawInvariants_toDict : rawInvariants config.toDict = .ok (config.invariants.map LoadedConfig.invariantDict) := by
  unfold rawInvariants YamlValue.getOr
  have hget : YamlValue.get "invariants" config.toDict = some (.list (config.invariants.map LoadedConfig.invariantDict)) := rfl
  rw [hget]
  cases config.invariants with
  | nil => rfl
  | cons i invariants => rfl

omit [UnicodeData] in
theorem rawWaivers_toDict :
    rawWaivers config.toDict = .ok (config.waivers.map fun w => (.str w.1, .scalar (.str w.2))) := by
  unfold rawWaivers YamlValue.getOr
  have hget : YamlValue.get "waive" config.toDict =
      some (.dict (config.waivers.map fun w => (.str w.1, .scalar (.str w.2)))) := rfl
  rw [hget]
  cases config.waivers with
  | nil => rfl
  | cons w waivers => rfl

omit [UnicodeData] in
theorem rawAffected_toDict :
    rawAffected config.toDict = .ok (config.affectedTests.map fun a => (.str a.1, LoadedConfig.strList a.2)) := by
  unfold rawAffected YamlValue.getOr
  have hget : YamlValue.get "affected_tests" config.toDict =
      some (.dict (config.affectedTests.map fun a => (.str a.1, LoadedConfig.strList a.2))) := rfl
  rw [hget]
  cases config.affectedTests with
  | nil => rfl
  | cons a affected => rfl

omit [UnicodeData] [YamlFloat F] in
theorem loadTestCommand_toDict (h : ∀ c ∈ config.testCommand, Stripped c) :
    loadTestCommand (F := F) (some (.scalar (config.testCommand.elim .null .str))) = .ok config.testCommand := by
  cases hcommand : config.testCommand with
  | none => rfl
  | some c =>
    dsimp only [Option.elim, loadTestCommand]
    rw [command_str (h c hcommand)]

/-- A config that is written as a dict is loaded as it was. -/
theorem load_toDict (h : config.WellFormed) : loadVerificationConfig (some config.toDict) [] = .ok config := by
  have hkeys : checkKeys config.toDict = .ok () := rfl
  have hinvariants : loadInvariants (F := F) 1 (config.invariants.map LoadedConfig.invariantDict) [] = .ok config.invariants := by
    refine loadInvariants_nil_iff.mpr ⟨?_, h.names⟩
    rw [List.forall₂_map_left_iff, List.forall₂_same]
    exact fun i hi => declares_invariantDict (h.invariants i hi).1 (h.invariants i hi).2
  have hwaivers : loadWaivers (F := F) (config.waivers.map fun w => (.str w.1, .scalar (.str w.2))) [] = .ok config.waivers := by
    refine loadWaivers_ok_iff.mpr ⟨config.waivers, ?_, (foldl_setEntry_fresh (d := []) h.gates).symm⟩
    rw [List.forall₂_map_left_iff, List.forall₂_same]
    exact fun w hw => waives_str (h.waivers w hw).1 (h.waivers w hw).2
  have haffected : loadAffected (F := F) (config.affectedTests.map fun a => (.str a.1, LoadedConfig.strList a.2)) [] =
      .ok config.affectedTests := by
    refine loadAffected_ok_iff.mpr ⟨config.affectedTests, ?_, (foldl_setEntry_fresh (d := []) h.sources).symm⟩
    rw [List.forall₂_map_left_iff, List.forall₂_same]
    exact fun a ha => ⟨rfl, commands_strList (h.affected a ha)⟩
  have htolerance : loadTolerance (some (.scalar (.float config.coverageTolerance))) = .ok config.coverageTolerance := by
    show (if YamlFloat.negative config.coverageTolerance then _ else _) = _
    rw [h.tolerance]
    rfl
  refine bind_ok hkeys (bind_ok rawInvariants_toDict (bind_ok hinvariants (bind_ok rawWaivers_toDict (bind_ok hwaivers
    (bind_ok rawAffected_toDict (bind_ok haffected (bind_ok htolerance (bind_ok (loadTestCommand_toDict h.testCommand)
    (bind_ok (commands_strList h.regression) (bind_ok (commands_strList h.lint) (bind_ok (commands_strList h.typecheck)
    (bind_ok (commands_strList h.security) (bind_ok (commands_strList h.build) ?_)))))))))))))
  rw [List.map_nil, List.filter_nil, List.append_nil]
  rfl

end

end FailureOrchestrator
