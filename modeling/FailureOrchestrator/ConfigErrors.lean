import FailureOrchestrator.ConfigRoundTrip

namespace FailureOrchestrator

def LoadError.IsConfigError (e : LoadError) : Prop := ∃ message, e = .verificationConfigError message

theorem tooLong_not_config : ¬ tooLong.IsConfigError := by
  rintro ⟨message, h⟩
  cases h

section

variable [UnicodeData] {F : Type} [YamlFloat F]

/-- The name and the command of an item can be converted to strings. -/
def Legible (item : YamlValue F) : Prop :=
  ∃ name command, fieldText item "name" = .ok name ∧ fieldText item "command" = .ok command

def UnknownKey (data : YamlDict F) : Prop := unknownKeys data ≠ []

/-- A waiver for a gate that cannot be waived, or without a reason. -/
def BadWaiver (data : YamlDict F) : Prop :=
  ∃ entries, YamlValue.getOr "waive" (.dict []) data = .dict entries ∧
    ∃ entry ∈ entries, waivedGate entry.1 = none ∨ command entry.2 = none

/-- Two invariants whose names agree after stripping. -/
def RepeatedName (data : YamlDict F) : Prop :=
  ∃ items, YamlValue.getOr "invariants" (.list []) data = .list items ∧
    ∃ a b name, [a, b].Sublist items ∧ fieldText a "name" = .ok name ∧ fieldText b "name" = .ok name

/-- The keys and values that the checks come to can be sorted and converted to strings. -/
structure Presentable (data : YamlDict F) : Prop where
  sortable : 2 ≤ (unknownKeys data).length → ∃ k, ∀ key ∈ unknownKeys data, key.kind = some k
  keys : ∀ key ∈ unknownKeys data, ∃ text, key.repr = some text
  invariants : unknownKeys data = [] → ∀ items, YamlValue.getOr "invariants" (.list []) data = .list items →
    ∀ before item after declared, items = before ++ item :: after → List.Forall₂ Declares before declared →
      (declared.map Invariant.name).Nodup → Legible item
  gates : unknownKeys data = [] → ∀ items declared, YamlValue.getOr "invariants" (.list []) data = .list items →
    List.Forall₂ Declares items declared → (declared.map Invariant.name).Nodup →
    ∀ entries, YamlValue.getOr "waive" (.dict []) data = .dict entries →
    ∀ before gate reason after waived, entries = before ++ (gate, reason) :: after → List.Forall₂ Waives before waived →
      waivedGate gate = none → ∃ text, gate.text = some text

variable {data : YamlDict F} {e : LoadError}

/-! ## The keys -/

theorem mapM_repr {keys : List (YamlScalar F)} :
    (∃ texts, keys.mapM YamlScalar.repr = some texts) ↔ ∀ key ∈ keys, ∃ text, key.repr = some text := by
  induction keys with
  | nil => simp
  | cons key keys ih =>
    rw [List.mapM_cons, List.forall_mem_cons, ← ih]
    cases hkey : key.repr <;> cases hkeys : keys.mapM YamlScalar.repr <;> simp

theorem checkKeys_ok (h : checkKeys data = .ok ()) : unknownKeys data = [] := by
  obtain ⟨unknown, hsorted, hrest⟩ := bind_eq_ok h
  have hperm := pySorted_perm hsorted
  split at hrest
  next hempty =>
    rw [List.isEmpty_iff.mp hempty] at hperm
    exact hperm.symm.eq_nil
  next =>
    split at hrest
    next => cases hrest
    next => cases hrest

theorem checkKeys_nil (h : unknownKeys data = []) : checkKeys data = .ok () := by
  unfold checkKeys
  rw [h]
  rfl

theorem checkKeys_sorted (hunknown : unknownKeys data ≠ []) {keys : List (YamlScalar F)}
    (h : pySorted YamlScalar.lt (unknownKeys data) = .ok keys) :
    (∃ e, checkKeys data = .error e ∧ e.IsConfigError) ↔ ∀ key ∈ unknownKeys data, ∃ text, key.repr = some text := by
  have hperm := pySorted_perm h
  have hkeys : keys.isEmpty = false := by
    rw [List.isEmpty_eq_false_iff]
    rintro rfl
    exact hunknown hperm.symm.eq_nil
  have hmem : (∀ key ∈ unknownKeys data, ∃ text, key.repr = some text) ↔ ∀ key ∈ keys, ∃ text, key.repr = some text :=
    forall_congr' fun key => by rw [hperm.mem_iff]
  unfold checkKeys
  rw [h, hmem, ← mapM_repr]
  show (∃ e, (if keys.isEmpty = true then _ else _) = _ ∧ _) ↔ _
  rw [hkeys]
  cases hmap : keys.mapM YamlScalar.repr with
  | none =>
    constructor
    · rintro ⟨e, he, hconfig⟩
      cases he
      exact absurd hconfig tooLong_not_config
    · rintro ⟨texts, h⟩
      cases h
  | some texts => exact ⟨fun _ => ⟨texts, rfl⟩, fun _ => ⟨_, rfl, _, rfl⟩⟩

/-- Unknown keys are reported exactly when they can be sorted and written. -/
theorem checkKeys_configError_iff (hunknown : unknownKeys data ≠ []) :
    (∃ e, checkKeys data = .error e ∧ e.IsConfigError) ↔
      (2 ≤ (unknownKeys data).length → ∃ k, ∀ key ∈ unknownKeys data, key.kind = some k) ∧
      ∀ key ∈ unknownKeys data, ∃ text, key.repr = some text := by
  have hsortable : (∃ keys, pySorted YamlScalar.lt (unknownKeys data) = .ok keys) ↔
      (2 ≤ (unknownKeys data).length → ∃ k, ∀ key ∈ unknownKeys data, key.kind = some k) := by
    match unknownKeys data with
    | [] => exact ⟨fun _ h => absurd h (by simp), fun _ => ⟨[], rfl⟩⟩
    | [a] => exact ⟨fun _ h => absurd h (by simp), fun _ => ⟨[a], rfl⟩⟩
    | a :: b :: rest =>
      rw [pySorted_ok_iff YamlScalar.lt_comparesBy]
      exact ⟨fun h _ => h, fun h => h (by simp)⟩
  rw [← hsortable]
  cases hsorted : pySorted YamlScalar.lt (unknownKeys data) with
  | error e =>
    have herror : checkKeys data = .error e := bind_error hsorted
    constructor
    · rintro ⟨e', he, message, rfl⟩
      rw [herror] at he
      cases he
      obtain ⟨message', h⟩ := pySorted_error (p := fun e => ∃ message, e = LoadError.typeError message)
        (fun _ _ _ => YamlScalar.lt_error) hsorted
      cases h
    · rintro ⟨⟨keys, h⟩, -⟩
      cases h
  | ok keys =>
    rw [checkKeys_sorted hunknown hsorted]
    exact ⟨fun h => ⟨⟨keys, rfl⟩, h⟩, And.right⟩

/-! ## Invariants and waivers -/

theorem loadInvariants_declared {idx : Nat} {item : YamlValue F} {items : List (YamlValue F)} {invariants : List Invariant}
    {i : Invariant} (hitem : Declares item i) (hfresh : i.name ∉ invariants.map Invariant.name) :
    loadInvariants idx (item :: items) invariants = loadInvariants (idx + 1) items (invariants ++ [i]) := by
  have hnone : ¬ invariants.any (·.name = i.name) = true := by
    intro hany
    obtain ⟨j, hj, hji⟩ := List.any_eq_true.mp hany
    exact hfresh (List.mem_map.mpr ⟨j, hj, of_decide_eq_true hji⟩)
  rw [loadInvariants, hitem.name, hitem.command]
  show (if i.name = [] ∨ i.command = [] then _ else _) = _
  rw [if_neg (not_or.mpr ⟨hitem.named, hitem.commanded⟩), if_neg hnone]

theorem fieldText_error {item : YamlValue F} {key : String} (h : fieldText item key = .error e) : e = tooLong := by
  unfold fieldText at h
  split at h
  next =>
    split at h
    next => cases h
    next =>
      cases h
      rfl
  next => cases h

theorem loadInvariants_illegible {idx : Nat} {item : YamlValue F} {items : List (YamlValue F)} {invariants : List Invariant}
    (h : ¬ Legible item) : loadInvariants idx (item :: items) invariants = .error tooLong := by
  rw [loadInvariants]
  cases hname : fieldText item "name" with
  | error e =>
    rw [fieldText_error hname]
    rfl
  | ok name =>
    cases hcommand : fieldText item "command" with
    | error e =>
      rw [fieldText_error hcommand]
      rfl
    | ok command => exact absurd ⟨name, command, hname, hcommand⟩ h

/-- The invariants are rejected with the loader's own error exactly when no item before the rejected one or at it is
illegible. -/
theorem loadInvariants_configError_iff {idx : Nat} {items : List (YamlValue F)} {invariants : List Invariant}
    (hnames : (invariants.map Invariant.name).Nodup) :
    (∀ e, loadInvariants idx items invariants = .error e → e.IsConfigError) ↔
      ∀ before item after declared, items = before ++ item :: after → List.Forall₂ Declares before declared →
        ((invariants ++ declared).map Invariant.name).Nodup → Legible item := by
  induction items generalizing idx invariants with
  | nil =>
    constructor
    · intro _ before item after _ hsplit
      exact absurd hsplit (by simp)
    · intro _ e h
      cases h
  | cons item items ih =>
    have hstep : ∀ i, (i.name ∉ invariants.map Invariant.name) → ((invariants ++ [i]).map Invariant.name).Nodup := by
      intro i hfresh
      rw [List.map_append, List.nodup_append]
      refine ⟨hnames, List.nodup_singleton _, ?_⟩
      rintro a ha b hb rfl
      obtain rfl : a = i.name := by simpa using hb
      exact hfresh ha
    constructor
    · intro h before first after declared hsplit hall hnodup
      cases hall with
      | nil =>
        obtain ⟨rfl, rfl⟩ := List.cons.inj hsplit
        by_contra hlegible
        exact tooLong_not_config (h _ (loadInvariants_illegible hlegible))
      | cons hitem hrest =>
        rename_i j i before declared
        obtain ⟨rfl, rfl⟩ := List.cons.inj hsplit
        have hfresh : i.name ∉ invariants.map Invariant.name := by
          intro hmem
          rw [List.map_append, List.nodup_append] at hnodup
          exact hnodup.2.2 i.name hmem i.name (by simp) rfl
        rw [loadInvariants_declared hitem hfresh] at h
        refine (ih (hstep i hfresh)).mp h before first after declared rfl hrest ?_
        rwa [List.append_assoc, List.singleton_append]
    · intro h e herror
      obtain ⟨name, command, hname, hcommand⟩ := h [] item items [] rfl .nil (by simpa using hnames)
      by_cases hempty : name = [] ∨ command = []
      · unfold loadInvariants at herror
        rw [hname, hcommand] at herror
        change (if name = [] ∨ command = [] then _ else _) = Except.error e at herror
        rw [if_pos hempty] at herror
        cases herror
        exact ⟨_, rfl⟩
      · have hitem : Declares item ⟨name, command⟩ := ⟨hname, hcommand, (not_or.mp hempty).1, (not_or.mp hempty).2⟩
        by_cases hfresh : name ∈ invariants.map Invariant.name
        · have hany : invariants.any (·.name = name) = true := by
            obtain ⟨j, hj, hji⟩ := List.mem_map.mp hfresh
            exact List.any_eq_true.mpr ⟨j, hj, decide_eq_true hji⟩
          rw [loadInvariants, hname, hcommand] at herror
          change (if name = [] ∨ command = [] then _ else _) = Except.error e at herror
          rw [if_neg hempty, if_pos hany] at herror
          cases herror
          exact ⟨_, rfl⟩
        · rw [loadInvariants_declared hitem hfresh] at herror
          refine (ih (hstep _ hfresh)).mpr (fun before first after declared hsplit hall hnodup => ?_) e herror
          refine h (item :: before) first after (⟨name, command⟩ :: declared) (by rw [hsplit]; rfl) (.cons hitem hall) ?_
          rwa [List.append_assoc, List.singleton_append] at hnodup

theorem loadInvariants_configError_nil_iff {idx : Nat} {items : List (YamlValue F)} :
    (∀ e, loadInvariants idx items [] = .error e → e.IsConfigError) ↔
      ∀ before item after declared, items = before ++ item :: after → List.Forall₂ Declares before declared →
        (declared.map Invariant.name).Nodup → Legible item := by
  have hempty : (([] : List Invariant).map Invariant.name).Nodup := List.nodup_nil
  simpa only [List.nil_append] using @loadInvariants_configError_iff _ _ _ idx items [] hempty

theorem loadWaivers_configError_iff {entries : YamlDict F} {waivers : List (Str × Str)} :
    (∀ e, loadWaivers entries waivers = .error e → e.IsConfigError) ↔
      ∀ before gate reason after waived, entries = before ++ (gate, reason) :: after → List.Forall₂ Waives before waived →
        waivedGate gate = none → ∃ text, gate.text = some text := by
  induction entries generalizing waivers with
  | nil =>
    constructor
    · intro _ before gate reason after _ hsplit
      exact absurd hsplit (by simp)
    · intro _ e h
      cases h
  | cons entry entries ih =>
    obtain ⟨gate, reason⟩ := entry
    constructor
    · intro h before first why after waived hsplit hall hgate
      cases hall with
      | nil =>
        obtain ⟨heq, rfl⟩ := List.cons.inj hsplit
        cases heq
        cases htext : gate.text with
        | some text => exact ⟨text, rfl⟩
        | none =>
          refine absurd (h tooLong ?_) tooLong_not_config
          unfold loadWaivers
          simp only [hgate, htext]
      | cons hentry hrest =>
        rename_i entry w before waived
        rw [List.cons_append] at hsplit
        obtain ⟨rfl, rfl⟩ := List.cons.inj hsplit
        have hstep : loadWaivers ((gate, reason) :: (before ++ (first, why) :: after)) waivers =
            loadWaivers (before ++ (first, why) :: after) (setEntry w.1 w.2 waivers) := by
          rw [loadWaivers, hentry.gate]
          dsimp only
          rw [hentry.reason]
        rw [hstep] at h
        exact ih.mp h before first why after waived rfl hrest hgate
    · intro h e herror
      unfold loadWaivers at herror
      split at herror
      next hgate =>
        obtain ⟨text, htext⟩ := h [] gate reason entries [] rfl .nil hgate
        rw [htext] at herror
        cases herror
        exact ⟨_, rfl⟩
      next name hgate =>
        split at herror
        next =>
          cases herror
          exact ⟨_, rfl⟩
        next text hreason =>
          refine ih.mpr (fun before first why after waived hsplit hall hfirst => ?_) e herror
          exact h ((gate, reason) :: before) first why after ((name, text) :: waived) (by rw [hsplit]; rfl)
            (.cons ⟨hgate, hreason⟩ hall) hfirst

/-! ## Mappings that have to be rejected -/

def MustReject (data : YamlDict F) : Prop := UnknownKey data ∨ BadWaiver data ∨ RepeatedName data

theorem names_differ {items : List (YamlValue F)} {declared : List Invariant} (hall : List.Forall₂ Declares items declared)
    (hnodup : (declared.map Invariant.name).Nodup) :
    items.Pairwise fun a b => ∀ name, fieldText a "name" = .ok name → fieldText b "name" ≠ .ok name := by
  induction hall with
  | nil => exact .nil
  | cons hitem hrest ih =>
    rename_i item i items declared
    obtain ⟨hfresh, hnodup⟩ := List.nodup_cons.mp hnodup
    refine .cons (fun b hb name hname hsame => ?_) (ih hnodup)
    obtain ⟨j, hj, hbj⟩ := exists_of_forall₂ hrest.flip b hb
    rw [hitem.name] at hname
    rw [hbj.name] at hsame
    cases hname
    exact hfresh (List.mem_map.mpr ⟨j, hj, Except.ok.inj hsame⟩)

theorem RepeatedName.rejected (h : RepeatedName data) {items : List (YamlValue F)} (hitems : rawInvariants data = .ok items)
    {invariants : List Invariant} (hload : loadInvariants 1 items [] = .ok invariants) : False := by
  obtain ⟨items', hget, a, b, name, hsub, ha, hb⟩ := h
  unfold rawInvariants at hitems
  rw [hget] at hitems
  cases hitems
  obtain ⟨hall, hnodup⟩ := loadInvariants_nil_iff.mp hload
  have hpair := (names_differ hall hnodup).sublist hsub
  exact (List.pairwise_cons.mp hpair).1 b (List.mem_singleton_self b) name ha hb

theorem BadWaiver.rejected (h : BadWaiver data) {entries : YamlDict F}
    (hentries : rawWaivers data = .ok entries) {waivers : List (Str × Str)} (hload : loadWaivers entries [] = .ok waivers) :
    False := by
  obtain ⟨entries', hget, entry, hentry, hbad⟩ := h
  unfold rawWaivers at hentries
  rw [hget] at hentries
  cases hentries
  obtain ⟨waived, hall, -⟩ := loadWaivers_ok_iff.mp hload
  obtain ⟨w, -, hw⟩ := exists_of_forall₂ hall.flip entry hentry
  rcases hbad with hgate | hreason
  · rw [hw.gate] at hgate
    cases hgate
  · rw [hw.reason] at hreason
    cases hreason

omit [UnicodeData] in
theorem rawInvariants_ok {items : List (YamlValue F)} :
    rawInvariants data = .ok items ↔ YamlValue.getOr "invariants" (.list []) data = .list items := by
  unfold rawInvariants
  split
  next items' heq => rw [heq, Except.ok.injEq, YamlValue.list.injEq]
  next hother => exact ⟨fun h => (nomatch h), fun h => absurd h (hother items)⟩

omit [UnicodeData] in
theorem rawInvariants_error (h : rawInvariants data = .error e) : e.IsConfigError := by
  unfold rawInvariants at h
  split at h
  next => cases h
  next =>
    cases h
    exact ⟨_, rfl⟩

omit [UnicodeData] in
theorem rawWaivers_ok {entries : YamlDict F} :
    rawWaivers data = .ok entries ↔ YamlValue.getOr "waive" (.dict []) data = .dict entries := by
  unfold rawWaivers
  split
  next entries' heq => rw [heq, Except.ok.injEq, YamlValue.dict.injEq]
  next hother => exact ⟨fun h => (nomatch h), fun h => absurd h (hother entries)⟩

omit [UnicodeData] in
theorem rawWaivers_error (h : rawWaivers data = .error e) : e.IsConfigError := by
  unfold rawWaivers at h
  split at h
  next => cases h
  next =>
    cases h
    exact ⟨_, rfl⟩

/-- A mapping that has to be rejected is rejected with the loader's own error exactly when the checks it comes to can be
carried out. -/
theorem mustReject_configError_iff {regression : List Str} (h : MustReject data) :
    (∃ message, loadVerificationConfig (some data) regression = .error (.verificationConfigError message)) ↔
      Presentable data := by
  constructor
  · rintro ⟨message, hload⟩
    have hconfig : ∀ {α : Type} {x : Except LoadError α} {f : α → Except LoadError (LoadedConfig F)} {e : LoadError},
        x >>= f = .error (.verificationConfigError message) → x = .error e → e.IsConfigError := by
      intro α x f e hbind hx
      rw [bind_error hx] at hbind
      exact ⟨message, Except.error.inj hbind⟩
    have hkeys : (2 ≤ (unknownKeys data).length → ∃ k, ∀ key ∈ unknownKeys data, key.kind = some k) ∧
        ∀ key ∈ unknownKeys data, ∃ text, key.repr = some text := by
      by_cases hunknown : unknownKeys data = []
      · simp [hunknown]
      · refine (checkKeys_configError_iff hunknown).mp ?_
        cases hcheck : checkKeys data with
        | ok u => exact absurd (checkKeys_ok hcheck) hunknown
        | error e => exact ⟨e, rfl, hconfig hload hcheck⟩
    have hrest (hunknown : unknownKeys data = []) := (bind_congr_ok (checkKeys_nil hunknown)).symm.trans hload
    refine ⟨hkeys.1, hkeys.2, fun hunknown items hitems => ?_, fun hunknown items declared hitems hall hnodup entries hentries => ?_⟩
    · have hinvariants := (bind_congr_ok (rawInvariants_ok.mpr hitems)).symm.trans (hrest hunknown)
      have herror : ∀ e, loadInvariants 1 items [] = .error e → e.IsConfigError := fun e he => hconfig hinvariants he
      exact loadInvariants_configError_nil_iff.mp herror
    · have hinvariants := (bind_congr_ok (rawInvariants_ok.mpr hitems)).symm.trans (hrest hunknown)
      have hdeclared : loadInvariants 1 items [] = .ok declared :=
        loadInvariants_nil_iff.mpr ⟨hall, hnodup⟩
      have hraw := (bind_congr_ok hdeclared).symm.trans hinvariants
      have hwaivers := (bind_congr_ok (rawWaivers_ok.mpr hentries)).symm.trans hraw
      exact loadWaivers_configError_iff.mp fun e he => hconfig hwaivers he
  · intro hpresentable
    have hconfig : ∀ {α : Type} {x : Except LoadError α} {f : α → Except LoadError (LoadedConfig F)} {e : LoadError},
        x = .error e → e.IsConfigError → ∃ message, x >>= f = .error (.verificationConfigError message) := by
      rintro α x f e hx ⟨message, rfl⟩
      exact ⟨message, bind_error hx⟩
    unfold loadVerificationConfig
    rw [Option.getD_some]
    by_cases hunknown : unknownKeys data = []
    · rw [bind_congr_ok (checkKeys_nil hunknown)]
      cases hitems : rawInvariants data with
      | error e => exact hconfig rfl (rawInvariants_error hitems)
      | ok items =>
        rw [bind_congr_ok rfl]
        have hinvariants : ∀ e, loadInvariants 1 items [] = .error e → e.IsConfigError :=
          loadInvariants_configError_nil_iff.mpr (hpresentable.invariants hunknown items (rawInvariants_ok.mp hitems))
        cases hload : loadInvariants 1 items [] with
        | error e => exact hconfig rfl (hinvariants e hload)
        | ok invariants =>
          rw [bind_congr_ok rfl]
          cases hentries : rawWaivers data with
          | error e => exact hconfig rfl (rawWaivers_error hentries)
          | ok entries =>
            rw [bind_congr_ok rfl]
            obtain ⟨hall, hnodup⟩ := loadInvariants_nil_iff.mp hload
            have hgates := hpresentable.gates hunknown items invariants (rawInvariants_ok.mp hitems) hall hnodup entries
              (rawWaivers_ok.mp hentries)
            have hwaivers : ∀ e, loadWaivers entries [] = .error e → e.IsConfigError := loadWaivers_configError_iff.mpr hgates
            cases hwaived : loadWaivers entries [] with
            | error e => exact hconfig rfl (hwaivers e hwaived)
            | ok waivers =>
              rcases h with h | h | h
              · exact absurd hunknown h
              · exact (h.rejected hentries hwaived).elim
              · exact (h.rejected hitems hload).elim
    · obtain ⟨e, he, hown⟩ := (checkKeys_configError_iff hunknown).mpr ⟨hpresentable.sortable, hpresentable.keys⟩
      exact hconfig he hown

/-- Every loaded config is loaded again from its dict, and every mapping that has to be rejected is rejected with the
loader's own error, exactly when the mapping can be presented. -/
theorem loadVerificationConfig_iff (data : Option (YamlDict F)) (regression : List Str) :
    ((∀ config, loadVerificationConfig data regression = .ok config →
        loadVerificationConfig (some config.toDict) [] = .ok config) ∧
      (MustReject (data.getD []) →
        ∃ message, loadVerificationConfig data regression = .error (.verificationConfigError message))) ↔
    (MustReject (data.getD []) → Presentable (data.getD [])) := by
  have hnone : loadVerificationConfig data regression = loadVerificationConfig (some (data.getD [])) regression := rfl
  rw [hnone]
  constructor
  · rintro ⟨-, herror⟩ hreject
    exact (mustReject_configError_iff hreject).mp (herror hreject)
  · intro h
    exact ⟨fun config hload => load_toDict (load_wellFormed hload), fun hreject =>
      (mustReject_configError_iff hreject).mpr (h hreject)⟩

end

@[reducible] def noYamlFloats : YamlFloat Unit where
  toPyFloat := noFloats
  half := ()
  truthy _ := false
  negative _ := false
  ofInt _ := some ()
  below _ _ := false
  half_nonneg := rfl
  ofInt_nonneg _ _ := rfl

/-- Two mistyped keys, one of them a number: they cannot be sorted for the message. -/
def mixedKeys : YamlDict Unit :=
  [(.int 1, .scalar .null), (.str "regresion".toList, .scalar (.str "pytest".toList))]

theorem mixedKeys_typeError : ¬ ∀ (data : YamlDict Unit) (regression : List Str),
    UnknownKey data → ∃ message, @loadVerificationConfig asciiData Unit noYamlFloats (some data) regression =
      .error (.verificationConfigError message) := by
  intro h
  obtain ⟨message, herror⟩ := h mixedKeys [] (List.cons_ne_nil _ _)
  have htype : @loadVerificationConfig asciiData Unit noYamlFloats (some mixedKeys) [] =
      .error (@YamlScalar.incomparable Unit (.str "regresion".toList) (.int 1)) := rfl
  rw [htype] at herror
  cases herror

end FailureOrchestrator
