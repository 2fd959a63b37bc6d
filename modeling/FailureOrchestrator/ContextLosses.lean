import FailureOrchestrator.ContextBuilder

namespace FailureOrchestrator

/-! ## Labels -/

namespace ContextLabel

theorem mem_all (label : ContextLabel) : label ∈ all := by cases label <;> decide

theorem text_injective {label label' : ContextLabel} (h : label.text = label'.text) : label = label' :=
  List.inj_on_of_nodup_map (by decide : (all.map text).Nodup) (mem_all label) (mem_all label') h

theorem beforeFirst_item (label : ContextLabel) (value : Str) : beforeFirst ':' (label.item value) = label.text := by
  have hcolon : ∀ c ∈ label.text, (c != ':') = true := by cases label <;> decide
  unfold item beforeFirst
  rw [List.append_assoc, List.takeWhile_append_of_pos hcolon]
  simp

/-- An item shows its label. -/
theorem item_injective {label label' : ContextLabel} {value value' : Str} (h : label.item value = label'.item value') :
    label = label' ∧ value = value' := by
  have hlabel : label = label' := by
    refine text_injective ?_
    rw [← beforeFirst_item label value, h, beforeFirst_item]
  subst hlabel
  exact ⟨rfl, List.append_cancel_left h⟩

/-- A reason that says that a text with the label was skipped or cut. -/
def NamedBy (label : ContextLabel) (reason : Str) : Prop :=
  reason = label.cutReason ∨ reason = label.binaryReason

theorem cutReason_injective {label label' : ContextLabel} (h : label.cutReason = label'.cutReason) : label = label' :=
  text_injective (List.append_cancel_left h)

theorem binaryReason_injective {label label' : ContextLabel} (h : label.binaryReason = label'.binaryReason) :
    label = label' := text_injective (List.append_cancel_left h)

theorem cutReason_ne_binaryReason (label label' : ContextLabel) : label.cutReason ≠ label'.binaryReason := fun h => by
  cases h

end ContextLabel

variable {budget : ContextBudget} {event : FailureEvent} {diffExcerpt : Str} {previousAttempts : List PreviousAttempt}

/-! ## The evidence of an event -/

theorem mem_given {label : ContextLabel} {value : Str} {limit : Option Int} {a : Addition} :
    a ∈ given label value limit ↔ value ≠ [] ∧ a = ⟨label, value, limit⟩ := by
  unfold given
  cases value <;> simp

theorem label_of_mem {label : ContextLabel} {a : Addition}
    (h : a ∈ additionsOf budget event diffExcerpt previousAttempts label) : a.label = label := by
  unfold additionsOf at h
  cases label with
  | failedStep | message =>
    rw [List.mem_singleton.mp h]
  | changedPaths =>
    dsimp only at h
    split at h
    · cases h
    · rw [List.mem_singleton.mp h]
  | testHint =>
    obtain ⟨hay, -, rfl⟩ := Option.mem_map.mp (Option.mem_toList.mp h)
    rfl
  | logExcerpt | repository | commitSha | branch | workflow | job | diff => rw [(mem_given.mp h).2]
  | previousAttempt =>
    obtain ⟨key, -, rfl⟩ := List.mem_map.mp h
    rfl

theorem mem_additions {a : Addition} : a ∈ additions budget event diffExcerpt previousAttempts ↔
    a ∈ additionsOf budget event diffExcerpt previousAttempts a.label := by
  unfold additions
  rw [List.mem_flatMap]
  constructor
  · rintro ⟨label, -, h⟩
    rwa [label_of_mem h]
  · exact fun h => ⟨a.label, ContextLabel.mem_all _, h⟩

/-- The message, the log and the diff are added once. -/
theorem sole_text {a k : Addition} (ha : a ∈ additions budget event diffExcerpt previousAttempts)
    (hk : k ∈ additions budget event diffExcerpt previousAttempts) (hlabel : k.label = a.label)
    (h : a.label = .message ∨ a.label = .logExcerpt ∨ a.label = .diff) : k = a := by
  rw [mem_additions] at ha hk
  rw [hlabel] at hk
  rcases h with h | h | h
  · rw [h] at ha hk
    rw [List.mem_singleton.mp ha, List.mem_singleton.mp hk]
  · rw [h] at ha hk
    rw [(mem_given.mp ha).2, (mem_given.mp hk).2]
  · rw [h] at ha hk
    rw [(mem_given.mp ha).2, (mem_given.mp hk).2]

/-- The safe paths, as they are added. -/
def pathsAddition (event : FailureEvent) : Addition := ⟨.changedPaths, joinWith ", ".toList (safePaths event), none⟩

theorem mem_pathsOf {k : Addition} (hk : k ∈ additions budget event diffExcerpt previousAttempts)
    (hlabel : k.label = .changedPaths) : safePaths event ≠ [] ∧ k = pathsAddition event := by
  rw [mem_additions, hlabel] at hk
  unfold additionsOf at hk
  dsimp only at hk
  split at hk
  · cases hk
  · next hpaths =>
    rw [List.isEmpty_iff] at hpaths
    exact ⟨hpaths, List.mem_singleton.mp hk⟩

theorem pathsAddition_mem (h : safePaths event ≠ []) :
    pathsAddition event ∈ additions budget event diffExcerpt previousAttempts := by
  refine mem_additions.mpr ?_
  unfold additionsOf
  dsimp only [pathsAddition]
  rw [if_neg (by rwa [List.isEmpty_iff])]
  exact List.mem_singleton.mpr rfl

/-- Whether a path is safe can be seen from its form with slashes. -/
theorem safePath_slashed (p : Str) : safePath p = (!hasSub (slashed p) "..".toList && !startsWith (slashed p) ['/']) := by
  have hroot : startsWithAny p ["/", "\\"] = startsWith (slashed p) ['/'] := by
    cases p with
    | nil => rfl
    | cons c p =>
      by_cases hc : c = '\\'
      · subst hc
        rfl
      · simp [startsWithAny, startsWith, slashed, replaceChar, List.isPrefixOf, hc, Ne.symm hc]
  unfold safePath
  rw [hroot]

theorem slashed_mem_safePaths {p : Str} (hp : p ∈ event.changedPaths) : slashed p ∈ safePaths event ↔ safePath p = true := by
  unfold safePaths
  constructor
  · intro h
    obtain ⟨q, hq, heq⟩ := List.mem_map.mp h
    rw [safePath_slashed, ← heq, ← safePath_slashed]
    exact (List.mem_filter.mp hq).2
  · exact fun h => List.mem_map_of_mem (List.mem_filter.mpr ⟨hp, h⟩)

/-- The texts whose loss has to be recorded: the message, the log, the diff and the distinct earlier attempts. -/
def evidence (event : FailureEvent) (diffExcerpt : Str) (previousAttempts : List PreviousAttempt) :
    List (ContextLabel × Str) :=
  [(.message, event.message)] ++
  [(.logExcerpt, event.logExcerpt), (.diff, diffExcerpt)].filter (fun text => !text.2.isEmpty) ++
  (previousAttempts.map fun attempt => (.previousAttempt, attempt.key))

def ContextLabel.isEvidence (label : ContextLabel) : Bool :=
  [ContextLabel.message, .logExcerpt, .diff, .previousAttempt].contains label

theorem mem_evidence {label : ContextLabel} {value : Str} : (label, value) ∈ evidence event diffExcerpt previousAttempts ↔
    label.isEvidence = true ∧
      ∃ a ∈ additions budget event diffExcerpt previousAttempts, a.label = label ∧ a.value = value := by
  unfold evidence ContextLabel.isEvidence
  constructor
  · intro h
    rw [List.mem_append, List.mem_append, List.mem_singleton, List.mem_filter, List.mem_map] at h
    rcases h with (h | ⟨h, hgiven⟩) | ⟨attempt, hattempt, h⟩
    · cases h
      exact ⟨rfl, ⟨.message, event.message, some 4000⟩, mem_additions.mpr (List.mem_singleton.mpr rfl), rfl, rfl⟩
    · have hvalue : value ≠ [] := by simpa using hgiven
      rcases List.mem_pair.mp h with h | h
      · cases h
        exact ⟨rfl, ⟨.logExcerpt, _, some budget.maxLogChars⟩, mem_additions.mpr (mem_given.mpr ⟨hvalue, rfl⟩), rfl, rfl⟩
      · cases h
        exact ⟨rfl, ⟨.diff, _, some budget.maxDiffChars⟩, mem_additions.mpr (mem_given.mpr ⟨hvalue, rfl⟩), rfl, rfl⟩
    · cases h
      refine ⟨rfl, ⟨.previousAttempt, attempt.key, some 800⟩, mem_additions.mpr ?_, rfl, rfl⟩
      exact List.mem_map.mpr ⟨_, mem_fromKeys.mpr (List.mem_map_of_mem hattempt), rfl⟩
  · rintro ⟨hlabel, a, ha, rfl, rfl⟩
    rw [mem_additions] at ha
    rw [List.mem_append, List.mem_append, List.mem_singleton, List.mem_filter, List.mem_map]
    cases hl : a.label with
    | message =>
      rw [hl] at ha
      rw [List.mem_singleton.mp ha]
      exact .inl (.inl rfl)
    | logExcerpt =>
      rw [hl] at ha
      obtain ⟨hvalue, rfl⟩ := mem_given.mp ha
      exact .inl (.inr ⟨List.mem_cons_self, by simpa using hvalue⟩)
    | diff =>
      rw [hl] at ha
      obtain ⟨hvalue, rfl⟩ := mem_given.mp ha
      exact .inl (.inr ⟨List.mem_cons_of_mem _ List.mem_cons_self, by simpa using hvalue⟩)
    | previousAttempt =>
      rw [hl] at ha
      obtain ⟨key, hkey, rfl⟩ := List.mem_map.mp ha
      obtain ⟨attempt, hattempt, rfl⟩ := List.mem_map.mp (mem_fromKeys.mp hkey)
      exact .inr ⟨attempt, hattempt, rfl⟩
    | failedStep | changedPaths | testHint | repository | commitSha | branch | workflow | job =>
      rw [hl] at hlabel
      cases hlabel

/-- The total cut leaves more than the budget. -/
theorem length_sliceTo_over (blob : Str) (n : Int) (h : n < blob.length) :
    n < ((sliceTo blob n ++ "\n...[context_budget]".toList).length : Int) := by
  have hmark : ("\n...[context_budget]".toList).length = 20 := by decide
  unfold sliceTo
  rw [List.length_append, hmark]
  split
  · rw [List.length_take]
    omega
  · omega

section

variable [UnicodeData]

/-! ## The calls of `add` -/

namespace Addition

def readable (a : Addition) : Bool := !isBinaryNoise a.value

def long (a : Addition) : Bool := a.exceeded.isSome

/-- The item that holds the whole text. -/
def complete (a : Addition) : Str := a.label.item a.cleaned

def item (a : Addition) : Str := a.label.item (a.exceeded.elim a.cleaned a.cutText)

def isCut (a : Addition) : Bool := a.readable && a.long

def reason (a : Addition) : Option Str :=
  if a.readable then if a.long then some a.label.cutReason else none else some a.label.binaryReason

theorem item_eq_complete {a : Addition} (h : a.long = false) : a.item = a.complete := by
  unfold long at h
  rw [Option.isSome_eq_false_iff, Option.isNone_iff_eq_none] at h
  unfold item complete
  rw [h]
  rfl

theorem reason_named {a : Addition} {label : ContextLabel} :
    (∃ reason ∈ a.reason, label.NamedBy reason) ↔ a.label = label ∧ (a.readable = false ∨ a.long = true) := by
  unfold reason ContextLabel.NamedBy
  cases hread : a.readable with
  | false =>
    constructor
    · rintro ⟨reason, ⟨⟩, h | h⟩
      · exact absurd h.symm (ContextLabel.cutReason_ne_binaryReason _ _)
      · exact ⟨ContextLabel.binaryReason_injective h, .inl rfl⟩
    · rintro ⟨rfl, -⟩
      exact ⟨_, rfl, .inr rfl⟩
  | true =>
    cases hlong : a.long with
    | false => simp
    | true =>
      constructor
      · rintro ⟨reason, ⟨⟩, h | h⟩
        · exact ⟨ContextLabel.cutReason_injective h, .inr rfl⟩
        · exact absurd h (ContextLabel.cutReason_ne_binaryReason _ _)
      · rintro ⟨rfl, -⟩
        exact ⟨_, rfl, .inl rfl⟩

end Addition

/-- What one call of `add` changes. -/
theorem add_items (g : Gathered) (a : Addition) :
    (add g a).items = g.items ++ ([a].filter Addition.readable).map Addition.item ∧
    (add g a).reasons = g.reasons ++ [a].filterMap Addition.reason ∧
    (add g a).truncated = (g.truncated || a.isCut) := by
  unfold add
  cases hbinary : isBinaryNoise a.value with
  | true =>
    have hread : a.readable = false := by simp [Addition.readable, hbinary]
    simp [Addition.isCut, Addition.reason, hread]
  | false =>
    have hread : a.readable = true := by simp [Addition.readable, hbinary]
    cases hlimit : a.exceeded with
    | none =>
      have hlong : a.long = false := by simp [Addition.long, hlimit]
      simp [Addition.isCut, Addition.reason, Addition.item, hread, hlong, hlimit]
    | some limit =>
      have hlong : a.long = true := by simp [Addition.long, hlimit]
      simp [Addition.isCut, Addition.reason, Addition.item, hread, hlong, hlimit]

theorem foldl_add (as : List Addition) (g : Gathered) :
    (as.foldl add g).items = g.items ++ (as.filter Addition.readable).map Addition.item ∧
    (as.foldl add g).reasons = g.reasons ++ as.filterMap Addition.reason ∧
    (as.foldl add g).truncated = (g.truncated || as.any Addition.isCut) := by
  induction as generalizing g with
  | nil => simp
  | cons a as ih =>
    obtain ⟨hitems, hreasons, htruncated⟩ := ih (add g a)
    obtain ⟨hitem, hreason, hcut⟩ := add_items g a
    have hfilter : (a :: as).filter Addition.readable = [a].filter Addition.readable ++ as.filter Addition.readable :=
      List.filter_append [a] as
    have hmap : (a :: as).filterMap Addition.reason = [a].filterMap Addition.reason ++ as.filterMap Addition.reason := by
      rw [← List.filterMap_append]
      rfl
    rw [List.foldl_cons, hitems, hreasons, htruncated, hitem, hreason, hcut, hfilter, hmap]
    simp only [List.map_append, List.append_assoc, List.any_cons, Bool.or_assoc, and_self]

/-! ## Losses -/

namespace BuiltContext

variable (c : BuiltContext)

/-- The context says that it is truncated, and a reason names the label. -/
def Records (label : ContextLabel) : Prop := c.truncated = true ∧ ∃ reason ∈ c.truncationReasons, label.NamedBy reason

/-- The whole list of paths is in the evidence, with the path in it. -/
def Lists (p : Str) : Prop :=
  slashed p ∈ c.changedPaths ∧
    ContextLabel.changedPaths.item (sanitizeText (joinWith ", ".toList c.changedPaths)).1 ∈ c.prioritizedEvidence

end BuiltContext

section

variable (budget : ContextBudget) (event : FailureEvent) (diffExcerpt : Str) (previousAttempts : List PreviousAttempt)

/-- The context keeps its limits, and no text is lost without a record. -/
structure LosesNothing (c : BuiltContext) : Prop where
  fits : (c.charCount : Int) ≤ budget.maxChars
  counted : c.charCount = (joinWith ['\n'] c.prioritizedEvidence).length
  few : (c.prioritizedEvidence.length : Int) ≤ budget.maxItems
  texts : ∀ label value, (label, value) ∈ evidence event diffExcerpt previousAttempts →
    label.item (sanitizeText value).1 ∈ c.prioritizedEvidence ∨ c.Records label
  paths : ∀ p ∈ event.changedPaths, c.Lists p ∨ c.Records .changedPaths

/-- The values that are not binary, up to the limit of items. -/
def keptAdditions : List Addition :=
  ((additions budget event diffExcerpt previousAttempts).filter Addition.readable).take budget.maxItems.toNat

/-- Some value is longer than its own limit. -/
def anyCut : Bool := (additions budget event diffExcerpt previousAttempts).any Addition.isCut

/-- Only the own limit of a value cuts it, or what else is lost comes with such a cut. -/
structure Recordable : Prop where
  items : 0 ≤ budget.maxItems
  chars : ((joinWith ['\n'] ((keptAdditions budget event diffExcerpt previousAttempts).map Addition.item)).length : Int) ≤
    budget.maxChars
  paths : event.changedPaths = [] ∨
    (∀ p ∈ event.changedPaths, safePath p = true) ∧
      pathsAddition event ∈ keptAdditions budget event diffExcerpt previousAttempts ∨
    (pathsAddition event).readable = false ∧ anyCut budget event diffExcerpt previousAttempts = true
  texts : ∀ a ∈ additions budget event diffExcerpt previousAttempts,
    a.label = .message ∨ a.label = .logExcerpt ∨ a.label = .diff →
    if a.readable then a.long = true ∨ a ∈ keptAdditions budget event diffExcerpt previousAttempts
    else anyCut budget event diffExcerpt previousAttempts = true
  attempts : ∀ a ∈ additions budget event diffExcerpt previousAttempts, a.label = .previousAttempt →
    (∃ k ∈ keptAdditions budget event diffExcerpt previousAttempts, k.item = a.complete) ∨
    anyCut budget event diffExcerpt previousAttempts = true ∧
      ∃ k ∈ additions budget event diffExcerpt previousAttempts,
        k.label = .previousAttempt ∧ (k.readable = false ∨ k.long = true)

end

variable {c : BuiltContext}

/-- The items of the calls of `add`. -/
theorem gathered_items : ((additions budget event diffExcerpt previousAttempts).foldl add {}).items =
    ((additions budget event diffExcerpt previousAttempts).filter Addition.readable).map Addition.item :=
  (foldl_add _ _).1

/-- The items that the limit leaves. -/
def leftItems (budget : ContextBudget) (event : FailureEvent) (diffExcerpt : Str) (previousAttempts : List PreviousAttempt) :
    List Str :=
  firstItems ((additions budget event diffExcerpt previousAttempts).foldl add {}).items budget.maxItems

theorem leftItems_eq (h : 0 ≤ budget.maxItems) : leftItems budget event diffExcerpt previousAttempts =
    (keptAdditions budget event diffExcerpt previousAttempts).map Addition.item := by
  unfold leftItems firstItems keptAdditions
  rw [if_pos h, gathered_items, List.map_take]

/-- A context that fits was not cut as a whole. -/
theorem within_of_fits (h : buildContext budget event diffExcerpt previousAttempts = .ok c)
    (hfits : (c.charCount : Int) ≤ budget.maxChars) :
    ¬ budget.maxChars < (joinWith ['\n'] (leftItems budget event diffExcerpt previousAttempts)).length := by
  intro hover
  unfold buildContext at h
  split at h
  · cases h
  · cases h
    have hlong := length_sliceTo_over _ _ hover
    unfold leftItems at hover hlong
    dsimp only at hfits
    rw [decide_eq_true hover, if_pos rfl] at hfits
    omega

/-- What a context records that was not cut as a whole. -/
theorem built_within (h : buildContext budget event diffExcerpt previousAttempts = .ok c)
    (hwithin : ¬ budget.maxChars < (joinWith ['\n'] (leftItems budget event diffExcerpt previousAttempts)).length) :
    c.prioritizedEvidence = leftItems budget event diffExcerpt previousAttempts ∧
    c.charCount = (joinWith ['\n'] (leftItems budget event diffExcerpt previousAttempts)).length ∧
    c.truncated = anyCut budget event diffExcerpt previousAttempts ∧
    c.truncationReasons = (additions budget event diffExcerpt previousAttempts).filterMap Addition.reason ∧
    c.changedPaths = safePaths event := by
  obtain ⟨-, hreasons, htruncated⟩ := foldl_add (additions budget event diffExcerpt previousAttempts) {}
  unfold buildContext at h
  split at h
  · cases h
  · cases h
    unfold leftItems at hwithin
    dsimp only
    rw [decide_eq_false hwithin, hreasons, htruncated]
    exact ⟨rfl, rfl, by simp [anyCut], rfl, rfl⟩

/-- When the context records a text that is lost. -/
theorem records_iff (h : buildContext budget event diffExcerpt previousAttempts = .ok c)
    (hwithin : ¬ budget.maxChars < (joinWith ['\n'] (leftItems budget event diffExcerpt previousAttempts)).length)
    {label : ContextLabel} : c.Records label ↔ anyCut budget event diffExcerpt previousAttempts = true ∧
      ∃ k ∈ additions budget event diffExcerpt previousAttempts, k.label = label ∧ (k.readable = false ∨ k.long = true) := by
  obtain ⟨-, -, htruncated, hreasons, -⟩ := built_within h hwithin
  unfold BuiltContext.Records
  rw [htruncated, hreasons]
  refine and_congr_right fun _ => ?_
  constructor
  · rintro ⟨reason, hreason, hnamed⟩
    obtain ⟨k, hk, hkreason⟩ := List.mem_filterMap.mp hreason
    exact ⟨k, hk, Addition.reason_named.mp ⟨reason, hkreason, hnamed⟩⟩
  · rintro ⟨k, hk, hlabel⟩
    obtain ⟨reason, hkreason, hnamed⟩ := Addition.reason_named.mpr hlabel
    exact ⟨reason, List.mem_filterMap.mpr ⟨k, hk, hkreason⟩, hnamed⟩

theorem mem_of_kept {k : Addition} (h : k ∈ keptAdditions budget event diffExcerpt previousAttempts) :
    k ∈ additions budget event diffExcerpt previousAttempts ∧ k.readable = true :=
  List.mem_filter.mp (List.mem_of_mem_take h)

theorem anyCut_of_mem {a : Addition} (ha : a ∈ additions budget event diffExcerpt previousAttempts)
    (hread : a.readable = true) (hlong : a.long = true) : anyCut budget event diffExcerpt previousAttempts = true :=
  List.any_eq_true.mpr ⟨a, ha, by simp [Addition.isCut, hread, hlong]⟩

/-- When the one value of its label is whole in the evidence or recorded. -/
theorem sole_recorded_iff {a : Addition} (ha : a ∈ additions budget event diffExcerpt previousAttempts)
    (hsole : ∀ k ∈ additions budget event diffExcerpt previousAttempts, k.label = a.label → k = a) :
    (a.complete ∈ (keptAdditions budget event diffExcerpt previousAttempts).map Addition.item ∨
      anyCut budget event diffExcerpt previousAttempts = true ∧
        ∃ k ∈ additions budget event diffExcerpt previousAttempts,
          k.label = a.label ∧ (k.readable = false ∨ k.long = true)) ↔
    if a.readable then a.long = true ∨ a ∈ keptAdditions budget event diffExcerpt previousAttempts
    else anyCut budget event diffExcerpt previousAttempts = true := by
  have hkept : a.complete ∈ (keptAdditions budget event diffExcerpt previousAttempts).map Addition.item →
      a ∈ keptAdditions budget event diffExcerpt previousAttempts := by
    intro h
    obtain ⟨k, hk, hitem⟩ := List.mem_map.mp h
    obtain ⟨hlabel, -⟩ := ContextLabel.item_injective hitem
    rwa [← hsole k (mem_of_kept hk).1 hlabel]
  constructor
  · rintro (h | ⟨hcut, k, hk, hlabel, hlost⟩)
    · rw [if_pos (mem_of_kept (hkept h)).2]
      exact .inr (hkept h)
    · obtain rfl := hsole k hk hlabel
      split
      next hread => exact .inl (hlost.resolve_left (by simp [hread]))
      next => exact hcut
  · intro h
    split at h
    next hread =>
      cases hlong : a.long with
      | true => exact .inr ⟨anyCut_of_mem ha hread hlong, a, ha, rfl, .inr hlong⟩
      | false =>
        have hmem := h.resolve_left (by simp [hlong])
        exact .inl (List.mem_map.mpr ⟨a, hmem, Addition.item_eq_complete hlong⟩)
    next hread => exact .inr ⟨h, a, ha, rfl, .inl (by simpa using hread)⟩

/-- When every path is listed or its loss is recorded. -/
theorem paths_recorded_iff (h : buildContext budget event diffExcerpt previousAttempts = .ok c)
    (hwithin : ¬ budget.maxChars < (joinWith ['\n'] (leftItems budget event diffExcerpt previousAttempts)).length)
    (hitems : 0 ≤ budget.maxItems) : (∀ p ∈ event.changedPaths, c.Lists p ∨ c.Records .changedPaths) ↔
      event.changedPaths = [] ∨
      (∀ p ∈ event.changedPaths, safePath p = true) ∧
        pathsAddition event ∈ keptAdditions budget event diffExcerpt previousAttempts ∨
      (pathsAddition event).readable = false ∧ anyCut budget event diffExcerpt previousAttempts = true := by
  obtain ⟨hevidence, -, -, -, hpaths⟩ := built_within h hwithin
  have hlists : ∀ p ∈ event.changedPaths, c.Lists p ↔
      safePath p = true ∧ pathsAddition event ∈ keptAdditions budget event diffExcerpt previousAttempts := by
    intro p hp
    unfold BuiltContext.Lists
    rw [hpaths, hevidence, leftItems_eq hitems, slashed_mem_safePaths hp]
    refine and_congr_right fun _ => ?_
    constructor
    · intro hmem
      obtain ⟨k, hk, hitem⟩ := List.mem_map.mp hmem
      obtain ⟨hlabel, -⟩ := ContextLabel.item_injective hitem
      rwa [← (mem_pathsOf (mem_of_kept hk).1 hlabel).2]
    · exact fun hk => List.mem_map.mpr ⟨_, hk, rfl⟩
  have hrecords : c.Records .changedPaths ↔
      (pathsAddition event).readable = false ∧ anyCut budget event diffExcerpt previousAttempts = true := by
    rw [records_iff h hwithin]
    constructor
    · rintro ⟨hcut, k, hk, hlabel, hlost⟩
      obtain ⟨-, rfl⟩ := mem_pathsOf hk hlabel
      exact ⟨hlost.resolve_right (by simp [Addition.long, Addition.exceeded, pathsAddition]), hcut⟩
    · rintro ⟨hread, hcut⟩
      have hsafe : safePaths event ≠ [] := by
        intro hempty
        unfold Addition.readable pathsAddition at hread
        rw [hempty] at hread
        cases hread
      exact ⟨hcut, _, pathsAddition_mem hsafe, rfl, .inl hread⟩
  rw [hrecords]
  constructor
  · intro hall
    by_cases hrec : (pathsAddition event).readable = false ∧ anyCut budget event diffExcerpt previousAttempts = true
    · exact .inr (.inr hrec)
    · cases hchanged : event.changedPaths with
      | nil => exact .inl rfl
      | cons p rest =>
        rw [← hchanged]
        have hlisted : ∀ p ∈ event.changedPaths, c.Lists p := fun p hp => (hall p hp).resolve_right hrec
        have hp : p ∈ event.changedPaths := by simp [hchanged]
        exact .inr (.inl ⟨fun q hq => ((hlists q hq).mp (hlisted q hq)).1, ((hlists p hp).mp (hlisted p hp)).2⟩)
  · rintro (hempty | ⟨hsafe, hkept⟩ | hrec) p hp
    · rw [hempty] at hp
      cases hp
    · exact .inl ((hlists p hp).mpr ⟨hsafe p hp, hkept⟩)
    · exact .inr hrec

/-- The context loses nothing exactly if nothing but the own limits of the values cuts it. -/
theorem losesNothing_iff (h : buildContext budget event diffExcerpt previousAttempts = .ok c) :
    LosesNothing budget event diffExcerpt previousAttempts c ↔ Recordable budget event diffExcerpt previousAttempts := by
  have hevidence : ∀ {label : ContextLabel} {value : Str}, (label, value) ∈ evidence event diffExcerpt previousAttempts ↔
      label.isEvidence = true ∧
        ∃ a ∈ additions budget event diffExcerpt previousAttempts, a.label = label ∧ a.value = value := mem_evidence
  constructor
  · intro hc
    have hitems : 0 ≤ budget.maxItems := le_trans (Int.natCast_nonneg _) hc.few
    have hwithin := within_of_fits h hc.fits
    obtain ⟨hkept, -⟩ := built_within h hwithin
    rw [leftItems_eq hitems] at hkept
    have hrecorded : ∀ a ∈ additions budget event diffExcerpt previousAttempts, a.label.isEvidence = true →
        a.complete ∈ (keptAdditions budget event diffExcerpt previousAttempts).map Addition.item ∨
          anyCut budget event diffExcerpt previousAttempts = true ∧
            ∃ k ∈ additions budget event diffExcerpt previousAttempts,
              k.label = a.label ∧ (k.readable = false ∨ k.long = true) := by
      intro a ha hlabel
      rw [← records_iff h hwithin, ← hkept]
      exact hc.texts _ _ (hevidence.mpr ⟨hlabel, a, ha, rfl, rfl⟩)
    refine ⟨hitems, ?_, (paths_recorded_iff h hwithin hitems).mp hc.paths, ?_, ?_⟩
    · rw [leftItems_eq hitems] at hwithin
      omega
    · intro a ha hlabel
      refine (sole_recorded_iff ha fun k hk hkl => sole_text ha hk hkl hlabel).mp (hrecorded a ha ?_)
      rcases hlabel with hl | hl | hl <;> rw [hl] <;> rfl
    · intro a ha hlabel
      have hlost := hrecorded a ha (by rw [hlabel]; rfl)
      rw [hlabel] at hlost
      exact hlost.imp_left List.mem_map.mp
  · intro hr
    have hwithin : ¬ budget.maxChars < (joinWith ['\n'] (leftItems budget event diffExcerpt previousAttempts)).length := by
      rw [leftItems_eq hr.items]
      have := hr.chars
      omega
    obtain ⟨hkept, hcount, -⟩ := built_within h hwithin
    refine ⟨?_, ?_, ?_, ?_, (paths_recorded_iff h hwithin hr.items).mpr hr.paths⟩
    · rw [hcount]
      omega
    · rw [hcount, hkept]
    · rw [hkept, leftItems_eq hr.items]
      unfold keptAdditions
      rw [List.length_map, List.length_take]
      have := hr.items
      omega
    · intro label value hmem
      obtain ⟨hlabel, a, ha, rfl, rfl⟩ := hevidence.mp hmem
      rw [records_iff h hwithin, hkept, leftItems_eq hr.items]
      cases hl : a.label with
      | message | logExcerpt | diff =>
        have htext : a.label = .message ∨ a.label = .logExcerpt ∨ a.label = .diff := by simp [hl]
        rw [← hl]
        exact (sole_recorded_iff ha fun k hk hkl => sole_text ha hk hkl htext).mpr (hr.texts a ha htext)
      | previousAttempt =>
        rw [← hl]
        refine (hr.attempts a ha hl).imp List.mem_map.mpr fun hlost => ?_
        rwa [hl]
      | failedStep | changedPaths | testHint | repository | commitSha | branch | workflow | job =>
        rw [hl] at hlabel
        cases hlabel

end

def brokenBuild : FailureEvent :=
  { runId := "run-1".toList, failedStep := "tests".toList, message := "boom".toList, changedPaths := ["src/a.py".toList] }

/-- The context of an event within the budget. -/
theorem brokenBuild_loses_nothing : ∃ c, @buildContext asciiData {} brokenBuild [] [] = .ok c ∧
    @LosesNothing asciiData {} brokenBuild [] [] c := by
  let _ := asciiData
  refine ⟨_, rfl, (losesNothing_iff rfl).mpr ?_⟩
  exact ⟨by decide, by decide +kernel, by decide +kernel, by decide +kernel, by decide +kernel⟩

/-- One item is allowed: the message is lost without a trace. -/
theorem lostMessage_unrecorded : ∃ c, @buildContext asciiData { maxItems := 1 } brokenBuild [] [] = .ok c ∧
    c.prioritizedEvidence = ["failed_step: tests".toList] ∧ c.truncated = false ∧ c.truncationReasons = [] ∧
    ¬ @LosesNothing asciiData { maxItems := 1 } brokenBuild [] [] c := by
  let _ := asciiData
  refine ⟨_, rfl, by decide +kernel, by decide +kernel, by decide +kernel, fun h => ?_⟩
  rcases LosesNothing.texts h .message "boom".toList List.mem_cons_self with hmem | ⟨htruncated, -⟩
  · exact absurd hmem (by decide +kernel)
  · exact absurd htruncated (by decide +kernel)

end FailureOrchestrator
