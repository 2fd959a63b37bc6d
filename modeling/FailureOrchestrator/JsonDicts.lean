import FailureOrchestrator.JsonValues

namespace FailureOrchestrator

variable {F : Type} {key k : Str} {value : JsonValue F}

@[simp] theorem lookup_insertEntry_self (d : List (Str × JsonValue F)) :
    (insertEntry key value d).lookup key = some value := by
  induction d with
  | nil => exact List.lookup_cons_self
  | cons e d ih =>
    unfold insertEntry
    split
    · exact List.lookup_cons_self
    split
    next hlt =>
      have hne : (key == e.1) = false := beq_false_of_ne fun h => absurd hlt (by rw [h]; exact List.lt_irrefl _)
      rw [List.lookup_cons, hne]
      exact ih
    next => exact List.lookup_cons_self

/-- Keys that neither precedes are equal. -/
theorem key_eq (hle : ¬ key < k) (hge : ¬ k < key) : key = k := List.le_antisymm hge hle

theorem lookup_insertEntry_ne (d : List (Str × JsonValue F)) (h : k ≠ key) :
    (insertEntry key value d).lookup k = d.lookup k := by
  have hne : (k == key) = false := beq_false_of_ne h
  induction d with
  | nil => rw [insertEntry, List.lookup_cons, hne]
  | cons e d ih =>
    unfold insertEntry
    split
    · rw [List.lookup_cons, hne]
    split
    · rw [List.lookup_cons, List.lookup_cons, ih]
    next hle hge => rw [List.lookup_cons, List.lookup_cons, hne, ← key_eq hle hge, hne]

theorem lookup_foldl_insertEntry (entries d : List (Str × JsonValue F)) :
    (entries.foldl (fun d e => insertEntry e.1 e.2 d) d).lookup k = (entries.reverse.lookup k).or (d.lookup k) := by
  induction entries generalizing d with
  | nil => rfl
  | cons e entries ih =>
    rw [List.foldl_cons, ih, List.reverse_cons, List.lookup_append]
    by_cases h : k = e.1
    · rw [h, lookup_insertEntry_self, List.lookup_cons_self]
      cases List.lookup e.1 entries.reverse <;> rfl
    · rw [lookup_insertEntry_ne d h, List.lookup_cons, beq_false_of_ne h]
      cases List.lookup k entries.reverse <;> rfl

/-- Of the entries with one key the last one is found. -/
theorem lookup_dictOf (entries : List (Str × JsonValue F)) : (dictOf entries).lookup k = entries.reverse.lookup k := by
  rw [dictOf, lookup_foldl_insertEntry]
  cases List.lookup k entries.reverse <;> rfl

theorem keys_insertEntry {d : List (Str × JsonValue F)} {a : Str} (ha : a ∈ (insertEntry key value d).map Prod.fst) :
    a = key ∨ a ∈ d.map Prod.fst := by
  induction d with
  | nil => exact .inl (List.mem_singleton.mp ha)
  | cons e d ih =>
    unfold insertEntry at ha
    split at ha
    · exact List.mem_cons.mp ha
    split at ha
    · rcases List.mem_cons.mp ha with rfl | ha
      · exact .inr List.mem_cons_self
      · exact (ih ha).imp_right (List.mem_cons_of_mem _)
    · exact (List.mem_cons.mp ha).imp_right (List.mem_cons_of_mem _)

theorem sorted_insertEntry {d : List (Str × JsonValue F)} (h : (d.map Prod.fst).Pairwise (· < ·)) :
    ((insertEntry key value d).map Prod.fst).Pairwise (· < ·) := by
  induction d with
  | nil => exact List.pairwise_singleton _ _
  | cons e d ih =>
    obtain ⟨hhead, htail⟩ := List.pairwise_cons.mp h
    unfold insertEntry
    split
    next hlt =>
      refine List.pairwise_cons.mpr ⟨fun a ha => ?_, h⟩
      rcases List.mem_cons.mp ha with rfl | ha
      · exact hlt
      · exact List.lt_trans hlt (hhead a ha)
    split
    next hlt =>
      refine List.pairwise_cons.mpr ⟨fun a ha => ?_, ih htail⟩
      rcases keys_insertEntry ha with rfl | ha
      · exact hlt
      · exact hhead a ha
    next hle hge =>
      rw [List.map_cons]
      refine List.pairwise_cons.mpr ⟨fun a ha => ?_, htail⟩
      rw [key_eq hle hge]
      exact hhead a ha

theorem sorted_foldl_insertEntry (entries : List (Str × JsonValue F)) {d : List (Str × JsonValue F)}
    (h : (d.map Prod.fst).Pairwise (· < ·)) :
    ((entries.foldl (fun d e => insertEntry e.1 e.2 d) d).map Prod.fst).Pairwise (· < ·) := by
  induction entries generalizing d with
  | nil => exact h
  | cons e entries ih => exact ih (sorted_insertEntry h)

theorem sorted_dictOf (entries : List (Str × JsonValue F)) : ((dictOf entries).map Prod.fst).Pairwise (· < ·) :=
  sorted_foldl_insertEntry entries List.Pairwise.nil

theorem forall_insertEntry {p : JsonValue F → Prop} {d : List (Str × JsonValue F)} (hvalue : p value)
    (h : ∀ e ∈ d, p e.2) : ∀ e ∈ insertEntry key value d, p e.2 := by
  induction d with
  | nil =>
    intro e he
    obtain rfl := List.mem_singleton.mp he
    exact hvalue
  | cons f d ih =>
    obtain ⟨hf, hd⟩ := List.forall_mem_cons.mp h
    unfold insertEntry
    split
    · exact List.forall_mem_cons.mpr ⟨hvalue, h⟩
    split
    · exact List.forall_mem_cons.mpr ⟨hf, ih hd⟩
    · exact List.forall_mem_cons.mpr ⟨hvalue, hd⟩

theorem forall_foldl_insertEntry {p : JsonValue F → Prop} (entries : List (Str × JsonValue F))
    {d : List (Str × JsonValue F)} (hentries : ∀ e ∈ entries, p e.2) (h : ∀ e ∈ d, p e.2) :
    ∀ e ∈ entries.foldl (fun d e => insertEntry e.1 e.2 d) d, p e.2 := by
  induction entries generalizing d with
  | nil => exact h
  | cons e entries ih =>
    obtain ⟨he, hentries⟩ := List.forall_mem_cons.mp hentries
    exact ih hentries (forall_insertEntry he h)

theorem forall_dictOf {p : JsonValue F → Prop} {entries : List (Str × JsonValue F)} (h : ∀ e ∈ entries, p e.2) :
    ∀ e ∈ dictOf entries, p e.2 :=
  forall_foldl_insertEntry entries h fun _ he => (List.not_mem_nil he).elim

theorem orderedEntries_iff {d : List (Str × JsonValue F)} :
    JsonValue.orderedEntries d = true ↔ ∀ e ∈ d, e.2.ordered = true := by
  induction d with
  | nil => exact ⟨fun _ _ he => (List.not_mem_nil he).elim, fun _ => rfl⟩
  | cons e d ih => rw [JsonValue.orderedEntries, Bool.and_eq_true, ih, List.forall_mem_cons]

theorem dumpableEntries_iff {d : List (Str × JsonValue F)} :
    JsonValue.dumpableEntries d = true ↔ ∀ e ∈ d, e.2.dumpable = true := by
  induction d with
  | nil => exact ⟨fun _ _ he => (List.not_mem_nil he).elim, fun _ => rfl⟩
  | cons e d ih => rw [JsonValue.dumpableEntries, Bool.and_eq_true, ih, List.forall_mem_cons]

theorem ordered_obj {d : List (Str × JsonValue F)} (hsorted : (d.map Prod.fst).Pairwise (· < ·))
    (h : ∀ e ∈ d, e.2.ordered = true) : (JsonValue.obj d).ordered = true := by
  rw [JsonValue.ordered, decide_eq_true hsorted, orderedEntries_iff.mpr h]
  rfl

/-- A dict built from values with ordered dicts is ordered. -/
theorem ordered_dictOf {entries : List (Str × JsonValue F)} (h : ∀ e ∈ entries, e.2.ordered = true) :
    (JsonValue.obj (dictOf entries)).ordered = true :=
  ordered_obj (sorted_dictOf entries) (forall_dictOf (p := fun v => v.ordered = true) h)

theorem dumpable_dictOf {entries : List (Str × JsonValue F)} (h : ∀ e ∈ entries, e.2.dumpable = true) :
    (JsonValue.obj (dictOf entries)).dumpable = true :=
  dumpableEntries_iff.mpr (forall_dictOf (p := fun v => v.dumpable = true) h)

theorem dictOf_concat (entries : List (Str × JsonValue F)) :
    dictOf (entries ++ [(key, value)]) = insertEntry key value (dictOf entries) := List.foldl_concat ..

/-- A new entry taken out again. -/
theorem filter_insertEntry {d : List (Str × JsonValue F)} (h : key ∉ d.map Prod.fst) :
    (insertEntry key value d).filter (fun e => e.1 ≠ key) = d := by
  have hself : ∀ d : List (Str × JsonValue F), key ∉ d.map Prod.fst → d.filter (fun e => e.1 ≠ key) = d := by
    intro d hd
    refine List.filter_eq_self.mpr fun e he => decide_eq_true fun heq => hd ?_
    rw [← heq]
    exact List.mem_map_of_mem he
  induction d with
  | nil => exact List.filter_cons_of_neg (by simp)
  | cons e d ih =>
    rw [List.map_cons, List.mem_cons, not_or] at h
    have hdrop : ∀ rest : List (Str × JsonValue F), ((key, value) :: rest).filter (fun e => e.1 ≠ key) =
      rest.filter (fun e => e.1 ≠ key) := fun rest => List.filter_cons_of_neg (by simp)
    have hkeep : ∀ rest : List (Str × JsonValue F), (e :: rest).filter (fun e => e.1 ≠ key) =
      e :: rest.filter (fun e => e.1 ≠ key) := fun rest => List.filter_cons_of_pos (decide_eq_true (Ne.symm h.1))
    unfold insertEntry
    split
    · rw [hdrop, hkeep, hself d h.2]
    split
    · rw [hkeep, ih h.2]
    next hle hge => exact absurd (key_eq hle hge) h.1

/-! ## Sorting -/

mutual

/-- The value with the entries of every dict in the order of their keys, as `sort_keys=True` writes them. -/
def JsonValue.sorted : JsonValue F → JsonValue F
  | .arr items => .arr (JsonValue.sortedItems items)
  | .obj entries => .obj (dictOf (JsonValue.sortedEntries entries))
  | v => v

def JsonValue.sortedItems : List (JsonValue F) → List (JsonValue F)
  | [] => []
  | x :: xs => x.sorted :: JsonValue.sortedItems xs

def JsonValue.sortedEntries : List (Str × JsonValue F) → List (Str × JsonValue F)
  | [] => []
  | (k, x) :: xs => (k, x.sorted) :: JsonValue.sortedEntries xs

end

theorem sortedEntries_append (d e : List (Str × JsonValue F)) :
    JsonValue.sortedEntries (d ++ e) = JsonValue.sortedEntries d ++ JsonValue.sortedEntries e := by
  induction d with
  | nil => rfl
  | cons x d ih => rw [List.cons_append, JsonValue.sortedEntries, ih, JsonValue.sortedEntries, List.cons_append]

mutual

theorem ordered_sorted : ∀ v : JsonValue F, v.sorted.ordered = true := by
  intro v
  match v with
  | .null | .bool _ | .int _ | .float _ | .str _ => rfl
  | .arr items => exact orderedItems_sorted items
  | .obj entries => exact ordered_dictOf (ordered_sortedEntries entries)

theorem orderedItems_sorted : ∀ items : List (JsonValue F),
    JsonValue.orderedItems (JsonValue.sortedItems items) = true := by
  intro items
  match items with
  | [] => rfl
  | x :: xs =>
    rw [JsonValue.sortedItems, JsonValue.orderedItems, ordered_sorted x, orderedItems_sorted xs]
    rfl

theorem ordered_sortedEntries : ∀ entries : List (Str × JsonValue F),
    ∀ e ∈ JsonValue.sortedEntries entries, e.2.ordered = true := by
  intro entries e he
  match entries with
  | [] => cases he
  | (k, x) :: xs =>
    rw [JsonValue.sortedEntries] at he
    rcases List.mem_cons.mp he with rfl | he
    · exact ordered_sorted x
    · exact ordered_sortedEntries xs e he

end

mutual

theorem sorted_eq_self : ∀ v : JsonValue F, v.ordered = true → v.sorted = v := by
  intro v hv
  match v with
  | .null | .bool _ | .int _ | .float _ | .str _ => rfl
  | .arr items => rw [JsonValue.sorted, sortedItems_eq_self items hv]
  | .obj entries =>
    obtain ⟨hkeys, hentries⟩ := Bool.and_eq_true_iff.mp hv
    rw [JsonValue.sorted, sortedEntries_eq_self entries hentries, dictOf_ordered (of_decide_eq_true hkeys)]

theorem sortedItems_eq_self : ∀ items : List (JsonValue F), JsonValue.orderedItems items = true →
    JsonValue.sortedItems items = items := by
  intro items hitems
  match items with
  | [] => rfl
  | x :: xs =>
    obtain ⟨hx, hxs⟩ := Bool.and_eq_true_iff.mp hitems
    rw [JsonValue.sortedItems, sorted_eq_self x hx, sortedItems_eq_self xs hxs]

theorem sortedEntries_eq_self : ∀ entries : List (Str × JsonValue F), JsonValue.orderedEntries entries = true →
    JsonValue.sortedEntries entries = entries := by
  intro entries hentries
  match entries with
  | [] => rfl
  | (k, x) :: xs =>
    obtain ⟨hx, hxs⟩ := Bool.and_eq_true_iff.mp hentries
    rw [JsonValue.sortedEntries, sorted_eq_self x hx, sortedEntries_eq_self xs hxs]

end

mutual

theorem dumpable_sorted : ∀ v : JsonValue F, v.dumpable = true → v.sorted.dumpable = true := by
  intro v hv
  match v with
  | .null | .bool _ | .float _ | .str _ => rfl
  | .int n => exact hv
  | .arr items => exact dumpableItems_sorted items hv
  | .obj entries => exact dumpable_dictOf (dumpable_sortedEntries entries hv)

theorem dumpableItems_sorted : ∀ items : List (JsonValue F), JsonValue.dumpableItems items = true →
    JsonValue.dumpableItems (JsonValue.sortedItems items) = true := by
  intro items hitems
  match items with
  | [] => rfl
  | x :: xs =>
    obtain ⟨hx, hxs⟩ := Bool.and_eq_true_iff.mp hitems
    rw [JsonValue.sortedItems, JsonValue.dumpableItems, dumpable_sorted x hx, dumpableItems_sorted xs hxs]
    rfl

theorem dumpable_sortedEntries : ∀ entries : List (Str × JsonValue F), JsonValue.dumpableEntries entries = true →
    ∀ e ∈ JsonValue.sortedEntries entries, e.2.dumpable = true := by
  intro entries hentries e he
  match entries with
  | [] => cases he
  | (k, x) :: xs =>
    obtain ⟨hx, hxs⟩ := Bool.and_eq_true_iff.mp hentries
    rw [JsonValue.sortedEntries] at he
    rcases List.mem_cons.mp he with rfl | he
    · exact dumpable_sorted x hx
    · exact dumpable_sortedEntries xs hxs e he

end

end FailureOrchestrator
