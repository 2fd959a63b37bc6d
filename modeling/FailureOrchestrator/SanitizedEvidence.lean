import FailureOrchestrator.JsonEvidence

namespace FailureOrchestrator

/-- `text[:n]`; a negative bound counts from the end. -/
def sliceTo (text : Str) (n : Int) : Str := if 0 ≤ n then text.take n.toNat else text.take (text.length - (-n).toNat)

section Dict

variable {α : Type*} {key k : Str} {value : α}

/-- `d[key] = value`. -/
def setEntry (key : Str) (value : α) : List (Str × α) → List (Str × α)
  | [] => [(key, value)]
  | (k, v) :: rest => if k = key then (k, value) :: rest else (k, v) :: setEntry key value rest

@[simp] theorem lookup_setEntry_self (d : List (Str × α)) : (setEntry key value d).lookup key = some value := by
  induction d with
  | nil => simp [setEntry]
  | cons e d ih =>
    obtain ⟨k, v⟩ := e
    unfold setEntry
    split
    · next h => simp [h]
    · next h => rw [List.lookup_cons, beq_false_of_ne (Ne.symm h), ih]

theorem lookup_setEntry_ne (h : k ≠ key) (d : List (Str × α)) : (setEntry key value d).lookup k = d.lookup k := by
  induction d with
  | nil => simp [setEntry, List.lookup_cons, beq_false_of_ne h]
  | cons e d ih =>
    obtain ⟨k', v⟩ := e
    unfold setEntry
    split
    · next hk => rw [List.lookup_cons, List.lookup_cons, hk, beq_false_of_ne h]
    · rw [List.lookup_cons, List.lookup_cons, ih]

theorem mem_setEntry {e : Str × α} {d : List (Str × α)} (h : e ∈ setEntry key value d) : e = (key, value) ∨ e ∈ d := by
  induction d with
  | nil => exact .inl (List.mem_singleton.mp h)
  | cons e' d ih =>
    obtain ⟨k, v⟩ := e'
    unfold setEntry at h
    split at h
    next hk =>
      rw [hk] at h
      exact (List.mem_cons.mp h).imp_right (List.mem_cons_of_mem _)
    next =>
      rcases List.mem_cons.mp h with rfl | h
      · exact .inr List.mem_cons_self
      · exact (ih h).imp_right (List.mem_cons_of_mem _)

theorem setEntry_fresh {d : List (Str × α)} (h : key ∉ d.map Prod.fst) : setEntry key value d = d ++ [(key, value)] := by
  induction d with
  | nil => rfl
  | cons e d ih =>
    obtain ⟨k, v⟩ := e
    simp only [List.map_cons, List.mem_cons, not_or] at h
    unfold setEntry
    rw [if_neg (Ne.symm h.1), ih h.2]
    rfl

theorem nodup_setEntry {d : List (Str × α)} (h : (d.map Prod.fst).Nodup) : ((setEntry key value d).map Prod.fst).Nodup := by
  induction d with
  | nil => simp [setEntry]
  | cons e d ih =>
    obtain ⟨k, v⟩ := e
    obtain ⟨hk, hd⟩ := List.nodup_cons.mp h
    unfold setEntry
    split
    next => exact h
    next hne =>
      refine List.nodup_cons.mpr ⟨fun hmem => ?_, ih hd⟩
      obtain ⟨e, he, hfst⟩ := List.mem_map.mp hmem
      rcases mem_setEntry he with rfl | he
      · exact hne hfst.symm
      · exact hk (List.mem_map.mpr ⟨e, he, hfst⟩)

end Dict

theorem mark_ne (key : Str) : key ++ truncationMark ≠ key := by
  intro h
  have hlen := congrArg List.length h
  have hmark : truncationMark.length = 12 := rfl
  rw [List.length_append] at hlen
  omega

structure EvidenceLimits where
  maxMetadataChars : Int := 8000
  deriving DecidableEq, Repr

/-- What `sanitize_value` returns: a JSON value in which a tuple may stand for a cut text. -/
inductive Sanitized (F : Type) where
  | null
  | bool (b : Bool)
  | int (n : Int)
  | float (x : F)
  | str (s : Str)
  | arr (items : List (Sanitized F))
  | obj (entries : List (Str × Sanitized F))
  | tuple (text : Str) (truncated : Bool) (originalLength storedLength : Int)

namespace Sanitized

variable {F : Type}

/-- The value of an entry; of a tuple only its text. -/
def text : Sanitized F → Sanitized F
  | .tuple text _ _ _ => .str text
  | sv => sv

def truncation (originalLength storedLength : Int) : Sanitized F :=
  .obj [("truncated".toList, .bool true), ("original_length".toList, .int originalLength),
    ("stored_length".toList, .int storedLength)]

end Sanitized

/-- An assignment to the new dict: of an entry's value, or of the record of a cut text. -/
structure Assignment (F : Type) where
  key : Str
  value : Sanitized F
  record : Bool := false

namespace Assignment

variable {F : Type}

def run (out : List (Str × Sanitized F)) (w : Assignment F) : List (Str × Sanitized F) := setEntry w.key w.value out

/-- What the loop over a dict assigns for one entry. -/
def ofEntry (key : Str) : Sanitized F → List (Assignment F)
  | .tuple text true original stored =>
    [⟨key, .str text, false⟩, ⟨key ++ truncationMark, .truncation original stored, true⟩]
  | sv => [⟨key, sv, false⟩]

theorem lookup_run_of_forall_ne {ws : List (Assignment F)} {k : Str} (h : ∀ w ∈ ws, w.key ≠ k)
    (out : List (Str × Sanitized F)) : (ws.foldl run out).lookup k = out.lookup k := by
  induction ws generalizing out with
  | nil => rfl
  | cons w ws ih =>
    rw [List.forall_mem_cons] at h
    rw [List.foldl_cons, ih h.2, run, lookup_setEntry_ne (Ne.symm h.1)]

/-- The last assignment to a key counts. -/
theorem lookup_run_last (pre : List (Assignment F)) {w : Assignment F} {post : List (Assignment F)}
    (h : ∀ w' ∈ post, w'.key ≠ w.key) (out : List (Str × Sanitized F)) :
    ((pre ++ w :: post).foldl run out).lookup w.key = some w.value := by
  rw [List.foldl_append, List.foldl_cons, lookup_run_of_forall_ne h, run, lookup_setEntry_self]

theorem mem_of_lookup_run {ws : List (Assignment F)} {k : Str} {v : Sanitized F}
    (h : (ws.foldl run []).lookup k = some v) : ∃ w ∈ ws, w.key = k := by
  by_contra hn
  push Not at hn
  rw [lookup_run_of_forall_ne hn] at h
  cases h

end Assignment

namespace EvidenceLimits

variable [UnicodeData] {F : Type}

/-- The cleaned text is over the limit. -/
def Truncates (limits : EvidenceLimits) (s : Str) : Prop :=
  limits.maxMetadataChars < (sanitizeText s).1.length

instance (limits : EvidenceLimits) (s : Str) : Decidable (limits.Truncates s) :=
  inferInstanceAs (Decidable (_ < _))

def cutText (limits : EvidenceLimits) (s : Str) : Str :=
  sliceTo (sanitizeText s).1 (limits.maxMetadataChars - 24) ++ "\n...[truncated]".toList

mutual

/-- `sanitize_value`. -/
def sanitizeValue (limits : EvidenceLimits) : JsonValue F → Sanitized F
  | .str s =>
    if limits.Truncates s then .tuple (limits.cutText s) true s.length limits.maxMetadataChars
    else .str (sanitizeText s).1
  | .obj entries => .obj (limits.sanitizeEntries entries [])
  | .arr items => .arr (limits.sanitizeItems items)
  | .null => .null
  | .bool b => .bool b
  | .int n => .int n
  | .float x => .float x

def sanitizeItems (limits : EvidenceLimits) : List (JsonValue F) → List (Sanitized F)
  | [] => []
  | v :: items => limits.sanitizeValue v :: limits.sanitizeItems items

def sanitizeEntries (limits : EvidenceLimits) :
    List (Str × JsonValue F) → List (Str × Sanitized F) → List (Str × Sanitized F)
  | [], out => out
  | (key, v) :: entries, out =>
    limits.sanitizeEntries entries ((Assignment.ofEntry key (limits.sanitizeValue v)).foldl Assignment.run out)

end

/-- The assignments of the loop over a dict. -/
def trace (limits : EvidenceLimits) (entries : List (Str × JsonValue F)) : List (Assignment F) :=
  entries.flatMap fun e => Assignment.ofEntry e.1 (limits.sanitizeValue e.2)

/-- No record takes the place of an entry. -/
def KeepsEntries (limits : EvidenceLimits) (entries : List (Str × JsonValue F)) : Prop :=
  (limits.trace entries).Pairwise fun w w' => w.record = false → w'.record = true → w.key ≠ w'.key

/-- A new entry records how long the text behind its key is that was cut. -/
def GainsRecords (limits : EvidenceLimits) (entries : List (Str × JsonValue F)) (out : List (Str × Sanitized F)) :
    Prop :=
  ∀ key value, out.lookup key = some value → key ∉ entries.map Prod.fst →
    ∃ k s text original, (k, .str s) ∈ entries ∧ limits.Truncates s ∧ key = k ++ truncationMark ∧
      out.lookup k = some (.str text) ∧ value = .truncation original text.length

mutual

/-- `y` keeps the shape of `x`. -/
def Preserves (limits : EvidenceLimits) : JsonValue F → Sanitized F → Prop
  | .str _, y => ∃ text : Str, y = .str text ∧ (text.length : Int) ≤ limits.maxMetadataChars
  | .arr items, y => ∃ ys, y = .arr ys ∧ limits.PreservesItems items ys
  | .obj entries, y => ∃ out, y = .obj out ∧ limits.PreservesEntries entries out ∧
      limits.GainsRecords entries out ∧ limits.KeepsEntries entries
  | .null, y => y = .null
  | .bool b, y => y = .bool b
  | .int n, y => y = .int n
  | .float x, y => y = .float x

def PreservesItems (limits : EvidenceLimits) : List (JsonValue F) → List (Sanitized F) → Prop
  | [], ys => ys = []
  | x :: items, ys => ∃ y rest, ys = y :: rest ∧ limits.Preserves x y ∧ limits.PreservesItems items rest

/-- Each entry is there with the sanitised value of its key. -/
def PreservesEntries (limits : EvidenceLimits) : List (Str × JsonValue F) → List (Str × Sanitized F) → Prop
  | [], _ => True
  | (key, v) :: entries, out =>
    (∃ y, out.lookup key = some y ∧ y = (limits.sanitizeValue v).text ∧ limits.Preserves v y) ∧
      limits.PreservesEntries entries out

end

mutual

/-- No text of the value is over the limit, but for one in a dict whose truncation key comes later
in the same dict. -/
def Fits (limits : EvidenceLimits) : JsonValue F → Prop
  | .str s => ¬ limits.Truncates s
  | .arr items => limits.FitsItems items
  | .obj entries => limits.FitsEntries entries
  | _ => True

def FitsItems (limits : EvidenceLimits) : List (JsonValue F) → Prop
  | [] => True
  | x :: items => limits.Fits x ∧ limits.FitsItems items

def FitsEntries (limits : EvidenceLimits) : List (Str × JsonValue F) → Prop
  | [] => True
  | (key, v) :: entries =>
    (limits.Fits v ∨ (∃ s, v = .str s) ∧ 24 ≤ limits.maxMetadataChars ∧
      key ++ truncationMark ∈ entries.map Prod.fst) ∧ limits.FitsEntries entries

end

end EvidenceLimits

mutual

/-- The keys of each dict are distinct, as those of a dict are. -/
def JsonValue.DistinctKeys {F : Type} : JsonValue F → Prop
  | .arr items => JsonValue.DistinctItems items
  | .obj entries => (entries.map Prod.fst).Nodup ∧ JsonValue.DistinctEntries entries
  | _ => True

def JsonValue.DistinctItems {F : Type} : List (JsonValue F) → Prop
  | [] => True
  | x :: items => x.DistinctKeys ∧ JsonValue.DistinctItems items

def JsonValue.DistinctEntries {F : Type} : List (Str × JsonValue F) → Prop
  | [] => True
  | (_, v) :: entries => v.DistinctKeys ∧ JsonValue.DistinctEntries entries

end

namespace EvidenceLimits

variable [UnicodeData] {F : Type} {limits : EvidenceLimits}

theorem cutText_length {s : Str} (h : limits.Truncates s) :
    ((limits.cutText s).length : Int) ≠ limits.maxMetadataChars ∧
      (((limits.cutText s).length : Int) ≤ limits.maxMetadataChars ↔ 24 ≤ limits.maxMetadataChars) := by
  have hlong : limits.maxMetadataChars < (sanitizeText s).1.length := h
  have hmark : "\n...[truncated]".toList.length = 15 := rfl
  unfold cutText sliceTo
  split
  · rw [List.length_append, List.length_take, hmark]
    omega
  · rw [List.length_append, List.length_take, hmark]
    omega

theorem sanitizeValue_text_str (s : Str) : (limits.sanitizeValue (F := F) (.str s)).text =
    .str (if limits.Truncates s then limits.cutText s else (sanitizeText s).1) := by
  rw [sanitizeValue]
  split <;> rfl

theorem sanitizeValue_text_of_ne_str {v : JsonValue F} (h : ∀ s, v ≠ .str s) :
    (limits.sanitizeValue v).text = limits.sanitizeValue v := by
  cases v with
  | str s => exact absurd rfl (h s)
  | null | bool | int | float | arr | obj => rw [sanitizeValue]; rfl

/-- One entry assigns its value and, when its text is cut, the record behind it. -/
theorem ofEntry_sanitizeValue (key : Str) (v : JsonValue F) :
    (Assignment.ofEntry key (limits.sanitizeValue v) = [⟨key, (limits.sanitizeValue v).text, false⟩] ∧
      ∀ s, v = .str s → ¬ limits.Truncates s) ∨
    ∃ s, v = .str s ∧ limits.Truncates s ∧ Assignment.ofEntry key (limits.sanitizeValue v) =
      [⟨key, (limits.sanitizeValue v).text, false⟩,
        ⟨key ++ truncationMark, .truncation s.length limits.maxMetadataChars, true⟩] := by
  cases v with
  | str s =>
    rw [sanitizeValue]
    split
    · next h => exact .inr ⟨s, rfl, h, rfl⟩
    · next h => exact .inl ⟨rfl, fun s' hs' => by cases hs'; exact h⟩
  | null | bool | int | float | arr | obj =>
    refine .inl ⟨?_, fun s hs => by cases hs⟩
    rw [sanitizeValue]
    rfl

theorem sanitizeEntries_eq (entries : List (Str × JsonValue F)) (out : List (Str × Sanitized F)) :
    limits.sanitizeEntries entries out = (limits.trace entries).foldl Assignment.run out := by
  induction entries generalizing out with
  | nil => rw [sanitizeEntries]; rfl
  | cons e entries ih =>
    obtain ⟨key, v⟩ := e
    rw [sanitizeEntries, ih]
    unfold trace
    rw [List.flatMap_cons, List.foldl_append]

theorem trace_append (entries entries' : List (Str × JsonValue F)) :
    limits.trace (entries ++ entries') = limits.trace entries ++ limits.trace entries' := List.flatMap_append

theorem trace_cons (key : Str) (v : JsonValue F) (entries : List (Str × JsonValue F)) :
    limits.trace ((key, v) :: entries) =
      Assignment.ofEntry key (limits.sanitizeValue v) ++ limits.trace entries := List.flatMap_cons

theorem mem_ofEntry {key : Str} {v : JsonValue F} {w : Assignment F}
    (hw : w ∈ Assignment.ofEntry key (limits.sanitizeValue v)) :
    w.record = false ∧ w.key = key ∨
      w.record = true ∧ w.key = key ++ truncationMark ∧ ∃ s, v = .str s ∧ limits.Truncates s := by
  rcases limits.ofEntry_sanitizeValue key v with ⟨heq, -⟩ | ⟨s, rfl, hs, heq⟩
  · rw [heq, List.mem_singleton] at hw
    rw [hw]
    exact .inl ⟨rfl, rfl⟩
  · rw [heq, List.mem_cons, List.mem_singleton] at hw
    rcases hw with rfl | rfl
    · exact .inl ⟨rfl, rfl⟩
    · exact .inr ⟨rfl, rfl, s, rfl, hs⟩

theorem mem_trace {entries : List (Str × JsonValue F)} {w : Assignment F} (hw : w ∈ limits.trace entries) :
    ∃ key v, (key, v) ∈ entries ∧ w ∈ Assignment.ofEntry key (limits.sanitizeValue v) := by
  obtain ⟨⟨key, v⟩, he, hw⟩ := List.mem_flatMap.mp hw
  exact ⟨key, v, he, hw⟩

theorem entry_mem_ofEntry (key : Str) (v : JsonValue F) :
    ⟨key, (limits.sanitizeValue v).text, false⟩ ∈ Assignment.ofEntry key (limits.sanitizeValue v) := by
  rcases limits.ofEntry_sanitizeValue key v with ⟨heq, -⟩ | ⟨s, -, -, heq⟩
  · rw [heq]
    exact List.mem_cons_self
  · rw [heq]
    exact List.mem_cons_self

theorem entry_mem_trace {entries : List (Str × JsonValue F)} {e : Str × JsonValue F} (he : e ∈ entries) :
    ⟨e.1, (limits.sanitizeValue e.2).text, false⟩ ∈ limits.trace entries :=
  List.mem_flatMap.mpr ⟨e, he, limits.entry_mem_ofEntry e.1 e.2⟩

theorem key_mem_of_mem_trace {entries : List (Str × JsonValue F)} {w : Assignment F} (hw : w ∈ limits.trace entries)
    (hr : w.record = false) : w.key ∈ entries.map Prod.fst := by
  obtain ⟨key, v, he, hw⟩ := limits.mem_trace hw
  rcases limits.mem_ofEntry hw with ⟨_, hkey⟩ | ⟨hrecord, _⟩
  · rw [hkey]
    exact List.mem_map.mpr ⟨_, he, rfl⟩
  · rw [hr] at hrecord
    cases hrecord

theorem record_of_mem_trace {entries : List (Str × JsonValue F)} {w : Assignment F} (hw : w ∈ limits.trace entries)
    (hr : w.record = true) :
    ∃ key s, (key, .str s) ∈ entries ∧ limits.Truncates s ∧ w.key = key ++ truncationMark := by
  obtain ⟨key, v, he, hw⟩ := limits.mem_trace hw
  rcases limits.mem_ofEntry hw with ⟨hrecord, _⟩ | ⟨_, hkey, s, rfl, hs⟩
  · rw [hr] at hrecord
    cases hrecord
  · exact ⟨key, s, he, hs, hkey⟩

/-- Where no record takes the place of an entry, every entry is read back. -/
theorem lookup_entry {pre post : List (Str × JsonValue F)} {key : Str} {v : JsonValue F}
    (hkeys : ((pre ++ (key, v) :: post).map Prod.fst).Nodup) (h : limits.KeepsEntries (pre ++ (key, v) :: post)) :
    (limits.sanitizeEntries (pre ++ (key, v) :: post) []).lookup key = some (limits.sanitizeValue v).text := by
  have hfresh : key ∉ post.map Prod.fst := by
    rw [List.map_append, List.map_cons] at hkeys
    exact (List.nodup_cons.mp hkeys.of_append_right).1
  have hlater : ∀ w ∈ limits.trace post, w.key ≠ key := by
    intro w hw hk
    cases hr : w.record with
    | false => exact hfresh (hk ▸ limits.key_mem_of_mem_trace hw hr)
    | true =>
      unfold KeepsEntries at h
      rw [trace_append, trace_cons, List.pairwise_append, List.pairwise_append] at h
      exact h.2.1.2.2 _ (limits.entry_mem_ofEntry key v) w hw rfl hr hk.symm
  rw [sanitizeEntries_eq, trace_append, trace_cons]
  rcases limits.ofEntry_sanitizeValue key v with ⟨heq, -⟩ | ⟨s, -, -, heq⟩
  · rw [heq]
    exact Assignment.lookup_run_last (limits.trace pre) (w := ⟨key, _, false⟩) hlater []
  · rw [heq]
    refine Assignment.lookup_run_last (limits.trace pre) (w := ⟨key, _, false⟩) ?_ []
    intro w hw
    rcases List.mem_cons.mp hw with rfl | hw
    · exact mark_ne key
    · exact hlater w hw

theorem fits_of_mem {entries : List (Str × JsonValue F)} (h : limits.FitsEntries entries) {e : Str × JsonValue F}
    (he : e ∈ entries) : limits.Fits e.2 ∨ (∃ s, e.2 = .str s) ∧ 24 ≤ limits.maxMetadataChars ∧
      e.1 ++ truncationMark ∈ entries.map Prod.fst := by
  induction entries with
  | nil => cases he
  | cons e' entries ih =>
    obtain ⟨key, v⟩ := e'
    rw [FitsEntries] at h
    rcases List.mem_cons.mp he with rfl | he
    · exact h.1.imp_right fun ⟨hs, hlimit, hmark⟩ => ⟨hs, hlimit, List.mem_cons_of_mem _ hmark⟩
    · exact (ih h.2 he).imp_right fun ⟨hs, hlimit, hmark⟩ => ⟨hs, hlimit, List.mem_cons_of_mem _ hmark⟩

theorem mark_mem_of_fits {entries : List (Str × JsonValue F)} (h : limits.FitsEntries entries) {key s : Str}
    (he : (key, .str s) ∈ entries) (hs : limits.Truncates s) : key ++ truncationMark ∈ entries.map Prod.fst := by
  rcases limits.fits_of_mem h he with hfit | ⟨_, _, hmark⟩
  · exact absurd hs hfit
  · exact hmark

theorem keepsEntries_of_fits {entries : List (Str × JsonValue F)} (hkeys : (entries.map Prod.fst).Nodup)
    (h : limits.FitsEntries entries) : limits.KeepsEntries entries := by
  induction entries with
  | nil => exact .nil
  | cons e entries ih =>
    obtain ⟨key, v⟩ := e
    obtain ⟨hfresh, hkeys⟩ := List.nodup_cons.mp hkeys
    unfold FitsEntries at h
    unfold KeepsEntries
    rw [trace_cons, List.pairwise_append]
    refine ⟨?_, ih hkeys h.2, ?_⟩
    · rcases limits.ofEntry_sanitizeValue key v with ⟨heq, -⟩ | ⟨s, -, -, heq⟩
      · rw [heq]
        exact List.pairwise_singleton _ _
      · rw [heq, List.pairwise_pair]
        exact fun _ _ => (mark_ne key).symm
    · intro w hw w' hw' hr hr' hk
      obtain ⟨k, s, he, hs, hmark⟩ := limits.record_of_mem_trace hw' hr'
      rcases limits.mem_ofEntry hw with ⟨_, hkey⟩ | ⟨hrecord, _⟩
      · refine hfresh ?_
        rw [← hkey, hk, hmark]
        exact limits.mark_mem_of_fits h.2 he hs
      · rw [hr] at hrecord
        cases hrecord

theorem gainsRecords_of_fits {entries : List (Str × JsonValue F)} (h : limits.FitsEntries entries) :
    limits.GainsRecords entries (limits.sanitizeEntries entries []) := by
  intro key value hlookup hnew
  rw [sanitizeEntries_eq] at hlookup
  obtain ⟨w, hw, rfl⟩ := Assignment.mem_of_lookup_run hlookup
  refine absurd ?_ hnew
  cases hr : w.record with
  | false => exact limits.key_mem_of_mem_trace hw hr
  | true =>
    obtain ⟨k, s, he, hs, hmark⟩ := limits.record_of_mem_trace hw hr
    rw [hmark]
    exact limits.mark_mem_of_fits h he hs

/-- A cut text needs its truncation key among the later entries: its record would name a length
that the text has not. -/
theorem mark_mem_of_gainsRecords {pre post : List (Str × JsonValue F)} {key s : Str}
    (hkeys : ((pre ++ (key, .str s) :: post).map Prod.fst).Nodup) (hs : limits.Truncates s)
    (hkeep : limits.KeepsEntries (pre ++ (key, .str s) :: post))
    (hgain : limits.GainsRecords (pre ++ (key, .str s) :: post)
      (limits.sanitizeEntries (pre ++ (key, .str s) :: post) [])) :
    key ++ truncationMark ∈ post.map Prod.fst := by
  have hread := limits.lookup_entry hkeys hkeep
  rw [sanitizeValue_text_str, if_pos hs] at hread
  obtain heq | ⟨s', hs', -, heq⟩ := limits.ofEntry_sanitizeValue key (.str s : JsonValue F)
  · exact absurd hs (heq.2 s rfl)
  cases hs'
  by_contra hnot
  have hfresh : key ∉ post.map Prod.fst := by
    rw [List.map_append, List.map_cons] at hkeys
    exact (List.nodup_cons.mp hkeys.of_append_right).1
  have hlater : ∀ w ∈ limits.trace post, w.key ≠ key ++ truncationMark := by
    intro w hw hk
    cases hr : w.record with
    | false => exact hnot (hk ▸ limits.key_mem_of_mem_trace hw hr)
    | true =>
      obtain ⟨k, t, he, -, hmark⟩ := limits.record_of_mem_trace hw hr
      rw [hk] at hmark
      rw [List.append_cancel_right hmark] at hfresh
      exact hfresh (List.mem_map.mpr ⟨_, he, rfl⟩)
  have hrecord : (limits.sanitizeEntries (pre ++ (key, .str s) :: post) []).lookup (key ++ truncationMark) =
      some (.truncation s.length limits.maxMetadataChars) := by
    rw [sanitizeEntries_eq, trace_append, trace_cons, heq]
    have hlast := Assignment.lookup_run_last
      (limits.trace pre ++ [⟨key, (limits.sanitizeValue (.str s : JsonValue F)).text, false⟩])
      (w := ⟨key ++ truncationMark, .truncation s.length limits.maxMetadataChars, true⟩) hlater []
    rw [List.append_assoc] at hlast
    exact hlast
  have hnew : key ++ truncationMark ∉ (pre ++ (key, (.str s : JsonValue F)) :: post).map Prod.fst := by
    intro hmem
    rw [List.map_append, List.map_cons, List.mem_append, List.mem_cons] at hmem
    rcases hmem with hpre | hself | hpost
    · obtain ⟨e, he, hk⟩ := List.mem_map.mp hpre
      unfold KeepsEntries at hkeep
      rw [trace_append, trace_cons, List.pairwise_append] at hkeep
      refine hkeep.2.2 _ (limits.entry_mem_trace he)
        ⟨key ++ truncationMark, .truncation s.length limits.maxMetadataChars, true⟩ ?_ rfl rfl hk
      rw [heq]
      exact List.mem_append_left _ (List.mem_cons_of_mem _ List.mem_cons_self)
    · exact mark_ne key hself
    · exact hnot hpost
  obtain ⟨k, t, text, original, -, -, hmark, htext, hvalue⟩ := hgain _ _ hrecord hnew
  rw [← List.append_cancel_right hmark, hread] at htext
  cases htext
  unfold Sanitized.truncation at hvalue
  simp only [Sanitized.obj.injEq, List.cons.injEq, Prod.mk.injEq, Sanitized.int.injEq, true_and, and_true] at hvalue
  exact (limits.cutText_length hs).1 hvalue.2.symm

theorem preservesEntries_iff_forall {entries : List (Str × JsonValue F)} {out : List (Str × Sanitized F)} :
    limits.PreservesEntries entries out ↔
      ∀ e ∈ entries, out.lookup e.1 = some (limits.sanitizeValue e.2).text ∧
        limits.Preserves e.2 (limits.sanitizeValue e.2).text := by
  induction entries with
  | nil => simp [PreservesEntries]
  | cons e entries ih =>
    obtain ⟨key, v⟩ := e
    rw [PreservesEntries, List.forall_mem_cons, ih]
    refine and_congr_left fun _ => ?_
    constructor
    · rintro ⟨y, hread, rfl, hy⟩
      exact ⟨hread, hy⟩
    · rintro ⟨hread, hy⟩
      exact ⟨_, hread, rfl, hy⟩

/-- The value of an entry keeps its shape when it fits, or is cut and stays within the limit. -/
theorem preserves_text_iff {v : JsonValue F} (h : limits.Preserves v (limits.sanitizeValue v) ↔ limits.Fits v) :
    limits.Preserves v (limits.sanitizeValue v).text ↔
      limits.Fits v ∨ (∃ s, v = .str s) ∧ 24 ≤ limits.maxMetadataChars := by
  by_cases hstr : ∃ s, v = .str s
  · obtain ⟨s, rfl⟩ := hstr
    by_cases hs : limits.Truncates s
    · have hlimit := (cutText_length hs).2
      rw [sanitizeValue_text_str, if_pos hs, Preserves, Fits]
      constructor
      · rintro ⟨text, htext, hlen⟩
        cases htext
        exact .inr ⟨⟨s, rfl⟩, hlimit.mp hlen⟩
      · rintro (hfit | ⟨_, hle⟩)
        · exact absurd hs hfit
        · exact ⟨_, rfl, hlimit.mpr hle⟩
    · have htext : (limits.sanitizeValue (F := F) (.str s)).text = limits.sanitizeValue (.str s) := by
        rw [sanitizeValue, if_neg hs]
        rfl
      rw [htext, h]
      exact ⟨.inl, fun _ => hs⟩
  · rw [sanitizeValue_text_of_ne_str (not_exists.mp hstr), h]
    exact ⟨.inl, fun hfit => hfit.resolve_right fun hs => hstr hs.1⟩

theorem fitsEntries_of_preserves {entries : List (Str × JsonValue F)} (hkeys : (entries.map Prod.fst).Nodup)
    (h : ∀ e ∈ entries, limits.Preserves e.2 (limits.sanitizeValue e.2) ↔ limits.Fits e.2)
    (hkeep : limits.KeepsEntries entries)
    (hgain : limits.GainsRecords entries (limits.sanitizeEntries entries []))
    (hpres : limits.PreservesEntries entries (limits.sanitizeEntries entries [])) : limits.FitsEntries entries := by
  have hall := preservesEntries_iff_forall.mp hpres
  have hsuffix : ∀ post pre, entries = pre ++ post → limits.FitsEntries post := by
    intro post
    induction post with
    | nil => exact fun _ _ => trivial
    | cons e post ih =>
      obtain ⟨key, v⟩ := e
      intro pre heq
      have hmem : (key, v) ∈ entries := by
        rw [heq]
        exact List.mem_append_right _ List.mem_cons_self
      rw [FitsEntries]
      refine ⟨?_, ih (pre ++ [(key, v)]) (by rw [heq]; simp)⟩
      rcases (preserves_text_iff (h _ hmem)).mp (hall _ hmem).2 with hfit | ⟨⟨s, rfl⟩, hlimit⟩
      · exact .inl hfit
      · by_cases hs : limits.Truncates s
        · rw [heq] at hkeys hkeep hgain
          exact .inr ⟨⟨s, rfl⟩, hlimit, mark_mem_of_gainsRecords hkeys hs hkeep hgain⟩
        · exact .inl hs
  exact hsuffix entries [] rfl

mutual

theorem preserves_iff (limits : EvidenceLimits) : ∀ x : JsonValue F, x.DistinctKeys →
    (limits.Preserves x (limits.sanitizeValue x) ↔ limits.Fits x)
  | .null, _ => by simp [Preserves, sanitizeValue, Fits]
  | .bool _, _ => by simp [Preserves, sanitizeValue, Fits]
  | .int _, _ => by simp [Preserves, sanitizeValue, Fits]
  | .float _, _ => by simp [Preserves, sanitizeValue, Fits]
  | .str s, _ => by
    rw [Preserves, sanitizeValue, Fits]
    split
    · next hs => simp [hs]
    · next hs =>
      refine ⟨fun _ => hs, fun _ => ⟨_, rfl, ?_⟩⟩
      exact not_lt.mp hs
  | .arr items, h => by
    rw [JsonValue.DistinctKeys] at h
    rw [Preserves, sanitizeValue, Fits, ← preservesItems_iff limits items h]
    constructor
    · rintro ⟨ys, hys, hpres⟩
      cases hys
      exact hpres
    · exact fun hpres => ⟨_, rfl, hpres⟩
  | .obj entries, h => by
    rw [JsonValue.DistinctKeys] at h
    have hvalues := preserves_values_iff limits entries h.2
    rw [Preserves, sanitizeValue, Fits]
    constructor
    · rintro ⟨out, hout, hpres, hgain, hkeep⟩
      cases hout
      exact fitsEntries_of_preserves h.1 hvalues hkeep hgain hpres
    · intro hfit
      have hkeep := limits.keepsEntries_of_fits h.1 hfit
      refine ⟨_, rfl, preservesEntries_iff_forall.mpr ?_, limits.gainsRecords_of_fits hfit, hkeep⟩
      intro e he
      obtain ⟨pre, post, rfl⟩ := List.append_of_mem he
      refine ⟨limits.lookup_entry h.1 hkeep, (preserves_text_iff (hvalues e he)).mpr ?_⟩
      exact (limits.fits_of_mem hfit he).imp_right fun ⟨hs, hlimit, _⟩ => ⟨hs, hlimit⟩

theorem preservesItems_iff (limits : EvidenceLimits) : ∀ items : List (JsonValue F), JsonValue.DistinctItems items →
    (limits.PreservesItems items (limits.sanitizeItems items) ↔ limits.FitsItems items)
  | [], _ => by simp [PreservesItems, sanitizeItems, FitsItems]
  | x :: items, h => by
    rw [JsonValue.DistinctItems] at h
    rw [PreservesItems, sanitizeItems, FitsItems, ← preserves_iff limits x h.1, ← preservesItems_iff limits items h.2]
    constructor
    · rintro ⟨y, rest, heq, hy, hrest⟩
      cases heq
      exact ⟨hy, hrest⟩
    · rintro ⟨hy, hrest⟩
      exact ⟨_, _, rfl, hy, hrest⟩

theorem preserves_values_iff (limits : EvidenceLimits) : ∀ entries : List (Str × JsonValue F),
    JsonValue.DistinctEntries entries →
    ∀ e ∈ entries, (limits.Preserves e.2 (limits.sanitizeValue e.2) ↔ limits.Fits e.2)
  | [], _ => fun e he => nomatch he
  | (key, v) :: entries, h => by
    rw [JsonValue.DistinctEntries] at h
    rw [List.forall_mem_cons]
    exact ⟨preserves_iff limits v h.1, preserves_values_iff limits entries h.2⟩

end

/-- The shape of the evidence is kept exactly when no text is cut, but for a text in a dict whose
truncation key is taken by a later entry. -/
theorem sanitizeValue_preserves_iff (limits : EvidenceLimits) (x : JsonValue F) (h : x.DistinctKeys) :
    limits.Preserves x (limits.sanitizeValue x) ↔ limits.Fits x :=
  preserves_iff limits x h

end EvidenceLimits

/-- A log of one character more than the limit. -/
def longLog : JsonValue Unit := .obj [("log".toList, .str (List.replicate 8001 'a'))]

theorem longLog_truncated : @EvidenceLimits.Truncates asciiData {} (List.replicate 8001 'a') := by
  have hplain : Harmless (List.replicate 8001 'a') := by
    refine ⟨?_, .inl ?_⟩
    · intro c hc
      rw [(List.mem_replicate.mp hc).2]
      decide
    · intro hc
      exact absurd (List.mem_replicate.mp hc).2 (by decide)
  unfold EvidenceLimits.Truncates
  rw [@sanitizeText_harmless _ asciiData hplain, List.length_replicate]
  decide

/-- The long log, and behind it an entry that takes its truncation key. -/
def markedLog : JsonValue Unit :=
  .obj [("log".toList, .str (List.replicate 8001 'a')), ("log".toList ++ truncationMark, .null)]

theorem markedLog_preserved : @EvidenceLimits.Truncates asciiData {} (List.replicate 8001 'a') ∧
    @EvidenceLimits.Preserves asciiData Unit {} markedLog (@EvidenceLimits.sanitizeValue asciiData Unit {} markedLog) := by
  have hkeys : markedLog.DistinctKeys := ⟨by decide, trivial, trivial, trivial⟩
  have hfits : @EvidenceLimits.Fits asciiData Unit {} markedLog :=
    ⟨.inr ⟨⟨_, rfl⟩, by decide, List.mem_cons_self⟩, .inl trivial, trivial⟩
  exact ⟨longLog_truncated, (@EvidenceLimits.sanitizeValue_preserves_iff asciiData Unit {} markedLog hkeys).mpr hfits⟩

theorem longLog_not_preserved : longLog.DistinctKeys ∧
    ¬ @EvidenceLimits.Preserves asciiData Unit {} longLog (@EvidenceLimits.sanitizeValue asciiData Unit {} longLog) := by
  have hkeys : longLog.DistinctKeys := ⟨by decide, trivial, trivial⟩
  refine ⟨hkeys, fun hpres => ?_⟩
  rcases ((@EvidenceLimits.preserves_iff asciiData Unit {} longLog hkeys).mp hpres).1 with hfit | ⟨_, _, hmark⟩
  · exact hfit longLog_truncated
  · exact absurd hmark List.not_mem_nil

end FailureOrchestrator
