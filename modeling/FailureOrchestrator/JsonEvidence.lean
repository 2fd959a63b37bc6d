import FailureOrchestrator.JsonDicts
import FailureOrchestrator.JsonDumps
import FailureOrchestrator.SanitizedText

namespace FailureOrchestrator

section Sanitize

variable [UnicodeData] {F : Type}

/-- The tuple that stands for a cut text in a list. -/
def cutTuple (s : Str) : JsonValue F :=
  .arr [.str (boundedText s maxMetadataChars), .bool true, .int s.length, .int maxMetadataChars]

/-- A text in a list. -/
def storedText (s : Str) : JsonValue F := if truncated s then cutTuple s else .str (boundedText s maxMetadataChars)

/-- The entry behind a cut text in a dict. -/
def cutEntry (s : Str) : JsonValue F :=
  .obj (dictOf [("truncated".toList, .bool true), ("original_length".toList, .int s.length),
    ("stored_length".toList, .int maxMetadataChars)])

def truncationMark : Str := "__truncation".toList

mutual

/-- `sanitize_value`; a dict's entries are taken in the order of their keys, and a text by itself without its tuple. -/
def JsonValue.sanitize : JsonValue F → JsonValue F
  | .str s => .str (boundedText s maxMetadataChars)
  | .arr items => .arr (JsonValue.sanitizeItems items)
  | .obj entries => .obj (JsonValue.sanitizeEntries entries [])
  | v => v

def JsonValue.sanitizeItems : List (JsonValue F) → List (JsonValue F)
  | [] => []
  | .str s :: items => storedText s :: JsonValue.sanitizeItems items
  | v :: items => v.sanitize :: JsonValue.sanitizeItems items

/-- The entries set so far are kept. -/
def JsonValue.sanitizeEntries : List (Str × JsonValue F) → List (Str × JsonValue F) → List (Str × JsonValue F)
  | [], out => out
  | (key, .str s) :: entries, out =>
    let out := insertEntry key (.str (boundedText s maxMetadataChars)) out
    JsonValue.sanitizeEntries entries
      (if truncated s then insertEntry (key ++ truncationMark) (cutEntry s) out else out)
  | (key, v) :: entries, out => JsonValue.sanitizeEntries entries (insertEntry key v.sanitize out)

end

namespace JsonValue

/-- What an entry of a dict becomes, and the entry that a cut text leaves behind it. -/
theorem sanitizeEntries_cons (e : Str × JsonValue F) (entries out : List (Str × JsonValue F)) :
    sanitizeEntries (e :: entries) out = sanitizeEntries entries (insertEntry e.1 e.2.sanitize out) ∨
      ∃ s, sanitizeEntries (e :: entries) out =
        sanitizeEntries entries (insertEntry (e.1 ++ truncationMark) (cutEntry s) (insertEntry e.1 e.2.sanitize out)) := by
  obtain ⟨key, v⟩ := e
  cases v with
  | str s =>
    rw [sanitizeEntries]
    dsimp only
    split
    · exact .inr ⟨s, rfl⟩
    · exact .inl rfl
  | null | bool | int | float | arr | obj => exact .inl rfl

theorem sanitizeItems_texts (texts : List Str) : sanitizeItems (F := F) (texts.map .str) = texts.map storedText := by
  induction texts with
  | nil => rfl
  | cons s texts ih => rw [List.map_cons, sanitizeItems, ih, List.map_cons]

/-- An entry is found sanitized, unless its key is that of a mark. -/
theorem lookup_sanitizeEntries {k : Str} (hmark : ¬ truncationMark <:+ k) (entries out : List (Str × JsonValue F))
    (hkeys : (entries.map Prod.fst).Nodup) :
    (sanitizeEntries entries out).lookup k = ((entries.lookup k).map sanitize).or (out.lookup k) := by
  induction entries generalizing out with
  | nil => rw [sanitizeEntries]; rfl
  | cons e entries ih =>
    obtain ⟨hfresh, hkeys⟩ := List.nodup_cons.mp hkeys
    have hout : (sanitizeEntries (e :: entries) out).lookup k =
        ((entries.lookup k).map sanitize).or ((insertEntry e.1 e.2.sanitize out).lookup k) := by
      rcases sanitizeEntries_cons e entries out with h | ⟨s, h⟩
      · rw [h, ih _ hkeys]
      · have hne : k ≠ e.1 ++ truncationMark := by
          rintro rfl
          exact hmark (List.suffix_append _ _)
        rw [h, ih _ hkeys, lookup_insertEntry_ne _ hne]
    rw [hout]
    by_cases hk : k = e.1
    · have hnone : entries.lookup k = none := by
        rw [List.lookup_eq_none_iff]
        rintro f hf
        refine bne_iff_ne.mpr ?_
        rintro heq
        exact hfresh (List.mem_map.mpr ⟨f, hf, heq.symm.trans hk⟩)
      rw [hnone, hk, lookup_insertEntry_self, List.lookup_cons_self]
      rfl
    · rw [lookup_insertEntry_ne _ hk, List.lookup_cons, beq_false_of_ne hk]

mutual

/-- Sanitizing puts every dict in the order of its keys. -/
theorem sanitize_ordered : ∀ v : JsonValue F, v.sanitize.ordered = true
  | .null | .bool _ | .int _ | .float _ | .str _ => rfl
  | .arr items => sanitizeItems_ordered items
  | .obj entries => by
    rw [JsonValue.sanitize]
    have h := sanitizeEntries_ordered entries List.Pairwise.nil fun _ he => (List.not_mem_nil he).elim
    exact ordered_obj h.1 h.2

theorem sanitizeItems_ordered : ∀ items : List (JsonValue F), JsonValue.orderedItems (sanitizeItems items) = true
  | [] => rfl
  | .str s :: items => by
    have hstored : (storedText (F := F) s).ordered = true := by
      unfold storedText
      split
      · rfl
      · rfl
    rw [sanitizeItems, JsonValue.orderedItems, hstored, sanitizeItems_ordered items]
    rfl
  | .null :: items | .bool _ :: items | .int _ :: items | .float _ :: items => sanitizeItems_ordered items
  | .arr xs :: items => by
    show ((arr xs).sanitize.ordered && orderedItems (sanitizeItems items)) = true
    rw [sanitize_ordered, sanitizeItems_ordered items]
    rfl
  | .obj entries :: items => by
    show ((obj entries).sanitize.ordered && orderedItems (sanitizeItems items)) = true
    rw [sanitize_ordered, sanitizeItems_ordered items]
    rfl

theorem sanitizeEntries_ordered : ∀ (entries : List (Str × JsonValue F)) {out : List (Str × JsonValue F)},
    (out.map Prod.fst).Pairwise (· < ·) → (∀ e ∈ out, e.2.ordered = true) →
    ((sanitizeEntries entries out).map Prod.fst).Pairwise (· < ·) ∧
      ∀ e ∈ sanitizeEntries entries out, e.2.ordered = true
  | [], _, hsorted, h => ⟨hsorted, h⟩
  | (key, v) :: entries, out, hsorted, h => by
    have hsorted' : ((insertEntry key v.sanitize out).map Prod.fst).Pairwise (· < ·) := sorted_insertEntry hsorted
    have h' : ∀ e ∈ insertEntry key v.sanitize out, e.2.ordered = true :=
      forall_insertEntry (p := fun v => v.ordered = true) (sanitize_ordered v) h
    rcases sanitizeEntries_cons (key, v) entries out with heq | ⟨s, heq⟩
    · rw [heq]
      exact sanitizeEntries_ordered entries hsorted' h'
    · rw [heq]
      exact sanitizeEntries_ordered entries (sorted_insertEntry hsorted')
        (forall_insertEntry (p := fun v => v.ordered = true) rfl h')

end

end JsonValue

end Sanitize

section Text

variable [UnicodeData] {F : Type} [PyFloat F]

/-- The text that `write_json` stores. -/
def evidenceText (value : JsonValue F) : Option Str := canonicalJson value.sanitize

/-- Stored evidence is read back sanitized. -/
theorem loads_evidenceText {value : JsonValue F} {text : Str} (h : evidenceText value = some text) :
    JsonValue.loads text = some value.sanitize := loads_canonicalJson (JsonValue.sanitize_ordered value) h

end Text

end FailureOrchestrator
