import FailureOrchestrator.ChainedLog
import FailureOrchestrator.JsonAscii

namespace FailureOrchestrator

namespace HashChainedAuditLog

variable {F : Type} [UnicodeData] [PyFloat F]

/-! ## One record -/

section

variable (sha256 : Str → Str) (c : AppendCall F) (prev : Str)

/-- The record without its hash, its entries in the order of their keys. -/
def AppendCall.entries : List (Str × JsonValue F) :=
  [("correlation_id".toList, jsonOption c.correlationId),
    ("event".toList, .str c.event),
    ("event_id".toList, .str c.eventId),
    ("event_type".toList, .str c.event),
    ("payload".toList, (redact (.obj c.payload)).sorted),
    ("prev_hash".toList, .str prev),
    ("timestamp".toList, .str c.timestamp),
    ("ts".toList, .str c.timestamp)]

def AppendCall.canonical : Str := (JsonValue.obj (c.entries prev)).write compactStyle 0

def AppendCall.hash : Str := sha256 (c.canonical prev)

/-- The entries of the record that is stored. -/
def AppendCall.stored : List (Str × JsonValue F) :=
  insertEntry "hash".toList (.str (c.hash sha256 prev)) (c.entries prev)

def AppendCall.line : Str := (JsonValue.obj (c.stored sha256 prev)).write plainStyle 0

def AppendCall.link : ChainLink Str Str := ⟨prev, c.canonical prev, c.hash sha256 prev⟩

/-- No integer of the payload is too long to be written. -/
def AppendCall.dumpable : Prop := (redact (.obj c.payload)).sorted.dumpable = true

end

variable {sha256 : Str → Str} {c c' : AppendCall F} {prev prev' : Str}

omit [UnicodeData] [PyFloat F] in
theorem jsonOption_sorted (o : Option Str) : (jsonOption (F := F) o).sorted = jsonOption o := by
  cases o <;> rfl

omit [UnicodeData] [PyFloat F] in
/-- The keys of a record in order. -/
theorem dictOf_record (ts timestamp eventId correlationId event eventType payload prevHash : JsonValue F) :
    dictOf [("ts".toList, ts), ("timestamp".toList, timestamp), ("event_id".toList, eventId),
      ("correlation_id".toList, correlationId), ("event".toList, event), ("event_type".toList, eventType),
      ("payload".toList, payload), ("prev_hash".toList, prevHash)] =
    [("correlation_id".toList, correlationId), ("event".toList, event), ("event_id".toList, eventId),
      ("event_type".toList, eventType), ("payload".toList, payload), ("prev_hash".toList, prevHash),
      ("timestamp".toList, timestamp), ("ts".toList, ts)] := rfl

omit [PyFloat F] in
theorem dictOf_sortedEntries : dictOf (JsonValue.sortedEntries (c.record (.str prev))) = c.entries prev := by
  have hoption := jsonOption_sorted (F := F) c.correlationId
  unfold AppendCall.record AppendCall.entries
  simp only [JsonValue.sorted, JsonValue.sortedEntries, hoption]
  exact dictOf_record ..

omit [PyFloat F] in
theorem sorted_record : (JsonValue.obj (c.record (.str prev))).sorted = .obj (c.entries prev) := by
  rw [JsonValue.sorted, dictOf_sortedEntries]

omit [PyFloat F] in
theorem ordered_entries : (JsonValue.obj (c.entries prev)).ordered = true := by
  rw [← sorted_record]
  exact ordered_sorted _

theorem sorted_stored : (JsonValue.obj (c.record (.str prev) ++
    [("hash".toList, .str (c.hash sha256 prev))])).sorted = .obj (c.stored sha256 prev) := by
  rw [JsonValue.sorted, sortedEntries_append]
  show JsonValue.obj (dictOf (_ ++ [("hash".toList, .str (c.hash sha256 prev))])) = _
  rw [dictOf_concat, dictOf_sortedEntries]
  rfl

theorem ordered_stored : (JsonValue.obj (c.stored sha256 prev)).ordered = true := by
  rw [← sorted_stored]
  exact ordered_sorted _

omit [PyFloat F] in
theorem dumpable_entries_iff : (JsonValue.obj (c.entries prev)).dumpable = true ↔ c.dumpable := by
  unfold AppendCall.dumpable AppendCall.entries
  cases c.correlationId <;>
    simp [JsonValue.dumpable, JsonValue.dumpableEntries, jsonOption]

theorem dumpable_stored (h : c.dumpable) : (JsonValue.obj (c.stored sha256 prev)).dumpable = true := by
  exact dumpableEntries_iff.mpr (forall_insertEntry (p := fun v => v.dumpable = true) rfl
    (dumpableEntries_iff.mp (dumpable_entries_iff.mpr h)))

theorem dumps_canonical (h : c.dumpable) :
    dumpsSorted compactStyle (.obj (c.entries prev)) = .ok (c.canonical prev) := by
  unfold dumpsSorted JsonValue.dumps
  rw [sorted_eq_self _ ordered_entries, if_pos (dumpable_entries_iff.mpr h)]
  rfl

/-- A stored line says what was put into it. -/
theorem readLine_line (h : c.dumpable) : readLine F (c.line sha256 prev) = some (c.link sha256 prev) := by
  have hload : JsonValue.loads (c.line sha256 prev) = some (JsonValue.obj (c.stored sha256 prev)) :=
    loads_write plainStyle_valid ordered_stored (dumpable_stored h)
  have hhash : (c.stored sha256 prev).lookup "hash".toList = some (.str (c.hash sha256 prev)) :=
    lookup_insertEntry_self _
  have hprev : (c.stored sha256 prev).lookup "prev_hash".toList = some (.str prev) :=
    (lookup_insertEntry_ne _ (by decide)).trans rfl
  have hrest : (c.stored sha256 prev).filter (fun e => e.1 ≠ "hash".toList) = c.entries prev :=
    filter_insertEntry (by simp [AppendCall.entries])
  unfold readLine
  rw [hload]
  dsimp only
  rw [hhash, hprev, hrest, dumps_canonical h]
  rfl

/-- The canonical text of a record determines its entries. -/
theorem entries_of_canonical (h : c.dumpable) (h' : c'.dumpable) (heq : c.canonical prev = c'.canonical prev') :
    c.entries prev = c'.entries prev' := by
  have hload : JsonValue.loads (c.canonical prev) = some (JsonValue.obj (c.entries prev)) :=
    loads_write compactStyle_valid ordered_entries (dumpable_entries_iff.mpr h)
  have hload' : JsonValue.loads (c'.canonical prev') = some (JsonValue.obj (c'.entries prev')) :=
    loads_write compactStyle_valid ordered_entries (dumpable_entries_iff.mpr h')
  rw [heq, hload'] at hload
  exact (JsonValue.obj.inj (Option.some.inj hload)).symm

theorem prev_of_canonical (h : c.dumpable) (h' : c'.dumpable) (heq : c.canonical prev = c'.canonical prev') :
    prev = prev' := by
  have hlookup := congrArg (List.lookup "prev_hash".toList) (entries_of_canonical h h' heq)
  exact JsonValue.str.inj (Option.some.inj hlookup)

theorem line_of_canonical (h : c.dumpable) (h' : c'.dumpable) (heq : c.canonical prev = c'.canonical prev') :
    c.line sha256 prev = c'.line sha256 prev' := by
  unfold AppendCall.line AppendCall.stored AppendCall.hash
  rw [entries_of_canonical h h' heq, heq]

theorem line_printable : Printable (c.line sha256 prev) := write_printable plainStyle_oneLine _ 0

omit [UnicodeData] in
theorem write_obj_braces (entries : List (Str × JsonValue F)) :
    ∃ t, (JsonValue.obj entries).write plainStyle 0 = '\x7b' :: (t ++ ['\x7d']) := by
  rw [JsonValue.write]
  unfold JsonStyle.bracket
  split
  · exact ⟨[], rfl⟩
  · exact ⟨_, rfl⟩

variable (sha256 c prev) in
theorem line_braces : ∃ t, c.line sha256 prev = '\x7b' :: (t ++ ['\x7d']) := write_obj_braces _

/-! ## The file -/

/-- Calls that were recorded one after the other, each with the hash that it found, and the last hash. -/
inductive Recorded (sha256 : Str → Str) : List (AppendCall F × Str) → Str → Prop
  | nil : Recorded sha256 [] genesis
  | concat {rs : List (AppendCall F × Str)} {last : Str} (h : Recorded sha256 rs last) {c : AppendCall F}
      (hc : c.dumpable) : Recorded sha256 (rs ++ [(c, last)]) (c.hash sha256 last)

def lines (sha256 : Str → Str) (rs : List (AppendCall F × Str)) : List Str := rs.map fun r => r.1.line sha256 r.2

def links (sha256 : Str → Str) (rs : List (AppendCall F × Str)) : List (ChainLink Str Str) :=
  rs.map fun r => r.1.link sha256 r.2

variable {rs rs' : List (AppendCall F × Str)} {last last' : Str} {file : Option Str}

theorem Recorded.dumpable (h : Recorded sha256 rs last) : ∀ r ∈ rs, r.1.dumpable := by
  induction h with
  | nil => nofun
  | concat _ hc ih =>
    intro r hr
    rcases List.mem_append.mp hr with hr | hr
    · exact ih r hr
    · rw [List.mem_singleton.mp hr]
      exact hc

theorem Recorded.verify (h : Recorded sha256 rs last) :
    HashChain.verify sha256 genesis (links sha256 rs) = some last := by
  induction h with
  | nil => rfl
  | concat _ hc ih =>
    unfold links
    rw [List.map_append, List.map_singleton]
    exact HashChain.verify_concat.mpr ⟨ih, rfl, rfl⟩

theorem lines_unbroken : ∀ l ∈ lines sha256 rs, Unbroken l := by
  intro l hl
  obtain ⟨r, -, rfl⟩ := List.mem_map.mp hl
  exact fun c hc => isLineBreak_of_printable (line_printable c hc)

theorem lines_no_return : '\r' ∉ unlines (lines sha256 rs) := by
  intro hmem
  obtain ⟨l, hl, hreturn⟩ := List.mem_flatMap.mp hmem
  rcases List.mem_append.mp hreturn with hreturn | hreturn
  · exact absurd (lines_unbroken l hl '\r' hreturn) (by decide)
  · exact absurd hreturn (by decide)

/-- The text of a log that is not empty, without the end of its last line. -/
theorem strip_lines (rs : List (AppendCall F × Str)) (c : AppendCall F) (prev : Str) :
    strip (unlines (lines sha256 (rs ++ [(c, prev)]))) = unlines (lines sha256 rs) ++ c.line sha256 prev := by
  obtain ⟨t, ht⟩ := line_braces sha256 c prev
  have hshape : unlines (lines sha256 (rs ++ [(c, prev)])) =
      unlines (lines sha256 rs) ++ '\x7b' :: t ++ ['\x7d'] ++ ['\n'] := by
    unfold lines unlines
    rw [List.map_append, List.flatMap_append, List.map_singleton, List.flatMap_singleton, ht]
    simp
  obtain ⟨u, hu⟩ : ∃ u, unlines (lines sha256 rs) ++ '\x7b' :: t = '\x7b' :: u := by
    cases rs with
    | nil => exact ⟨t, rfl⟩
    | cons r rs =>
      obtain ⟨v, hv⟩ := line_braces sha256 r.1 r.2
      unfold lines unlines
      rw [List.map_cons, List.flatMap_cons, hv]
      exact ⟨_, rfl⟩
  rw [hshape, ht]
  unfold strip
  rw [hu, List.append_assoc, List.cons_append, lstrip_cons (by decide), ← List.cons_append, ← List.append_assoc,
    rstrip_concat_space (by decide), rstrip_concat (by decide), ← hu]
  simp

/-- The next record refers to the last one. -/
theorem lastHash_recorded (h : Recorded sha256 rs last) (hfile : file.getD [] = unlines (lines sha256 rs)) :
    lastHash (F := F) file = .ok (.str last) := by
  cases h with
  | nil =>
    cases file with
    | none => rfl
    | some text =>
      obtain rfl : text = [] := hfile
      rfl
  | @concat rs prev h c hc =>
    cases file with
    | none =>
      have hlength := congrArg List.length hfile
      simp [lines, unlines] at hlength
    | some text =>
      obtain rfl : text = unlines (lines sha256 (rs ++ [(c, prev)])) := hfile
      have hne : (unlines (lines sha256 (rs ++ [(c, prev)]))).isEmpty = false := by
        simp [lines, unlines]
      have hline : c.line sha256 prev ≠ [] := by
        obtain ⟨t, ht⟩ := line_braces sha256 c prev
        rw [ht]
        exact List.cons_ne_nil _ _
      have hload : JsonValue.loads (c.line sha256 prev) = some (JsonValue.obj (c.stored sha256 prev)) :=
        loads_write plainStyle_valid ordered_stored (dumpable_stored hc)
      unfold lastHash
      dsimp only
      rw [hne, universalNewlines_eq_self lines_no_return, strip_lines, splitlines_unlines_tail lines_unbroken
        (fun d hd => isLineBreak_of_printable (line_printable d hd)) hline]
      rw [List.getLast?_concat]
      dsimp only
      rw [hload]
      dsimp only
      rw [show (c.stored sha256 prev).lookup "hash".toList = some (.str (c.hash sha256 prev)) from
        lookup_insertEntry_self _]
      rfl

/-- A call writes one line, unless an integer of its payload is too long. -/
theorem append_recorded (h : Recorded sha256 rs last) (hfile : file.getD [] = unlines (lines sha256 rs))
    (c : AppendCall F) :
    (c.dumpable → (append sha256 c file).1.isOk = true ∧
      (append sha256 c file).2.getD [] = unlines (lines sha256 (rs ++ [(c, last)]))) ∧
    (¬ c.dumpable → (append sha256 c file).1 = .error .valueError ∧ (append sha256 c file).2 = file) := by
  have hlast := lastHash_recorded h hfile
  have hcanonical : dumpsSorted compactStyle (.obj (c.record (.str last))) =
      dumpsSorted compactStyle (.obj (c.entries last)) := by
    unfold dumpsSorted
    rw [sorted_record, sorted_eq_self _ ordered_entries]
  constructor
  · intro hc
    have hline : dumpsSorted plainStyle (.obj (c.record (.str last) ++
        [("hash".toList, .str (c.hash sha256 last))])) = .ok (c.line sha256 last) := by
      unfold dumpsSorted JsonValue.dumps
      rw [sorted_stored, if_pos (dumpable_stored hc)]
      rfl
    have hrun : append sha256 c file = (.ok (c.record (.str last) ++ [("hash".toList, .str (c.hash sha256 last))]),
        some (file.getD [] ++ (c.line sha256 last ++ ['\n']))) := by
      unfold append
      refine (Exec.bind_of_ok rfl).trans ?_
      rw [hlast]
      refine (Exec.bind_of_ok rfl).trans ?_
      rw [hcanonical, dumps_canonical hc]
      refine (Exec.bind_of_ok rfl).trans ?_
      have hlift : Exec.lift (dumpsSorted plainStyle (.obj (c.record (.str last) ++
          [("hash".toList, .str (c.hash sha256 last))]))) file = (.ok (c.line sha256 last), file) :=
        congrArg (fun r => (r, file)) hline
      exact (Exec.bind_of_ok hlift).trans rfl
    rw [hrun]
    refine ⟨rfl, ?_⟩
    show file.getD [] ++ (c.line sha256 last ++ ['\n']) = _
    rw [hfile]
    simp [lines, unlines]
  · intro hc
    have hfail : dumpsSorted compactStyle (.obj (c.record (.str last))) = .error .valueError := by
      rw [hcanonical]
      unfold dumpsSorted JsonValue.dumps
      rw [sorted_eq_self _ ordered_entries, if_neg fun h => hc (dumpable_entries_iff.mp h)]
    have hrun : append sha256 c file = (.error .valueError, file) := by
      unfold append
      refine (Exec.bind_of_ok rfl).trans ?_
      rw [hlast]
      refine (Exec.bind_of_ok rfl).trans ?_
      rw [hfail]
      exact Exec.bind_of_error rfl
    exact ⟨congrArg Prod.fst hrun, congrArg Prod.snd hrun⟩

theorem appends_recorded (calls : List (AppendCall F)) (h : Recorded sha256 rs last)
    (hfile : file.getD [] = unlines (lines sha256 rs)) :
    ∃ (rs' : List (AppendCall F × Str)) (last' : Str), Recorded sha256 rs' last' ∧
      (appends sha256 calls file).getD [] = unlines (lines sha256 rs') := by
  induction calls generalizing rs last file with
  | nil => exact ⟨rs, last, h, hfile⟩
  | cons c calls ih =>
    obtain ⟨hwrites, hraises⟩ := append_recorded h hfile c
    by_cases hc : c.dumpable
    · exact ih (h.concat hc) (hwrites hc).2
    · exact ih h ((congrArg (·.getD []) (hraises hc).2).trans hfile)

/-- A payload without an integer that is too long is always recorded. -/
theorem append_returns (h : Recorded sha256 rs last) (hfile : file.getD [] = unlines (lines sha256 rs))
    (hpayload : (JsonValue.obj c.payload).dumpable = true) : (append sha256 c file).1.isOk = true :=
  ((append_recorded h hfile c).1 (dumpable_sorted _ (dumpable_redact _ hpayload))).1

/-! ## Verification -/

theorem storedLines_recorded (hfile : file.getD [] = unlines (lines sha256 rs)) :
    storedLines file = lines sha256 rs := by
  unfold storedLines
  rw [hfile, universalNewlines_eq_self lines_no_return, splitlines_unlines lines_unbroken]

/-- The lines of a log as links of a chain, if each of them is a record. -/
def readLog (F : Type) [PyFloat F] (file : Option Str) : Option (List (ChainLink Str Str)) :=
  (storedLines file).mapM (readLine F)

omit [UnicodeData] in
/-- A file is a verifiable chain that ends with the hash `last`. -/
structure Verifies (F : Type) [PyFloat F] (sha256 : Str → Str) (file : Option Str) (ls : List (ChainLink Str Str))
    (last : Str) : Prop where
  read : readLog F file = some ls
  chain : HashChain.verify sha256 genesis ls = some last

theorem readLog_recorded (h : Recorded sha256 rs last) (hfile : file.getD [] = unlines (lines sha256 rs)) :
    readLog F file = some (links sha256 rs) := by
  unfold readLog
  rw [storedLines_recorded hfile]
  unfold lines links
  have hall := h.dumpable
  clear h hfile
  induction rs with
  | nil => rfl
  | cons r rs ih =>
    obtain ⟨hr, hrs⟩ := List.forall_mem_cons.mp hall
    rw [List.map_cons, List.mapM_cons, readLine_line hr, ih hrs]
    rfl

/-- The lines of a log are told apart by what they say. -/
theorem lines_of_links (h : ∀ r ∈ rs, r.1.dumpable) (h' : ∀ r ∈ rs', r.1.dumpable)
    (heq : links sha256 rs = links sha256 rs') : lines sha256 rs = lines sha256 rs' := by
  induction rs generalizing rs' with
  | nil =>
    cases rs' with
    | nil => rfl
    | cons r' rs' => cases heq
  | cons r rs ih =>
    cases rs' with
    | nil => cases heq
    | cons r' rs' =>
      obtain ⟨hr, hrs⟩ := List.forall_mem_cons.mp h
      obtain ⟨hr', hrs'⟩ := List.forall_mem_cons.mp h'
      obtain ⟨hlink, hrest⟩ := List.cons.inj heq
      have hline : r.1.line sha256 r.2 = r'.1.line sha256 r'.2 := line_of_canonical hr hr' (congrArg ChainLink.body hlink)
      unfold lines
      rw [List.map_cons, List.map_cons, hline]
      exact congrArg _ (ih hrs hrs' hrest)

/-- A file without a record: there is none, or it is empty. -/
def NoRecords : Type := { file : Option Str // file.getD [] = [] }

/-- What calls have stored is a verifiable chain, and two logs of one length that differ and end with the same hash hold, at
one place, two records with the same hash and different texts. -/
theorem appends_verifies (sha256 : Str → Str) (start start' : NoRecords) (calls calls' : List (AppendCall F)) :
    (∃ ls last, Verifies F sha256 (appends sha256 calls start.val) ls last) ∧
    ∀ ls ls' last, Verifies F sha256 (appends sha256 calls start.val) ls last →
      Verifies F sha256 (appends sha256 calls' start'.val) ls' last → ls.length = ls'.length →
      storedLines (appends sha256 calls start.val) ≠ storedLines (appends sha256 calls' start'.val) →
      ∃ (i : Nat) (l l' : ChainLink Str Str), ls[i]? = some l ∧ ls'[i]? = some l' ∧ l.body ≠ l'.body ∧
        sha256 l.body = sha256 l'.body := by
  have hnil : Recorded (F := F) sha256 [] genesis := .nil
  obtain ⟨rs, last, hrs, hfile⟩ := appends_recorded calls hnil start.property
  obtain ⟨rs', last', hrs', hfile'⟩ := appends_recorded calls' hnil start'.property
  have hread := readLog_recorded hrs hfile
  have hread' := readLog_recorded hrs' hfile'
  refine ⟨⟨_, _, hread, hrs.verify⟩, fun ls ls' h hls hls' hlength hne => ?_⟩
  obtain rfl : links sha256 rs = ls := Option.some.inj (hread.symm.trans hls.read)
  obtain rfl : links sha256 rs' = ls' := Option.some.inj (hread'.symm.trans hls'.read)
  have hprev : ∀ l ∈ links sha256 rs, ∀ k ∈ links sha256 rs', l.body = k.body → l.prev = k.prev := by
    intro l hl k hk heq
    obtain ⟨r, hr, rfl⟩ := List.mem_map.mp hl
    obtain ⟨r', hr', rfl⟩ := List.mem_map.mp hk
    exact prev_of_canonical (hrs.dumpable r hr) (hrs'.dumpable r' hr') heq
  refine (HashChain.verify_diverges hprev hls.chain hls'.chain hlength).resolve_left fun heq => hne ?_
  rw [storedLines_recorded hfile, storedLines_recorded hfile', lines_of_links hrs.dumpable hrs'.dumpable heq]

end HashChainedAuditLog

end FailureOrchestrator
