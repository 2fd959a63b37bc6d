import FailureOrchestrator.Interleaving
import FailureOrchestrator.StoreAgreement
import FailureOrchestrator.TornLog

namespace FailureOrchestrator

/-- A process with audit events of one run to append. With a `counter` it numbers them itself, as `RunPersistence.emit`
does; without one it asks the store for the latest sequence, as `_record_lease_expiry` does.
`outages` are the errors with which the database fails the statements of this process. -/
structure AuditCaller (F : Type) where
  runId : Str
  counter : Option Nat
  drafts : List (AuditRecord F)
  outages : Nat → Option Str

/-- Where a process is with its next event: the transaction of `append` looks for the event id, then for the latest
sequence, then inserts. -/
inductive AppendPhase (F : Type) where
  | next
  | made (event : AuditRecord F)
  | unique (event : AuditRecord F)
  | inserting (event : AuditRecord F)

structure AuditWriter (F : Type) extends AuditCaller F where
  clock : Nat
  phase : AppendPhase F
  outcomes : List (Except StoreError (AuditRecord F))

def AuditCaller.start {F : Type} (c : AuditCaller F) : AuditWriter F := { c with clock := 0, phase := .next, outcomes := [] }

def AppendPhase.event {F : Type} : AppendPhase F → Option (AuditRecord F)
  | .next => none
  | .made e | .unique e | .inserting e => some e

namespace AuditWriter

variable {F : Type}

/-- The events that the store has taken from this process. -/
def returned (w : AuditWriter F) : List (AuditRecord F) := w.outcomes.filterMap Except.toOption

def advance (w : AuditWriter F) (phase : AppendPhase F) : AuditWriter F := { w with clock := w.clock + 1, phase := phase }

def raised (w : AuditWriter F) (error : StoreError) : AuditWriter F :=
  { w with drafts := w.drafts.tail, clock := w.clock + 1, phase := .next, outcomes := w.outcomes ++ [.error error] }

/-- `append` has returned; `emit` keeps the sequence. -/
def stored (w : AuditWriter F) (e : AuditRecord F) : AuditWriter F :=
  { w with
    counter := w.counter.map fun _ => e.sequence
    drafts := w.drafts.tail
    clock := w.clock + 1
    phase := .next
    outcomes := w.outcomes ++ [.ok e] }

def unavailable (error : Str) : StoreError := .persistence ("audit store unavailable: ".toList ++ error)

def failed (error : Str) : StoreError := .persistence ("failed to append audit event: ".toList ++ error)

def make (rows : List (AuditRow F)) (w : AuditWriter F) (draft : AuditRecord F) : AuditWriter F :=
  match w.counter, w.outages w.clock with
  | some n, _ => w.advance (.made { draft with runId := w.runId, sequence := n + 1 })
  | none, some error => w.raised (unavailable error)
  | none, none =>
    w.advance (.made { draft with runId := w.runId, sequence := SqlAuditStore.latest rows w.runId + 1 })

def selectDuplicate (rows : List (AuditRow F)) (w : AuditWriter F) (e : AuditRecord F) : AuditWriter F :=
  if e.schemaVersion ≠ auditSchema then w.raised (.unsupportedSchema e.schemaVersion)
  else
    match w.outages w.clock with
    | some error => w.raised (failed error)
    | none =>
      if ∃ r ∈ rows, r.eventId = e.eventId then
        w.raised (.persistence ("duplicate event_id: ".toList ++ e.eventId))
      else w.advance (.unique e)

def selectLatest (rows : List (AuditRow F)) (w : AuditWriter F) (e : AuditRecord F) : AuditWriter F :=
  match w.outages w.clock with
  | some error => w.raised (failed error)
  | none =>
    if e.sequence ≠ SqlAuditStore.latest rows e.runId + 1 then
      w.raised (.persistence ("non-monotonic sequence: expected ".toList ++
        natStr (SqlAuditStore.latest rows e.runId + 1) ++ ", got ".toList ++ natStr e.sequence))
    else w.advance (.inserting e)

variable [PyFloat F]

def insert (rows : List (AuditRow F)) (w : AuditWriter F) (e : AuditRecord F) : List (AuditRow F) × AuditWriter F :=
  match jsonable e.toDict with
  | .error error => (rows, w.raised error)
  | .ok payload =>
    match w.outages w.clock with
    | some error => (rows, w.raised (failed error))
    | none =>
      match SqlAuditStore.insert (fun _ => none) (e.row payload) rows with
      | (.ok _, rows') => (rows', w.stored e)
      | (.error error, rows') => (rows', w.raised error)

/-- The next statement of the process. -/
def act (rows : List (AuditRow F)) (w : AuditWriter F) : List (AuditRow F) × AuditWriter F :=
  match w.drafts with
  | [] => (rows, w)
  | draft :: _ =>
    match w.phase with
    | .next => (rows, w.make rows draft)
    | .made e => (rows, w.selectDuplicate rows e)
    | .unique e => (rows, w.selectLatest rows e)
    | .inserting e => w.insert rows e

end AuditWriter

/-- The sequences of every run are 1, 2, 3, … in the order of the rows, and no event stands twice. -/
structure Unforked {F : Type} (rows : List (AuditRow F)) : Prop where
  sequences : ∀ runId, ((rows.filter fun r => r.runId = runId).map (·.sequence)) =
    List.range' 1 (rows.filter fun r => r.runId = runId).length
  ids : (rows.map (·.eventId)).Nodup

/-- What holds of a process between its statements. -/
structure AuditWriter.Fits {F : Type} (rows : List (AuditRow F)) (w : AuditWriter F) : Prop where
  event : ∀ e, w.phase.event = some e → e.runId = w.runId ∧ ∀ n, w.counter = some n → e.sequence = n + 1
  inserting : ∀ e, w.phase = .inserting e → 0 < e.sequence ∧ e.sequence ≤ SqlAuditStore.latest rows e.runId + 1

section Rows

variable {F : Type} {rows : List (AuditRow F)} {row : AuditRow F}

namespace Unforked

theorem nil : Unforked ([] : List (AuditRow F)) where
  sequences _ := rfl
  ids := List.nodup_nil

theorem latest_eq (h : Unforked rows) (runId : Str) :
    SqlAuditStore.latest rows runId = (rows.filter fun r => r.runId = runId).length := by
  unfold SqlAuditStore.latest
  rw [h.sequences runId, Mirrors.foldl_max_range']

theorem exists_row (h : Unforked rows) {runId : Str} {n : Nat} (hpos : 0 < n)
    (hle : n ≤ SqlAuditStore.latest rows runId) : ∃ r ∈ rows, r.runId = runId ∧ r.sequence = n := by
  have hmem : n ∈ (rows.filter fun r => r.runId = runId).map (·.sequence) := by
    rw [h.sequences runId, ← h.latest_eq runId]
    exact List.mem_range'_1.mpr ⟨hpos, by omega⟩
  obtain ⟨r, hr, hn⟩ := List.mem_map.mp hmem
  obtain ⟨hrow, hrun⟩ := List.mem_filter.mp hr
  exact ⟨r, hrow, of_decide_eq_true hrun, hn⟩

theorem sequence_le (h : Unforked rows) (hrow : row ∈ rows) :
    0 < row.sequence ∧ row.sequence ≤ SqlAuditStore.latest rows row.runId := by
  have hmem : row.sequence ∈ (rows.filter fun r => r.runId = row.runId).map (·.sequence) :=
    List.mem_map_of_mem (List.mem_filter.mpr ⟨hrow, by simp⟩)
  rw [h.sequences row.runId, ← h.latest_eq row.runId, List.mem_range'_1] at hmem
  omega

/-- The database takes no other row of a run than the next one. -/
theorem next_sequence (h : Unforked rows) (hpos : 0 < row.sequence)
    (hle : row.sequence ≤ SqlAuditStore.latest rows row.runId + 1)
    (hfree : ∀ r ∈ rows, ¬ (r.runId = row.runId ∧ r.sequence = row.sequence)) :
    row.sequence = SqlAuditStore.latest rows row.runId + 1 := by
  by_contra hne
  obtain ⟨r, hr, hrun, hsequence⟩ := @exists_row _ _ h row.runId _ hpos (by omega)
  exact hfree r hr ⟨hrun, hsequence⟩

theorem snoc (h : Unforked rows) (hid : ∀ r ∈ rows, r.eventId ≠ row.eventId)
    (hnext : row.sequence = SqlAuditStore.latest rows row.runId + 1) : Unforked (rows ++ [row]) := by
  constructor
  · intro runId
    rw [List.filter_append, List.map_append, List.length_append, h.sequences runId]
    by_cases hrun : row.runId = runId
    · rw [List.filter_singleton, decide_eq_true hrun]
      rw [h.latest_eq, hrun] at hnext
      show _ ++ [row.sequence] = List.range' 1 (_ + 1)
      rw [List.range'_concat, hnext, Nat.one_mul, Nat.add_comm 1]
    · rw [List.filter_singleton, decide_eq_false hrun]
      exact List.append_nil _
  · rw [List.map_append]
    refine List.nodup_append.mpr ⟨h.ids, List.nodup_singleton _, ?_⟩
    intro a ha b hb
    obtain ⟨r, hr, rfl⟩ := List.mem_map.mp ha
    rw [List.mem_singleton.mp hb]
    exact hid r hr

/-- The table has one row of a run and sequence. -/
theorem row_eq (h : Unforked rows) {r r' : AuditRow F} (hr : r ∈ rows) (hr' : r' ∈ rows) (hrun : r.runId = r'.runId)
    (hsequence : r.sequence = r'.sequence) : r = r' := by
  have hnodup : ((rows.filter fun a => a.runId = r'.runId).map (·.sequence)).Nodup := by
    rw [h.sequences]
    exact List.nodup_range'
  exact List.inj_on_of_nodup_map hnodup (List.mem_filter.mpr ⟨hr, decide_eq_true hrun⟩)
    (List.mem_filter.mpr ⟨hr', decide_eq_true rfl⟩) hsequence

end Unforked

theorem latest_snoc (rows : List (AuditRow F)) (row : AuditRow F) (runId : Str) :
    SqlAuditStore.latest rows runId ≤ SqlAuditStore.latest (rows ++ [row]) runId := by
  unfold SqlAuditStore.latest
  rw [List.filter_append, List.map_append, List.foldl_append]
  by_cases hrun : row.runId = runId
  · rw [List.filter_singleton, decide_eq_true hrun]
    exact Nat.le_max_left _ _
  · rw [List.filter_singleton, decide_eq_false hrun]
    exact Nat.le_refl _

end Rows

theorem SqlAuditStore.insert_eq {F : Type} (row : AuditRow F) (rows : List (AuditRow F)) :
    SqlAuditStore.insert (fun _ => none) row rows =
      if ∃ r ∈ rows, r.eventId = row.eventId ∨ (r.runId = row.runId ∧ r.sequence = row.sequence) then
        (.error (.persistence ("audit append conflict for ".toList ++ row.runId ++ " sequence ".toList ++
          natStr row.sequence)), rows)
      else (.ok (), rows ++ [row]) := by
  show (if _ then _ else _ : Exec (List (AuditRow F)) StoreError Unit) rows = _
  split <;> rfl

theorem SqlAuditStore.append_eq {F : Type} [PyFloat F] (e : AuditRecord F) (rows : List (AuditRow F)) :
    SqlAuditStore.append (fun _ => none) e rows =
      if e.schemaVersion ≠ auditSchema then (.error (.unsupportedSchema e.schemaVersion), rows)
      else if ∃ r ∈ rows, r.eventId = e.eventId then
        (.error (.persistence ("duplicate event_id: ".toList ++ e.eventId)), rows)
      else if e.sequence ≠ SqlAuditStore.latest rows e.runId + 1 then
        (.error (.persistence ("non-monotonic sequence: expected ".toList ++
          natStr (SqlAuditStore.latest rows e.runId + 1) ++ ", got ".toList ++ natStr e.sequence)), rows)
      else
        match jsonable e.toDict with
        | .error error => (.error error, rows)
        | .ok payload => SqlAuditStore.insert (fun _ => none) (e.row payload) rows := by
  unfold SqlAuditStore.append
  split
  · rfl
  · show (if ∃ r ∈ rows, r.eventId = e.eventId then _ else _ : Exec (List (AuditRow F)) StoreError Unit) rows = _
    split
    · rfl
    · split
      · rfl
      · cases jsonable e.toDict <;> rfl

section Turns

variable {F : Type} {rows : List (AuditRow F)} {w : AuditWriter F} {e : AuditRecord F}

namespace AuditWriter

theorem returned_raised (error : StoreError) : (w.raised error).returned = w.returned := by
  unfold returned raised
  rw [List.filterMap_append]
  exact List.append_nil _

theorem returned_stored : (w.stored e).returned = w.returned ++ [e] := by
  unfold returned stored
  rw [List.filterMap_append]
  rfl

theorem fits_next (h : w.phase = .next) : w.Fits rows := by
  constructor <;> intro e he <;> rw [h] at he <;> cases he

theorem Fits.snoc (h : w.Fits rows) (row : AuditRow F) : w.Fits (rows ++ [row]) where
  event := h.event
  inserting e he := by
    obtain ⟨hpos, hle⟩ := h.inserting e he
    have hmore := latest_snoc rows row e.runId
    exact ⟨hpos, by omega⟩

theorem make_cases (w : AuditWriter F) (draft : AuditRecord F) :
    (∃ error, w.make rows draft = w.raised error) ∨ ∃ e, w.make rows draft = w.advance (.made e) ∧
      e.runId = w.runId ∧ ∀ n, w.counter = some n → e.sequence = n + 1 := by
  unfold make
  split
  next n _ hcounter =>
    refine .inr ⟨_, rfl, rfl, fun m hm => ?_⟩
    rw [hcounter] at hm
    rw [Option.some.inj hm]
  next => exact .inl ⟨_, rfl⟩
  next hcounter _ =>
    refine .inr ⟨_, rfl, rfl, fun m hm => ?_⟩
    rw [hcounter] at hm
    cases hm

theorem selectDuplicate_cases (rows : List (AuditRow F)) (w : AuditWriter F) (e : AuditRecord F) :
    (∃ error, w.selectDuplicate rows e = w.raised error) ∨ w.selectDuplicate rows e = w.advance (.unique e) := by
  unfold selectDuplicate
  split
  · exact .inl ⟨_, rfl⟩
  · split
    · exact .inl ⟨_, rfl⟩
    · split
      · exact .inl ⟨_, rfl⟩
      · exact .inr rfl

theorem selectLatest_cases (rows : List (AuditRow F)) (w : AuditWriter F) (e : AuditRecord F) :
    (∃ error, w.selectLatest rows e = w.raised error) ∨ w.selectLatest rows e = w.advance (.inserting e) ∧
      e.sequence = SqlAuditStore.latest rows e.runId + 1 := by
  unfold selectLatest
  split
  · exact .inl ⟨_, rfl⟩
  · split
    · exact .inl ⟨_, rfl⟩
    next hnext => exact .inr ⟨rfl, not_not.mp hnext⟩

variable [PyFloat F]

/-- An insert takes the row when no row has its id and none has its place. -/
theorem insert_cases (rows : List (AuditRow F)) (w : AuditWriter F) (e : AuditRecord F) :
    (∃ error, w.insert rows e = (rows, w.raised error)) ∨ w.insert rows e = (rows ++ [e.row e.toDict], w.stored e) ∧
      ∀ r ∈ rows, r.eventId ≠ e.eventId ∧ ¬ (r.runId = e.runId ∧ r.sequence = e.sequence) := by
  unfold insert
  split
  · exact .inl ⟨_, rfl⟩
  next payload hpayload =>
    rw [jsonable_eq e.toDict_ordered hpayload]
    split
    · exact .inl ⟨_, rfl⟩
    · rw [SqlAuditStore.insert_eq]
      by_cases hclash : ∃ r ∈ rows, r.eventId = (e.row e.toDict).eventId ∨
          (r.runId = (e.row e.toDict).runId ∧ r.sequence = (e.row e.toDict).sequence)
      · rw [if_pos hclash]
        exact .inl ⟨_, rfl⟩
      · rw [if_neg hclash]
        exact .inr ⟨rfl, fun r hr => ⟨fun hid => hclash ⟨r, hr, .inl hid⟩, fun hplace => hclash ⟨r, hr, .inr hplace⟩⟩⟩

/-- What a statement of a process can do. -/
theorem act_cases (h : w.Fits rows) :
    act rows w = (rows, w) ∨ (∃ error, act rows w = (rows, w.raised error)) ∨
      (∃ phase, act rows w = (rows, w.advance phase) ∧ (w.advance phase).Fits rows) ∨
      ∃ e, w.phase.event = some e ∧ act rows w = (rows ++ [e.row e.toDict], w.stored e) ∧
        (∀ r ∈ rows, r.eventId ≠ e.eventId ∧ ¬ (r.runId = e.runId ∧ r.sequence = e.sequence)) ∧
        0 < e.sequence ∧ e.sequence ≤ SqlAuditStore.latest rows e.runId + 1 := by
  unfold act
  split
  · exact .inl rfl
  next draft _ _ =>
    right
    split
    next =>
      rcases w.make_cases draft with ⟨error, hmake⟩ | ⟨e, hmake, hevent⟩
      · exact .inl ⟨error, congrArg _ hmake⟩
      · refine .inr (.inl ⟨_, congrArg _ hmake, fun e' he' => ?_, fun e' he' => nomatch he'⟩)
        cases he'
        exact hevent
    next e hphase =>
      rcases selectDuplicate_cases rows w e with ⟨error, hselect⟩ | hselect
      · exact .inl ⟨error, congrArg _ hselect⟩
      · refine .inr (.inl ⟨_, congrArg _ hselect, fun e' he' => ?_, fun e' he' => nomatch he'⟩)
        cases he'
        exact h.event e (by rw [hphase]; rfl)
    next e hphase =>
      rcases selectLatest_cases rows w e with ⟨error, hselect⟩ | ⟨hselect, hnext⟩
      · exact .inl ⟨error, congrArg _ hselect⟩
      · refine .inr (.inl ⟨_, congrArg _ hselect, fun e' he' => ?_, fun e' he' => ?_⟩)
        · cases he'
          exact h.event e (by rw [hphase]; rfl)
        · cases he'
          exact ⟨by omega, by omega⟩
    next e hphase =>
      rcases insert_cases rows w e with ⟨error, hinsert⟩ | ⟨hinsert, hfree⟩
      · exact .inl ⟨error, hinsert⟩
      · exact .inr (.inr ⟨e, by rw [hphase]; rfl, hinsert, hfree, h.inserting e hphase⟩)

/-- Without other processes and outages the statements of a transaction are a call of `append`. -/
theorem append_alone (rows : List (AuditRow F)) (w : AuditWriter F) (hdrafts : w.drafts ≠ []) (hphase : w.phase = .made e)
    (hout : ∀ n, w.outages n = none) :
    ∃ n, ((fun s : List (AuditRow F) × AuditWriter F => act s.1 s.2)^[n] (rows, w)).1 =
        (SqlAuditStore.append (fun _ => none) e rows).2 ∧
      ((fun s : List (AuditRow F) × AuditWriter F => act s.1 s.2)^[n] (rows, w)).2.outcomes =
        w.outcomes ++ [(SqlAuditStore.append (fun _ => none) e rows).1.map fun _ => e] := by
  obtain ⟨draft, rest, hdrafts⟩ := List.exists_cons_of_ne_nil hdrafts
  have hfirst : act rows w = (rows, w.selectDuplicate rows e) := by
    unfold act
    rw [hdrafts, hphase]
  unfold selectDuplicate at hfirst
  rw [hout] at hfirst
  rw [SqlAuditStore.append_eq]
  by_cases hschema : e.schemaVersion ≠ auditSchema
  · rw [if_pos hschema] at hfirst ⊢
    exact ⟨1, by rw [Function.iterate_one, hfirst], by rw [Function.iterate_one, hfirst]; rfl⟩
  rw [if_neg hschema] at hfirst ⊢
  by_cases hdup : ∃ r ∈ rows, r.eventId = e.eventId
  · rw [if_pos hdup] at hfirst ⊢
    exact ⟨1, by rw [Function.iterate_one, hfirst], by rw [Function.iterate_one, hfirst]; rfl⟩
  rw [if_neg hdup] at hfirst ⊢
  have hsecond : act rows (w.advance (.unique e)) = (rows, (w.advance (.unique e)).selectLatest rows e) := by
    unfold act advance
    dsimp only
    rw [hdrafts]
  unfold selectLatest at hsecond
  rw [show (w.advance (.unique e)).outages _ = none from hout _] at hsecond
  by_cases hnext : e.sequence ≠ SqlAuditStore.latest rows e.runId + 1
  · rw [if_pos hnext] at hsecond ⊢
    refine ⟨2, ?_, ?_⟩ <;> rw [Function.iterate_succ_apply, Function.iterate_one, hfirst, hsecond]
    rfl
  rw [if_neg hnext] at hsecond ⊢
  have hthird : act rows ((w.advance (.unique e)).advance (.inserting e)) =
      ((w.advance (.unique e)).advance (.inserting e)).insert rows e := by
    unfold act advance
    dsimp only
    rw [hdrafts]
  refine ⟨3, ?_⟩
  rw [Function.iterate_succ_apply, Function.iterate_succ_apply, Function.iterate_one, hfirst, hsecond]
  dsimp only
  rw [hthird]
  unfold insert
  cases hpayload : jsonable e.toDict with
  | error error => exact ⟨rfl, rfl⟩
  | ok payload =>
    dsimp only
    rw [show ((w.advance (.unique e)).advance (.inserting e)).outages _ = none from hout _, SqlAuditStore.insert_eq]
    by_cases hclash : ∃ r ∈ rows, r.eventId = (e.row payload).eventId ∨
        (r.runId = (e.row payload).runId ∧ r.sequence = (e.row payload).sequence)
    · rw [if_pos hclash]
      exact ⟨rfl, rfl⟩
    · rw [if_neg hclash]
      exact ⟨rfl, rfl⟩

end AuditWriter

end Turns

section Runs

variable {ι F : Type} [DecidableEq ι] [PyFloat F] {callers : ι → AuditCaller F} {rows₀ added : List (AuditRow F)}
  {p : Pool ι (List (AuditRow F)) (AuditWriter F)}

/-- The rows that the store has made of a process's events. -/
def AuditWriter.rows (w : AuditWriter F) : List (AuditRow F) := w.returned.map fun e => e.row e.toDict

/-- A moment of a run of `callers` that began with `rows₀` and has added other rows. -/
structure AuditKept (callers : ι → AuditCaller F) (rows₀ added : List (AuditRow F))
    (p : Pool ι (List (AuditRow F)) (AuditWriter F)) : Prop where
  shared : p.shared = rows₀ ++ added
  unforked : Unforked p.shared
  fits : ∀ i, (p.task i).Fits p.shared
  runId : ∀ i, (p.task i).runId = (callers i).runId
  counter : ∀ i, (p.task i).counter = (callers i).counter.map (· + (p.task i).returned.length)
  numbered : ∀ i k, (callers i).counter = some k →
    (p.task i).returned.map (·.sequence) = List.range' (k + 1) (p.task i).returned.length
  ownRun : ∀ i, ∀ e ∈ (p.task i).returned, e.runId = (callers i).runId
  rows : ∀ i, List.Sublist (p.task i).rows added
  writer : ∀ row ∈ added, ∃ i, row ∈ (p.task i).rows
  apart : ∀ i j, i ≠ j → ∀ e ∈ (p.task i).returned, ∀ e' ∈ (p.task j).returned, e.eventId ≠ e'.eventId

omit [DecidableEq ι] [PyFloat F] in
theorem recorded_start (h : Unforked rows₀) : AuditKept callers rows₀ [] ⟨rows₀, fun i => (callers i).start⟩ where
  shared := (List.append_nil _).symm
  unforked := h
  fits _ := AuditWriter.fits_next rfl
  runId _ := rfl
  counter i := by
    show (callers i).counter = (callers i).counter.map (· + 0)
    simp
  numbered _ _ _ := rfl
  ownRun _ _ he := nomatch he
  rows _ := List.Sublist.refl _
  writer _ hrow := nomatch hrow
  apart _ _ _ _ he := nomatch he

namespace AuditKept

/-- A statement that stores nothing. -/
theorem same (h : AuditKept callers rows₀ added p) {i : ι} {w : AuditWriter F}
    (hact : AuditWriter.act p.shared (p.task i) = (p.shared, w)) (hfits : w.Fits p.shared)
    (hrun : w.runId = (p.task i).runId) (hcounter : w.counter = (p.task i).counter)
    (hreturned : w.returned = (p.task i).returned) : AuditKept callers rows₀ added (p.turn AuditWriter.act i) := by
  have hshared : (p.turn AuditWriter.act i).shared = p.shared := congrArg Prod.fst hact
  have hself : (p.turn AuditWriter.act i).task i = w := Pool.turn_self.trans (congrArg Prod.snd hact)
  have htask : ∀ j, ((p.turn AuditWriter.act i).task j).returned = (p.task j).returned ∧
      ((p.turn AuditWriter.act i).task j).counter = (p.task j).counter ∧
      ((p.turn AuditWriter.act i).task j).runId = (p.task j).runId := by
    intro j
    by_cases hj : j = i
    · rw [hj, hself]
      exact ⟨hreturned, hcounter, hrun⟩
    · rw [Pool.turn_other hj]
      exact ⟨rfl, rfl, rfl⟩
  constructor
  case shared => rw [hshared]; exact h.shared
  case unforked => rw [hshared]; exact h.unforked
  case fits =>
    intro j
    rw [hshared]
    by_cases hj : j = i
    · rw [hj, hself]
      exact hfits
    · rw [Pool.turn_other hj]
      exact h.fits j
  case runId => exact fun j => (htask j).2.2.trans (h.runId j)
  case counter =>
    intro j
    rw [(htask j).1, (htask j).2.1]
    exact h.counter j
  case numbered =>
    intro j k hk
    rw [(htask j).1]
    exact h.numbered j k hk
  case ownRun =>
    intro j
    rw [(htask j).1]
    exact h.ownRun j
  case rows =>
    intro j
    unfold AuditWriter.rows
    rw [(htask j).1]
    exact h.rows j
  case writer =>
    intro row hrow
    obtain ⟨j, hj⟩ := h.writer row hrow
    refine ⟨j, ?_⟩
    unfold AuditWriter.rows at hj ⊢
    rw [(htask j).1]
    exact hj
  case apart =>
    intro j k hjk
    rw [(htask j).1, (htask k).1]
    exact h.apart j k hjk

/-- A statement that stores the next event of a run. -/
theorem stores (h : AuditKept callers rows₀ added p) {i : ι} {e : AuditRecord F} (hevent : (p.task i).phase.event = some e)
    (hact : AuditWriter.act p.shared (p.task i) = (p.shared ++ [e.row e.toDict], (p.task i).stored e))
    (hid : ∀ r ∈ p.shared, r.eventId ≠ e.eventId)
    (hnext : e.sequence = SqlAuditStore.latest p.shared e.runId + 1) :
    AuditKept callers rows₀ (added ++ [e.row e.toDict]) (p.turn AuditWriter.act i) := by
  have hshared : (p.turn AuditWriter.act i).shared = p.shared ++ [e.row e.toDict] := congrArg Prod.fst hact
  have hself : (AuditWriter.act p.shared (p.task i)).2 = (p.task i).stored e := congrArg Prod.snd hact
  have hrows : ((p.task i).stored e).rows = (p.task i).rows ++ [e.row e.toDict] := by
    unfold AuditWriter.rows
    rw [AuditWriter.returned_stored, List.map_append, List.map_singleton]
  obtain ⟨hrun, hsequence⟩ := (h.fits i).event e hevent
  constructor
  case shared => rw [hshared, h.shared, List.append_assoc]
  case unforked =>
    rw [hshared]
    exact h.unforked.snoc hid hnext
  case fits =>
    rw [hshared]
    refine Pool.turn_forall (fun _ (w : AuditWriter F) => w.Fits _) ?_ fun j _ => (h.fits j).snoc _
    rw [hself]
    exact AuditWriter.fits_next rfl
  case runId =>
    refine Pool.turn_forall (fun j (w : AuditWriter F) => w.runId = (callers j).runId) ?_ fun j _ => h.runId j
    rw [hself]
    exact h.runId i
  case counter =>
    refine Pool.turn_forall (fun j (w : AuditWriter F) => w.counter = (callers j).counter.map (· + w.returned.length)) ?_
      fun j _ => h.counter j
    rw [hself, AuditWriter.returned_stored, List.length_append]
    show (p.task i).counter.map (fun _ => e.sequence) = _
    have hcounter := h.counter i
    cases hk : (callers i).counter with
    | none =>
      rw [hk] at hcounter
      rw [hcounter]
      rfl
    | some k =>
      rw [hk] at hcounter
      rw [hcounter]
      exact congrArg some (hsequence _ hcounter)
  case numbered =>
    refine Pool.turn_forall (fun j (w : AuditWriter F) => ∀ k, (callers j).counter = some k →
      w.returned.map (·.sequence) = List.range' (k + 1) w.returned.length) ?_ fun j _ => h.numbered j
    intro k hk
    have hcounter : (p.task i).counter = some (k + (p.task i).returned.length) := by
      rw [h.counter i, hk]
      rfl
    rw [hself, AuditWriter.returned_stored, List.map_append, h.numbered i k hk, List.length_append,
      List.length_singleton, List.range'_concat, Nat.one_mul, List.map_singleton, hsequence _ hcounter]
    congr 2
    omega
  case ownRun =>
    refine Pool.turn_forall (fun j (w : AuditWriter F) => ∀ e' ∈ w.returned, e'.runId = (callers j).runId) ?_
      fun j _ => h.ownRun j
    rw [hself, AuditWriter.returned_stored]
    intro e' he'
    rcases List.mem_append.mp he' with hold | hnew
    · exact h.ownRun i e' hold
    · rw [List.mem_singleton.mp hnew, hrun]
      exact h.runId i
  case rows =>
    refine Pool.turn_forall (fun _ (w : AuditWriter F) => List.Sublist w.rows (added ++ [e.row e.toDict])) ?_ fun j _ =>
      (h.rows j).trans (List.sublist_append_left _ _)
    rw [hself, hrows]
    exact (h.rows i).append (List.Sublist.refl _)
  case writer =>
    have hgrown : ∀ j, ∀ row ∈ (p.task j).rows, row ∈ ((p.turn AuditWriter.act i).task j).rows := by
      refine Pool.turn_forall (fun j (w : AuditWriter F) => ∀ row ∈ (p.task j).rows, row ∈ w.rows) ?_
        fun _ _ _ hrow => hrow
      rw [hself, hrows]
      exact fun _ hrow => List.mem_append_left _ hrow
    intro row hrow
    rcases List.mem_append.mp hrow with hold | hnew
    · obtain ⟨j, hj⟩ := h.writer row hold
      exact ⟨j, hgrown j row hj⟩
    · refine ⟨i, ?_⟩
      rw [Pool.turn_self, hself, hrows]
      exact List.mem_append_right _ hnew
  case apart =>
    refine Pool.turn_pair (D := fun w w' : AuditWriter F => ∀ e₁ ∈ w.returned, ∀ e₂ ∈ w'.returned, e₁.eventId ≠ e₂.eventId)
      (fun _ _ hD e₁ he₁ e₂ he₂ => (hD e₂ he₂ e₁ he₁).symm) h.apart ?_
    intro k hk e₁ he₁ e₂ he₂
    rw [hself, AuditWriter.returned_stored] at he₁
    rcases List.mem_append.mp he₁ with hold | hnew
    · exact h.apart i k (Ne.symm hk) e₁ hold e₂ he₂
    · rw [List.mem_singleton.mp hnew]
      have hrow : e₂.row e₂.toDict ∈ p.shared := by
        rw [h.shared]
        exact List.mem_append_right _ ((h.rows k).subset (List.mem_map_of_mem he₂))
      exact (hid _ hrow).symm

theorem turn (h : AuditKept callers rows₀ added p) (i : ι) :
    ∃ added', AuditKept callers rows₀ added' (p.turn AuditWriter.act i) := by
  rcases AuditWriter.act_cases (h.fits i) with hact | ⟨error, hact⟩ | ⟨phase, hact, hfits⟩ |
    ⟨e, hevent, hact, hfree, hpos, hle⟩
  · exact ⟨added, h.same hact (h.fits i) rfl rfl rfl⟩
  · exact ⟨added, h.same hact (AuditWriter.fits_next rfl) rfl rfl (AuditWriter.returned_raised error)⟩
  · exact ⟨added, h.same hact hfits rfl rfl rfl⟩
  · have hnext : (e.row e.toDict).sequence = SqlAuditStore.latest p.shared (e.row e.toDict).runId + 1 :=
      h.unforked.next_sequence hpos hle fun r hr => (hfree r hr).2
    exact ⟨_, h.stores hevent hact (fun r hr => (hfree r hr).1) hnext⟩

theorem run (schedule : List ι) (h : AuditKept callers rows₀ added p) :
    ∃ added', AuditKept callers rows₀ added' (p.run AuditWriter.act schedule) :=
  Pool.run_keeps (I := fun p => ∃ added, AuditKept callers rows₀ added p) (fun _ i ⟨_, hp⟩ => hp.turn i) schedule ⟨_, h⟩

/-- A process that numbers its own events stores none behind another one's event. -/
theorem behind (h : AuditKept callers rows₀ added p) {i : ι} {n : Nat} (hcounter : (p.task i).counter = some n)
    (hbehind : n < SqlAuditStore.latest p.shared (callers i).runId) (j : ι) :
    ((p.turn AuditWriter.act j).task i).returned = (p.task i).returned ∧
      ((p.turn AuditWriter.act j).task i).counter = some n := by
  by_cases hj : i = j
  · rw [← hj, Pool.turn_self]
    rcases AuditWriter.act_cases (h.fits i) with hact | ⟨error, hact⟩ | ⟨phase, hact, -⟩ |
      ⟨e, hevent, -, hfree, hpos, hle⟩
    · rw [hact]
      exact ⟨rfl, hcounter⟩
    · rw [hact]
      exact ⟨AuditWriter.returned_raised error, hcounter⟩
    · rw [hact]
      exact ⟨rfl, hcounter⟩
    · exfalso
      obtain ⟨hrun, hsequence⟩ := (h.fits i).event e hevent
      have hnext : (e.row e.toDict).sequence = SqlAuditStore.latest p.shared (e.row e.toDict).runId + 1 :=
        h.unforked.next_sequence hpos hle fun r hr => (hfree r hr).2
      have hn := hsequence n hcounter
      have hlatest : e.sequence = SqlAuditStore.latest p.shared (callers i).runId + 1 := by
        rw [← h.runId i, ← hrun]
        exact hnext
      omega
  · rw [Pool.turn_other hj]
    exact ⟨rfl, hcounter⟩

/-- The table only grows. -/
theorem latest_turn (h : AuditKept callers rows₀ added p) (i : ι) (runId : Str) :
    SqlAuditStore.latest p.shared runId ≤ SqlAuditStore.latest (p.turn AuditWriter.act i).shared runId := by
  show _ ≤ SqlAuditStore.latest (AuditWriter.act p.shared (p.task i)).1 runId
  rcases AuditWriter.act_cases (h.fits i) with hact | ⟨error, hact⟩ | ⟨phase, hact, -⟩ | ⟨e, -, hact, -⟩
  · rw [hact]
  · rw [hact]
  · rw [hact]
  · rw [hact]
    exact latest_snoc _ _ _

theorem stays_behind (schedule : List ι) (h : AuditKept callers rows₀ added p) {i : ι} {n : Nat}
    (hcounter : (p.task i).counter = some n) (hbehind : n < SqlAuditStore.latest p.shared (callers i).runId) :
    ((p.run AuditWriter.act schedule).task i).returned = (p.task i).returned := by
  induction schedule generalizing p added with
  | nil => rfl
  | cons j rest ih =>
    obtain ⟨added', hturn⟩ := h.turn j
    obtain ⟨hreturned, hcounter'⟩ := h.behind hcounter hbehind j
    have hlatest := h.latest_turn j (callers i).runId
    exact (ih hturn hcounter' (by omega)).trans hreturned

omit [DecidableEq ι] [PyFloat F] in
/-- The events of another process that were numbered after the start stand behind all that a process has numbered itself. -/
theorem passed (h : AuditKept callers rows₀ added p) {i j : ι} (hne : i ≠ j) {k : Nat} (hk : (callers i).counter = some k)
    {e : AuditRecord F} (he : e ∈ (p.task j).returned) (hrun : e.runId = (callers i).runId) (hlate : k < e.sequence) :
    k + (p.task i).returned.length < e.sequence := by
  by_contra hle
  have hmem : e.sequence ∈ (p.task i).returned.map (·.sequence) := by
    rw [h.numbered i k hk, List.mem_range'_1]
    omega
  obtain ⟨e', he', hsequence⟩ := List.mem_map.mp hmem
  have hin : ∀ {l : ι} {d : AuditRecord F}, d ∈ (p.task l).returned → d.row d.toDict ∈ p.shared := by
    intro l d hd
    rw [h.shared]
    exact List.mem_append_right _ ((h.rows l).subset (List.mem_map_of_mem hd))
  have hrow := h.unforked.row_eq (hin he') (hin he) ((h.ownRun i e' he').trans hrun.symm) hsequence
  exact h.apart i j hne e' he' e he (congrArg AuditRow.eventId hrow)

end AuditKept

/-- Whatever the order of their statements and the outages of the database, the processes leave every run with one log:
they only add rows, one for each event whose `append` returned, in the order of its process. -/
theorem audit_unforked (callers : ι → AuditCaller F) {rows₀ : List (AuditRow F)} (h : Unforked rows₀) (schedule : List ι) :
    let p := Pool.run AuditWriter.act ⟨rows₀, fun i => (callers i).start⟩ schedule
    ∃ added, p.shared = rows₀ ++ added ∧ Unforked p.shared ∧ (∀ i, List.Sublist (p.task i).rows added) ∧
      ∀ row ∈ added, ∃! i, row ∈ (p.task i).rows := by
  intro p
  obtain ⟨added, hp⟩ : ∃ added, AuditKept callers rows₀ added p := (recorded_start h).run schedule
  refine ⟨added, hp.shared, hp.unforked, hp.rows, fun row hrow => ?_⟩
  obtain ⟨i, hi⟩ := hp.writer row hrow
  refine ⟨i, hi, fun j hj => ?_⟩
  by_contra hne
  obtain ⟨e, he, hrow⟩ := List.mem_map.mp hi
  obtain ⟨e', he', hrow'⟩ := List.mem_map.mp hj
  exact hp.apart j i hne e' he' e he (congrArg AuditRow.eventId (hrow'.trans hrow.symm))

/-- Once another process has appended an event to the run of an emitter, the emitter appends nothing any more, and all that
it has appended stands before that event. -/
theorem emitter_fenced (callers : ι → AuditCaller F) {rows₀ : List (AuditRow F)} (h : Unforked rows₀)
    (before after : List ι) {i j : ι} (hne : i ≠ j) {k : Nat} (hk : (callers i).counter = some k) {e : AuditRecord F}
    (he : e ∈ ((Pool.run AuditWriter.act ⟨rows₀, fun i => (callers i).start⟩ before).task j).returned)
    (hrun : e.runId = (callers i).runId) (hlate : k < e.sequence) :
    let p := Pool.run AuditWriter.act ⟨rows₀, fun i => (callers i).start⟩ before
    let q := Pool.run AuditWriter.act ⟨rows₀, fun i => (callers i).start⟩ (before ++ after)
    (q.task i).returned = (p.task i).returned ∧ ∀ e' ∈ (q.task i).returned, e'.sequence < e.sequence := by
  intro p q
  obtain ⟨added, hp⟩ : ∃ added, AuditKept callers rows₀ added p := (recorded_start h).run before
  have hpassed := hp.passed hne hk he hrun hlate
  have hcounter : (p.task i).counter = some (k + (p.task i).returned.length) := by
    rw [hp.counter i, hk]
    rfl
  have hrow : e.row e.toDict ∈ p.shared := by
    rw [hp.shared]
    exact List.mem_append_right _ ((hp.rows j).subset (List.mem_map_of_mem he))
  have hlatest : e.sequence ≤ SqlAuditStore.latest p.shared (callers i).runId := by
    rw [← hrun]
    exact (hp.unforked.sequence_le hrow).2
  have hreturned : (q.task i).returned = (p.task i).returned := by
    have hq : q = p.run AuditWriter.act after := Pool.run_append before after _
    rw [hq]
    exact hp.stays_behind after hcounter (by omega)
  refine ⟨hreturned, fun e' he' => ?_⟩
  rw [hreturned] at he'
  have hmem : e'.sequence ∈ (p.task i).returned.map (·.sequence) := List.mem_map_of_mem he'
  rw [hp.numbered i k hk, List.mem_range'_1] at hmem
  omega

end Runs

section Samples

/-- A worker that goes on with its run, and another one that records the end of the first one's lease. -/
def sampleCallers (i : Fin 2) : AuditCaller Unit where
  runId := "run-1".toList
  counter := if i = 0 then some 0 else none
  drafts := if i = 0 then [sampleRecord "e1" 0, sampleRecord "e2" 0, sampleRecord "e3" 0] else [sampleRecord "x1" 0]
  outages _ := none

/-- The first worker is about to insert its second event when the other one does. -/
def sampleOrder : List (Fin 2) := [0, 0, 0, 0, 0, 1, 0, 1, 1, 0, 1]

def sampleRace (order : List (Fin 2)) : Pool (Fin 2) (List (AuditRow Unit)) (AuditWriter Unit) :=
  Pool.run (@AuditWriter.act Unit noFloats) ⟨[], fun i => (sampleCallers i).start⟩ order

theorem sampleRace_unforked : ∃ added, (sampleRace (sampleOrder ++ [0, 0, 0, 0])).shared = [] ++ added ∧
    Unforked (sampleRace (sampleOrder ++ [0, 0, 0, 0])).shared ∧
    (∀ i, List.Sublist ((sampleRace (sampleOrder ++ [0, 0, 0, 0])).task i).rows added) ∧
    ∀ row ∈ added, ∃! i, row ∈ ((sampleRace (sampleOrder ++ [0, 0, 0, 0])).task i).rows :=
  @audit_unforked (Fin 2) Unit _ noFloats sampleCallers [] Unforked.nil (sampleOrder ++ [0, 0, 0, 0])

theorem sampleRace_fenced : ((sampleRace (sampleOrder ++ [0, 0, 0, 0])).task 0).returned =
      ((sampleRace sampleOrder).task 0).returned ∧
    ∀ e ∈ ((sampleRace (sampleOrder ++ [0, 0, 0, 0])).task 0).returned, e.sequence < 2 := by
  have hexpiry : ((sampleRace sampleOrder).task 1).returned.map (fun e => (e.runId, e.sequence)) =
      [("run-1".toList, 2)] := by decide +kernel
  obtain ⟨e, hreturned, hevent⟩ := List.map_eq_singleton_iff.mp hexpiry
  obtain ⟨hrun, hsequence⟩ := Prod.mk.inj hevent
  have he : e ∈ ((sampleRace sampleOrder).task 1).returned := by
    rw [hreturned]
    exact List.mem_singleton_self e
  obtain ⟨hsame, hbefore⟩ := @emitter_fenced (Fin 2) Unit _ noFloats sampleCallers [] Unforked.nil sampleOrder
    [0, 0, 0, 0] 0 1 (by decide) 0 rfl e he hrun (by omega)
  exact ⟨hsame, fun e' he' => hsequence ▸ hbefore e' he'⟩

end Samples

end FailureOrchestrator
