import FailureOrchestrator.Exec
import FailureOrchestrator.TaskIdempotency

namespace FailureOrchestrator

namespace CompletionLedger

variable {T : Type}

/-- The owner has a claim that is not completed. -/
def Held (s : CompletionLedger) (key owner : Str) : Prop :=
  ∃ row, s.rows key = some row ∧ row.status = .started ∧ row.owner = some owner

/-- The started row of another claim gives way: its lease has run out, or the claimant owns it. -/
def Yields (s : CompletionLedger) (key owner : Str) (now : ℚ) : Prop :=
  ∃ row, s.rows key = some row ∧ row.status = .started ∧ ¬ (now < row.leaseUntil ∧ row.owner ≠ some owner)

instance (s : CompletionLedger) (key owner : Str) (now : ℚ) : Decidable (s.Yields key owner now) :=
  match h : s.rows key with
  | none => isFalse fun ⟨_, hrow, _⟩ => nomatch hrow.symm.trans h
  | some row =>
    decidable_of_iff (row.status = .started ∧ ¬ (now < row.leaseUntil ∧ row.owner ≠ some owner))
      ⟨fun hrow => ⟨row, h, hrow⟩, fun ⟨_, hrow, hyields⟩ => Option.some.inj (hrow.symm.trans h) ▸ hyields⟩

/-- A completed row stores the text of a result. -/
def Stores (s : CompletionLedger) (key text : Str) : Prop :=
  ∃ row, s.rows key = some row ∧ row.status = .completed ∧ row.resultJson = some text

structure Sound (s : CompletionLedger) : Prop where
  once : ∀ key, s.effects.count key ≤ 1
  untouched : ∀ key, s.rows key = none → s.effects.count key = 0
  result : ∀ key row, s.rows key = some row → row.status = .completed → row.resultJson.isSome = true

end CompletionLedger

section Contract

variable {T : Type} [JsonResult T]

/-- An executed call returns what its text in the ledger was written from, and a replay what that text reads as. -/
def DeliveryOutcome.Carried (s : CompletionLedger) (o : DeliveryOutcome T) : Prop :=
  ∃ text, s.Stores o.idempotencyKey text ∧
    if o.executed = true then JsonResult.dumps o.result = .ok text else JsonResult.loads text = .ok o.result

namespace Delivery

/-- The number of the claim under which a call works. -/
def claim (t : Delivery T) : Option Nat :=
  match t.phase with
  | .running n | .completing n _ => some n
  | _ => none

def Knows (s : CompletionLedger) (t : Delivery T) : Prop :=
  match t.phase with
  | .running n =>
    n ≤ s.claims t.key ∧ (n = s.claims t.key → s.effects.count t.key = 0 ∧ s.Held t.key t.workerId)
  | .completing n _ => n = s.claims t.key ∧ s.effects.count t.key = 1 ∧ s.Held t.key t.workerId
  | .reading result => ∃ text, s.Stores t.key text ∧ JsonResult.dumps result = .ok text
  | .finished (.ok o) => o.idempotencyKey = t.key ∧ o.Carried s
  | _ => True

/-- Two calls for one key work under different claims. -/
def Apart (t u : Delivery T) : Prop := t.key = u.key → ∀ n, t.claim = some n → u.claim ≠ some n

/-- A claim is taken over only before the side effect of the key has returned, and a side effect returns only under the
last claim of its key. -/
def Timely (s : CompletionLedger) (t : Delivery T) : Prop :=
  match t.phase with
  | .claiming => s.Yields t.key t.workerId t.claimedAt → t.key ∉ s.effects
  | .running n => t.sideEffect.isOk = true → n = s.claims t.key
  | _ => True

instance (s : CompletionLedger) : (t : Delivery T) → Decidable (t.Timely s)
  | ⟨key, workerId, _, _, claimedAt, _, _, .claiming⟩ =>
    inferInstanceAs (Decidable (s.Yields key workerId claimedAt → key ∉ s.effects))
  | ⟨key, _, _, sideEffect, _, _, _, .running n⟩ =>
    inferInstanceAs (Decidable (sideEffect.isOk = true → n = s.claims key))
  | ⟨_, _, _, _, _, _, _, .start⟩ | ⟨_, _, _, _, _, _, _, .completing ..⟩ | ⟨_, _, _, _, _, _, _, .reading _⟩
  | ⟨_, _, _, _, _, _, _, .releasing _⟩ | ⟨_, _, _, _, _, _, _, .finished _⟩ => isTrue trivial

/-- What one step of a call can do. -/
inductive Moves (s : CompletionLedger) (t : Delivery T) : CompletionLedger → Delivery T → Prop
  | stays : (∃ o, t.phase = .finished o) → Moves s t s t
  | raises (e : DeliveryError) : Moves s t s (t.raised e)
  | misses : t.phase = .start → Moves s t s (t.goto .claiming)
  | replays (row : CompletionRow) (record : CompletionRecord T) : s.rows t.key = some row → row.status = .completed →
      CompletionLedger.rowToRecord t.key row = .ok record → Moves s t s (t.replay record)
  | claims (row : CompletionRow) : t.phase = .claiming → row.status = .started → row.owner = some t.workerId →
      (s.rows t.key = none ∨ s.Yields t.key t.workerId t.claimedAt) →
      Moves s t (s.claim t.key row) (t.goto (.running (s.claims t.key + 1)))
  | fails (n : Nat) (message : Str) : t.phase = .running n → Moves s t s (t.goto (.releasing message))
  | takesEffect (n : Nat) (result : T) : t.phase = .running n → t.sideEffect = .ok result →
      Moves s t { s with effects := t.key :: s.effects } (t.goto (.completing n result))
  | loses (n : Nat) (result : T) (row : CompletionRow) : t.phase = .completing n result → s.rows t.key = some row →
      row.status = .completed → Moves s t s (t.execute result)
  | completes (n : Nat) (result : T) (row row' : CompletionRow) (text : Str) : t.phase = .completing n result →
      s.rows t.key = some row → JsonResult.dumps result = .ok text → row'.status = .completed →
      row'.resultJson = some text → Moves s t (s.set t.key row') (t.goto (.reading result))
  | returns (result : T) : t.phase = .reading result → Moves s t s (t.execute result)
  | releases (message : Str) (row : CompletionRow) (leaseUntil : ℚ) : s.rows t.key = some row → row.status = .started →
      Moves s t (s.set t.key { row with leaseUntil }) (t.raised (.sideEffect message))

end Delivery

end Contract

section Facts

variable {T : Type} [JsonResult T] {s s' : CompletionLedger} {t u : Delivery T}

theorem rowToRecord_status {key : Str} {row : CompletionRow} {record : CompletionRecord T}
    (h : CompletionLedger.rowToRecord key row = .ok record) : record.status = row.status ∧ record.owner = row.owner ∧
      record.leaseUntil = row.leaseUntil := by
  obtain ⟨result, -, hrecord⟩ := ok_of_map h
  cases hrecord
  exact ⟨rfl, rfl, rfl⟩

theorem rowToRecord_result {key text : Str} {row : CompletionRow} {record : CompletionRecord T}
    (h : CompletionLedger.rowToRecord key row = .ok record) (htext : row.resultJson = some text) :
    JsonResult.loads text = .ok record.result := by
  obtain ⟨result, hresult, hrecord⟩ := ok_of_map h
  cases hrecord
  unfold CompletionLedger.storedResult at hresult
  rw [htext] at hresult
  dsimp only at hresult
  cases hload : (JsonResult.loads text : Except PyError T) with
  | error e =>
    rw [hload] at hresult
    cases hresult
  | ok value =>
    rw [hload] at hresult
    cases hresult
    rfl

theorem getCompleted_some {key : Str} {record : CompletionRecord T} (h : s.getCompleted key = .ok (some record)) :
    ∃ row, s.rows key = some row ∧ row.status = .completed ∧ CompletionLedger.rowToRecord key row = .ok record := by
  obtain ⟨found, hget, hfound⟩ := bind_eq_ok h
  cases found with
  | none => cases hfound
  | some r =>
    unfold CompletionLedger.get at hget
    split at hget
    next => cases hget
    next row hrow =>
      obtain ⟨r', hr', heq⟩ := ok_of_map hget
      cases heq
      have hsome : (if r.status ≠ .completed then none else some r) = some record := Except.ok.inj hfound
      split at hsome
      next => cases hsome
      next hstatus =>
        cases hsome
        exact ⟨row, hrow, (rowToRecord_status hr').1.symm.trans (not_not.mp hstatus), hr'⟩

/-- A claim writes a started row over none or over one that gives way, and otherwise nothing. -/
theorem tryClaim_cases (s : CompletionLedger) (t : Delivery T) :
    (∃ e, s.tryClaim (T := T) t.key t.workerId t.leaseSeconds t.claimedAt = (.error e, s)) ∨
    s.tryClaim (T := T) t.key t.workerId t.leaseSeconds t.claimedAt = (.ok none, s) ∨
    (∃ row record, s.rows t.key = some row ∧ row.status = .completed ∧
      CompletionLedger.rowToRecord t.key row = .ok record ∧
      s.tryClaim (T := T) t.key t.workerId t.leaseSeconds t.claimedAt = (.ok (some record), s)) ∨
    ∃ row record, (s.rows t.key = none ∨ s.Yields t.key t.workerId t.claimedAt) ∧ row.status = .started ∧
      row.owner = some t.workerId ∧ record.status = .started ∧
      s.tryClaim (T := T) t.key t.workerId t.leaseSeconds t.claimedAt = (.ok (some record), s.claim t.key row) := by
  unfold CompletionLedger.tryClaim
  split
  next hnone => exact .inr (.inr (.inr ⟨_, _, .inl hnone, rfl, rfl, rfl, rfl⟩))
  next row hrow =>
    split
    next e herror => exact .inl ⟨e, rfl⟩
    next record hrecord =>
      obtain ⟨hstatus, howner, hlease⟩ := rowToRecord_status hrecord
      rw [hstatus, howner, hlease]
      split
      next hcompleted => exact .inr (.inr (.inl ⟨row, record, hrow, hcompleted, hrecord, rfl⟩))
      next hopen =>
        have hstarted : row.status = .started := by
          cases hrowStatus : row.status with
          | started => rfl
          | completed => exact absurd hrowStatus hopen
        split
        next => exact .inr (.inl rfl)
        next hyields =>
          exact .inr (.inr (.inr ⟨_, _, .inr ⟨row, hrow, hstarted, hyields⟩, rfl, rfl, rfl, rfl⟩))

/-- A call that works under no claim knows at most that its row is completed. -/
theorem Delivery.Knows.completed (h : u.Knows s) (hclaim : u.claim = none) :
    (∃ row, s.rows u.key = some row ∧ row.status = .completed) ∨ ∀ s', u.Knows s' := by
  unfold Delivery.Knows at h ⊢
  unfold Delivery.claim at hclaim
  cases hphase : u.phase with
  | running n =>
    rw [hphase] at hclaim
    cases hclaim
  | completing n result =>
    rw [hphase] at hclaim
    cases hclaim
  | reading result =>
    rw [hphase] at h
    obtain ⟨text, ⟨row, hrow, hstatus, -⟩, -⟩ := h
    exact .inl ⟨row, hrow, hstatus⟩
  | finished outcome =>
    rw [hphase] at h
    cases outcome with
    | error e => exact .inr fun _ => trivial
    | ok o =>
      obtain ⟨hkey, text, ⟨row, hrow, hstatus, -⟩, -⟩ := h
      rw [hkey] at hrow
      exact .inl ⟨row, hrow, hstatus⟩
  | start => exact .inr fun _ => trivial
  | claiming => exact .inr fun _ => trivial
  | releasing message => exact .inr fun _ => trivial

theorem Delivery.Knows.claim_le (h : u.Knows s) {m : Nat} (hclaim : u.claim = some m) : m ≤ s.claims u.key := by
  unfold Delivery.Knows at h
  unfold Delivery.claim at hclaim
  split at hclaim
  next n hphase =>
    cases hclaim
    rw [hphase] at h
    exact h.1
  next n result hphase =>
    cases hclaim
    rw [hphase] at h
    exact h.1.le
  next => cases hclaim

omit [JsonResult T] in
theorem Delivery.claim_running (t : Delivery T) {n : Nat} (hphase : t.phase = .running n) : t.claim = some n := by
  unfold Delivery.claim
  rw [hphase]

omit [JsonResult T] in
theorem Delivery.claim_completing (t : Delivery T) {n : Nat} {result : T} (hphase : t.phase = .completing n result) :
    t.claim = some n := by
  unfold Delivery.claim
  rw [hphase]

/-- Next to a call under the last claim of a key, another one works under an older claim. -/
theorem Delivery.Knows.claim_lt (hother : u.Knows s) (hapart : t.Apart u) (hkey : u.key = t.key) {n m : Nat}
    (hlast : n = s.claims t.key) (hn : t.claim = some n) (hm : u.claim = some m) : m < s.claims u.key := by
  have hle := hother.claim_le hm
  have hne : m ≠ n := by
    intro hmn
    exact hapart hkey.symm n hn (hmn ▸ hm)
  rw [hkey, ← hlast] at hle ⊢
  omega

/-- An old claim knows nothing of the row. -/
theorem Delivery.Knows.overtaken (h : u.Knows s) {m : Nat} (hclaim : u.claim = some m)
    (hold : s.effects.count u.key = 0 ∨ m ≠ s.claims u.key) (hlt : m < s'.claims u.key) : u.Knows s' := by
  unfold Delivery.Knows at h ⊢
  unfold Delivery.claim at hclaim
  split at hclaim
  next n hphase =>
    cases hclaim
    rw [hphase]
    exact ⟨hlt.le, fun hm => absurd hm hlt.ne⟩
  next n result hphase =>
    cases hclaim
    rw [hphase] at h
    obtain ⟨hlast, hcount, -⟩ := h
    rcases hold with hnone | hne
    · rw [hnone] at hcount
      cases hcount
    · exact absurd hlast hne
  next => cases hclaim

/-- A call keeps what it knows when the row of its key keeps its status, its owner and its result. -/
theorem Delivery.Knows.kept (h : u.Knows s)
    (hrow : ∀ row, s.rows u.key = some row → ∃ row', s'.rows u.key = some row' ∧ row'.status = row.status ∧
      row'.owner = row.owner ∧ row'.resultJson = row.resultJson)
    (hclaims : s'.claims u.key = s.claims u.key) (heffects : s'.effects.count u.key = s.effects.count u.key) :
    u.Knows s' := by
  have hheld : s.Held u.key u.workerId → s'.Held u.key u.workerId := by
    rintro ⟨row, hr, hstatus, howner⟩
    obtain ⟨row', hr', hstatus', howner', -⟩ := hrow row hr
    exact ⟨row', hr', hstatus'.trans hstatus, howner'.trans howner⟩
  have hstores : ∀ {text}, s.Stores u.key text → s'.Stores u.key text := by
    rintro text ⟨row, hr, hstatus, htext⟩
    obtain ⟨row', hr', hstatus', -, htext'⟩ := hrow row hr
    exact ⟨row', hr', hstatus'.trans hstatus, htext'.trans htext⟩
  unfold Delivery.Knows at h ⊢
  cases hphase : u.phase with
  | running n =>
    rw [hphase] at h
    rw [hclaims, heffects]
    exact ⟨h.1, fun hn => ⟨(h.2 hn).1, hheld (h.2 hn).2⟩⟩
  | completing n result =>
    rw [hphase] at h
    rw [hclaims, heffects]
    exact ⟨h.1, h.2.1, hheld h.2.2⟩
  | reading result =>
    rw [hphase] at h
    obtain ⟨text, htext, hdumps⟩ := h
    exact ⟨text, hstores htext, hdumps⟩
  | finished outcome =>
    rw [hphase] at h
    cases outcome with
    | error e => trivial
    | ok o =>
      obtain ⟨hkey, text, htext, hresult⟩ := h
      rw [hkey] at htext
      refine ⟨hkey, text, ?_, hresult⟩
      rw [hkey]
      exact hstores htext
  | start => trivial
  | claiming => trivial
  | releasing message => trivial

theorem CompletionLedger.rows_set (s : CompletionLedger) (key : Str) (row : CompletionRow) :
    (s.set key row).rows key = some row :=
  Function.update_self ..

theorem CompletionLedger.rows_set_of_ne (s : CompletionLedger) {key key' : Str} (row : CompletionRow) (h : key' ≠ key) :
    (s.set key row).rows key' = s.rows key' :=
  Function.update_of_ne h ..

/-- The holder of a key sees an open row. -/
theorem CompletionLedger.Held.open_ {key owner : Str} {row : CompletionRow} (h : s.Held key owner)
    (hrow : s.rows key = some row) : row.status ≠ .completed := by
  obtain ⟨row', hrow', hstatus, -⟩ := h
  cases hrow.symm.trans hrow'
  rw [hstatus]
  decide

omit [JsonResult T] in
theorem Delivery.phase_of_outcome {o : DeliveryOutcome T} (h : t.outcome = some o) : t.phase = .finished (.ok o) := by
  unfold Delivery.outcome at h
  split at h
  next o' hphase =>
    cases h
    exact hphase
  next => cases h

theorem Delivery.Knows.completing (h : t.Knows s) {n : Nat} {result : T} (hphase : t.phase = .completing n result) :
    n = s.claims t.key ∧ s.effects.count t.key = 1 ∧ s.Held t.key t.workerId := by
  unfold Delivery.Knows at h
  rw [hphase] at h
  exact h

/-- A side effect that returns in time is the first one of its key. -/
theorem Delivery.Knows.effect (h : t.Knows s) (hc : t.Timely s) {n : Nat} {result : T} (hphase : t.phase = .running n)
    (hresult : t.sideEffect = .ok result) : n = s.claims t.key ∧ s.effects.count t.key = 0 ∧ s.Held t.key t.workerId := by
  unfold Delivery.Knows at h
  unfold Delivery.Timely at hc
  rw [hphase] at h hc
  have hn : n = s.claims t.key := hc (by rw [hresult]; rfl)
  exact ⟨hn, h.2 hn⟩

omit [JsonResult T] in
/-- A key that is claimed in time has seen no side effect. -/
theorem CompletionLedger.Sound.free (h : s.Sound) (hc : t.Timely s) (hphase : t.phase = .claiming)
    (hfree : s.rows t.key = none ∨ s.Yields t.key t.workerId t.claimedAt) : s.effects.count t.key = 0 := by
  rcases hfree with hnone | hyields
  · exact h.untouched t.key hnone
  · unfold Delivery.Timely at hc
    rw [hphase] at hc
    exact List.count_eq_zero.mpr (hc hyields)

theorem CompletionLedger.free_open {owner : Str} {now : ℚ} {key : Str}
    (hfree : s.rows key = none ∨ s.Yields key owner now) {row : CompletionRow} (hrow : s.rows key = some row) :
    row.status ≠ .completed := by
  rcases hfree with hnone | ⟨row', hrow', hstatus, -⟩
  · cases hnone.symm.trans hrow
  · cases hrow.symm.trans hrow'
    rw [hstatus]
    decide

/-- A row that is replaced by another one keeps the ledger sound. -/
theorem CompletionLedger.Sound.set (h : s.Sound) {key : Str} {row : CompletionRow}
    (hresult : row.status = .completed → row.resultJson.isSome = true) : (s.set key row).Sound where
  once := h.once
  untouched key' hnone := by
    by_cases hkey : key' = key
    · rw [hkey, s.rows_set] at hnone
      cases hnone
    · rw [s.rows_set_of_ne row hkey] at hnone
      exact h.untouched key' hnone
  result key' row' hrow' hstatus := by
    by_cases hkey : key' = key
    · rw [hkey, s.rows_set] at hrow'
      cases hrow'
      exact hresult hstatus
    · rw [s.rows_set_of_ne row hkey] at hrow'
      exact h.result key' row' hrow' hstatus

end Facts

section Steps

variable {T : Type} [UnicodeData] [JsonResult T] {s : CompletionLedger} {t u : Delivery T}

theorem complete_cases (s : CompletionLedger) (t : Delivery T) (result : T) :
    (∃ e, s.complete t.key result t.workerId t.completedAt = (.error e, s)) ∨
    (∃ row record, s.rows t.key = some row ∧ row.status = .completed ∧
      s.complete t.key result t.workerId t.completedAt = (.ok (some record), s)) ∨
    ∃ row row' text, s.rows t.key = some row ∧ JsonResult.dumps result = .ok text ∧ row'.status = .completed ∧
      row'.resultJson = some text ∧
      s.complete t.key result t.workerId t.completedAt = (.ok none, s.set t.key row') := by
  unfold CompletionLedger.complete
  split
  next => exact .inl ⟨_, rfl⟩
  next text htext =>
    split
    next => exact .inl ⟨_, rfl⟩
    next row hrow =>
      split
      next => exact .inl ⟨_, rfl⟩
      next record hrecord =>
        split
        next hstatus => exact .inr (.inl ⟨row, record, hrow, (rowToRecord_status hrecord).1.symm.trans hstatus, rfl⟩)
        next =>
          split
          next => exact .inl ⟨_, rfl⟩
          next => exact .inr (.inr ⟨row, _, text, hrow, htext, rfl, rfl, rfl⟩)

theorem Delivery.act_moves (s : CompletionLedger) (t : Delivery T) : t.Moves s (t.act s).1 (t.act s).2 := by
  unfold Delivery.act
  cases hphase : t.phase with
  | start =>
    dsimp only
    split
    · exact .raises _
    · split
      next e _ => exact .raises e
      next existing hexisting =>
        obtain ⟨row, hrow, hstatus, hrecord⟩ := getCompleted_some hexisting
        exact .replays row existing hrow hstatus hrecord
      next => exact .misses hphase
  | claiming =>
    dsimp only
    rcases tryClaim_cases s t with ⟨e, h⟩ | h | ⟨row, record, hrow, hstatus, hrecord, h⟩ |
      ⟨row, record, hfree, hstatus, howner, hstarted, h⟩
    · rw [h]
      exact .raises e
    · rw [h]
      exact .raises _
    · rw [h]
      dsimp only
      rw [if_pos ((rowToRecord_status hrecord).1.trans hstatus)]
      exact .replays row record hrow hstatus hrecord
    · rw [h]
      dsimp only
      rw [hstarted, if_neg (by decide), show (s.claim t.key row).claims t.key = s.claims t.key + 1 from
        Function.update_self ..]
      exact .claims row hphase hstatus howner hfree
  | running n =>
    dsimp only
    split
    next message _ => exact .fails n message hphase
    next result hresult => exact .takesEffect n result hphase hresult
  | completing n result =>
    dsimp only
    rcases complete_cases s t result with ⟨e, h⟩ | ⟨row, record, hrow, hstatus, h⟩ |
      ⟨row, row', text, hrow, htext, hstatus, hjson, h⟩
    · rw [h]
      exact .raises e
    · rw [h]
      exact .loses n result row hphase hrow hstatus
    · rw [h]
      exact .completes n result row row' text hphase hrow htext hstatus hjson
  | reading result =>
    dsimp only
    split
    next e _ => exact .raises e
    next => exact .raises _
    next => exact .returns result hphase
  | releasing message =>
    dsimp only
    unfold CompletionLedger.release
    split
    next => exact .raises _
    next row hrow =>
      split
      next hheld => exact .releases message row _ hrow hheld.2
      next => exact .raises _
  | finished o => exact .stays ⟨o, hphase⟩

theorem Delivery.act_sound (hs : s.Sound) (hknows : t.Knows s) (hc : t.Timely s) : (t.act s).1.Sound := by
  have hmoves := t.act_moves s
  generalize (t.act s).1 = s', (t.act s).2 = t' at hmoves
  cases hmoves with
  | stays | raises | misses | replays | fails | loses | returns => exact hs
  | claims row hphase hstatus howner hfree =>
    have hset := @CompletionLedger.Sound.set s hs t.key row fun h => by
      rw [hstatus] at h
      cases h
    exact ⟨hset.once, hset.untouched, hset.result⟩
  | takesEffect n result hphase hresult =>
    obtain ⟨-, hnone, row, hrow, -⟩ := hknows.effect hc hphase hresult
    refine ⟨fun key => ?_, fun key hkey => ?_, hs.result⟩
    · show (t.key :: s.effects).count key ≤ 1
      rw [List.count_cons]
      by_cases hsame : t.key = key
      · rw [← hsame, hnone, if_pos BEq.rfl]
      · rw [if_neg (by simpa using hsame)]
        exact hs.once key
    · show (t.key :: s.effects).count key = 0
      rw [List.count_cons]
      by_cases hsame : t.key = key
      · cases (hsame ▸ hrow : s.rows key = some row).symm.trans hkey
      · rw [if_neg (by simpa using hsame)]
        exact hs.untouched key hkey
  | completes n result row row' text hphase hrow htext hstatus hjson =>
    exact hs.set fun _ => by
      rw [hjson]
      rfl
  | releases message row leaseUntil hrow hstatus =>
    exact hs.set fun h => by
      rw [show _ = CompletionStatus.started from hstatus] at h
      cases h

theorem Delivery.act_own (hs : s.Sound) (hknows : t.Knows s) (hc : t.Timely s) : (t.act s).2.Knows (t.act s).1 := by
  have hmoves := t.act_moves s
  generalize (t.act s).1 = s', (t.act s).2 = t' at hmoves
  cases hmoves with
  | stays => exact hknows
  | raises | misses | fails | releases => trivial
  | replays row record hrow hstatus hrecord =>
    obtain ⟨text, htext⟩ := Option.isSome_iff_exists.mp (hs.result _ _ hrow hstatus)
    exact ⟨rfl, text, ⟨row, hrow, hstatus, htext⟩, rowToRecord_result hrecord htext⟩
  | claims row hphase hstatus howner hfree =>
    have hlast : (s.claim t.key row).claims t.key = s.claims t.key + 1 := Function.update_self ..
    have hnone := hs.free hc hphase hfree
    exact ⟨hlast.ge, fun _ => ⟨hnone, row, s.rows_set t.key row, hstatus, howner⟩⟩
  | takesEffect n result hphase hresult =>
    obtain ⟨hlast, hnone, hheld⟩ := hknows.effect hc hphase hresult
    refine ⟨hlast, ?_, hheld⟩
    show (t.key :: s.effects).count t.key = 1
    rw [List.count_cons_self, hnone]
  | loses n result row hphase hrow hstatus =>
    obtain ⟨-, -, hheld⟩ := hknows.completing hphase
    exact absurd hstatus (hheld.open_ hrow)
  | completes n result row row' text hphase hrow htext hstatus hjson =>
    exact ⟨text, ⟨row', s.rows_set t.key row', hstatus, hjson⟩, htext⟩
  | returns result hphase =>
    unfold Delivery.Knows at hknows
    rw [hphase] at hknows
    obtain ⟨text, hstores, htext⟩ := hknows
    exact ⟨rfl, text, hstores, htext⟩

/-- A step for one key leaves what calls for other keys know, and of the calls for the same key only one with an older
claim can be under way. -/
theorem Delivery.act_other (hs : s.Sound) (hknows : t.Knows s) (hother : u.Knows s) (hapart : t.Apart u)
    (hc : t.Timely s) : u.Knows (t.act s).1 := by
  have hmoves := t.act_moves s
  generalize (t.act s).1 = s', (t.act s).2 = t' at hmoves
  have hsame : ∀ row, s.rows u.key = some row → ∃ row', s.rows u.key = some row' ∧ row'.status = row.status ∧
      row'.owner = row.owner ∧ row'.resultJson = row.resultJson := fun row hrow => ⟨row, hrow, rfl, rfl, rfl⟩
  cases hmoves with
  | stays | raises | misses | replays | fails | loses | returns => exact hother
  | claims row hphase hstatus howner hfree =>
    by_cases hkey : u.key = t.key
    · have hlast : (s.claim t.key row).claims u.key = s.claims u.key + 1 := by
        rw [hkey]
        exact Function.update_self ..
      cases hclaim : u.claim with
      | none =>
        rcases hother.completed hclaim with ⟨row', hrow', hcompleted⟩ | hall
        · exact absurd hcompleted (CompletionLedger.free_open hfree (hkey ▸ hrow'))
        · exact hall _
      | some m =>
        have hle := hother.claim_le hclaim
        exact hother.overtaken hclaim (.inl (hkey ▸ hs.free hc hphase hfree)) (by omega)
    · exact hother.kept (fun row' hrow' => ⟨row', (s.rows_set_of_ne row hkey).trans hrow', rfl, rfl, rfl⟩)
        (Function.update_of_ne hkey ..) rfl
  | takesEffect n result hphase hresult =>
    obtain ⟨hlast, hnone, hheld⟩ := hknows.effect hc hphase hresult
    by_cases hkey : u.key = t.key
    · cases hclaim : u.claim with
      | none =>
        rcases hother.completed hclaim with ⟨row', hrow', hcompleted⟩ | hall
        · exact absurd hcompleted (hheld.open_ (hkey ▸ hrow'))
        · exact hall _
      | some m =>
        have hlt := hother.claim_lt hapart hkey hlast (t.claim_running hphase) hclaim
        exact hother.overtaken hclaim (.inr hlt.ne) hlt
    · refine hother.kept hsame rfl ?_
      show (t.key :: s.effects).count u.key = s.effects.count u.key
      exact List.count_cons_of_ne (Ne.symm hkey)
  | completes n result row row' text hphase hrow htext hstatus hjson =>
    obtain ⟨hlast, -, hheld⟩ := hknows.completing hphase
    by_cases hkey : u.key = t.key
    · cases hclaim : u.claim with
      | none =>
        rcases hother.completed hclaim with ⟨row'', hrow'', hcompleted⟩ | hall
        · exact absurd hcompleted (hheld.open_ (hkey ▸ hrow''))
        · exact hall _
      | some m =>
        have hlt := hother.claim_lt hapart hkey hlast (t.claim_completing hphase) hclaim
        exact hother.overtaken hclaim (.inr hlt.ne) hlt
    · exact hother.kept (fun r hr => ⟨r, (s.rows_set_of_ne row' hkey).trans hr, rfl, rfl, rfl⟩) rfl rfl
  | releases message row leaseUntil hrow hstatus =>
    refine hother.kept (fun r hr => ?_) rfl rfl
    by_cases hkey : u.key = t.key
    · rw [hkey] at hr ⊢
      cases hr.symm.trans hrow
      exact ⟨_, s.rows_set t.key _, rfl, rfl, rfl⟩
    · exact ⟨r, (s.rows_set_of_ne _ hkey).trans hr, rfl, rfl, rfl⟩

theorem Delivery.act_apart (hother : u.Knows s) (hapart : t.Apart u) : (t.act s).2.Apart u := by
  have hmoves := t.act_moves s
  generalize (t.act s).1 = s', (t.act s).2 = t' at hmoves
  cases hmoves with
  | stays => exact hapart
  | raises | misses | replays | fails | loses | completes | returns | releases => exact fun _ n hn => nomatch hn
  | claims row hphase hstatus howner hfree =>
    intro hkey n hn hclaim
    cases hn
    have hle := hother.claim_le hclaim
    rw [← show t.key = u.key from hkey] at hle
    omega
  | takesEffect n result hphase hresult =>
    intro hkey m hm
    cases hm
    exact hapart hkey n (t.claim_running hphase)

theorem deliveries_noninterference : Pool.Noninterference (Delivery.act (T := T)) (fun s t => t.Timely s)
    CompletionLedger.Sound (fun s t => t.Knows s) Delivery.Apart where
  symm _ _ h hkey n hn hm := h hkey.symm n hm hn
  shared _ _ := Delivery.act_sound
  own _ _ := Delivery.act_own
  other _ _ _ := Delivery.act_other
  pair _ _ _ _ _ hother hapart _ := Delivery.act_apart hother hapart

/-- Any number of calls of `deliver` on one ledger, in any order of their steps and with any clock: where a claim is taken
over only before the side effect has returned and a side effect returns only under the last claim, each key sees at most
one side effect, and the ledger has the result of each outcome. The outcome is what the stored text reads as, unless the
call has executed and its result does not survive the text. -/
theorem deliveries_settle_once {ι : Type} [DecidableEq ι] (calls : ι → Delivery T) (hcalls : ∀ i, (calls i).phase = .start)
    (schedule : List ι) (hc : Pool.Along Delivery.act (fun s t => t.Timely s) schedule ⟨{}, calls⟩) :
    (∀ key, (Pool.run Delivery.act ⟨{}, calls⟩ schedule).shared.effects.count key ≤ 1) ∧
    ∀ i o, ((Pool.run Delivery.act ⟨{}, calls⟩ schedule).task i).outcome = some o →
      o.idempotencyKey = ((Pool.run Delivery.act ⟨{}, calls⟩ schedule).task i).key ∧
      ∃ text, (Pool.run Delivery.act ⟨{}, calls⟩ schedule).shared.Stores o.idempotencyKey text ∧
        (o.executed = true → JsonResult.dumps o.result = .ok text) ∧
        (JsonResult.loads text = .ok o.result ↔
          (o.executed = true → (JsonResult.dumps o.result >>= JsonResult.loads) = .ok o.result)) := by
  have hfirst : Pool.Holds CompletionLedger.Sound (fun s t => t.Knows s) Delivery.Apart
      (⟨{}, calls⟩ : Pool ι CompletionLedger (Delivery T)) := by
    refine ⟨⟨fun _ => Nat.zero_le 1, fun _ _ => rfl, fun _ _ hrow => nomatch hrow⟩, ?_, ?_⟩
    · intro i
      unfold Delivery.Knows
      rw [show ((⟨{}, calls⟩ : Pool ι CompletionLedger (Delivery T)).task i).phase = .start from hcalls i]
      trivial
    · intro i j _ _ n hn
      unfold Delivery.claim at hn
      rw [show ((⟨{}, calls⟩ : Pool ι CompletionLedger (Delivery T)).task i).phase = .start from hcalls i] at hn
      cases hn
  have hlast := deliveries_noninterference.run schedule hfirst hc
  refine ⟨hlast.shared.once, ?_⟩
  intro i o houtcome
  have hknows := hlast.task i
  unfold Delivery.Knows at hknows
  rw [Delivery.phase_of_outcome houtcome] at hknows
  obtain ⟨hkey, text, hstores, hresult⟩ := hknows
  refine ⟨hkey, text, hstores, ?_, ?_⟩
  · intro hexecuted
    rwa [if_pos hexecuted] at hresult
  · by_cases hexecuted : o.executed = true
    · rw [if_pos hexecuted] at hresult
      rw [hresult]
      exact ⟨fun h _ => h, fun h => h hexecuted⟩
    · rw [if_neg hexecuted] at hresult
      exact ⟨fun _ h => absurd h hexecuted, fun _ => hresult⟩

end Steps

/-- Two calls for one key by two workers; the lease of the first claim runs out before the second one. -/
def twoDeliveries (first : Bool) : Delivery (JsonValue Unit) :=
  if first then
    { key := "task-1".toList, workerId := "w-a".toList, sideEffect := .ok (.bool true), claimedAt := 0, completedAt := 60
      releasedAt := 60 }
  else
    { key := "task-1".toList, workerId := "w-b".toList, sideEffect := .ok (.bool false), claimedAt := 40, completedAt := 50
      releasedAt := 50 }

/-- The second call finds the result of the first one. -/
theorem second_delivery_replays :
    let p := Pool.run (@Delivery.act _ asciiData (@jsonValues Unit noFloats)) ⟨{}, twoDeliveries⟩
      [true, true, true, true, true, false]
    (∀ key, p.shared.effects.count key ≤ 1) ∧ ∀ i o, (p.task i).outcome = some o →
      o.idempotencyKey = (p.task i).key ∧ ∃ text, p.shared.Stores o.idempotencyKey text ∧
        (o.executed = true → (@jsonValues Unit noFloats).dumps o.result = .ok text) ∧
        ((@jsonValues Unit noFloats).loads text = .ok o.result ↔ (o.executed = true →
          ((@jsonValues Unit noFloats).dumps o.result >>= (@jsonValues Unit noFloats).loads) = .ok o.result)) :=
  @deliveries_settle_once _ asciiData (@jsonValues Unit noFloats) Bool _ twoDeliveries
    (fun i => by cases i <;> rfl) _ (by decide +kernel)

/-- The second call claims the key while the side effect of the first one runs. -/
def overlapping : Pool Bool CompletionLedger (Delivery (JsonValue Unit)) :=
  Pool.run (@Delivery.act _ asciiData (@jsonValues Unit noFloats)) ⟨{}, twoDeliveries⟩
    [true, true, false, false, false, false, false, true, true]

def sampleText (v : JsonValue Unit) : Option Str := ((@jsonValues Unit noFloats).dumps v).toOption

/-- The lease runs out while the side effect runs: both side effects return, and the first worker returns its own result
while the ledger has the one of the second. -/
theorem both_effects_return :
    (¬ ∀ (T : Type) (_ : UnicodeData) (_ : JsonResult T) (ι : Type) (_ : DecidableEq ι) (calls : ι → Delivery T),
      (∀ i, (calls i).phase = .start) → (∀ i j, i ≠ j → (calls i).workerId ≠ (calls j).workerId) → ∀ schedule key,
        (Pool.run Delivery.act ⟨{}, calls⟩ schedule).shared.effects.count key ≤ 1) ∧
    ¬ ∀ (T : Type) (_ : UnicodeData) (_ : JsonResult T) (ι : Type) (_ : DecidableEq ι) (calls : ι → Delivery T),
      (∀ i, (calls i).phase = .start) → (∀ i j, i ≠ j → (calls i).workerId ≠ (calls j).workerId) → ∀ schedule i o,
        ((Pool.run Delivery.act ⟨{}, calls⟩ schedule).task i).outcome = some o →
        ∃ text, (Pool.run Delivery.act ⟨{}, calls⟩ schedule).shared.Stores o.idempotencyKey text ∧
          (JsonResult.dumps o.result = .ok text ∨ JsonResult.loads text = .ok o.result) := by
  have hstart : ∀ i, (twoDeliveries i).phase = .start := by
    intro i
    cases i <;> rfl
  have hworkers : ∀ i j, i ≠ j → (twoDeliveries i).workerId ≠ (twoDeliveries j).workerId := by decide
  constructor
  · intro h
    have honce := h _ asciiData (@jsonValues Unit noFloats) Bool inferInstance twoDeliveries hstart hworkers
      [true, true, false, false, false, false, false, true, true] "task-1".toList
    have htwice : overlapping.shared.effects.count "task-1".toList = 2 := by decide +kernel
    have hle := htwice.symm.trans_le honce
    cases hle with
    | step hle => cases hle
  · intro h
    have hown : (overlapping.task true).outcome.map (fun o => (o.idempotencyKey, sampleText o.result)) =
        some ("task-1".toList, some "true".toList) := by decide +kernel
    obtain ⟨o, houtcome, hoResult⟩ := Option.map_eq_some_iff.mp hown
    obtain ⟨hkey, hresult⟩ := Prod.mk.inj hoResult
    obtain ⟨text, ⟨row, hrow, -, htext⟩, hcarried⟩ := h _ asciiData (@jsonValues Unit noFloats) Bool inferInstance
      twoDeliveries hstart hworkers [true, true, false, false, false, false, false, true, true] true o houtcome
    have hstored : (overlapping.shared.rows "task-1".toList).bind (·.resultJson) = some "false".toList := by decide +kernel
    have hsame : text = "false".toList := by
      rw [← hkey, show overlapping.shared.rows o.idempotencyKey = some row from hrow] at hstored
      exact Option.some.inj (htext.symm.trans hstored)
    rw [hsame] at hcarried
    have hfalse : sampleText o.result = some "false".toList := by
      rcases hcarried with hdumps | hloads
      · unfold sampleText
        rw [hdumps]
        rfl
      · have hread : ((@jsonValues Unit noFloats).loads "false".toList).toOption.bind sampleText = some "false".toList := by
          decide +kernel
        rw [hloads] at hread
        exact hread
    rw [hresult] at hfalse
    exact absurd hfalse (by decide)

end FailureOrchestrator
