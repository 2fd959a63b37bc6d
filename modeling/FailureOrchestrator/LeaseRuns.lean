import FailureOrchestrator.AutonomousRuntime
import FailureOrchestrator.Interleaving

namespace FailureOrchestrator

namespace AutonomousRuntime

section Contract

variable {P : Type}

/-- From some clock reading and some limit on, every call of `lease_due` returns the run. -/
def SQLiteRunStore.Recoverable (s : SQLiteRunStore P) (runId : Str) : Prop :=
  ∃ (clock : ℚ) (room : Int), ∀ now ≥ clock, ∀ limit ≥ room, ∀ owner leaseSeconds,
    ∃ d ∈ (s.leaseDue owner now leaseSeconds limit).1, d.runId = runId

/-- No run that has work left is lost. -/
def SQLiteRunStore.Recovers (s : SQLiteRunStore P) : Prop :=
  ∀ d ∈ s.runs, d.status ≠ .completed → d.status ≠ .deadLettered → s.Recoverable d.runId

/-- Of two leases on a run that two workers hold, the later one was granted when the earlier one had expired. -/
def Lease.Follows (l l' : Lease) : Prop :=
  l.held = true → l'.held = true → l.runId = l'.runId → l.owner ≠ l'.owner → l.leaseUntil ≤ l'.grantedAt

namespace Fleet

/-- When a run is handed out, the leases that other workers still hold on it have expired. -/
def Exclusive (f : Fleet P) : Prop := f.leases.Pairwise Lease.Follows

/-- No run is handed out more often than it may be attempted. -/
def Bounded (f : Fleet P) : Prop := ∀ l ∈ f.leases, (l.number : Int) ≤ l.maxAttempts

/-- The leases on a run end by a time. -/
def EndBy (leases : List Lease) (runId : Str) (time : ℚ) : Prop :=
  ∀ l ∈ leases, l.held = true → l.runId = runId → l.leaseUntil ≤ time

instance (leases : List Lease) (runId : Str) (time : ℚ) : Decidable (EndBy leases runId time) :=
  inferInstanceAs (Decidable (∀ l ∈ leases, _))

/-- A run is put back only to a time at which the other leases on it have ended, with room for one attempt, and after a
failure with every hand-out counted as an attempt. -/
def Safe (f : Fleet P) : RuntimeCall P → Prop
  | .submit state now _ =>
    1 ≤ state.maxAttempts ∧ EndBy f.leases state.runId (max state.leaseUntil (SQLiteRunStore.submitAt state now))
  | .markRetry lease state _ backoffSeconds now _ _ =>
    state.attempts + 1 < state.maxAttempts → (f.handouts state.runId : Int) ≤ state.attempts + 1 ∧
      EndBy (giveBack f.leases lease) state.runId (max 0 (now + backoffSeconds))
  | _ => True

instance (f : Fleet P) : (c : RuntimeCall P) → Decidable (f.Safe c)
  | .submit .. => inferInstanceAs (Decidable (_ ∧ _))
  | .markRetry .. => inferInstanceAs (Decidable (_ → _ ∧ _))
  | .poll .. | .complete .. => isTrue trivial

def Distinct (f : Fleet P) : Prop := (f.store.runs.map (·.runId)).Nodup

/-- A run that waits has an attempt left, and nobody holds it beyond the time at which it is due. -/
structure Kept (f : Fleet P) : Prop where
  distinct : f.Distinct
  left : ∀ d ∈ f.store.runs, d.waits = true → (f.handouts d.runId : Int) < d.maxAttempts
  ended : ∀ d ∈ f.store.runs, d.waits = true → EndBy f.leases d.runId (max d.leaseUntil d.nextRunAt)
  exclusive : f.Exclusive
  bounded : f.Bounded

end Fleet

end Contract

section Store

variable {P : Type} {s : SQLiteRunStore P} {d state : DurableRunState P} {owner : Str} {now leaseSeconds : ℚ} {limit : Int}

theorem mem_save (h : d ∈ (s.save state now).runs) :
    d = { state with updatedAt := now } ∨ d ∈ s.runs ∧ d.runId ≠ state.runId := by
  unfold SQLiteRunStore.save at h
  dsimp only at h
  split at h
  · obtain ⟨r, hr, hd⟩ := SqlTable.mem_of_update h
    split at hd
    next => exact .inl hd.symm
    next hne =>
      rw [← hd]
      exact .inr ⟨hr, of_decide_eq_false (Bool.eq_false_of_not_eq_true hne)⟩
  next hnew =>
    rcases List.mem_append.mp h with hold | hd
    · refine .inr ⟨hold, fun hid => hnew (List.any_eq_true.mpr ⟨d, hold, decide_eq_true hid⟩)⟩
    · exact .inl (List.mem_singleton.mp hd)

theorem map_runId_update {c : DurableRunState P → Bool} {f : DurableRunState P → DurableRunState P}
    {runs : List (DurableRunState P)} (hf : ∀ r ∈ runs, c r = true → (f r).runId = r.runId) :
    (SqlTable.update c f runs).map (·.runId) = runs.map (·.runId) := by
  unfold SqlTable.update
  rw [List.map_map]
  refine List.map_congr_left fun r hr => ?_
  show (if c r then f r else r).runId = r.runId
  split
  next hc => exact hf r hr hc
  next => rfl

theorem nodup_save (h : (s.runs.map (·.runId)).Nodup) : ((s.save state now).runs.map (·.runId)).Nodup := by
  unfold SQLiteRunStore.save
  dsimp only
  split
  · rw [map_runId_update fun r _ hr => (of_decide_eq_true hr).symm]
    exact h
  next hnew =>
    rw [List.map_append, List.map_singleton]
    refine List.nodup_append.mpr ⟨h, List.nodup_singleton _, ?_⟩
    intro id hid id' hid' hsame
    rw [List.mem_singleton] at hid'
    obtain ⟨r, hr, hrid⟩ := List.mem_map.mp hid
    exact hnew (List.any_eq_true.mpr ⟨r, hr, decide_eq_true (hrid.trans (hsame.trans hid'))⟩)

theorem mem_dueRows (h : d ∈ s.dueRows now limit) : d ∈ s.runs ∧ d.due now = true := by
  unfold SQLiteRunStore.dueRows at h
  dsimp only at h
  have hsorted : d ∈ (s.runs.filter (·.due now)).insertionSort DurableRunState.before := by
    split at h
    next => exact h
    next => exact List.mem_of_mem_take h
  exact List.mem_filter.mp ((List.mem_insertionSort _).mp hsorted)

/-- A limit of at least the number of rows is none. -/
theorem mem_dueRows_of_due (hd : d ∈ s.runs) (hdue : d.due now = true) (hlimit : (s.runs.length : Int) ≤ limit) :
    d ∈ s.dueRows now limit := by
  have hsorted : d ∈ (s.runs.filter (·.due now)).insertionSort DurableRunState.before :=
    (List.mem_insertionSort _).mpr (List.mem_filter.mpr ⟨hd, hdue⟩)
  unfold SQLiteRunStore.dueRows
  dsimp only
  split
  next => exact hsorted
  next =>
    rw [List.take_of_length_le]
    · exact hsorted
    · rw [List.length_insertionSort]
      have hle := List.length_filter_le (fun r => r.due now) s.runs
      omega

theorem nodup_dueRows (h : (s.runs.map (·.runId)).Nodup) : ((s.dueRows now limit).map (·.runId)).Nodup := by
  have hfilter : ((s.runs.filter (·.due now)).map (·.runId)).Nodup := h.sublist (List.filter_sublist.map _)
  have hsorted : (((s.runs.filter (·.due now)).insertionSort DurableRunState.before).map (·.runId)).Nodup :=
    ((List.perm_insertionSort _ _).map _).nodup_iff.mpr hfilter
  unfold SQLiteRunStore.dueRows
  dsimp only
  split
  next => exact hsorted
  next => exact hsorted.sublist ((List.take_sublist _ _).map _)

theorem leaseDue_runIds :
    (s.leaseDue owner now leaseSeconds limit).1.map (·.runId) = (s.dueRows now limit).map (·.runId) := by
  unfold SQLiteRunStore.leaseDue
  dsimp only
  rw [List.map_map]
  rfl

/-- A row behind `lease_due` is the old one, or it runs. -/
theorem mem_leaseDue (h : d ∈ (s.leaseDue owner now leaseSeconds limit).2.runs) :
    d.status = .running ∨ d ∈ s.runs ∧ d.runId ∉ (s.leaseDue owner now leaseSeconds limit).1.map (·.runId) := by
  rw [leaseDue_runIds]
  obtain ⟨r, hr, hd⟩ := SqlTable.mem_of_update h
  split at hd
  next =>
    rw [← hd]
    exact .inl rfl
  next hnot =>
    rw [← hd]
    exact .inr ⟨hr, of_decide_eq_false (Bool.eq_false_of_not_eq_true hnot)⟩

theorem nodup_leaseDue (h : (s.runs.map (·.runId)).Nodup) :
    ((s.leaseDue owner now leaseSeconds limit).2.runs.map (·.runId)).Nodup := by
  unfold SQLiteRunStore.leaseDue
  dsimp only
  rw [map_runId_update fun r _ _ => by rfl]
  exact h

/-- A returned state is the one of a due row. -/
theorem leaseDue_returned (h : d ∈ (s.leaseDue owner now leaseSeconds limit).1) :
    ∃ r ∈ s.runs, r.due now = true ∧ d = r.lease owner (now + leaseSeconds) := by
  obtain ⟨r, hr, hd⟩ := List.mem_map.mp h
  obtain ⟨hmem, hdue⟩ := mem_dueRows hr
  exact ⟨r, hmem, hdue, hd.symm⟩

theorem waits_of_due (h : d.due now = true) : d.waits = true ∧ d.nextRunAt ≤ now ∧ d.leaseUntil ≤ now := by
  unfold DurableRunState.due at h
  rw [Bool.and_eq_true, Bool.and_eq_true, decide_eq_true_eq, decide_eq_true_eq] at h
  exact ⟨h.1.1, h.1.2, h.2⟩

/-- A run waits or runs as long as it has work left. -/
theorem waits_iff (hcompleted : d.status ≠ .completed) (hdead : d.status ≠ .deadLettered) :
    d.waits = true ↔ d.status ≠ .running := by
  unfold DurableRunState.waits
  cases hstatus : d.status with
  | queued => decide
  | running => decide
  | retry => decide
  | completed => exact absurd hstatus hcompleted
  | deadLettered => exact absurd hstatus hdead

/-- `lease_due` returns the waiting runs and no other one. -/
theorem recoverable_iff (hnodup : (s.runs.map (·.runId)).Nodup) (hd : d ∈ s.runs) :
    s.Recoverable d.runId ↔ d.waits = true := by
  constructor
  · rintro ⟨clock, room, h⟩
    obtain ⟨d', hd', hid⟩ := h clock le_rfl room le_rfl [] 0
    obtain ⟨r, hr, hdue, hrd⟩ := leaseDue_returned hd'
    have hsame : r = d := List.inj_on_of_nodup_map hnodup hr hd (by rw [← hid, hrd]; rfl)
    rw [← hsame]
    exact (waits_of_due hdue).1
  · intro hwaits
    refine ⟨max d.nextRunAt d.leaseUntil, s.runs.length, fun now hnow limit hlimit owner leaseSeconds => ?_⟩
    have hdue : d.due now = true := by
      unfold DurableRunState.due
      rw [hwaits, decide_eq_true ((le_max_left _ _).trans hnow), decide_eq_true ((le_max_right _ _).trans hnow)]
      rfl
    exact ⟨_, List.mem_map_of_mem (mem_dueRows_of_due hd hdue hlimit), rfl⟩

theorem recovers_iff (hnodup : (s.runs.map (·.runId)).Nodup) : s.Recovers ↔ ∀ d ∈ s.runs, d.status ≠ .running := by
  constructor
  · intro h d hd hrunning
    have hcompleted : d.status ≠ .completed := by
      rw [hrunning]
      decide
    have hdead : d.status ≠ .deadLettered := by
      rw [hrunning]
      decide
    exact (waits_iff hcompleted hdead).mp ((recoverable_iff hnodup hd).mp (h d hd hcompleted hdead)) hrunning
  · intro h d hd hcompleted hdead
    exact (recoverable_iff hnodup hd).mpr ((waits_iff hcompleted hdead).mpr (h d hd))

end Store

section Leases

variable {leases : List Lease} {l : Lease} {lease : Option Nat} {runId : Str} {time : ℚ}

theorem mem_modify {α : Type} {f : α → α} {x : α} {xs : List α} {k : Nat} (h : x ∈ xs.modify k f) :
    ∃ y ∈ xs, x = y ∨ x = f y := by
  induction xs generalizing k with
  | nil =>
    rw [List.modify_nil] at h
    cases h
  | cons y ys ih =>
    cases k with
    | zero =>
      rw [List.modify_zero_cons] at h
      rcases List.mem_cons.mp h with hx | hx
      · exact ⟨y, List.mem_cons_self, .inr hx⟩
      · exact ⟨x, List.mem_cons_of_mem _ hx, .inl rfl⟩
    | succ k =>
      rw [List.modify_succ_cons] at h
      rcases List.mem_cons.mp h with hx | hx
      · exact ⟨y, List.mem_cons_self, .inl hx⟩
      · obtain ⟨z, hz, hxz⟩ := ih hx
        exact ⟨z, List.mem_cons_of_mem _ hz, hxz⟩

theorem pairwise_modify {α : Type} {R : α → α → Prop} {f : α → α} (hf : ∀ a b, R a b → R (f a) b ∧ R a (f b))
    {xs : List α} {k : Nat} (h : xs.Pairwise R) : (xs.modify k f).Pairwise R := by
  induction xs generalizing k with
  | nil =>
    rw [List.modify_nil]
    exact .nil
  | cons y ys ih =>
    obtain ⟨hy, hys⟩ := List.pairwise_cons.mp h
    cases k with
    | zero =>
      rw [List.modify_zero_cons]
      exact List.pairwise_cons.mpr ⟨fun b hb => (hf y b (hy b hb)).1, hys⟩
    | succ k =>
      rw [List.modify_succ_cons]
      refine List.pairwise_cons.mpr ⟨fun b hb => ?_, ih hys⟩
      obtain ⟨z, hz, hb | hb⟩ := mem_modify hb
      · rw [hb]
        exact hy z hz
      · rw [hb]
        exact (hf y z (hy z hz)).2

/-- A lease that is given back is the old one, no longer held. -/
theorem mem_giveBack (h : l ∈ giveBack leases lease) : ∃ l' ∈ leases, l = l' ∨ l = l'.ended := by
  cases lease with
  | none => exact ⟨l, h, .inl rfl⟩
  | some k => exact mem_modify h

theorem Fleet.EndBy.giveBack (h : Fleet.EndBy leases runId time) : Fleet.EndBy (giveBack leases lease) runId time := by
  intro l hl hheld hid
  obtain ⟨l', hl', hsame | hback⟩ := mem_giveBack hl
  · rw [hsame] at hheld hid ⊢
    exact h l' hl' hheld hid
  · rw [hback] at hheld
    cases hheld

theorem follows_giveBack (h : leases.Pairwise Lease.Follows) : (giveBack leases lease).Pairwise Lease.Follows := by
  cases lease with
  | none => exact h
  | some k => exact pairwise_modify (fun _ _ _ => ⟨fun hheld => (nomatch hheld), fun _ hheld => (nomatch hheld)⟩) h

end Leases

section Steps

variable {P : Type} {f : Fleet P} {state : DurableRunState P} {d : DurableRunState P}

theorem Fleet.step_distinct (h : f.Distinct) (c : RuntimeCall P) : (f.step c).Distinct := by
  cases c with
  | submit state now savedAt => exact nodup_save h
  | poll owner now limit => exact nodup_leaseDue h
  | markRetry lease state error backoffSeconds now savedAt createdAt =>
    show (((f.store.markRetry state error backoffSeconds now savedAt createdAt).runs).map (·.runId)).Nodup
    unfold SQLiteRunStore.markRetry
    split
    next => exact nodup_save h
    next => exact nodup_save h
  | complete lease state step savedAt => exact nodup_save h

theorem Fleet.Kept.submit (h : f.Kept) {now savedAt : ℚ} (hsafe : f.Safe (.submit state now savedAt)) :
    (f.step (.submit state now savedAt)).Kept := by
  obtain ⟨hmax, hend⟩ := hsafe
  refine ⟨f.step_distinct h.distinct _, fun d hd hwaits => ?_, fun d hd hwaits => ?_, h.exclusive, h.bounded⟩
  · rcases mem_save hd with hnew | ⟨hold, hne⟩
    · rw [hnew]
      show ((Function.update f.handouts state.runId 0 state.runId : Nat) : Int) < state.maxAttempts
      rw [Function.update_self]
      exact hmax
    · show ((Function.update f.handouts state.runId 0 d.runId : Nat) : Int) < d.maxAttempts
      rw [Function.update_of_ne hne]
      exact h.left d hold hwaits
  · rcases mem_save hd with hnew | ⟨hold, -⟩
    · rw [hnew]
      exact hend
    · exact h.ended d hold hwaits

theorem Fleet.Kept.poll (h : f.Kept) (owner : Str) (now : ℚ) (limit : Int) : (f.step (.poll owner now limit)).Kept := by
  have hcount : ∀ {d}, d ∈ (f.step (.poll owner now limit)).store.runs → d.waits = true → d ∈ f.store.runs ∧
      d.runId ∉ (f.store.poll owner now limit).1.map (·.runId) := by
    intro d hd hwaits
    rcases mem_leaseDue hd with hrunning | hold
    · unfold DurableRunState.waits at hwaits
      rw [hrunning] at hwaits
      cases hwaits
    · exact hold
  refine ⟨f.step_distinct h.distinct _, fun d hd hwaits => ?_, fun d hd hwaits => ?_, ?_, ?_⟩
  · obtain ⟨hold, hout⟩ := hcount hd hwaits
    have hnone : (f.store.poll owner now limit).1.countP (·.runId = d.runId) = 0 := by
      refine List.countP_eq_zero.mpr fun r hr hid => hout ?_
      rw [← of_decide_eq_true hid]
      exact List.mem_map_of_mem hr
    show ((f.handouts d.runId + (f.store.poll owner now limit).1.countP (·.runId = d.runId) : Nat) : Int) < _
    rw [hnone]
    exact h.left d hold hwaits
  · obtain ⟨hold, hout⟩ := hcount hd hwaits
    intro l hl hheld hid
    rcases List.mem_append.mp hl with hbefore | hnew
    · exact h.ended d hold hwaits l hbefore hheld hid
    · obtain ⟨r, hr, hrl⟩ := List.mem_map.mp hnew
      refine absurd ?_ hout
      rw [← hid, ← hrl]
      exact List.mem_map_of_mem hr
  · have hnodup : ((f.store.poll owner now limit).1.map (·.runId)).Nodup := by
      rw [show f.store.poll owner now limit = f.store.leaseDue owner now 60 limit from rfl, leaseDue_runIds]
      exact nodup_dueRows h.distinct
    refine List.pairwise_append.mpr ⟨h.exclusive, ?_, ?_⟩
    · refine List.pairwise_map.mpr ((List.pairwise_map.mp hnodup).imp ?_)
      exact fun hne _ _ hid => absurd hid hne
    · intro l hl l' hl' hheld _ hid _
      obtain ⟨r, hr, hrl⟩ := List.mem_map.mp hl'
      obtain ⟨row, hrow, hdue, hrrow⟩ := leaseDue_returned hr
      obtain ⟨hwaits, hnext, huntil⟩ := waits_of_due hdue
      rw [← hrl] at hid ⊢
      rw [hrrow] at hid
      exact (h.ended row hrow hwaits l hl hheld hid).trans (max_le huntil hnext)
  · intro l hl
    rcases List.mem_append.mp hl with hbefore | hnew
    · exact h.bounded l hbefore
    · obtain ⟨r, hr, hrl⟩ := List.mem_map.mp hnew
      obtain ⟨row, hrow, hdue, hrrow⟩ := leaseDue_returned hr
      have hleft := h.left row hrow (waits_of_due hdue).1
      rw [← hrl, hrrow]
      exact Int.add_one_le_of_lt hleft

/-- A row that waits behind `mark_retry` is the retried one, or an old one of another run. -/
theorem mem_markRetry {s : SQLiteRunStore P} {error : Str} {backoffSeconds now savedAt createdAt : ℚ}
    (hd : d ∈ (s.markRetry state error backoffSeconds now savedAt createdAt).runs) (hwaits : d.waits = true) :
    (state.attempts + 1 < state.maxAttempts ∧ d.runId = state.runId ∧ d.attempts = state.attempts + 1 ∧
      d.maxAttempts = state.maxAttempts ∧ d.leaseUntil = 0 ∧ d.nextRunAt = now + backoffSeconds) ∨
    d ∈ s.runs ∧ d.runId ≠ state.runId := by
  unfold SQLiteRunStore.markRetry at hd
  split at hd
  next =>
    rcases mem_save hd with hnew | hold
    · rw [hnew] at hwaits
      cases hwaits
    · exact .inr hold
  next hleft =>
    rcases mem_save hd with hnew | hold
    · rw [hnew]
      exact .inl ⟨not_le.mp fun hle => hleft (decide_eq_true hle), rfl, rfl, rfl, rfl, rfl⟩
    · exact .inr hold

theorem bounded_giveBack {lease : Option Nat} (h : f.Bounded) :
    ∀ l ∈ giveBack f.leases lease, (l.number : Int) ≤ l.maxAttempts := by
  intro l hl
  obtain ⟨l', hl', hsame | hback⟩ := mem_giveBack hl
  · rw [hsame]
    exact h l' hl'
  · rw [hback]
    exact h l' hl'

theorem Fleet.Kept.markRetry (h : f.Kept) {lease : Option Nat} {error : Str} {backoffSeconds now savedAt createdAt : ℚ}
    (hsafe : f.Safe (.markRetry lease state error backoffSeconds now savedAt createdAt)) :
    (f.step (.markRetry lease state error backoffSeconds now savedAt createdAt)).Kept := by
  refine ⟨f.step_distinct h.distinct _, fun d hd hwaits => ?_, fun d hd hwaits => ?_, follows_giveBack h.exclusive,
    bounded_giveBack h.bounded⟩
  · rcases mem_markRetry hd hwaits with ⟨hleft, hid, hattempts, hmax, -, -⟩ | ⟨hold, -⟩
    · have hcounted := (hsafe hleft).1
      show (f.handouts d.runId : Int) < d.maxAttempts
      rw [hid, hmax]
      omega
    · exact h.left d hold hwaits
  · rcases mem_markRetry hd hwaits with ⟨hleft, hid, -, -, huntil, hnext⟩ | ⟨hold, -⟩
    · rw [hid, huntil, hnext]
      exact (hsafe hleft).2
    · exact (h.ended d hold hwaits).giveBack

theorem Fleet.Kept.complete (h : f.Kept) (lease : Option Nat) (state : DurableRunState P) (step : Str) (savedAt : ℚ) :
    (f.step (.complete lease state step savedAt)).Kept := by
  have hold : ∀ {d}, d ∈ (f.step (.complete lease state step savedAt)).store.runs → d.waits = true → d ∈ f.store.runs := by
    intro d hd hwaits
    rcases mem_save hd with hnew | hold
    · rw [hnew] at hwaits
      cases hwaits
    · exact hold.1
  exact ⟨f.step_distinct h.distinct _, fun d hd hwaits => h.left d (hold hd hwaits) hwaits,
    fun d hd hwaits => (h.ended d (hold hd hwaits) hwaits).giveBack, follows_giveBack h.exclusive,
    bounded_giveBack h.bounded⟩

theorem Fleet.Kept.step (h : f.Kept) {c : RuntimeCall P} (hsafe : f.Safe c) : (f.step c).Kept := by
  cases c with
  | submit state now savedAt => exact h.submit hsafe
  | poll owner now limit => exact h.poll owner now limit
  | markRetry lease state error backoffSeconds now savedAt createdAt => exact h.markRetry hsafe
  | complete lease state step savedAt => exact h.complete lease state step savedAt

/-- Calls of any number of workers on an empty store, in any order and with any clock readings. A run with work left comes
back from `lease_due` exactly when no run is handed out; and where every call is safe, no two workers hold unexpired leases
on a run, and no run is handed out more often than it may be attempted. -/
theorem fleet_runs (calls : List (RuntimeCall P)) :
    ((Fleet.run {} calls).store.Recovers ↔ ∀ d ∈ (Fleet.run {} calls).store.runs, d.status ≠ .running) ∧
    (Calls.Along Fleet.step Fleet.Safe calls {} → (Fleet.run {} calls).Exclusive ∧ (Fleet.run {} calls).Bounded) := by
  have hdistinct : (Fleet.run {} calls).Distinct :=
    Calls.foldl_keeps (I := Fleet.Distinct) (fun _ c h => Fleet.step_distinct h c) calls List.nodup_nil
  refine ⟨recovers_iff hdistinct, fun hsafe => ?_⟩
  have hempty : (⟨{}, [], fun _ => 0⟩ : Fleet P).Kept :=
    ⟨List.nodup_nil, fun _ hd => (nomatch hd), fun _ hd => (nomatch hd), .nil, fun _ hl => (nomatch hl)⟩
  have hkept := Calls.Along.foldl (fun _ _ h hc => h.step hc) calls hempty hsafe
  exact ⟨hkept.exclusive, hkept.bounded⟩

end Steps

/-- A run without a payload. -/
def sampleRun : DurableRunState Unit :=
  { runId := "run-1".toList, incidentId := "inc-1".toList, payload := (), updatedAt := 0 }

def sampleHeld (attempts : Int) (owner : Str) (nextRunAt leaseUntil : ℚ) : DurableRunState Unit :=
  { sampleRun with attempts, nextRunAt, leaseOwner := some owner, leaseUntil, status := .running }

/-- A run that fails once and is completed by another worker. -/
def sampleRetried : List (RuntimeCall Unit) :=
  [.submit sampleRun 1 1, .poll "worker-a".toList 10 1,
    .markRetry (some 0) (sampleHeld 0 "worker-a".toList 1 70) "boom".toList 30 20 20 20,
    .poll "worker-b".toList 60 1, .complete (some 1) (sampleHeld 1 "worker-b".toList 50 120) "verified".toList 70]

theorem sampleRetried_kept :
    ((Fleet.run {} sampleRetried).store.Recovers ↔ ∀ d ∈ (Fleet.run {} sampleRetried).store.runs, d.status ≠ .running) ∧
    (Fleet.run {} sampleRetried).Exclusive ∧ (Fleet.run {} sampleRetried).Bounded :=
  ⟨(fleet_runs sampleRetried).1, (fleet_runs sampleRetried).2 (by decide +kernel)⟩

/-- The worker that holds the run dies. -/
def sampleDied : List (RuntimeCall Unit) := [.submit sampleRun 1 1, .poll "worker-a".toList 10 1]

/-- The run is submitted again while a worker holds it. -/
def sampleResubmitted : List (RuntimeCall Unit) :=
  [.submit sampleRun 1 1, .poll "worker-a".toList 10 1, .submit sampleRun 20 20, .poll "worker-b".toList 21 1]

/-- A run without an attempt. -/
def sampleUnlimited : List (RuntimeCall Unit) :=
  [.submit { sampleRun with maxAttempts := 0 } 1 1, .poll "worker-a".toList 10 1]

/-- Each part of the contract fails in some run. -/
theorem lost_shared_and_unbounded :
    (¬ ∀ calls : List (RuntimeCall Unit), (Fleet.run {} calls).store.Recovers) ∧
    (¬ ∀ calls : List (RuntimeCall Unit), (Fleet.run {} calls).Exclusive) ∧
    ¬ ∀ calls : List (RuntimeCall Unit), (Fleet.run {} calls).Bounded := by
  refine ⟨fun h => ?_, fun h => ?_, fun h => ?_⟩
  · have hnodup : ((Fleet.run {} sampleDied).store.runs.map (·.runId)).Nodup := by decide +kernel
    have hrunning := (recovers_iff hnodup).mp (h sampleDied)
    revert hrunning
    decide +kernel
  · have hshared := h sampleResubmitted
    revert hshared
    unfold Fleet.Exclusive Lease.Follows
    decide +kernel
  · have hunlimited := h sampleUnlimited
    revert hunlimited
    unfold Fleet.Bounded
    decide +kernel

end AutonomousRuntime

end FailureOrchestrator
