import Mathlib.Data.List.Pairwise

namespace FailureOrchestrator

namespace SqlTable

variable {ρ : Type}

/-- `UPDATE … WHERE`: every row that meets the condition is changed. -/
def update (c : ρ → Bool) (f : ρ → ρ) (t : List ρ) : List ρ := t.map fun r => if c r then f r else r

/-- `INSERT`: refused when a stored row and the new one break a unique constraint. -/
def insert (clash : ρ → ρ → Bool) (r : ρ) (t : List ρ) : Option (List ρ) :=
  if t.any (clash r) then none else some (t ++ [r])

/-- No two rows break a unique constraint. -/
def Sound (clash : ρ → ρ → Bool) (t : List ρ) : Prop := t.Pairwise fun r r' => clash r' r = false

/-- Every old row became another one, and new rows came behind them. -/
structure Grows (R : ρ → ρ → Prop) (N : ρ → Prop) (t t' : List ρ) : Prop where
  old : ∀ r ∈ t, ∃ r' ∈ t', R r r'
  new : ∀ r' ∈ t', (∃ r ∈ t, R r r') ∨ N r'

variable {clash : ρ → ρ → Bool} {t t' t'' : List ρ} {R : ρ → ρ → Prop} {N : ρ → Prop}

theorem Sound.eq (h : Sound clash t) (hsymm : ∀ r r', clash r r' = clash r' r) {r r' : ρ} (hr : r ∈ t) (hr' : r' ∈ t)
    (hclash : clash r r' = true) : r = r' := by
  by_contra hne
  have hfree_symm : Std.Symm fun a b => clash b a = false := ⟨fun a b hab => (hsymm a b).trans hab⟩
  have hfree : clash r' r = false := h.forall hr hr' hne
  rw [hsymm, hclash] at hfree
  cases hfree

/-- At most one row meets a condition whose rows all clash. -/
theorem Sound.countP_le_one (h : Sound clash t) {c : ρ → Bool}
    (hc : ∀ r r', c r = true → c r' = true → clash r' r = true) : t.countP c ≤ 1 := by
  induction t with
  | nil => simp
  | cons r t ih =>
    obtain ⟨hr, ht⟩ := List.pairwise_cons.mp h
    rw [List.countP_cons]
    by_cases hcr : c r = true
    · have hnone : t.countP c = 0 := by
        refine List.countP_eq_zero.mpr ?_
        intro r' hr' hcr'
        have hfree := hr r' hr'
        rw [hc r r' hcr hcr'] at hfree
        cases hfree
      rw [hnone]
      simp [hcr]
    · have hrest := ih ht
      rw [if_neg hcr]
      omega

theorem Sound.countP_one (h : Sound clash t) {c : ρ → Bool} (hc : ∀ r r', c r = true → c r' = true → clash r' r = true)
    {r : ρ} (hr : r ∈ t) (hcr : c r = true) : t.countP c = 1 := by
  have hle := h.countP_le_one hc
  have hpos := List.countP_pos_iff.mpr ⟨r, hr, hcr⟩
  omega

theorem exists_of_countP {c : ρ → Bool} (h : t.countP c = 1) : ∃ r ∈ t, c r = true :=
  List.countP_pos_iff.mp (by omega)

theorem Sound.insert (h : Sound clash t) {r : ρ} (hinsert : insert clash r t = some t') : Sound clash t' := by
  unfold SqlTable.insert at hinsert
  split at hinsert
  · cases hinsert
  next hfree =>
    cases hinsert
    refine List.pairwise_append.mpr ⟨h, List.pairwise_singleton _ _, ?_⟩
    intro a ha b hb
    rw [List.mem_singleton.mp hb]
    by_contra hclash
    exact hfree (List.any_eq_true.mpr ⟨a, ha, by simpa using hclash⟩)

theorem Sound.update (h : Sound clash t) {c : ρ → Bool} {f : ρ → ρ}
    (hf : ∀ r r', clash (if c r then f r else r) (if c r' then f r' else r') = clash r r') :
    Sound clash (update c f t) := by
  refine List.pairwise_map.mpr (h.imp ?_)
  intro a b hab
  rw [hf]
  exact hab

theorem mem_update {c : ρ → Bool} {f : ρ → ρ} {r : ρ} (h : r ∈ t) : (if c r then f r else r) ∈ update c f t :=
  List.mem_map_of_mem h

theorem mem_of_update {c : ρ → Bool} {f : ρ → ρ} {r' : ρ} (h : r' ∈ update c f t) :
    ∃ r ∈ t, (if c r then f r else r) = r' :=
  List.mem_map.mp h

theorem insert_some {r : ρ} (h : insert clash r t = some t') : t' = t ++ [r] := by
  unfold insert at h
  split at h
  · cases h
  · exact (Option.some.inj h).symm

theorem insert_none {r : ρ} (h : insert clash r t = none) : ∃ r' ∈ t, clash r r' = true := by
  unfold insert at h
  split at h
  next hclash => exact List.any_eq_true.mp hclash
  · cases h

theorem Grows.refl (hR : ∀ r, R r r) : Grows R N t t where
  old r hr := ⟨r, hr, hR r⟩
  new r hr := .inl ⟨r, hr, hR r⟩

theorem Grows.trans (hR : ∀ r r' r'', R r r' → R r' r'' → R r r'') (hN : ∀ r r', N r → R r r' → N r')
    (h : Grows R N t t') (h' : Grows R N t' t'') : Grows R N t t'' where
  old r hr := by
    obtain ⟨r', hr', hrr'⟩ := h.old r hr
    obtain ⟨r'', hr'', hrr''⟩ := h'.old r' hr'
    exact ⟨r'', hr'', hR _ _ _ hrr' hrr''⟩
  new r'' hr'' := by
    rcases h'.new r'' hr'' with ⟨r', hr', hrr''⟩ | hnew
    · rcases h.new r' hr' with ⟨r, hr, hrr'⟩ | hnew
      · exact .inl ⟨r, hr, hR _ _ _ hrr' hrr''⟩
      · exact .inr (hN _ _ hnew hrr'')
    · exact .inr hnew

theorem Grows.update {c : ρ → Bool} {f : ρ → ρ} (hR : ∀ r, R r r) (hf : ∀ r, c r = true → R r (f r)) :
    Grows R N t (update c f t) := by
  have hstep : ∀ r, R r (if c r then f r else r) := by
    intro r
    split
    next hc => exact hf r hc
    next => exact hR r
  constructor
  · exact fun r hr => ⟨_, mem_update hr, hstep r⟩
  · intro r' hr'
    obtain ⟨r, hr, hrr'⟩ := mem_of_update hr'
    rw [← hrr']
    exact .inl ⟨r, hr, hstep r⟩

theorem Grows.insert {r : ρ} (hR : ∀ r, R r r) (hr : N r) (h : insert clash r t = some t') : Grows R N t t' := by
  rw [insert_some h]
  constructor
  · exact fun a ha => ⟨a, List.mem_append_left _ ha, hR a⟩
  · intro a ha
    rcases List.mem_append.mp ha with hold | hnew
    · exact .inl ⟨a, hold, hR a⟩
    · rw [List.mem_singleton.mp hnew]
      exact .inr hr

end SqlTable

end FailureOrchestrator
