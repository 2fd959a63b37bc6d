import FailureOrchestrator.RegexFirst
import Mathlib.Data.List.Forall2

namespace FailureOrchestrator

namespace Regex

/-- A text that a literal matches under `(?i)`. -/
def FoldsTo (u w : Str) : Prop := List.Forall₂ (fun c x => sameFold c x = true) u w

instance (u w : Str) : Decidable (FoldsTo u w) := inferInstanceAs (Decidable (List.Forall₂ _ u w))

theorem FoldsTo.length_eq {u w : Str} (h : FoldsTo u w) : w.length = u.length := (List.Forall₂.length_eq h).symm

variable [UnicodeData] {r s : Regex} {rs : List Regex} {m m' : Cursor} {p : Char → Bool} {b x : Str}
  {g : List (Nat × Str)}

theorem mem_cls_iff : m' ∈ (Regex.cls p).matchesAt ⟨b, x, g⟩ ↔ ∃ c v, x = c :: v ∧ p c = true ∧ m' = ⟨c :: b, v, g⟩ := by
  cases x with
  | nil => simp [matchesAt, stepChar]
  | cons c v =>
    by_cases hc : p c = true
    · simp [matchesAt, stepChar, hc]
    · simp [matchesAt, stepChar, hc]

theorem mem_seq_iff : m' ∈ (Regex.seq r s).matchesAt m ↔ ∃ m₁ ∈ r.matchesAt m, m' ∈ s.matchesAt m₁ := List.mem_flatMap

theorem mem_cat_nil_iff : m' ∈ (cat []).matchesAt m ↔ m' = m := List.mem_singleton

theorem mem_cat_cons_iff : m' ∈ (cat (r :: rs)).matchesAt m ↔ ∃ m₁ ∈ r.matchesAt m, m' ∈ (cat rs).matchesAt m₁ :=
  List.mem_flatMap

theorem mem_alt_iff : m' ∈ (Regex.alt r s).matchesAt m ↔ m' ∈ r.matchesAt m ∨ m' ∈ s.matchesAt m := List.mem_append

theorem mem_opt_iff : m' ∈ (opt r).matchesAt m ↔ m' ∈ r.matchesAt m ∨ m' = m := by
  rw [matchesAt_opt, List.mem_append, List.mem_singleton]

theorem mem_anyOf_iff : m' ∈ (anyOf rs).matchesAt m ↔ ∃ r ∈ rs, m' ∈ r.matchesAt m := by
  induction rs with
  | nil =>
    obtain ⟨b, x, g⟩ := m
    simp [anyOf, mem_cls_iff]
  | cons r rs ih =>
    cases rs with
    | nil => simp [anyOf]
    | cons r' rs =>
      rw [anyOf, mem_alt_iff, ih]
      simp

theorem mem_wordB_iff : m' ∈ Regex.wordB.matchesAt m ↔ atWordBoundary m = true ∧ m' = m := by
  simp only [matchesAt]
  split
  · next h => simp [h]
  · next h => simp [h]

theorem mem_text_iff {t : Str} : m' ∈ (text t).matchesAt ⟨b, x, g⟩ ↔ ∃ v, x = t ++ v ∧ m' = ⟨t.reverse ++ b, v, g⟩ := by
  rw [matchesAt_text]
  constructor
  · intro h
    unfold Cursor.readText at h
    split at h
    · next hp =>
      obtain ⟨v, hv⟩ := List.isPrefixOf_iff_prefix.mp hp
      refine ⟨v, hv.symm, ?_⟩
      rw [List.mem_singleton.mp h]
      dsimp only at hv ⊢
      rw [← hv, List.drop_left]
    · cases h
  · rintro ⟨v, rfl, rfl⟩
    rw [readText_append]
    exact List.mem_singleton_self _

theorem mem_lit_iff {u : String} :
    m' ∈ (lit u).matchesAt ⟨b, x, g⟩ ↔ ∃ v, x = u.toList ++ v ∧ m' = ⟨u.toList.reverse ++ b, v, g⟩ := mem_text_iff

theorem mem_ilit_iff {u : String} : m' ∈ (ilit u).matchesAt ⟨b, x, g⟩ ↔
    ∃ w v, x = w ++ v ∧ FoldsTo u.toList w ∧ m' = ⟨w.reverse ++ b, v, g⟩ := by
  unfold ilit
  generalize u.toList = t
  induction t generalizing b x with
  | nil =>
    rw [List.foldr_nil]
    constructor
    · intro h
      exact ⟨[], x, rfl, .nil, List.mem_singleton.mp h⟩
    · rintro ⟨w, v, rfl, hw, rfl⟩
      cases hw
      exact List.mem_singleton_self _
  | cons c t ih =>
    rw [List.foldr_cons, mem_seq_iff]
    constructor
    · rintro ⟨m₁, hm₁, h⟩
      obtain ⟨d, v, rfl, hd, rfl⟩ := mem_cls_iff.mp hm₁
      obtain ⟨w, v, rfl, hw, rfl⟩ := ih.mp h
      exact ⟨d :: w, v, rfl, .cons hd hw, by simp⟩
    · rintro ⟨w, v, rfl, hw, rfl⟩
      cases hw with
      | cons hd hw =>
        refine ⟨_, mem_cls_iff.mpr ⟨_, _, rfl, hd, rfl⟩, ih.mpr ⟨_, v, rfl, hw, ?_⟩⟩
        simp

theorem mem_grp_iff {n : Nat} :
    m' ∈ (Regex.grp n r).matchesAt m ↔ ∃ m₁ ∈ r.matchesAt m, m' = m₁.capture n (m.readTo m₁) := by
  simp only [matchesAt, List.mem_map, eq_comm]

/-- A repeated class reads any part of the run. -/
theorem mem_star_cls_iff {greedy : Bool} : m' ∈ (Regex.star greedy (.cls p)).matchesAt ⟨b, x, g⟩ ↔
    ∃ u v, x = u ++ v ∧ (∀ c ∈ u, p c = true) ∧ m' = ⟨u.reverse ++ b, v, g⟩ := by
  have hall : ∀ fuel b x, x.length ≤ fuel → (m' ∈ iterate (Regex.cls p).matchesAt greedy fuel ⟨b, x, g⟩ ↔
      ∃ u v, x = u ++ v ∧ (∀ c ∈ u, p c = true) ∧ m' = ⟨u.reverse ++ b, v, g⟩) := by
    intro fuel
    induction fuel with
    | zero =>
      intro b x hx
      obtain rfl := List.eq_nil_of_length_eq_zero (Nat.le_zero.mp hx)
      constructor
      · intro h
        exact ⟨[], [], rfl, by simp, List.mem_singleton.mp h⟩
      · rintro ⟨u, v, huv, -, rfl⟩
        obtain ⟨rfl, rfl⟩ := List.append_eq_nil_iff.mp huv.symm
        exact List.mem_singleton_self _
    | succ fuel ih =>
      intro b x hx
      have hstep : m' ∈ iterate (Regex.cls p).matchesAt greedy (fuel + 1) ⟨b, x, g⟩ ↔
          m' = ⟨b, x, g⟩ ∨ ∃ c v, x = c :: v ∧ p c = true ∧ m' ∈ iterate (Regex.cls p).matchesAt greedy fuel ⟨c :: b, v, g⟩ := by
        have hmore : m' ∈ ((Regex.cls p).matchesAt ⟨b, x, g⟩).flatMap (fun m₁ =>
            if m₁.rest.length < x.length then iterate (Regex.cls p).matchesAt greedy fuel m₁ else []) ↔
            ∃ c v, x = c :: v ∧ p c = true ∧ m' ∈ iterate (Regex.cls p).matchesAt greedy fuel ⟨c :: b, v, g⟩ := by
          rw [List.mem_flatMap]
          constructor
          · rintro ⟨m₁, hm₁, h⟩
            obtain ⟨c, v, rfl, hc, rfl⟩ := mem_cls_iff.mp hm₁
            rw [if_pos (by simp)] at h
            exact ⟨c, v, rfl, hc, h⟩
          · rintro ⟨c, v, rfl, hc, h⟩
            refine ⟨_, mem_cls_iff.mpr ⟨c, v, rfl, hc, rfl⟩, ?_⟩
            rw [if_pos (by simp)]
            exact h
        cases greedy with
        | true =>
          change m' ∈ _ ++ [Cursor.mk b x g] ↔ _
          rw [List.mem_append, hmore, List.mem_singleton, or_comm]
        | false =>
          change m' ∈ Cursor.mk b x g :: _ ↔ _
          rw [List.mem_cons, hmore]
      rw [hstep]
      constructor
      · rintro (rfl | ⟨c, v, rfl, hc, h⟩)
        · exact ⟨[], x, rfl, by simp, rfl⟩
        · obtain ⟨u, v, rfl, hu, rfl⟩ := (ih (c :: b) v (by simpa using hx)).mp h
          exact ⟨c :: u, v, rfl, List.forall_mem_cons.mpr ⟨hc, hu⟩, by simp⟩
      · rintro ⟨u, v, rfl, hu, rfl⟩
        cases u with
        | nil => exact .inl rfl
        | cons c u =>
          rw [List.forall_mem_cons] at hu
          refine .inr ⟨c, u ++ v, rfl, hu.1, (ih (c :: b) (u ++ v) (by simpa using hx)).mpr ⟨u, v, rfl, hu.2, ?_⟩⟩
          simp
  exact hall x.length b x (le_refl _)

theorem mem_some1_cls_iff : m' ∈ (some1 (.cls p)).matchesAt ⟨b, x, g⟩ ↔
    ∃ u v, x = u ++ v ∧ u ≠ [] ∧ (∀ c ∈ u, p c = true) ∧ m' = ⟨u.reverse ++ b, v, g⟩ := by
  unfold some1 many
  rw [mem_seq_iff]
  constructor
  · rintro ⟨m₁, hm₁, h⟩
    obtain ⟨c, v, rfl, hc, rfl⟩ := mem_cls_iff.mp hm₁
    obtain ⟨u, v, rfl, hu, rfl⟩ := mem_star_cls_iff.mp h
    exact ⟨c :: u, v, rfl, by simp, List.forall_mem_cons.mpr ⟨hc, hu⟩, by simp⟩
  · rintro ⟨u, v, rfl, hne, hu, rfl⟩
    cases u with
    | nil => exact absurd rfl hne
    | cons c u =>
      rw [List.forall_mem_cons] at hu
      refine ⟨_, mem_cls_iff.mpr ⟨c, u ++ v, rfl, hu.1, rfl⟩, mem_star_cls_iff.mpr ⟨u, v, rfl, hu.2, ?_⟩⟩
      simp

theorem mem_exactly_cls_iff {n : Nat} : m' ∈ (exactly n (.cls p)).matchesAt ⟨b, x, g⟩ ↔
    ∃ u v, x = u ++ v ∧ u.length = n ∧ (∀ c ∈ u, p c = true) ∧ m' = ⟨u.reverse ++ b, v, g⟩ := by
  induction n generalizing b x with
  | zero =>
    unfold exactly
    constructor
    · intro h
      exact ⟨[], x, rfl, rfl, by simp, List.mem_singleton.mp h⟩
    · rintro ⟨u, v, rfl, hu, -, rfl⟩
      obtain rfl := List.eq_nil_of_length_eq_zero hu
      exact List.mem_singleton_self _
  | succ n ih =>
    unfold exactly
    rw [mem_seq_iff]
    constructor
    · rintro ⟨m₁, hm₁, h⟩
      obtain ⟨c, v, rfl, hc, rfl⟩ := mem_cls_iff.mp hm₁
      obtain ⟨u, v, rfl, hlen, hu, rfl⟩ := ih.mp h
      exact ⟨c :: u, v, rfl, by simp [hlen], List.forall_mem_cons.mpr ⟨hc, hu⟩, by simp⟩
    · rintro ⟨u, v, rfl, hlen, hu, rfl⟩
      cases u with
      | nil => simp at hlen
      | cons c u =>
        rw [List.forall_mem_cons] at hu
        refine ⟨_, mem_cls_iff.mpr ⟨c, u ++ v, rfl, hu.1, rfl⟩, ih.mpr ⟨u, v, rfl, by simpa using hlen, hu.2, ?_⟩⟩
        simp

theorem mem_atLeast_cls_iff {n : Nat} : m' ∈ (atLeast n (.cls p)).matchesAt ⟨b, x, g⟩ ↔
    ∃ u v, x = u ++ v ∧ n ≤ u.length ∧ (∀ c ∈ u, p c = true) ∧ m' = ⟨u.reverse ++ b, v, g⟩ := by
  unfold atLeast many
  rw [mem_seq_iff]
  constructor
  · rintro ⟨m₁, hm₁, h⟩
    obtain ⟨u₁, v, rfl, hlen, hu₁, rfl⟩ := mem_exactly_cls_iff.mp hm₁
    obtain ⟨u₂, v, rfl, hu₂, rfl⟩ := mem_star_cls_iff.mp h
    refine ⟨u₁ ++ u₂, v, by simp, by simp [hlen], ?_, by simp⟩
    exact List.forall_mem_append.mpr ⟨hu₁, hu₂⟩
  · rintro ⟨u, v, rfl, hlen, hu, rfl⟩
    have hsplit : u = u.take n ++ u.drop n := (List.take_append_drop n u).symm
    refine ⟨_, mem_exactly_cls_iff.mpr ⟨u.take n, u.drop n ++ v, ?_, ?_, fun c hc => hu c (List.mem_of_mem_take hc), rfl⟩,
      mem_star_cls_iff.mpr ⟨u.drop n, v, rfl, fun c hc => hu c (List.mem_of_mem_drop hc), ?_⟩⟩
    · rw [← List.append_assoc, List.take_append_drop]
    · rw [List.length_take]
      omega
    · rw [← List.append_assoc, ← List.reverse_append, List.take_append_drop]

end Regex

end FailureOrchestrator
