import FailureOrchestrator.Exec
import Mathlib.Data.List.Perm.Basic

namespace FailureOrchestrator

section

variable {α ε : Type} {lt : α → α → Except ε Bool} {x : α} {xs ys : List α}

/-- Puts a value before the first one that is not below it. -/
def insertSorted (lt : α → α → Except ε Bool) (x : α) : List α → Except ε (List α)
  | [] => .ok [x]
  | y :: ys => do
    if ← lt y x then
      let zs ← insertSorted lt x ys
      pure (y :: zs)
    else pure (x :: y :: ys)

/-- `sorted(xs)` with a comparison that may raise an exception. -/
def pySorted (lt : α → α → Except ε Bool) : List α → Except ε (List α)
  | [] => .ok []
  | x :: xs => do insertSorted lt x (← pySorted lt xs)

theorem insertSorted_perm {zs : List α} (h : insertSorted lt x ys = .ok zs) : zs.Perm (x :: ys) := by
  induction ys generalizing zs with
  | nil =>
    cases h
    exact .refl _
  | cons y ys ih =>
    obtain ⟨below, -, hrest⟩ := bind_eq_ok h
    cases below with
    | false =>
      cases hrest
      exact .refl _
    | true =>
      obtain ⟨zs', hzs, hcons⟩ := bind_eq_ok hrest
      cases hcons
      exact ((ih hzs).cons y).trans (List.Perm.swap x y ys)

theorem pySorted_perm (h : pySorted lt xs = .ok ys) : ys.Perm xs := by
  induction xs generalizing ys with
  | nil =>
    cases h
    exact .refl _
  | cons x xs ih =>
    obtain ⟨zs, hzs, hinsert⟩ := bind_eq_ok h
    exact (insertSorted_perm hinsert).trans ((ih hzs).cons x)

/-- The comparison of two values ends without an exception exactly when they have one of the same kind. -/
structure ComparesBy {κ : Type} (lt : α → α → Except ε Bool) (kind : α → Option κ) : Prop where
  ok_iff : ∀ a b, (∃ r, lt a b = .ok r) ↔ ∃ k, kind a = some k ∧ kind b = some k

variable {κ : Type} {kind : α → Option κ}

theorem insertSorted_ok (hlt : ComparesBy lt kind) {k : κ} (hx : kind x = some k) (hys : ∀ y ∈ ys, kind y = some k) :
    ∃ zs, insertSorted lt x ys = .ok zs := by
  induction ys with
  | nil => exact ⟨_, rfl⟩
  | cons y ys ih =>
    obtain ⟨hy, hrest⟩ := List.forall_mem_cons.mp hys
    obtain ⟨below, hbelow⟩ := (hlt.ok_iff y x).mpr ⟨k, hy, hx⟩
    cases below with
    | false => exact ⟨_, bind_ok hbelow rfl⟩
    | true =>
      obtain ⟨zs, hzs⟩ := ih hrest
      exact ⟨_, bind_ok hbelow (bind_ok hzs rfl)⟩

/-- Sorting two or more values ends without an exception exactly when all are of one kind. -/
theorem pySorted_ok_iff (hlt : ComparesBy lt kind) (a b : α) :
    (∃ ys, pySorted lt (a :: b :: xs) = .ok ys) ↔ ∃ k, ∀ x ∈ a :: b :: xs, kind x = some k := by
  constructor
  · rintro ⟨ys, h⟩
    induction xs generalizing a b ys with
    | nil =>
      obtain ⟨zs, hzs, hinsert⟩ := bind_eq_ok h
      cases hzs
      obtain ⟨below, hbelow, -⟩ := bind_eq_ok hinsert
      obtain ⟨k, hb, ha⟩ := (hlt.ok_iff b a).mp ⟨below, hbelow⟩
      exact ⟨k, by simp [ha, hb]⟩
    | cons c xs ih =>
      obtain ⟨zs, hzs, hinsert⟩ := bind_eq_ok h
      obtain ⟨k, hk⟩ := ih b c zs hzs
      have hperm := pySorted_perm hzs
      cases zs with
      | nil => exact absurd hperm.length_eq (by simp)
      | cons z zs =>
        obtain ⟨below, hbelow, -⟩ := bind_eq_ok hinsert
        obtain ⟨k', hz, ha⟩ := (hlt.ok_iff z a).mp ⟨below, hbelow⟩
        rw [hk z (hperm.mem_iff.mp List.mem_cons_self)] at hz
        cases hz
        exact ⟨k, List.forall_mem_cons.mpr ⟨ha, hk⟩⟩
  · rintro ⟨k, hk⟩
    have hsorted : ∀ l : List α, (∀ x ∈ l, kind x = some k) → ∃ ys, pySorted lt l = .ok ys := by
      intro l hl
      induction l with
      | nil => exact ⟨[], rfl⟩
      | cons x l ih =>
        obtain ⟨hx, hrest⟩ := List.forall_mem_cons.mp hl
        obtain ⟨ys, hys⟩ := ih hrest
        have hkinds : ∀ y ∈ ys, kind y = some k := fun y hy => hrest y ((pySorted_perm hys).mem_iff.mp hy)
        obtain ⟨zs, hzs⟩ := insertSorted_ok hlt hx hkinds
        exact ⟨zs, bind_ok hys hzs⟩
    exact hsorted _ hk

/-- An exception that sorting raises comes from a comparison. -/
theorem pySorted_error {p : ε → Prop} (hlt : ∀ a b e, lt a b = .error e → p e) {e : ε} (h : pySorted lt xs = .error e) :
    p e := by
  have hinsert : ∀ (x : α) (ys : List α), insertSorted lt x ys = .error e → p e := by
    intro x ys
    induction ys with
    | nil => exact fun h => nomatch h
    | cons y ys ih =>
      intro h
      rcases bind_eq_error h with hbelow | ⟨below, -, hrest⟩
      · exact hlt y x e hbelow
      · cases below with
        | false => cases hrest
        | true =>
          rcases bind_eq_error hrest with htail | ⟨zs, -, hcons⟩
          · exact ih htail
          · cases hcons
  induction xs with
  | nil => cases h
  | cons x xs ih =>
    rcases bind_eq_error h with hrest | ⟨ys, -, htop⟩
    · exact ih hrest
    · exact hinsert x ys htop

end

end FailureOrchestrator
