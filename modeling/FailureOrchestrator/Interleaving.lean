import Mathlib.Data.List.Basic
import Mathlib.Logic.Function.Basic

namespace FailureOrchestrator

/-- A shared state and the processes that work on it, each with a state of its own. -/
structure Pool (ι σ τ : Type) where
  shared : σ
  task : ι → τ

namespace Pool

variable {ι σ τ : Type} [DecidableEq ι]

/-- Process `i` takes its next step. -/
def turn (act : σ → τ → σ × τ) (p : Pool ι σ τ) (i : ι) : Pool ι σ τ where
  shared := (act p.shared (p.task i)).1
  task := Function.update p.task i (act p.shared (p.task i)).2

/-- The processes take turns in the given order. -/
def run (act : σ → τ → σ × τ) (p : Pool ι σ τ) (schedule : List ι) : Pool ι σ τ := schedule.foldl (turn act) p

/-- Every turn of the schedule meets a condition on the shared state and the process whose turn it is. -/
def Along (act : σ → τ → σ × τ) (C : σ → τ → Prop) : List ι → Pool ι σ τ → Prop
  | [], _ => True
  | i :: rest, p => C p.shared (p.task i) ∧ Along act C rest (p.turn act i)

instance decidableAlong (act : σ → τ → σ × τ) (C : σ → τ → Prop) [∀ s t, Decidable (C s t)] :
    (schedule : List ι) → (p : Pool ι σ τ) → Decidable (Along act C schedule p)
  | [], _ => isTrue trivial
  | _ :: rest, p => @instDecidableAnd _ _ _ (decidableAlong act C rest (p.turn act _))

/-- A property of the shared state, one of each process, and one of any two of them. -/
structure Holds (G : σ → Prop) (L : σ → τ → Prop) (D : τ → τ → Prop) (p : Pool ι σ τ) : Prop where
  shared : G p.shared
  task : ∀ i, L p.shared (p.task i)
  pair : ∀ i j, i ≠ j → D (p.task i) (p.task j)

/-- What a step of one process keeps of the shared state, of itself, of another process, and of itself with another
one. -/
structure Noninterference (act : σ → τ → σ × τ) (C : σ → τ → Prop) (G : σ → Prop) (L : σ → τ → Prop)
    (D : τ → τ → Prop) : Prop where
  symm : ∀ t u, D t u → D u t
  shared : ∀ s t, G s → L s t → C s t → G (act s t).1
  own : ∀ s t, G s → L s t → C s t → L (act s t).1 (act s t).2
  other : ∀ s t u, G s → L s t → L s u → D t u → C s t → L (act s t).1 u
  pair : ∀ s t u, G s → L s t → L s u → D t u → C s t → D (act s t).2 u

variable {act : σ → τ → σ × τ} {C : σ → τ → Prop} {G : σ → Prop} {L : σ → τ → Prop} {D : τ → τ → Prop}

theorem turn_self {p : Pool ι σ τ} {i : ι} : (p.turn act i).task i = (act p.shared (p.task i)).2 :=
  Function.update_self ..

theorem turn_other {p : Pool ι σ τ} {i j : ι} (h : j ≠ i) : (p.turn act i).task j = p.task j :=
  Function.update_of_ne h ..

/-- What holds of the process that takes the turn, as it is then, and of the others as they were, holds of all. -/
theorem turn_forall {p : Pool ι σ τ} {i : ι} (P : ι → τ → Prop) (hself : P i (act p.shared (p.task i)).2)
    (hother : ∀ j, j ≠ i → P j (p.task j)) (j : ι) : P j ((p.turn act i).task j) := by
  by_cases hj : j = i
  · rw [hj, turn_self]
    exact hself
  · rw [turn_other hj]
    exact hother j hj

theorem turn_pair {p : Pool ι σ τ} {i : ι} (hsymm : ∀ t u, D t u → D u t)
    (hpair : ∀ j k, j ≠ k → D (p.task j) (p.task k)) (hself : ∀ k, k ≠ i → D (act p.shared (p.task i)).2 (p.task k)) :
    ∀ j k, j ≠ k → D ((p.turn act i).task j) ((p.turn act i).task k) := by
  intro j k hjk
  by_cases hj : j = i
  · rw [hj] at hjk ⊢
    rw [turn_self, turn_other (Ne.symm hjk)]
    exact hself k (Ne.symm hjk)
  · rw [turn_other hj]
    by_cases hk : k = i
    · rw [hk, turn_self]
      exact hsymm _ _ (hself j hj)
    · rw [turn_other hk]
      exact hpair j k hjk

theorem Noninterference.turn (h : Noninterference act C G L D) {p : Pool ι σ τ} (hp : p.Holds G L D) {i : ι}
    (hc : C p.shared (p.task i)) : (p.turn act i).Holds G L D where
  shared := h.shared _ _ hp.shared (hp.task i) hc
  task := turn_forall (fun _ t => L (p.turn act i).shared t) (h.own _ _ hp.shared (hp.task i) hc) fun j hj =>
    h.other _ _ _ hp.shared (hp.task i) (hp.task j) (hp.pair i j (Ne.symm hj)) hc
  pair := turn_pair h.symm hp.pair fun k hk =>
    h.pair _ _ _ hp.shared (hp.task i) (hp.task k) (hp.pair i k (Ne.symm hk)) hc

/-- The properties hold in every state that the processes reach, in whatever order they take their turns. -/
theorem Noninterference.run (h : Noninterference act C G L D) (schedule : List ι) {p : Pool ι σ τ}
    (hp : p.Holds G L D) (hc : Along act C schedule p) : (p.run act schedule).Holds G L D := by
  induction schedule generalizing p with
  | nil => exact hp
  | cons i rest ih => exact ih (h.turn hp hc.1) hc.2

theorem along_of_forall (h : ∀ s t, C s t) (schedule : List ι) (p : Pool ι σ τ) : Along act C schedule p := by
  induction schedule generalizing p with
  | nil => trivial
  | cons i rest ih => exact ⟨h _ _, ih _⟩

theorem run_append (before after : List ι) (p : Pool ι σ τ) :
    p.run act (before ++ after) = (p.run act before).run act after := List.foldl_append

/-- What every turn keeps of the processes and of their shared state, every run keeps. -/
theorem run_keeps {I : Pool ι σ τ → Prop} (hturn : ∀ p i, I p → I (p.turn act i)) (schedule : List ι) {p : Pool ι σ τ}
    (hp : I p) : I (p.run act schedule) := by
  induction schedule generalizing p with
  | nil => exact hp
  | cons i rest ih => exact ih (hturn p i hp)

end Pool

namespace Calls

variable {σ κ : Type} {step : σ → κ → σ} {C : σ → κ → Prop} {I : σ → Prop}

/-- Every call meets a condition on the state that it finds. -/
def Along (step : σ → κ → σ) (C : σ → κ → Prop) : List κ → σ → Prop
  | [], _ => True
  | c :: rest, s => C s c ∧ Along step C rest (step s c)

instance decidableAlong (step : σ → κ → σ) (C : σ → κ → Prop) [∀ s c, Decidable (C s c)] :
    (calls : List κ) → (s : σ) → Decidable (Along step C calls s)
  | [], _ => isTrue trivial
  | _ :: rest, _ => @instDecidableAnd _ _ _ (decidableAlong step C rest _)

/-- What every call keeps holds behind all of them. -/
theorem Along.foldl (hstep : ∀ s c, I s → C s c → I (step s c)) (calls : List κ) {s : σ} (hs : I s)
    (hc : Along step C calls s) : I (calls.foldl step s) := by
  induction calls generalizing s with
  | nil => exact hs
  | cons c rest ih => exact ih (hstep s c hs hc.1) hc.2

theorem foldl_keeps (hstep : ∀ s c, I s → I (step s c)) (calls : List κ) {s : σ} (hs : I s) :
    I (calls.foldl step s) := by
  induction calls generalizing s with
  | nil => exact hs
  | cons c rest ih => exact ih (hstep s c hs)

end Calls

end FailureOrchestrator
