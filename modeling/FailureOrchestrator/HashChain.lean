import Mathlib.Data.List.Induction

namespace FailureOrchestrator

/-- An entry of a hash chain: what it says the entry before it was stored under, what its own hash is taken of, and what
it is stored under. -/
structure ChainLink (B D : Type) where
  prev : D
  body : B
  stored : D
  deriving DecidableEq

namespace HashChain

variable {B D : Type} [DecidableEq D] {hash : B → D}

/-- The hash that a chain of entries ends with, if each entry refers to the one before it and is stored under the hash of
its body. -/
def verify (hash : B → D) : D → List (ChainLink B D) → Option D
  | last, [] => some last
  | last, l :: rest => if l.prev = last ∧ hash l.body = l.stored then verify hash l.stored rest else none

theorem verify_cons {last d : D} {l : ChainLink B D} {rest : List (ChainLink B D)} :
    verify hash last (l :: rest) = some d ↔ l.prev = last ∧ hash l.body = l.stored ∧ verify hash l.stored rest = some d := by
  rw [verify]
  split
  next h => exact ⟨fun hrest => ⟨h.1, h.2, hrest⟩, fun hrest => hrest.2.2⟩
  next h => exact ⟨nofun, fun hrest => absurd ⟨hrest.1, hrest.2.1⟩ h⟩

/-- An entry behind a chain. -/
theorem verify_concat {last d : D} {ls : List (ChainLink B D)} {l : ChainLink B D} :
    verify hash last (ls ++ [l]) = some d ↔
      verify hash last ls = some l.prev ∧ hash l.body = l.stored ∧ l.stored = d := by
  induction ls generalizing last with
  | nil =>
    rw [List.nil_append, verify_cons, verify, verify, Option.some_inj, Option.some_inj]
    exact and_congr_left fun _ => eq_comm
  | cons k ls ih =>
    rw [List.cons_append, verify_cons, verify_cons, ih]
    simp only [and_assoc]

/-- Chains of one length that end with the same hash are the same, or differ in two bodies with the same hash, one for one
at the same place. -/
theorem verify_diverges {first last : D} {ls ks : List (ChainLink B D)}
    (hprev : ∀ l ∈ ls, ∀ k ∈ ks, l.body = k.body → l.prev = k.prev) (hls : verify hash first ls = some last)
    (hks : verify hash first ks = some last) (hlength : ls.length = ks.length) :
    ls = ks ∨ ∃ (i : Nat) (l k : ChainLink B D), ls[i]? = some l ∧ ks[i]? = some k ∧ l.body ≠ k.body ∧ hash l.body = hash k.body := by
  induction ls using List.reverseRecOn generalizing ks last with
  | nil => exact .inl (List.length_eq_zero_iff.mp hlength.symm).symm
  | append_singleton ls l ih =>
    obtain rfl | ⟨ks, k, rfl⟩ := List.eq_nil_or_concat ks
    · simp at hlength
    · rw [List.length_concat, List.length_append, List.length_singleton] at hlength
      rw [List.concat_eq_append] at hks hprev ⊢
      have hsame : ls.length = ks.length := by omega
      obtain ⟨hbefore, hl, hstored⟩ := verify_concat.mp hls
      obtain ⟨hbefore', hk, hstored'⟩ := verify_concat.mp hks
      by_cases hbody : l.body = k.body
      · have hlast : l.prev = k.prev := hprev l (by simp) k (by simp) hbody
        have hlk : l = k := by
          obtain ⟨prev, body, stored⟩ := l
          obtain ⟨prev', body', stored'⟩ := k
          cases hbody
          cases hlast
          cases hstored
          cases hstored'
          rfl
        rw [hlast] at hbefore
        rcases ih (fun l hl k hk => hprev l (List.mem_append_left _ hl) k (List.mem_append_left _ hk)) hbefore hbefore'
          hsame with heq | ⟨i, l', k', hi, hi', hne, hhash⟩
        · exact .inl (by rw [heq, hlk])
        · refine .inr ⟨i, l', k', ?_, ?_, hne, hhash⟩
          · rw [List.getElem?_append_left (List.getElem?_eq_some_iff.mp hi).1, hi]
          · rw [List.getElem?_append_left (List.getElem?_eq_some_iff.mp hi').1, hi']
      · refine .inr ⟨ls.length, l, k, List.getElem?_concat_length, ?_, hbody, ?_⟩
        · rw [hsame]
          exact List.getElem?_concat_length
        · rw [hl, hk, hstored, hstored']

end HashChain

end FailureOrchestrator
