import FailureOrchestrator.RunGate

namespace FailureOrchestrator

open RetryDecisionEngine

/-- What a run has tried so far: the attempts begun, the proposals made, the attempts on record and the decisions
taken after them. -/
structure History where
  started : Nat := 0
  proposals : List RepairProposal := []
  attempts : List AttemptRecord := []
  decisions : List RetryDecision := []

def World.history (w : World) : History := ⟨w.started, w.proposals, w.attempts, w.decisions⟩

/-- The retry budget, as it shows in the history of a run. -/
structure RetryBounded (budget : RetryBudget) (fingerprint : RepairProposal → Str) (h : History) : Prop where
  attempts_le : h.started ≤ budget.maxAttempts
  /-- Every attempt but the last one begun is on record. -/
  recorded : h.attempts.length ≤ h.started ∧ h.started ≤ h.attempts.length + 1
  fingerprints : h.attempts.map (·.proposalFingerprint) <+: h.proposals.map fingerprint
  /-- An attempt that another one follows failed, could be retried, and was decided to be. -/
  followed : ∀ i, i + 1 < h.started → ∃ a d, h.attempts[i]? = some a ∧ h.decisions[i]? = some d ∧
    a.attemptNumber = i + 1 ∧ a.evaluationPassed = false ∧ d.shouldRetry = true ∧ d.nextAttempt = i + 2 ∧
    0 ≤ d.budgetRemaining ∧ a.disposition ≠ .unrecoverable ∧ (a.disposition = .unknown → a.improved = true)
  identical : ∀ fp, (h.proposals.map fingerprint).count fp ≤ budget.maxIdenticalProposals + 1
  progress : ∀ i, i + budget.maxNoProgressAttempts < h.started →
    ∃ j a, i ≤ j ∧ j < i + budget.maxNoProgressAttempts ∧ h.attempts[j]? = some a ∧ a.improved = true

/-- The history between two attempts: `k` attempts were made, and each was decided to be retried. -/
structure Ready (budget : RetryBudget) (fingerprint : RepairProposal → Str) (k : Nat) (h : History) : Prop where
  started : h.started = k
  attempts_length : h.attempts.length = k
  decisions_length : h.decisions.length = k
  budget_left : k < budget.maxAttempts
  fingerprints : h.attempts.map (·.proposalFingerprint) = h.proposals.map fingerprint
  numbered : ∀ i a, h.attempts[i]? = some a → a.attemptNumber = i + 1
  retried : ∀ i d, h.decisions[i]? = some d →
    d.shouldRetry = true ∧ ∃ latest, Retried budget (h.attempts.take (i + 1)) d latest

/-- What an attempt under way can have added: nothing, its proposal, or its proposal and its record. -/
inductive Adds (fingerprint : RepairProposal → Str) : List RepairProposal → List AttemptRecord → Prop
  | nothing : Adds fingerprint [] []
  | proposal (p : RepairProposal) : Adds fingerprint [p] []
  | attempt {p : RepairProposal} {a : AttemptRecord} (h : a.proposalFingerprint = fingerprint p) :
    Adds fingerprint [p] [a]

variable {budget : RetryBudget} {fingerprint : RepairProposal → Str} {k : Nat} {h : History}

theorem ready_zero : Ready budget fingerprint 0 {} where
  started := rfl
  attempts_length := rfl
  decisions_length := rfl
  budget_left := budget.maxAttempts_pos
  fingerprints := rfl
  numbered _ _ ha := nomatch ha
  retried _ _ hd := nomatch hd

theorem retryBounded_empty : RetryBounded budget fingerprint {} where
  attempts_le := Nat.zero_le _
  recorded := ⟨Nat.zero_le _, Nat.zero_le _⟩
  fingerprints := List.prefix_refl []
  followed _ hi := absurd hi (Nat.not_lt_zero _)
  identical _ := Nat.zero_le _
  progress _ hi := absurd hi (Nat.not_lt_zero _)

/-- A streak shorter than the last `n` attempts leaves one of them improved. -/
theorem exists_improved_of_streak {xs : List AttemptRecord} {n : Nat} (h : noProgressStreak xs < n)
    (hn : n ≤ xs.length) :
    ∃ j a, xs.length - n ≤ j ∧ j < xs.length ∧ xs[j]? = some a ∧ a.improved = true := by
  by_contra hno
  push Not at hno
  have hall : ∀ a ∈ (xs.drop (xs.length - n)).reverse, (!a.improved) = true := by
    intro a ha
    obtain ⟨i, hi⟩ := List.mem_iff_getElem?.mp (List.mem_reverse.mp ha)
    rw [List.getElem?_drop] at hi
    obtain ⟨hlt, -⟩ := List.getElem?_eq_some_iff.mp hi
    have := hno (xs.length - n + i) a (by omega) hlt hi
    simpa using this
  have hsplit : xs.reverse = (xs.drop (xs.length - n)).reverse ++ (xs.take (xs.length - n)).reverse := by
    rw [← List.reverse_append, List.take_append_drop]
  unfold noProgressStreak at h
  rw [hsplit, List.takeWhile_append_of_pos hall, List.length_append, List.length_reverse, List.length_drop] at h
  omega

namespace Ready

variable (hr : Ready budget fingerprint k h)

include hr

/-- The attempt and the decision at a position below `k`. -/
theorem at_index {i : Nat} (hi : i < k) : ∃ a d, h.attempts[i]? = some a ∧ h.decisions[i]? = some d ∧
    d.shouldRetry = true ∧ Retried budget (h.attempts.take (i + 1)) d a := by
  have hia : i < h.attempts.length := by rw [hr.attempts_length]; exact hi
  have hid : i < h.decisions.length := by rw [hr.decisions_length]; exact hi
  have hd : h.decisions[i]? = some h.decisions[i] := List.getElem?_eq_getElem hid
  have ha : h.attempts[i]? = some h.attempts[i] := List.getElem?_eq_getElem hia
  obtain ⟨hretry, latest, hlatest⟩ := hr.retried i _ hd
  have hlast : (h.attempts.take (i + 1)).getLast? = some h.attempts[i] := by
    rw [List.take_succ_eq_append_getElem hia, List.getLast?_concat]
  have heq : latest = h.attempts[i] := Option.some.inj (hlatest.last.symm.trans hlast)
  exact ⟨_, _, ha, hd, hretry, heq ▸ hlatest⟩

theorem count_take_le {j : Nat} (hj : j ≤ k) (fp : Str) :
    fingerprintCount (h.attempts.take j) fp ≤ budget.maxIdenticalProposals := by
  induction j with
  | zero => exact Nat.zero_le _
  | succ j ih =>
    obtain ⟨a, d, ha, -, -, hretried⟩ := hr.at_index (Nat.lt_of_succ_le hj)
    by_cases hfp : a.proposalFingerprint = fp
    · exact hfp ▸ hretried.proposals
    · have htake : h.attempts.take (j + 1) = h.attempts.take j ++ [a] := by
        rw [List.take_add_one, ha]
        rfl
      have hprior := ih (by omega)
      unfold fingerprintCount at hprior ⊢
      rw [htake, List.map_append, List.count_append, List.map_singleton, List.count_singleton, if_neg (by simpa using hfp)]
      exact hprior

theorem count_le (fp : Str) : (h.proposals.map fingerprint).count fp ≤ budget.maxIdenticalProposals := by
  rw [← hr.fingerprints]
  have hcount := hr.count_take_le (Nat.le_refl k) fp
  rwa [List.take_of_length_le (by rw [hr.attempts_length])] at hcount

theorem exists_improved {i : Nat} (hi : i + budget.maxNoProgressAttempts ≤ k) :
    ∃ j a, i ≤ j ∧ j < i + budget.maxNoProgressAttempts ∧ h.attempts[j]? = some a ∧ a.improved = true := by
  have hpos := budget.maxNoProgressAttempts_pos
  obtain ⟨a, d, -, -, -, hretried⟩ := hr.at_index (i := i + budget.maxNoProgressAttempts - 1) (by omega)
  have hlen : (h.attempts.take (i + budget.maxNoProgressAttempts - 1 + 1)).length =
      i + budget.maxNoProgressAttempts := by
    rw [List.length_take, hr.attempts_length]
    omega
  obtain ⟨j, b, hlow, hhigh, hb, himproved⟩ := exists_improved_of_streak hretried.streak (by omega)
  rw [List.getElem?_take_of_lt (by omega)] at hb
  exact ⟨j, b, by omega, by omega, hb, himproved⟩

/-- The history while attempt `k + 1` is under way stays within the budget. -/
theorem bounded {ps : List RepairProposal} {as : List AttemptRecord} {ds : List RetryDecision}
    (hadds : Adds fingerprint ps as) :
    RetryBounded budget fingerprint ⟨k + 1, h.proposals ++ ps, h.attempts ++ as, h.decisions ++ ds⟩ := by
  have hps : ps.length ≤ 1 := by cases hadds <;> simp
  have has : as.map (·.proposalFingerprint) <+: ps.map fingerprint := by
    cases hadds with
    | nothing => exact List.prefix_refl []
    | proposal p => exact List.nil_prefix
    | attempt hfp => rw [List.map_singleton, List.map_singleton, hfp]
  have hlen : as.length ≤ ps.length := by simpa using has.length_le
  have hal := hr.attempts_length
  have hdl := hr.decisions_length
  constructor
  · exact hr.budget_left
  · simp only [List.length_append]
    omega
  · rw [List.map_append, List.map_append, hr.fingerprints]
    exact (List.prefix_append_right_inj _).mpr has
  · intro i hi
    obtain ⟨a, d, ha, hd, hretry, hretried⟩ := hr.at_index (i := i) (by simp only at hi; omega)
    have htake : (h.attempts.take (i + 1)).length = i + 1 := by
      rw [List.length_take]
      simp only at hi
      omega
    refine ⟨a, d, ?_, ?_, hr.numbered i a ha, hretried.failed, hretry, ?_, ?_, hretried.recoverable, hretried.known⟩
    · exact (List.getElem?_append_left (by simp only at hi; omega)).trans ha
    · exact (List.getElem?_append_left (by simp only at hi; omega)).trans hd
    · rw [hretried.next, htake]
    · rw [hretried.remaining, htake]
      have hbudget := hretried.budget_left
      rw [htake] at hbudget
      omega
  · intro fp
    have hcount := hr.count_le fp
    have hextra : (ps.map fingerprint).count fp ≤ 1 := by
      refine Nat.le_trans List.count_le_length ?_
      rwa [List.length_map]
    rw [List.map_append, List.count_append]
    omega
  · intro i hi
    obtain ⟨j, a, hlow, hhigh, ha, himproved⟩ := hr.exists_improved (i := i) (by simp only at hi; omega)
    have hj : j < h.attempts.length := (List.getElem?_eq_some_iff.mp ha).1
    exact ⟨j, a, hlow, hhigh, (List.getElem?_append_left hj).trans ha, himproved⟩

/-- A decision to retry makes the run ready for the next attempt. -/
theorem next {p : RepairProposal} {a : AttemptRecord} {evaluation : EvaluationResult}
    (hfp : a.proposalFingerprint = fingerprint p) (hnumber : a.attemptNumber = k + 1)
    (hretry : (decide budget (h.attempts ++ [a]) evaluation).shouldRetry = true) :
    Ready budget fingerprint (k + 1) ⟨k + 1, h.proposals ++ [p], h.attempts ++ [a],
      h.decisions ++ [decide budget (h.attempts ++ [a]) evaluation]⟩ := by
  have hal := hr.attempts_length
  have hdl := hr.decisions_length
  obtain ⟨latest, hretried⟩ := decide_retried hretry
  constructor
  · rfl
  · simp [hal]
  · simp [hdl]
  · have hbudget := hretried.budget_left
    rw [List.length_append, hal] at hbudget
    exact hbudget
  · simp [hr.fingerprints, hfp]
  · intro i b hb
    simp only at hb
    by_cases hi : i < h.attempts.length
    · rw [List.getElem?_append_left hi] at hb
      exact hr.numbered i b hb
    · rw [List.getElem?_append_right (by omega)] at hb
      obtain ⟨hz, heq⟩ := List.getElem?_eq_some_iff.mp hb
      rw [List.length_singleton] at hz
      have hik : i = k := by omega
      rw [hik, ← hnumber, ← heq]
      simp [hik, hal]
  · intro i d hd
    simp only at hd ⊢
    by_cases hi : i < h.decisions.length
    · rw [List.getElem?_append_left hi] at hd
      rw [List.take_append_of_le_length (by omega)]
      exact hr.retried i d hd
    · rw [List.getElem?_append_right (by omega)] at hd
      obtain ⟨hz, heq⟩ := List.getElem?_eq_some_iff.mp hd
      rw [List.length_singleton] at hz
      have hik : i = k := by omega
      have hdeq : d = decide budget (h.attempts ++ [a]) evaluation := by
        rw [← heq]
        simp [hik, hdl]
      rw [List.take_of_length_le (by simp; omega), hdeq]
      exact ⟨hretry, latest, hretried⟩

end Ready

end FailureOrchestrator
