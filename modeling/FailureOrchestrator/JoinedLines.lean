import FailureOrchestrator.RegexSub

namespace FailureOrchestrator

namespace Regex

variable [UnicodeData]

/-- A pattern is found where it matches at some position. -/
theorem found_iff {r : Regex} (hr : r.Consumes) {s : Str} :
    found r s = true ↔ ∃ u v m', s = u ++ v ∧ m' ∈ r.matchesAt ⟨u.reverse, v, []⟩ := by
  unfold found search
  rw [Option.isSome_map]
  cases hs : searchFrom r [] s with
  | some p =>
    obtain ⟨i, m⟩ := p
    obtain ⟨u, v, rfl, rfl, hm, -⟩ := searchFrom_eq_some hs
    rw [List.append_nil] at hm
    exact iff_of_true rfl ⟨u, v, m, rfl, List.mem_of_head? hm⟩
  | none =>
    refine iff_of_false (by simp) ?_
    rintro ⟨u, v, m', rfl, hm⟩
    have hne : v ≠ [] := by
      rintro rfl
      exact absurd (hr _ _ hm) (Nat.not_lt_zero _)
    have hfree := searchFrom_eq_none hs u v rfl hne
    rw [List.append_nil, List.append_nil] at hfree
    rw [hfree] at hm
    cases hm

theorem found_nil {r : Regex} (hr : r.Consumes) : found r [] = false := by
  rw [← Bool.not_eq_true, found_iff hr]
  rintro ⟨u, v, m', hnil, hm⟩
  obtain ⟨rfl, rfl⟩ := List.append_eq_nil_iff.mp hnil.symm
  exact absurd (hr _ _ hm) (Nat.not_lt_zero _)

theorem isWord_newline : isWord '\n' = false := by
  unfold isWord
  rw [UnicodeData.isAlnum_ascii '\n' (by decide)]
  decide

end Regex

/-- The text ends where a line begins. -/
def EndsLine (s : Str) : Prop := ∀ c ∈ s.getLast?, c = '\n'

/-- The text begins where a line ends. -/
def BeginsLine (s : Str) : Prop := ∀ c ∈ s.head?, c = '\n'

/-- A text within one line of joined lines stands in that line. -/
theorem joinWith_line {ls : List Str} {u s v : Str} (hs : s ≠ []) (hn : '\n' ∉ s)
    (h : joinWith ['\n'] ls = u ++ (s ++ v)) :
    ∃ pu lu lv pv, lu ++ (s ++ lv) ∈ ls ∧ u = pu ++ lu ∧ v = lv ++ pv ∧ EndsLine pu ∧ BeginsLine pv := by
  induction ls generalizing u with
  | nil =>
    have hnil : s = [] := by
      unfold joinWith at h
      simp only [List.nil_eq, List.append_eq_nil_iff] at h
      exact h.2.1
    exact absurd hnil hs
  | cons l ls ih =>
    cases ls with
    | nil => exact ⟨[], u, v, [], by rw [← h]; exact List.mem_singleton_self _, rfl, by simp, by simp [EndsLine], by simp [BeginsLine]⟩
    | cons l' ls =>
      have hjoin : l ++ '\n' :: joinWith ['\n'] (l' :: ls) = u ++ (s ++ v) := by
        rw [← h]
        simp [joinWith]
      rcases List.append_eq_append_iff.mp hjoin with ⟨w, rfl, hrest⟩ | ⟨w, rfl, hrest⟩
      · -- The text begins behind the first line.
        cases w with
        | nil =>
          cases s with
          | nil => exact absurd rfl hs
          | cons c s =>
            have hc : c = '\n' := (List.cons.inj hrest).1.symm
            rw [hc] at hn
            exact absurd List.mem_cons_self hn
        | cons c w =>
          obtain ⟨rfl, htail⟩ := List.cons.inj hrest
          obtain ⟨pu, lu, lv, pv, hmem, rfl, rfl, hpu, hpv⟩ := ih htail
          refine ⟨l ++ '\n' :: pu, lu, lv, pv, List.mem_cons_of_mem _ hmem, by simp, rfl, ?_, hpv⟩
          intro c hc
          rw [List.getLast?_append, List.getLast?_cons] at hc
          cases hlast : pu.getLast? with
          | none =>
            rw [hlast] at hc
            exact (Option.some.inj hc).symm
          | some d =>
            rw [hlast] at hc
            obtain rfl : d = c := Option.some.inj hc
            exact hpu d hlast
      · rcases List.append_eq_append_iff.mp hrest with ⟨w', rfl, hv⟩ | ⟨w', rfl, hw⟩
        · refine ⟨[], u, w', '\n' :: joinWith ['\n'] (l' :: ls), List.mem_cons_self, rfl, hv, by simp [EndsLine], ?_⟩
          intro c hc
          exact (Option.some.inj hc).symm
        · cases w' with
          | nil =>
            refine ⟨[], u, [], v, by simp, rfl, rfl, by simp [EndsLine], ?_⟩
            intro c hc
            rw [← show '\n' :: joinWith ['\n'] (l' :: ls) = v from hw] at hc
            exact (Option.some.inj hc).symm
          | cons c w' =>
            have hc : '\n' = c := (List.cons.inj hw).1
            exact absurd (List.mem_append_right _ (hc ▸ List.mem_cons_self)) hn

theorem joinWith_append {sep : Str} {ls ms : List Str} (hls : ls ≠ []) (hms : ms ≠ []) :
    joinWith sep (ls ++ ms) = joinWith sep ls ++ sep ++ joinWith sep ms := by
  induction ls with
  | nil => exact absurd rfl hls
  | cons l ls ih =>
    by_cases h : ls = []
    · subst h
      exact joinWith_cons hms
    · rw [List.cons_append, joinWith_cons (by simp [h]), ih h, joinWith_cons h]
      simp only [List.append_assoc]

/-- Consecutive lines stand between line ends. -/
theorem joinWith_between {ls : List Str} (h : ls ≠ []) (before after : List Str) :
    ∃ pu pv, joinWith ['\n'] (before ++ (ls ++ after)) = pu ++ (joinWith ['\n'] ls ++ pv) ∧ EndsLine pu ∧ BeginsLine pv := by
  have htail : ∃ pv, joinWith ['\n'] (ls ++ after) = joinWith ['\n'] ls ++ pv ∧ BeginsLine pv := by
    by_cases hafter : after = []
    · subst hafter
      exact ⟨[], by simp, by simp [BeginsLine]⟩
    · exact ⟨'\n' :: joinWith ['\n'] after, by rw [joinWith_append h hafter]; simp, by simp [BeginsLine]⟩
  obtain ⟨pv, hpv, hbegins⟩ := htail
  by_cases hbefore : before = []
  · subst hbefore
    exact ⟨[], pv, by simpa using hpv, by simp [EndsLine], hbegins⟩
  · refine ⟨joinWith ['\n'] before ++ ['\n'], pv, ?_, by simp [EndsLine], hbegins⟩
    rw [joinWith_append hbefore (by simp [h]), hpv]

theorem joinWith_of_mem {ls : List Str} {l : Str} (h : l ∈ ls) :
    ∃ pu pv, joinWith ['\n'] ls = pu ++ (l ++ pv) ∧ EndsLine pu ∧ BeginsLine pv := by
  obtain ⟨before, after, rfl⟩ := List.append_of_mem h
  exact joinWith_between (List.cons_ne_nil l []) before after

theorem joinWith_isInfix {ls ms : List Str} (h : ls <:+: ms) : joinWith ['\n'] ls <:+: joinWith ['\n'] ms := by
  by_cases hls : ls = []
  · subst hls
    exact List.nil_infix
  · obtain ⟨before, after, rfl⟩ := h
    obtain ⟨pu, pv, hjoin, -⟩ := joinWith_between hls before after
    rw [List.append_assoc, hjoin, ← List.append_assoc]
    exact List.infix_append _ _ _

namespace Regex

variable [UnicodeData]

/-- At the ends of a line the text around it counts as no text. -/
theorem atWordBoundary_line {pu u v pv : Str} {g k : List (Nat × Str)} (hpu : EndsLine pu) (hpv : BeginsLine pv) :
    atWordBoundary ⟨(pu ++ u).reverse, v ++ pv, g⟩ = atWordBoundary ⟨u.reverse, v, k⟩ := by
  have hbefore : (pu ++ u).reverse.head?.elim false isWord = u.reverse.head?.elim false isWord := by
    rw [List.head?_reverse, List.head?_reverse, List.getLast?_append]
    cases hu : u.getLast? with
    | some c => rfl
    | none =>
      cases hc : pu.getLast? with
      | none => rfl
      | some c =>
        rw [hpu c hc]
        exact isWord_newline
  have hafter : (v ++ pv).head?.elim false isWord = v.head?.elim false isWord := by
    rw [List.head?_append]
    cases hv : v.head? with
    | some c => rfl
    | none =>
      cases hc : pv.head? with
      | none => rfl
      | some c =>
        rw [hpv c hc]
        exact isWord_newline
  unfold atWordBoundary
  dsimp only
  rw [hbefore, hafter]

end Regex

end FailureOrchestrator
