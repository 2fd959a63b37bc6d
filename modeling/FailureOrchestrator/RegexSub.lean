import FailureOrchestrator.RegexReads

namespace FailureOrchestrator

namespace Regex

variable [UnicodeData]

/-- The pattern never matches the empty text. -/
def Consumes (r : Regex) : Prop := ∀ m m' : Cursor, m' ∈ r.matchesAt m → m'.rest.length < m.rest.length

theorem Needs.consumes {p : Char → Bool} {r : Regex} (hr : r.Needs p) : r.Consumes := by
  induction r with
  | eps | bos | bol | eos | wordB | star | ref => exact hr.elim
  | cls q =>
    intro m m' h
    obtain ⟨c, -, hread⟩ := stepChar_reads h
    rw [hread.1]
    simp
  | seq r s ihr ihs =>
    intro m m' h
    obtain ⟨m₁, hm₁, h⟩ := List.mem_flatMap.mp h
    rcases hr with hr | hs
    · exact (matchesAt_suffix h).length_le.trans_lt (ihr hr m m₁ hm₁)
    · exact (ihs hs m₁ m' h).trans_le (matchesAt_suffix hm₁).length_le
  | alt r s ihr ihs =>
    intro m m' h
    rcases List.mem_append.mp h with h | h
    · exact ihr hr.1 m m' h
    · exact ihs hr.2 m m' h
  | grp n r ih =>
    intro m m' h
    obtain ⟨m₁, hm₁, rfl⟩ := List.mem_map.mp h
    exact ih hr m m₁ hm₁

/-- The pattern matches nowhere in `u`, which `v` follows. -/
def FreeIn (r : Regex) (before u v : Str) : Prop :=
  ∀ u' w, u = u' ++ w → w ≠ [] → r.matchesAt ⟨u'.reverse ++ before, w ++ v, []⟩ = []

variable {r : Regex}

theorem freeIn_nil (before v : Str) : r.FreeIn before [] v := by
  intro u' w h hw
  exact absurd (List.append_eq_nil_iff.mp h.symm).2 hw

theorem FreeIn.cons {c : Char} {before u v : Str} (hc : r.matchesAt ⟨before, c :: (u ++ v), []⟩ = [])
    (h : r.FreeIn (c :: before) u v) : r.FreeIn before (c :: u) v := by
  intro u' w heq hw
  cases u' with
  | nil =>
    rw [List.nil_append] at heq
    rw [← heq]
    exact hc
  | cons d u' =>
    rw [List.cons_append, List.cons.injEq] at heq
    obtain ⟨rfl, rfl⟩ := heq
    have hstep := h u' w rfl hw
    rwa [List.reverse_cons, List.append_assoc, List.singleton_append]

theorem searchFrom_eq_some {before s : Str} {i m : Cursor} (h : searchFrom r before s = some (i, m)) :
    ∃ u v, s = u ++ v ∧ i = ⟨u.reverse ++ before, v, []⟩ ∧ (r.matchesAt i).head? = some m ∧ r.FreeIn before u v := by
  induction s generalizing before with
  | nil =>
    unfold searchFrom at h
    obtain ⟨m', hm', heq⟩ := Option.map_eq_some_iff.mp h
    cases heq
    exact ⟨[], [], rfl, rfl, hm', freeIn_nil _ _⟩
  | cons c s ih =>
    unfold searchFrom at h
    split at h
    · next m' hm' =>
      cases h
      exact ⟨[], c :: s, rfl, rfl, hm', freeIn_nil _ _⟩
    · next hc =>
      obtain ⟨u, v, rfl, rfl, hm, hfree⟩ := ih h
      exact ⟨c :: u, v, rfl, by simp, hm, hfree.cons (List.head?_eq_none_iff.mp hc)⟩

theorem searchFrom_eq_none {before s : Str} (h : searchFrom r before s = none) : r.FreeIn before s [] := by
  induction s generalizing before with
  | nil => exact freeIn_nil _ _
  | cons c s ih =>
    unfold searchFrom at h
    split at h
    · cases h
    · next hc =>
      refine (ih h).cons ?_
      rw [List.append_nil]
      exact List.head?_eq_none_iff.mp hc

/-- `out` is `rest` with its matches, from left to right, replaced; `ms` are their positions. -/
inductive Substitutes (r : Regex) (f : Str → Cursor → Str) : Str → Str → Str → List (Cursor × Cursor) → Prop
  | stop {before rest : Str} (hfree : r.FreeIn before rest []) : Substitutes r f before rest rest []
  | step {before u t v out : Str} {g : List (Nat × Str)} {ms : List (Cursor × Cursor)}
      (hfree : r.FreeIn before u (t ++ v))
      (hmatch : (r.matchesAt ⟨u.reverse ++ before, t ++ v, []⟩).head? =
        some ⟨t.reverse ++ (u.reverse ++ before), v, g⟩)
      (htail : Substitutes r f (t.reverse ++ (u.reverse ++ before)) v out ms) :
      Substitutes r f before (u ++ (t ++ v)) (u ++ (f t ⟨t.reverse ++ (u.reverse ++ before), v, g⟩ ++ out))
        ((⟨u.reverse ++ before, t ++ v, []⟩, ⟨t.reverse ++ (u.reverse ++ before), v, g⟩) :: ms)

theorem subFrom_substitutes (hr : r.Consumes) (f : Str → Cursor → Str) (fuel : Nat) (m : Cursor)
    (hfuel : m.rest.length ≤ fuel) :
    Substitutes r f m.before m.rest (subFrom r f fuel m) (findFrom r fuel m) := by
  induction fuel generalizing m with
  | zero =>
    have hrest : m.rest = [] := List.eq_nil_of_length_eq_zero (by omega)
    rw [subFrom, findFrom, hrest]
    exact .stop (freeIn_nil _ _)
  | succ fuel ih =>
    unfold subFrom findFrom
    cases hs : searchFrom r m.before m.rest with
    | none => exact .stop (searchFrom_eq_none hs)
    | some ij =>
      obtain ⟨i, j⟩ := ij
      obtain ⟨u, v, hrest, rfl, hm, hfree⟩ := searchFrom_eq_some hs
      have hj : j ∈ r.matchesAt ⟨u.reverse ++ m.before, v, []⟩ := List.mem_of_head? hm
      obtain ⟨t, hread⟩ := matchesAt_reads hj
      have hlt := hr _ _ hj
      obtain ⟨hv, hbefore⟩ := hread
      obtain ⟨b, v', g⟩ := j
      simp only at hv hbefore hlt
      subst hv hbefore
      have hu : m.readTo ⟨u.reverse ++ m.before, t ++ v', []⟩ = u := Cursor.Reads.readTo ⟨hrest, rfl⟩
      have ht : Cursor.readTo ⟨u.reverse ++ m.before, t ++ v', []⟩ ⟨t.reverse ++ (u.reverse ++ m.before), v', g⟩ = t :=
        Cursor.Reads.readTo ⟨rfl, rfl⟩
      have hlen : v'.length ≤ fuel := by
        rw [hrest, List.length_append] at hfuel
        omega
      have htail := ih ⟨t.reverse ++ (u.reverse ++ m.before), v', []⟩ hlen
      dsimp only
      rw [hrest, hu, ht, List.append_assoc]
      exact .step hfree hm htail

/-- A substitution replaces the matches of the search one after the other. -/
theorem sub_substitutes (hr : r.Consumes) (f : Str → Cursor → Str) (s : Str) :
    Substitutes r f [] s (sub r f s) (findFrom r s.length (start s)) :=
  subFrom_substitutes hr f s.length (start s) (le_refl _)

/-- What holds of every character of a text and of what its matches become holds of the result. -/
theorem Substitutes.forall_mem {P : Char → Prop} {f : Str → Cursor → Str} {before rest out : Str}
    {ms : List (Cursor × Cursor)} (h : Substitutes r f before rest out ms)
    (hf : ∀ b t v g, ⟨t.reverse ++ b, v, g⟩ ∈ r.matchesAt ⟨b, t ++ v, []⟩ → (∀ c ∈ t, P c) →
      ∀ c ∈ f t ⟨t.reverse ++ b, v, g⟩, P c) (hrest : ∀ c ∈ rest, P c) : ∀ c ∈ out, P c := by
  induction h with
  | stop => exact hrest
  | step hfree hmatch htail ih =>
    rw [List.forall_mem_append, List.forall_mem_append] at hrest
    obtain ⟨hu, ht, hv⟩ := hrest
    rw [List.forall_mem_append, List.forall_mem_append]
    exact ⟨hu, hf _ _ _ _ (List.mem_of_head? hmatch) ht, ih hv⟩

/-- The matches begin within the text. -/
theorem Substitutes.before_prefix {f : Str → Cursor → Str} {before rest out : Str}
    {ms : List (Cursor × Cursor)} (h : Substitutes r f before rest out ms) :
    ∀ p ∈ ms, p.1.before.reverse <+: before.reverse ++ rest := by
  induction h with
  | stop => exact fun _ hp => absurd hp List.not_mem_nil
  | @step before u t v out g ms _ _ _ ih =>
    intro p hp
    rcases List.mem_cons.mp hp with rfl | hp
    · exact ⟨t ++ v, by simp⟩
    · have hprefix := ih p hp
      simpa using hprefix

/-- A class that is deleted is gone. -/
theorem sub_cls_delete (p : Char → Bool) (s : Str) : ∀ c ∈ sub (.cls p) (fun _ _ => []) s, p c = false := by
  have hconsumes : (Regex.cls p).Consumes := Needs.consumes (p := p) fun _ hc => hc
  have hfree : ∀ {before u v : Str}, (Regex.cls p).FreeIn before u v → ∀ c ∈ u, p c = false := by
    intro before u v h c hc
    obtain ⟨u', w, rfl⟩ := List.append_of_mem hc
    have hnone := h u' (c :: w) rfl (List.cons_ne_nil _ _)
    by_contra hp
    rw [Bool.not_eq_false] at hp
    simp [matchesAt, stepChar, hp] at hnone
  have hall : ∀ {before rest out : Str} {ms : List (Cursor × Cursor)},
      Substitutes (.cls p) (fun _ _ => []) before rest out ms → ∀ c ∈ out, p c = false := by
    intro before rest out ms h
    induction h with
    | stop h => exact hfree h
    | step h _ _ ih =>
      rw [List.nil_append, List.forall_mem_append]
      exact ⟨hfree h, ih⟩
  exact hall (sub_substitutes hconsumes _ s)

end Regex

end FailureOrchestrator
