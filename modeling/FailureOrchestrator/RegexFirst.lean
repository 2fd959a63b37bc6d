import FailureOrchestrator.RegexMatch

namespace FailureOrchestrator

namespace Regex

variable [UnicodeData]

/-- `m'` is the end that the pattern tries first. -/
def Takes (r : Regex) (m m' : Cursor) : Prop := (r.matchesAt m).head? = some m'

variable {r s : Regex} {rs : List Regex} {m m₁ m' : Cursor} {p : Char → Bool} {b t rest : Str} {g : List (Nat × Str)}

theorem Takes.matchStart {u : Str} (h : r.Takes (start u) m') : matchStart r u = some m' := h

theorem takes_nil : (cat []).Takes m m := rfl

theorem Takes.seq (hr : r.Takes m m₁) (hs : s.Takes m₁ m') : (Regex.seq r s).Takes m m' := by
  obtain ⟨l, hl⟩ := List.head?_eq_some_iff.mp hr
  change ((r.matchesAt m).flatMap s.matchesAt).head? = some m'
  rw [hl, List.flatMap_cons, List.head?_append, show (s.matchesAt m₁).head? = some m' from hs]
  rfl

theorem Takes.cons (hr : r.Takes m m₁) (hs : (cat rs).Takes m₁ m') : (cat (r :: rs)).Takes m m' := hr.seq hs

theorem Takes.left (h : r.Takes m m') : (Regex.alt r s).Takes m m' := by
  change (r.matchesAt m ++ s.matchesAt m).head? = some m'
  rw [List.head?_append, show (r.matchesAt m).head? = some m' from h]
  rfl

theorem Takes.right (hr : r.matchesAt m = []) (h : s.Takes m m') : (Regex.alt r s).Takes m m' := by
  change (r.matchesAt m ++ s.matchesAt m).head? = some m'
  rw [hr]
  exact h

theorem takes_bos : Regex.bos.Takes ⟨[], rest, g⟩ ⟨[], rest, g⟩ := rfl

theorem takes_eos : Regex.eos.Takes ⟨b, [], g⟩ ⟨b, [], g⟩ := rfl

theorem takes_cls {c : Char} (hc : p c = true) : (Regex.cls p).Takes ⟨b, c :: rest, g⟩ ⟨c :: b, rest, g⟩ := by
  simp [Takes, matchesAt, stepChar, hc]

theorem takes_chr (c : Char) : (chr c).Takes ⟨b, c :: rest, g⟩ ⟨c :: b, rest, g⟩ := takes_cls (beq_self_eq_true c)

theorem takes_lit (u : String) : (lit u).Takes ⟨b, u.toList ++ rest, g⟩ ⟨u.toList.reverse ++ b, rest, g⟩ := by
  unfold Takes
  rw [matchesAt_lit, readText_append]
  rfl

theorem Takes.grp {g' : List (Nat × Str)} (n : Nat) (h : r.Takes ⟨b, t ++ rest, g⟩ ⟨t.reverse ++ b, rest, g'⟩) :
    (Regex.grp n r).Takes ⟨b, t ++ rest, g⟩ ⟨t.reverse ++ b, rest, (n, t) :: g'⟩ := by
  change ((r.matchesAt _).map _).head? = _
  rw [List.head?_map, show (r.matchesAt ⟨b, t ++ rest, g⟩).head? = _ from h]
  simp [Cursor.capture, readTo_append]

omit [UnicodeData] in
/-- More fuel than there is text does not change a repetition. -/
theorem iterate_fuel {f : Cursor → List Cursor} {greedy : Bool} {fuel : Nat} (hfuel : m.rest.length ≤ fuel) :
    iterate f greedy (fuel + 1) m = iterate f greedy fuel m := by
  induction fuel generalizing m with
  | zero =>
    have hrest : m.rest.length = 0 := by omega
    cases greedy <;> simp [iterate, hrest]
  | succ fuel ih =>
    have hmore : ((f m).flatMap fun m' => if m'.rest.length < m.rest.length then iterate f greedy (fuel + 1) m' else []) =
        (f m).flatMap fun m' => if m'.rest.length < m.rest.length then iterate f greedy fuel m' else [] := by
      congr 1
      funext m'
      split
      · exact ih (by omega)
      · rfl
    unfold iterate
    dsimp only
    rw [hmore]

omit [UnicodeData] in
theorem iterate_fuel_le {f : Cursor → List Cursor} {greedy : Bool} {fuel : Nat} (hfuel : m.rest.length ≤ fuel) :
    iterate f greedy fuel m = iterate f greedy m.rest.length m := by
  induction fuel, hfuel using Nat.le_induction with
  | base => rfl
  | succ fuel hfuel ih => rw [iterate_fuel hfuel, ih]

theorem many_stop (h : r.matchesAt m = []) : (many r).Takes m m := by
  change (iterate r.matchesAt true m.rest.length m).head? = some m
  cases hlength : m.rest.length with
  | zero => rfl
  | succ n => simp [iterate, h]

/-- A repetition goes on after a match that reads something. -/
theorem Takes.many (h : r.Takes m m₁) (hlt : m₁.rest.length < m.rest.length) (hmany : (many r).Takes m₁ m') :
    (Regex.many r).Takes m m' := by
  obtain ⟨l, hl⟩ := List.head?_eq_some_iff.mp h
  obtain ⟨fuel, hfuel⟩ : ∃ fuel, m.rest.length = fuel + 1 := ⟨m.rest.length - 1, by omega⟩
  have hrun : (iterate r.matchesAt true fuel m₁).head? = some m' := by
    rw [iterate_fuel_le (by omega)]
    exact hmany
  change (iterate r.matchesAt true m.rest.length m).head? = some m'
  rw [hfuel]
  unfold iterate
  dsimp only
  rw [if_pos rfl, hl, List.flatMap_cons, if_pos hlt, List.append_assoc, List.head?_append, hrun]
  rfl

/-- A repeated character class reads the whole run. -/
theorem takes_many (ht : ∀ c ∈ t, p c = true) (hrest : ∀ c ∈ rest.head?, p c = false) :
    (Regex.many (.cls p)).Takes ⟨b, t ++ rest, g⟩ ⟨t.reverse ++ b, rest, g⟩ := by
  induction t generalizing b with
  | nil =>
    refine many_stop ?_
    cases rest with
    | nil => rfl
    | cons c rest => simp [matchesAt, stepChar, hrest c rfl]
  | cons c t ih =>
    have step : (Regex.cls p).Takes ⟨b, c :: (t ++ rest), g⟩ ⟨c :: b, t ++ rest, g⟩ := takes_cls (ht c (by simp))
    refine step.many (by simp) ?_
    have run := ih (fun d hd => ht d (by simp [hd])) (b := c :: b)
    simpa using run

theorem takes_some1 (hne : t ≠ []) (ht : ∀ c ∈ t, p c = true) (hrest : ∀ c ∈ rest.head?, p c = false) :
    (some1 (.cls p)).Takes ⟨b, t ++ rest, g⟩ ⟨t.reverse ++ b, rest, g⟩ := by
  cases t with
  | nil => exact absurd rfl hne
  | cons c t =>
    have step : (Regex.cls p).Takes ⟨b, c :: (t ++ rest), g⟩ ⟨c :: b, t ++ rest, g⟩ := takes_cls (ht c (by simp))
    have run : (Regex.many (.cls p)).Takes ⟨c :: b, t ++ rest, g⟩ ⟨t.reverse ++ c :: b, rest, g⟩ :=
      takes_many (fun d hd => ht d (by simp [hd])) hrest
    have both : (some1 (.cls p)).Takes ⟨b, c :: (t ++ rest), g⟩ ⟨t.reverse ++ c :: b, rest, g⟩ := step.seq run
    simpa using both

theorem takes_exactly (ht : ∀ c ∈ t, p c = true) {n : Nat} (hn : t.length = n) :
    (exactly n (.cls p)).Takes ⟨b, t ++ rest, g⟩ ⟨t.reverse ++ b, rest, g⟩ := by
  induction t generalizing b n with
  | nil =>
    subst hn
    rfl
  | cons c t ih =>
    subst hn
    have step : (Regex.cls p).Takes ⟨b, c :: (t ++ rest), g⟩ ⟨c :: b, t ++ rest, g⟩ := takes_cls (ht c (by simp))
    have run := ih (fun d hd => ht d (by simp [hd])) (b := c :: b) rfl
    have both : (exactly (t.length + 1) (.cls p)).Takes ⟨b, c :: (t ++ rest), g⟩ ⟨t.reverse ++ c :: b, rest, g⟩ :=
      step.seq run
    simpa using both

/-! Patterns that do not match. -/

theorem cls_fails (h : ∀ c ∈ m.rest.head?, p c = false) : (Regex.cls p).matchesAt m = [] := by
  obtain ⟨b, rest, g⟩ := m
  cases rest with
  | nil => rfl
  | cons c rest => simp [matchesAt, stepChar, h c rfl]

theorem seq_fails (h : r.matchesAt m = []) : (Regex.seq r s).matchesAt m = [] := by
  change (r.matchesAt m).flatMap s.matchesAt = []
  rw [h]
  rfl

theorem alt_fails (hr : r.matchesAt m = []) (hs : s.matchesAt m = []) : (Regex.alt r s).matchesAt m = [] := by
  change r.matchesAt m ++ s.matchesAt m = []
  rw [hr, hs]
  rfl

theorem lit_fails {u : String} {c : Char} (hu : u.toList.head? = some c) (h : m.rest.head? ≠ some c) :
    (lit u).matchesAt m = [] := by
  rw [matchesAt_lit]
  refine if_neg fun hp => h ?_
  obtain ⟨t, ht⟩ := List.isPrefixOf_iff_prefix.mp hp
  rw [← ht, List.head?_append, hu]
  rfl

theorem searchFrom_skip {c : Char} (h : r.matchesAt ⟨b, c :: rest, []⟩ = []) :
    searchFrom r b (c :: rest) = searchFrom r (c :: b) rest := by
  conv_lhs => unfold searchFrom
  rw [h]
  rfl

/-! Patterns that stand at the start of the text only. -/

theorem matchesAt_bos (u : Str) : (cat (.bos :: rs)).matchesAt (start u) = (cat rs).matchesAt (start u) := by
  change [start u].flatMap (cat rs).matchesAt = _
  rw [List.flatMap_singleton]

theorem searchFrom_bos {c : Char} {before u : Str} : searchFrom (cat (.bos :: rs)) (c :: before) u = none := by
  induction u generalizing c before with
  | nil => rfl
  | cons d u ih =>
    unfold searchFrom
    exact ih

theorem sub_bos_fails {u : Str} (h : (cat (.bos :: rs)).matchesAt (start u) = []) (f : Str → Cursor → Str) :
    sub (cat (.bos :: rs)) f u = u := by
  have hnone : searchFrom (cat (.bos :: rs)) [] u = none := by
    unfold start at h
    cases u with
    | nil =>
      unfold searchFrom
      rw [h]
      rfl
    | cons c u =>
      unfold searchFrom
      rw [h]
      exact searchFrom_bos
  unfold sub
  cases u.length with
  | zero => rfl
  | succ fuel =>
    unfold subFrom
    rw [show searchFrom _ (start u).before (start u).rest = none from hnone]
    rfl

theorem sub_bos_takes (hne : t ≠ []) (h : (cat (.bos :: rs)).Takes (start (t ++ rest)) ⟨t.reverse, rest, g⟩)
    (f : Str → Cursor → Str) : sub (cat (.bos :: rs)) f (t ++ rest) = f t ⟨t.reverse, rest, g⟩ ++ rest := by
  cases t with
  | nil => exact absurd rfl hne
  | cons c t =>
    have hfirst : searchFrom (cat (.bos :: rs)) [] (c :: t ++ rest) =
        some (start (c :: t ++ rest), ⟨(c :: t).reverse, rest, g⟩) := by
      rw [List.cons_append]
      unfold searchFrom
      rw [show ((cat (.bos :: rs)).matchesAt ⟨[], c :: (t ++ rest), []⟩).head? = _ from h]
      rfl
    have hread : (start (c :: t ++ rest)).readTo ⟨(c :: t).reverse, rest, g⟩ = c :: t := by
      have := readTo_append [] (c :: t ++ rest) rest (c :: t) [] g
      simpa [start] using this
    have hafter : subFrom (cat (.bos :: rs)) f (t ++ rest).length ⟨(c :: t).reverse, rest, []⟩ = rest := by
      obtain ⟨d, before, hbefore⟩ : ∃ d before, (c :: t).reverse = d :: before :=
        List.exists_cons_of_ne_nil (by simp)
      cases (t ++ rest).length with
      | zero => rfl
      | succ fuel =>
        unfold subFrom
        rw [hbefore, searchFrom_bos]
    unfold sub
    rw [List.cons_append, List.length_cons]
    unfold subFrom
    rw [← List.cons_append, show searchFrom _ (start (c :: t ++ rest)).before (start (c :: t ++ rest)).rest = _ from hfirst]
    dsimp only
    rw [hread, hafter]
    simp [start, Cursor.readTo]

end Regex

end FailureOrchestrator
