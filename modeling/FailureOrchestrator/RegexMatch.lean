import FailureOrchestrator.Regex

namespace FailureOrchestrator

namespace Regex

theorem readText_append (t b rest : Str) (g : List (Nat × Str)) :
    Cursor.readText ⟨b, t ++ rest, g⟩ t = [⟨t.reverse ++ b, rest, g⟩] := by
  simp [Cursor.readText]

theorem readTo_append (b rest rest' t : Str) (g g' : List (Nat × Str)) :
    Cursor.readTo ⟨b, rest, g⟩ ⟨t.reverse ++ b, rest', g'⟩ = t := by
  simp [Cursor.readTo]

section

variable [UnicodeData]

@[simp] theorem matchesAt_cat_nil (m : Cursor) : (cat []).matchesAt m = [m] := rfl

@[simp] theorem flatMap_cat_nil (ms : List Cursor) : ms.flatMap (cat []).matchesAt = ms :=
  List.flatMap_singleton' ms

@[simp] theorem matchesAt_cat_cons (r : Regex) (rs : List Regex) (m : Cursor) :
    (cat (r :: rs)).matchesAt m = (r.matchesAt m).flatMap (cat rs).matchesAt := rfl

theorem matchesAt_opt (r : Regex) (m : Cursor) : (opt r).matchesAt m = r.matchesAt m ++ [m] := rfl

theorem matchesAt_chr_cons (c d : Char) (b rest : Str) (g : List (Nat × Str)) :
    (chr c).matchesAt ⟨b, d :: rest, g⟩ = if d == c then [⟨d :: b, rest, g⟩] else [] := rfl

/-- A literal matches in at most one way: by reading itself. -/
theorem matchesAt_text (t : Str) (m : Cursor) : (text t).matchesAt m = m.readText t := by
  induction t generalizing m with
  | nil => cases m; simp [text, matchesAt, Cursor.readText]
  | cons c t ih =>
    obtain ⟨b, rest, g⟩ := m
    change ((chr c).matchesAt ⟨b, rest, g⟩).flatMap (text t).matchesAt = _
    cases rest with
    | nil => rfl
    | cons d rest =>
      rw [matchesAt_chr_cons]
      by_cases hd : d = c
      · subst d
        simp [ih, Cursor.readText]
      · simp [hd, Cursor.readText, Ne.symm hd]

theorem matchesAt_lit (s : String) (m : Cursor) : (lit s).matchesAt m = m.readText s.toList :=
  matchesAt_text s.toList m

/-- A repeated character class reads the whole run first, then gives characters back. A
continuation that cannot start at a character of the class only sees the full run. -/
theorem iterate_run {p : Char → Bool} {k : Cursor → List Cursor}
    (stop : ∀ b c rest g, p c = true → k ⟨b, c :: rest, g⟩ = [])
    (ds rest : Str) (hds : ∀ c ∈ ds, p c = true) (hrest : ∀ c ∈ rest.head?, p c = false)
    (b : Str) (g : List (Nat × Str)) (fuel : Nat) (hfuel : ds.length ≤ fuel) :
    (iterate (Regex.cls p).matchesAt true fuel ⟨b, ds ++ rest, g⟩).flatMap k =
      k ⟨ds.reverse ++ b, rest, g⟩ := by
  induction ds generalizing b fuel with
  | nil =>
    cases fuel with
    | zero => simp [iterate]
    | succ fuel =>
      cases rest with
      | nil => simp [iterate, matchesAt, stepChar]
      | cons c rest =>
        have hc := hrest c rfl
        simp [iterate, matchesAt, stepChar, hc]
  | cons d ds ih =>
    cases fuel with
    | zero => simp at hfuel
    | succ fuel =>
      have hd := hds d (by simp)
      have next := ih (fun c hc => hds c (by simp [hc])) (d :: b) fuel (by simpa using hfuel)
      have give := stop b d (ds ++ rest) g hd
      have lt : (ds ++ rest).length < (d :: (ds ++ rest)).length := by simp
      have unfolded : iterate (Regex.cls p).matchesAt true (fuel + 1) ⟨b, d :: (ds ++ rest), g⟩ =
          iterate (Regex.cls p).matchesAt true fuel ⟨d :: b, ds ++ rest, g⟩ ++ [⟨b, d :: (ds ++ rest), g⟩] := by
        simp [iterate, matchesAt, stepChar, hd]
      rw [List.cons_append, unfolded, List.flatMap_append, next]
      simp [give]

theorem some1_run {p : Char → Bool} {k : Cursor → List Cursor}
    (stop : ∀ b c rest g, p c = true → k ⟨b, c :: rest, g⟩ = [])
    {ds : Str} (hne : ds ≠ []) (rest : Str) (hds : ∀ c ∈ ds, p c = true)
    (hrest : ∀ c ∈ rest.head?, p c = false) (b : Str) (g : List (Nat × Str)) :
    ((some1 (.cls p)).matchesAt ⟨b, ds ++ rest, g⟩).flatMap k = k ⟨ds.reverse ++ b, rest, g⟩ := by
  cases ds with
  | nil => exact absurd rfl hne
  | cons d ds =>
    have hd := hds d (by simp)
    have run := iterate_run stop ds rest (fun c hc => hds c (by simp [hc])) hrest (d :: b) g
      (ds ++ rest).length (by simp)
    have head : (some1 (.cls p)).matchesAt ⟨b, d :: ds ++ rest, g⟩ =
        iterate (Regex.cls p).matchesAt true (ds ++ rest).length ⟨d :: b, ds ++ rest, g⟩ := by
      simp [some1, many, matchesAt, stepChar, hd]
    rw [head, run]
    simp

/-- The same for a captured run: the group holds all of it. -/
theorem grp_some1_run {p : Char → Bool} {k : Cursor → List Cursor}
    (stop : ∀ b c rest g, p c = true → k ⟨b, c :: rest, g⟩ = [])
    {ds : Str} (hne : ds ≠ []) (rest : Str) (hds : ∀ c ∈ ds, p c = true)
    (hrest : ∀ c ∈ rest.head?, p c = false) (n : Nat) (b : Str) (g : List (Nat × Str)) :
    ((Regex.grp n (some1 (.cls p))).matchesAt ⟨b, ds ++ rest, g⟩).flatMap k =
      k ⟨ds.reverse ++ b, rest, (n, ds) :: g⟩ := by
  have run := some1_run (k := fun m => k (m.capture n (Cursor.readTo ⟨b, ds ++ rest, g⟩ m)))
    (fun b c rest g hc => stop b c rest _ hc) hne rest hds hrest b g
  change (List.map _ _).flatMap k = _
  rw [List.flatMap_map, run, readTo_append]
  rfl

/-- A lazy run stops at the first place where the continuation goes on. -/
theorem iterate_lazy_run {p : Char → Bool} {k : Cursor → List Cursor} {r : Cursor} {l : List Cursor}
    (ds rest : Str) (hds : ∀ c ∈ ds, p c = true) (b : Str) (g : List (Nat × Str))
    (early : ∀ xs y ys, ds = xs ++ y :: ys → k ⟨xs.reverse ++ b, y :: (ys ++ rest), g⟩ = [])
    (last : k ⟨ds.reverse ++ b, rest, g⟩ = r :: l) (fuel : Nat) (hfuel : ds.length ≤ fuel) :
    ((iterate (Regex.cls p).matchesAt false fuel ⟨b, ds ++ rest, g⟩).flatMap k).head? = some r := by
  induction ds generalizing b fuel with
  | nil =>
    have here : k ⟨b, rest, g⟩ = r :: l := last
    cases fuel with
    | zero => simp [iterate, here]
    | succ fuel => simp [iterate, here]
  | cons d ds ih =>
    cases fuel with
    | zero => simp at hfuel
    | succ fuel =>
      have hd := hds d (by simp)
      have skip : k ⟨b, d :: (ds ++ rest), g⟩ = [] := early [] d ds rfl
      have shape : ∀ xs : Str, xs.reverse ++ d :: b = (d :: xs).reverse ++ b := by simp
      have next := ih (fun c hc => hds c (by simp [hc])) (d :: b)
        (fun xs y ys hsplit => by
          have := early (d :: xs) y ys (by simp [hsplit])
          rw [shape]
          exact this)
        (by rw [shape]; exact last) fuel (by simpa using hfuel)
      have unfolded : iterate (Regex.cls p).matchesAt false (fuel + 1) ⟨b, d :: (ds ++ rest), g⟩ =
          ⟨b, d :: (ds ++ rest), g⟩ :: iterate (Regex.cls p).matchesAt false fuel ⟨d :: b, ds ++ rest, g⟩ := by
        simp [iterate, matchesAt, stepChar, hd]
      rw [List.cons_append, unfolded, List.flatMap_cons, skip, List.nil_append, next]

theorem grp_some1Lazy_run {p : Char → Bool} {k : Cursor → List Cursor} {r : Cursor} {l : List Cursor}
    {d : Char} {ds : Str} (hd : p d = true) (hds : ∀ c ∈ ds, p c = true) (rest : Str) (n : Nat) (b : Str)
    (g : List (Nat × Str))
    (early : ∀ xs y ys g', ds = xs ++ y :: ys → k ⟨xs.reverse ++ d :: b, y :: (ys ++ rest), g'⟩ = [])
    (last : k ⟨(d :: ds).reverse ++ b, rest, (n, d :: ds) :: g⟩ = r :: l) :
    (((Regex.grp n (some1Lazy (.cls p))).matchesAt ⟨b, d :: ds ++ rest, g⟩).flatMap k).head? = some r := by
  have head : (some1Lazy (.cls p)).matchesAt ⟨b, d :: ds ++ rest, g⟩ =
      iterate (Regex.cls p).matchesAt false (ds ++ rest).length ⟨d :: b, ds ++ rest, g⟩ := by
    simp [some1Lazy, manyLazy, matchesAt, stepChar, hd]
  have here : k (Cursor.capture ⟨ds.reverse ++ d :: b, rest, g⟩ n
      (Cursor.readTo ⟨b, d :: ds ++ rest, g⟩ ⟨ds.reverse ++ d :: b, rest, g⟩)) = r :: l := by
    have shape : ds.reverse ++ d :: b = (d :: ds).reverse ++ b := by simp
    rw [shape, readTo_append]
    exact last
  have run := iterate_lazy_run (k := fun m => k (m.capture n (Cursor.readTo ⟨b, d :: ds ++ rest, g⟩ m)))
    ds rest hds (d :: b) g (fun xs y ys hsplit => early xs y ys _ hsplit) here (ds ++ rest).length (by simp)
  change ((List.map _ _).flatMap k).head? = _
  rw [List.flatMap_map, head, run]

end

end Regex

end FailureOrchestrator
