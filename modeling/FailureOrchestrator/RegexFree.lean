import FailureOrchestrator.JoinedLines
import FailureOrchestrator.RegexEnds
import FailureOrchestrator.RegexFirst

namespace FailureOrchestrator

namespace Regex

variable [UnicodeData]

/-! Texts in which a pattern matches nowhere. -/

section Free

variable {r : Regex} {before u v w : Str}

omit [UnicodeData] in
/-- `P` holds at no position of `u`; it speaks of the text before a position and of the text from there on. -/
def Nowhere (P : Str → Str → Prop) (before u v : Str) : Prop :=
  ∀ u' w, u = u' ++ w → w ≠ [] → ¬ P (u'.reverse ++ before) (w ++ v)

def Begins (r : Regex) (before x : Str) : Prop := ∃ m', m' ∈ r.matchesAt ⟨before, x, []⟩

omit [UnicodeData] in
theorem nowhere_append {P : Str → Str → Prop} :
    Nowhere P before (u ++ w) v ↔ Nowhere P before u (w ++ v) ∧ Nowhere P (u.reverse ++ before) w v := by
  constructor
  · intro h
    constructor
    · intro u' x heq hx
      have hno := h u' (x ++ w) (by rw [heq, List.append_assoc]) (List.append_ne_nil_of_left_ne_nil hx w)
      rwa [List.append_assoc] at hno
    · intro w' x heq hx
      have hno := h (u ++ w') x (by rw [heq, List.append_assoc]) hx
      rwa [List.reverse_append, List.append_assoc] at hno
  · rintro ⟨hu, hw⟩ u' x heq hx
    rcases List.append_eq_append_iff.mp heq with ⟨a, rfl, rfl⟩ | ⟨a, rfl, rfl⟩
    · rw [List.reverse_append, List.append_assoc]
      exact hw a x rfl hx
    · by_cases ha : a = []
      · subst ha
        have hno := hw [] w rfl hx
        rwa [List.append_nil] at hno
      · have hno := hu u' a rfl ha
        rwa [← List.append_assoc] at hno

theorem freeIn_iff_nowhere : r.FreeIn before u v ↔ Nowhere r.Begins before u v := by
  have hnil : ∀ m : Cursor, r.matchesAt m = [] ↔ ¬ ∃ m', m' ∈ r.matchesAt m := by
    intro m
    rw [List.eq_nil_iff_forall_not_mem, not_exists]
  unfold FreeIn Nowhere Begins
  simp only [hnil]

theorem freeIn_iff_found (hr : r.Consumes) : r.FreeIn [] u [] ↔ found r u = false := by
  rw [← Bool.not_eq_true, found_iff hr, freeIn_iff_nowhere]
  constructor
  · rintro h ⟨a, x, m', rfl, hm⟩
    have hx : x ≠ [] := by
      rintro rfl
      exact absurd (hr _ _ hm) (Nat.not_lt_zero _)
    have hno := h a x rfl hx
    rw [List.append_nil, List.append_nil] at hno
    exact hno ⟨m', hm⟩
  · rintro h a x rfl - ⟨m', hm⟩
    rw [List.append_nil, List.append_nil] at hm
    exact h ⟨a, x, m', rfl, hm⟩

theorem Consumes.ne_nil {b t : Str} {g : List (Nat × Str)} (hr : r.Consumes)
    (h : ⟨t.reverse ++ b, v, g⟩ ∈ r.matchesAt ⟨b, t ++ v, []⟩) : t ≠ [] := by
  rintro rfl
  exact absurd (hr _ _ h) (lt_irrefl _)

/-- A substitution for a pattern that matches nowhere changes nothing. -/
theorem FreeIn.sub (hr : r.Consumes) (h : r.FreeIn [] u []) (f : Str → Cursor → Str) : sub r f u = u := by
  have hsub := sub_substitutes hr f u
  generalize Regex.sub r f u = out, findFrom r u.length (start u) = ms at hsub
  cases hsub with
  | stop => rfl
  | @step _ a t x _ _ _ _ hmatch _ =>
    have hmem := List.mem_of_head? hmatch
    have hfree := h a (t ++ x) rfl (List.append_ne_nil_of_left_ne_nil (hr.ne_nil hmem) x)
    rw [List.append_nil (t ++ x)] at hfree
    rw [hfree] at hmem
    cases hmem

/-- The matches begin behind the text that was read before. -/
theorem Substitutes.starts {f : Str → Cursor → Str} {rest out : Str} {ms : List (Cursor × Cursor)}
    (h : Substitutes r f before rest out ms) : ∀ p ∈ ms, before.length ≤ p.1.before.length := by
  induction h with
  | stop => exact fun _ hp => absurd hp List.not_mem_nil
  | @step before u t v out g ms _ _ _ ih =>
    refine List.forall_mem_cons.mpr ⟨by simp, fun p hp => ?_⟩
    have hlater := ih p hp
    simp only [List.length_append] at hlater
    omega

end Free

/-! The end that a pattern tries first. -/

section First

variable {r s : Regex} {rs : List Regex} {m m' : Cursor} {p : Char → Bool}

theorem Takes.of_seq (h : (Regex.seq r s).Takes m m') : ∃ m₁ ∈ r.matchesAt m, s.Takes m₁ m' := by
  change ((r.matchesAt m).flatMap s.matchesAt).head? = some m' at h
  rw [List.head?_flatMap] at h
  exact List.exists_of_findSome?_eq_some h

theorem Takes.of_cons (h : (cat (r :: rs)).Takes m m') : ∃ m₁ ∈ r.matchesAt m, (cat rs).Takes m₁ m' := Takes.of_seq h

theorem Takes.of_singleton (h : (cat [r]).Takes m m') : r.Takes m m' := by
  unfold Takes at h ⊢
  rwa [matchesAt_cat_cons, flatMap_cat_nil] at h

/-- A repeated character class stops only where the class ends. -/
theorem Takes.many_cls (h : (Regex.many (.cls p)).Takes m m') : ∀ c ∈ m'.rest.head?, p c = false := by
  obtain ⟨b, x, g⟩ := m
  have hdrop : ∀ c ∈ (x.dropWhile p).head?, p c = false := by
    intro c hc
    have hnot := List.head?_dropWhile_not p x
    rw [Option.mem_def.mp hc] at hnot
    exact hnot
  have htake : ∀ c ∈ x.takeWhile p, p c = true := fun c hc => List.mem_takeWhile_imp hc
  have hrun := takes_many (b := b) (g := g) htake hdrop
  rw [List.takeWhile_append_dropWhile] at hrun
  obtain rfl := Option.some.inj (h.symm.trans hrun)
  exact hdrop

theorem Takes.some1_cls (h : (some1 (.cls p)).Takes m m') : ∀ c ∈ m'.rest.head?, p c = false := by
  obtain ⟨_, -, hmany⟩ := Takes.of_seq h
  exact hmany.many_cls

end First

end Regex

namespace Regex

/-- The pattern looks at nothing but the characters that it reads, a bounded number of them. -/
def Plain : Regex → Prop
  | .eps | .cls _ => True
  | .seq r s | .alt r s => r.Plain ∧ s.Plain
  | _ => False

theorem foldr_plain {α : Type} {f : α → Regex} (hf : ∀ a, (f a).Plain) (xs : List α) :
    (xs.foldr (fun a r => Regex.seq (f a) r) Regex.eps).Plain := by
  induction xs with
  | nil => trivial
  | cons a xs ih => exact ⟨hf a, ih⟩

theorem ilit_plain (s : String) : (ilit s).Plain := foldr_plain (f := ichr) (fun _ => trivial) s.toList

theorem anyOf_plain {rs : List Regex} (h : ∀ r ∈ rs, r.Plain) : (anyOf rs).Plain := by
  induction rs with
  | nil => trivial
  | cons r rs ih =>
    obtain ⟨hr, hrs⟩ := List.forall_mem_cons.mp h
    cases rs with
    | nil => exact hr
    | cons s rs => exact ⟨hr, ih hrs⟩

theorem ilits_plain (ss : List String) : (ilits ss).Plain := by
  refine anyOf_plain fun r hr => ?_
  obtain ⟨s, -, rfl⟩ := List.mem_map.mp hr
  exact ilit_plain s

variable [UnicodeData] {r : Regex}

/-- What a plain pattern reads it reads anywhere. -/
theorem Plain.reads (hr : r.Plain) {b x : Str} {g : List (Nat × Str)} {m' : Cursor} (h : m' ∈ r.matchesAt ⟨b, x, g⟩) :
    ∃ t v, x = t ++ v ∧ m' = ⟨t.reverse ++ b, v, g⟩ ∧
      ∀ b' v' g', ⟨t.reverse ++ b', v', g'⟩ ∈ r.matchesAt ⟨b', t ++ v', g'⟩ := by
  induction r generalizing b x g m' with
  | bos | bol | eos | wordB | star | grp | ref => exact hr.elim
  | eps =>
    obtain rfl := List.mem_singleton.mp h
    exact ⟨[], x, rfl, rfl, fun _ _ _ => List.mem_singleton.mpr rfl⟩
  | cls p =>
    obtain ⟨c, v, rfl, hc, rfl⟩ := mem_cls_iff.mp h
    exact ⟨[c], v, rfl, rfl, fun b' v' g' => mem_cls_iff.mpr ⟨c, v', rfl, hc, rfl⟩⟩
  | seq r s ihr ihs =>
    obtain ⟨m₁, hm₁, h⟩ := mem_seq_iff.mp h
    obtain ⟨t, v, rfl, rfl, ht⟩ := ihr hr.1 hm₁
    obtain ⟨u, w, rfl, rfl, hu⟩ := ihs hr.2 h
    refine ⟨t ++ u, w, by simp, by simp, fun b' v' g' => mem_seq_iff.mpr ⟨_, by simpa using ht b' (u ++ v') g', ?_⟩⟩
    simpa using hu (t.reverse ++ b') v' g'
  | alt r s ihr ihs =>
    rcases mem_alt_iff.mp h with h | h
    · obtain ⟨t, v, hx, hm, ht⟩ := ihr hr.1 h
      exact ⟨t, v, hx, hm, fun b' v' g' => mem_alt_iff.mpr (.inl (ht b' v' g'))⟩
    · obtain ⟨t, v, hx, hm, ht⟩ := ihs hr.2 h
      exact ⟨t, v, hx, hm, fun b' v' g' => mem_alt_iff.mpr (.inr (ht b' v' g'))⟩

/-- A plain pattern is found in every text that has one in which it is found. -/
theorem Plain.found_within (hr : r.Plain) (hconsumes : r.Consumes) {s t : Str} (hst : s <:+: t) (h : found r s = true) :
    found r t = true := by
  obtain ⟨u, v, m', rfl, hm⟩ := (found_iff hconsumes).mp h
  obtain ⟨w, z, rfl⟩ := hst
  obtain ⟨a, x, rfl, -, ha⟩ := hr.reads hm
  refine (found_iff hconsumes).mpr ⟨w ++ u, a ++ (x ++ z), _, by simp, ha _ _ _⟩

end Regex

end FailureOrchestrator
