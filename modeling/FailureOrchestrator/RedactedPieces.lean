import FailureOrchestrator.SecretLeads

namespace FailureOrchestrator

open Regex

/-- `out` is `rest` with a placeholder for each removed part. `F` holds of the kept parts, each with the removed part and
the text behind it, and `L` of the last one. -/
inductive Pieces (F : Str → Str → Str → Str → Prop) (L : Str → Str → Prop) : Str → Str → Str → Prop
  | last {before rest : Str} (hlast : L before rest) : Pieces F L before rest rest
  | step {before seg gone v out : Str} (hpiece : F before seg gone v)
      (htail : Pieces F L (gone.reverse ++ (seg.reverse ++ before)) v out) :
      Pieces F L before (seg ++ (gone ++ v)) (seg ++ (redacted ++ out))

section

variable {F G : Str → Str → Str → Str → Prop} {L M : Str → Str → Prop} {before rest out : Str}

theorem Pieces.mono (h : Pieces F L before rest out) (hF : ∀ b s g v, F b s g v → G b s g v) (hL : ∀ b x, L b x → M b x) :
    Pieces G M before rest out := by
  induction h with
  | last hlast => exact .last (hL _ _ hlast)
  | step hpiece _ ih => exact .step (hF _ _ _ _ hpiece) ih

/-- With no kept part empty, the text begins as before. -/
theorem Pieces.head (h : Pieces F L before rest out) (hne : ∀ b s g v, F b s g v → s ≠ []) : out.head? = rest.head? := by
  cases h with
  | last => rfl
  | step hpiece =>
    obtain ⟨c, s, hs⟩ := List.exists_cons_of_ne_nil (hne _ _ _ _ hpiece)
    rw [hs]
    rfl

variable {P : Str → Str → Prop}

/-- What holds at no position of a text holds at no position of its kept parts. -/
theorem Pieces.within (h : Pieces F L before rest out) (hno : Nowhere P before rest []) :
    Pieces (fun b s g v => F b s g v ∧ Nowhere P b s (g ++ v)) (fun b x => L b x ∧ Nowhere P b x []) before rest out := by
  induction h with
  | last hlast => exact .last ⟨hlast, hno⟩
  | step hpiece _ ih =>
    obtain ⟨hseg, hrest⟩ := nowhere_append.mp hno
    rw [List.append_nil] at hseg
    exact .step ⟨hpiece, hseg⟩ (ih (nowhere_append.mp hrest).2)

/-- What begins in no kept part and in no placeholder begins nowhere. -/
theorem Pieces.nowhere (h : Pieces F L before rest out) (hmark : ∀ b v, Nowhere P b redacted v)
    (hseg : ∀ b before seg gone v out, F before seg gone v → Nowhere P b seg (redacted ++ out))
    (hlast : ∀ b before rest, L before rest → Nowhere P b rest []) (b : Str) : Nowhere P b out [] := by
  induction h generalizing b with
  | last h => exact hlast _ _ _ h
  | step hpiece _ ih =>
    rw [nowhere_append, nowhere_append, List.append_nil, List.append_nil]
    exact ⟨hseg _ _ _ _ _ _ hpiece, hmark _ _, ih _⟩

end

/-! ## The parts that the passes remove -/

/-- A character with which a GitHub token or an AWS key can begin. -/
def opensToken (c : Char) : Bool := sameFold 'g' c || c == 'A'

theorem valueChar_of_isFoldedLetter {c : Char} (h : isFoldedLetter c = true) : valueChar c = true := by
  have hplain := plainChar_of_isFoldedLetter h
  have hstops : ∀ d ∈ ",;'\"\n".toList, isFoldedLetter d = false := by decide
  simp only [plainChar, Bool.and_eq_true, Bool.not_eq_true'] at hplain
  unfold valueChar
  rw [hplain.1.1, Bool.false_or, Bool.not_eq_true', ← Bool.not_eq_true]
  intro hmem
  rw [hstops c (List.contains_iff_mem.mp hmem)] at h
  cases h

theorem isFoldedLetter_of_opensToken {c : Char} (h : opensToken c = true) : isFoldedLetter c = true := by
  rcases Bool.or_eq_true_iff.mp h with h | h
  · exact isFoldedLetter_of_sameFold (by decide) h
  · obtain rfl := beq_iff_eq.mp h
    decide

theorem valueChar_of_opensToken {c : Char} (h : opensToken c = true) : valueChar c = true :=
  valueChar_of_isFoldedLetter (isFoldedLetter_of_opensToken h)

theorem isSpace_of_valueChar {c : Char} (h : valueChar c = true) : isSpace c = false := by
  unfold valueChar at h
  rw [Bool.not_eq_true', Bool.or_eq_false_iff] at h
  exact h.1

theorem RunOf.head {p : Char → Bool} {t z : Str} (h : RunOf p t) (hne : t ≠ []) : ∃ c ∈ (t ++ z).head?, p c = true := by
  obtain ⟨c, t', rfl⟩ := List.exists_cons_of_ne_nil hne
  exact ⟨c, rfl, h c List.mem_cons_self⟩

theorem FoldsTo.head {u w z : Str} (h : FoldsTo u w) (hu : ∀ c ∈ u, c.toLower.isLower = true) (hne : u ≠ []) :
    ∃ c ∈ (w ++ z).head?, valueChar c = true := by
  refine RunOf.head ((h.run hu).mono fun _ => valueChar_of_isFoldedLetter) ?_
  rintro rfl
  exact hne (List.eq_nil_of_length_eq_zero h.length_eq.symm)

theorem AssignmentName.head {t z : Str} (h : AssignmentName t) : ∃ c ∈ (t ++ z).head?, valueChar c = true := by
  rcases h with ⟨a, sep, k, rfl, ha, -, -⟩ | ⟨u, hu, hw⟩
  · rw [List.append_assoc]
    exact FoldsTo.head ha (by decide) (by decide)
  · have hwords : ∀ u ∈ ["password", "secret", "token", "authorization"],
        (∀ c ∈ u.toList, c.toLower.isLower = true) ∧ u.toList ≠ [] := by decide
    exact FoldsTo.head hw (hwords u hu).1 (hwords u hu).2

theorem SchemeText.ne_nil {t : Str} (h : SchemeText t) : t ≠ [] := by
  obtain ⟨u, hu, hw⟩ := h
  have hwords : ∀ u ∈ ["postgres", "mysql", "mongodb", "redis"], u.toList ≠ [] := by decide
  rintro rfl
  exact hwords u hu (List.eq_nil_of_length_eq_zero hw.length_eq.symm)

theorem SecretKind.Lead.head {kind : SecretKind} {t z : Str} (h : kind.Lead t) : ∃ c ∈ (t ++ z).head?, valueChar c = true := by
  cases kind with
  | bearer =>
    obtain ⟨w, sp, run, rfl, hw, -⟩ := h
    rw [List.append_assoc]
    exact FoldsTo.head hw (by decide) (by decide)
  | githubToken =>
    obtain ⟨w, o, run, rfl, hw, -⟩ := h
    rw [List.append_assoc]
    exact FoldsTo.head hw (by decide) (by decide)
  | awsKey =>
    obtain ⟨run, rfl, -⟩ := h
    exact ⟨'A', rfl, by decide⟩
  | assignment =>
    obtain ⟨name, sign, rfl, hname, -⟩ := h
    rw [List.append_assoc]
    exact hname.head
  | connection =>
    obtain ⟨w, rfl, hw⟩ := h
    rw [List.append_assoc]
    exact RunOf.head (hw.letters.mono fun _ => valueChar_of_isFoldedLetter) hw.ne_nil
  | privateKey =>
    obtain ⟨k, -, rfl⟩ := h
    exact ⟨'-', rfl, by decide⟩

section

variable [UnicodeData]

theorem isWord_of_isAlpha {c : Char} (h : c.isAlpha = true) : isWord c = true := by
  have hnat := isAlpha_toNat h
  unfold isWord
  rw [UnicodeData.isAlnum_ascii c (by omega), Char.isAlphanum, h]
  rfl

theorem isWord_of_opensToken {c : Char} (h : opensToken c = true) : isWord c = true := by
  rcases Bool.or_eq_true_iff.mp h with h | h
  · have hlower : c.toLower = 'g' := by simpa [sameFold] using h
    refine isWord_of_isAlpha (isAlpha_of_isLower_toLower ?_)
    rw [hlower]
    decide
  · obtain rfl := beq_iff_eq.mp h
    exact isWord_of_isAlpha (by decide)

theorem not_isWord_ascii {c : Char} (hascii : c.toNat < 128) (hplain : c.isAlphanum = false) (hbar : c ≠ '_') :
    isWord c = false := by
  unfold isWord
  rw [UnicodeData.isAlnum_ascii c hascii, hplain, Bool.false_or]
  exact beq_false_of_ne hbar

/-- At the position a token can begin if its first character is there. -/
def Opens (before rest : Str) : Prop := ∀ c ∈ rest.head?, opensToken c = true → atWordBoundary ⟨before, rest, []⟩ = true

theorem opens_nil (rest : Str) : Opens [] rest := by
  intro c hc hopen
  unfold atWordBoundary
  rw [Option.mem_def.mp hc]
  show (false != isWord c) = true
  rw [isWord_of_opensToken hopen]
  rfl

theorem opens_of_head {p : Char → Bool} (hp : ∀ c, opensToken c = true → p c = true) {before rest : Str}
    (hrest : ∀ c ∈ rest.head?, p c = false) : Opens before rest := by
  intro c hc hopen
  have hfalse := hrest c hc
  rw [hp c hopen] at hfalse
  cases hfalse

theorem opens_dash (before rest : Str) : Opens ('-' :: before) rest := by
  intro c hc hopen
  have hdash : isWord '-' = false := not_isWord_ascii (by decide) (by decide) (by decide)
  unfold atWordBoundary
  rw [Option.mem_def.mp hc]
  show (isWord '-' != isWord c) = true
  rw [hdash, isWord_of_opensToken hopen]
  rfl

/-! The assignment pass keeps the left-hand side, the passes for `whole` kinds keep nothing of a match. -/

/-- A kept part with the removed part and the text behind it, when the pass keeps nothing of a match. -/
structure WholePiece (kind : SecretKind) (before seg gone v : Str) : Prop where
  opens : Opens before (seg ++ (gone ++ v))
  free : kind.pattern.FreeIn before seg (gone ++ v)
  takes : ∃ g, kind.pattern.Takes ⟨seg.reverse ++ before, gone ++ v, []⟩ ⟨gone.reverse ++ (seg.reverse ++ before), v, g⟩

structure LastPiece (kind : SecretKind) (before rest : Str) : Prop where
  opens : Opens before rest
  free : kind.pattern.FreeIn before rest []

structure AssignmentPiece (before u name sign value v : Str) : Prop where
  opens : Opens before (u ++ (name ++ (sign ++ (value ++ v))))
  free : SecretKind.assignment.pattern.FreeIn before u (name ++ (sign ++ (value ++ v)))
  name_text : AssignmentName name
  sign_text : AssignmentSign sign
  value_text : AssignmentValue value
  ends : ∀ c ∈ v.head?, valueChar c = false

theorem SecretKind.whole_opens {kind : SecretKind} (h : kind.whole = true) {b t v : Str} {g : List (Nat × Str)}
    (ht : kind.pattern.Takes ⟨b, t ++ v, []⟩ ⟨t.reverse ++ b, v, g⟩) : Opens (t.reverse ++ b) v := by
  have hm := List.mem_of_head? ht
  cases kind with
  | bearer | assignment => cases h
  | githubToken =>
    obtain ⟨-, t', v', -, -, hb, hcursor⟩ := mem_githubToken_iff.mp hm
    obtain ⟨hbefore, rfl, -⟩ := Cursor.mk.inj hcursor
    rw [hbefore]
    exact fun _ _ _ => hb
  | awsKey =>
    obtain ⟨-, t', v', -, -, hb, hcursor⟩ := mem_awsKey_iff.mp hm
    obtain ⟨hbefore, rfl, -⟩ := Cursor.mk.inj hcursor
    rw [hbefore]
    exact fun _ _ _ => hb
  | connection =>
    obtain ⟨m₁, -, hrest⟩ := Takes.of_cons ht
    obtain ⟨m₂, -, hrun⟩ := hrest.of_cons
    have hend : ∀ c ∈ v.head?, (!isSpace c) = false := hrun.of_singleton.some1_cls
    refine opens_of_head (p := fun c => !isSpace c) (fun c hc => ?_) hend
    rw [isSpace_of_valueChar (valueChar_of_opensToken hc)]
    rfl
  | privateKey =>
    obtain ⟨t', v', -, ⟨s, body, e, rfl, -, k, -, rfl⟩, hcursor⟩ := mem_privateKey_iff.mp hm
    obtain ⟨hbefore, rfl, -⟩ := Cursor.mk.inj hcursor
    rw [hbefore]
    have hdash : " PRIVATE KEY-----".toList = " PRIVATE KEY----".toList ++ ['-'] := by decide
    rw [hdash]
    simp only [List.reverse_append, List.reverse_cons, List.reverse_nil, List.nil_append, List.append_assoc,
      List.singleton_append]
    exact opens_dash _ _

theorem whole_pieces {kind : SecretKind} (hwhole : kind.whole = true) {before rest out : Str} {ms : List (Cursor × Cursor)}
    (h : Substitutes kind.pattern (fun _ m => kind.replacement m) before rest out ms) (hopens : Opens before rest) :
    Pieces (WholePiece kind) (LastPiece kind) before rest out := by
  induction h with
  | stop hfree => exact .last ⟨hopens, hfree⟩
  | step hfree hmatch _ ih =>
    rw [SecretKind.replacement_whole hwhole]
    exact .step ⟨hopens, hfree, _, hmatch⟩ (ih (SecretKind.whole_opens hwhole hmatch))

/-- A kept part of the assignment pass ends with the left-hand side. -/
def KeepsName (before seg gone v : Str) : Prop :=
  ∃ u name sign, seg = u ++ (name ++ sign) ∧ AssignmentPiece before u name sign gone v

theorem assignment_pieces {before rest out : Str} {ms : List (Cursor × Cursor)}
    (h : Substitutes SecretKind.assignment.pattern (fun _ m => SecretKind.assignment.replacement m) before rest out ms)
    (hopens : Opens before rest) : Pieces KeepsName (LastPiece .assignment) before rest out := by
  induction h with
  | stop hfree => exact .last ⟨hopens, hfree⟩
  | @step before u t v out g ms hfree hmatch _ ih =>
    obtain ⟨_, -, hrest⟩ := Takes.of_cons hmatch
    obtain ⟨_, -, hvalue⟩ := hrest.of_cons
    have hends : ∀ c ∈ v.head?, valueChar c = false := hvalue.of_singleton.some1_cls
    obtain ⟨name, sign, value, v', heq, hname, hsign, htext, hcursor⟩ := mem_assignment_iff.mp (List.mem_of_head? hmatch)
    obtain ⟨-, rfl, rfl⟩ := Cursor.mk.inj hcursor
    obtain rfl : t = name ++ (sign ++ value) := by
      refine @List.append_cancel_right _ _ v _ ?_
      rw [heq]
      simp
    have hpiece : KeepsName before (u ++ (name ++ sign)) value v := by
      refine ⟨u, name, sign, rfl, ?_, ?_, hname, hsign, htext, hends⟩
      · simpa only [List.append_assoc] using hopens
      · simpa only [List.append_assoc] using hfree
    have htail : Pieces KeepsName (LastPiece .assignment) (value.reverse ++ ((u ++ (name ++ sign)).reverse ++ before)) v out := by
      have hlater := ih (opens_of_head (fun _ => valueChar_of_opensToken) hends)
      simpa only [List.reverse_append, List.append_assoc] using hlater
    have hreplaced : SecretKind.assignment.replacement ⟨(name ++ (sign ++ value)).reverse ++ (u.reverse ++ before), v,
        [(2, sign), (1, name)]⟩ = name ++ (sign ++ redacted) := List.append_assoc name sign redacted
    have hstep := Pieces.step hpiece htail
    rw [hreplaced]
    simp only [List.append_assoc] at hstep ⊢
    exact hstep

end

end FailureOrchestrator
