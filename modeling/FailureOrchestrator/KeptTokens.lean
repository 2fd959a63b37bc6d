import FailureOrchestrator.RedactedPieces

namespace FailureOrchestrator

open Regex

/-! A kept part stays free of secrets when a placeholder takes the place of what stood behind it. -/

/-- What stands behind a kept part before the pass, and after it. -/
def Replaced (y y' : Str) : Prop :=
  (y = [] ∧ y' = []) ∨ (∃ c ∈ y.head?, valueChar c = true) ∧ ∃ out, y' = redacted ++ out

theorem replaced_nil : Replaced [] [] := .inl ⟨rfl, rfl⟩

section

variable {y y' z : Str}

theorem Replaced.split (h : Replaced y y') {w t : Str} (ht : RunOf unbracketed t) (heq : w ++ y' = t ++ z) :
    ∃ z', w = t ++ z' ∧ z = z' ++ y' := by
  rcases h with ⟨-, rfl⟩ | ⟨-, out, rfl⟩
  · exact ⟨z, by simpa using heq, by simp⟩
  · exact split_before (ht.not_mem (by decide)) heq.symm

theorem Replaced.head (h : Replaced y y') {p : Char → Bool} (hp : ∀ c, valueChar c = true → p c = true)
    (hz : ∃ c ∈ (z ++ y').head?, p c = true) : ∃ c ∈ (z ++ y).head?, p c = true := by
  cases z with
  | cons d z => exact hz
  | nil =>
    rcases h with ⟨-, rfl⟩ | ⟨⟨c, hc, hvalue⟩, -⟩
    · obtain ⟨c, hc, -⟩ := hz
      cases hc
    · exact ⟨c, hc, hp c hvalue⟩

end

/-- The text does not begin within a placeholder that a kept part ends with. -/
def Apart (y : Str) : Prop := ∀ z v, z ++ y = redacted ++ v → ∃ z', z = redacted ++ z'

theorem apart_nil : Apart [] := fun z v h => ⟨v, by simpa using h⟩

theorem PrivateKeyText.dash {t : Str} (h : PrivateKeyText t) : ∃ t', t = '-' :: t' := by
  obtain ⟨b, body, e, rfl, ⟨k, -, rfl⟩, -⟩ := h
  exact ⟨_, rfl⟩

theorem PrivateKeyText.apart {t v : Str} (h : PrivateKeyText t) : Apart (t ++ v) := by
  obtain ⟨t', rfl⟩ := h.dash
  intro z v' heq
  rcases List.append_eq_append_iff.mp heq with ⟨a, hz, hv⟩ | ⟨a, hz, -⟩
  · cases a with
    | nil => exact ⟨[], by simpa using hz.symm⟩
    | cons c a =>
      have hc : '-' = c := congrArg (fun s => s.headD ' ') hv
      have hmem : c ∈ redacted := by
        rw [hz]
        simp
      rw [← hc] at hmem
      exact absurd hmem (by decide)
  · exact ⟨a, hz⟩

theorem ConnectionText.apart {t v : Str} (h : ConnectionText t) : Apart (t ++ v) := by
  obtain ⟨w, run, rfl, hw, -, -⟩ := h
  intro z v' heq
  rcases List.append_eq_append_iff.mp heq with ⟨a, hz, hv⟩ | ⟨a, hz, -⟩
  · obtain rfl | ⟨a, c, rfl⟩ := List.eq_nil_or_concat a
    · exact ⟨[], by simpa using hz.symm⟩
    · rw [List.concat_eq_append] at hz hv
      obtain rfl := redacted_last hz
      have hscheme : w ++ (':' :: ("//".toList ++ (run ++ v))) = a ++ ']' :: v' := by simpa using hv
      obtain ⟨z', rfl, hz'⟩ := split_before (hw.letters.not_mem (by decide)) hscheme
      cases z' with
      | nil => exact absurd (List.cons.inj hz').1 (by decide)
      | cons d z' =>
        obtain ⟨rfl, -⟩ := List.cons.inj hz'
        have hmem : ':' ∈ redacted := by
          rw [hz]
          simp
        exact absurd hmem (by decide)
  · exact ⟨a, hz⟩

/-- After a left-hand side a value stands that is not the placeholder. -/
def OpenValue (z : Str) : Prop :=
  (∃ c ∈ z.head?, valueChar c = true) ∧ ¬ ∃ v, z = redacted ++ v ∧ ∀ c ∈ v.head?, valueChar c = false

def Unsettled (x : Str) : Prop :=
  ∃ name sign z, x = name ++ (sign ++ z) ∧ AssignmentName name ∧ AssignmentSign sign ∧ OpenValue z

theorem unsettled_kept {b before seg y y' : Str} (hno : Nowhere (fun _ => Unsettled) before seg y) (hy : Replaced y y')
    (hapart : Apart y) : Nowhere (fun _ => Unsettled) b seg y' := by
  rintro u w heq hw ⟨name, sign, z, hx, hname, hsign, hvalue, hplace⟩
  rw [← List.append_assoc] at hx
  obtain ⟨z₀, rfl, rfl⟩ := hy.split (runOf_append.mpr ⟨hname.unbracketed, hsign.unbracketed⟩) hx
  refine hno u _ heq hw ⟨name, sign, z₀ ++ y, by simp, hname, hsign, hy.head (fun _ h => h) hvalue, ?_⟩
  rintro ⟨v, hv, hends⟩
  obtain ⟨z₁, rfl⟩ := hapart z₀ v hv
  obtain rfl : z₁ ++ y = v := by simpa using hv
  refine hplace ⟨z₁ ++ y', by simp, ?_⟩
  cases z₁ with
  | cons d z₁ => exact hends
  | nil =>
    rcases hy with ⟨-, rfl⟩ | ⟨⟨c, hc, hvalue⟩, -⟩
    · exact fun c hc => absurd hc (by simp)
    · exact absurd (hends c hc) (by simp [hvalue])

section

variable [UnicodeData] {b before seg y y' : Str}

theorem bearer_kept (hno : Nowhere SecretKind.bearer.pattern.Begins before seg y) (hy : Replaced y y') :
    Nowhere SecretKind.bearer.pattern.Begins b seg y' := by
  rintro u w heq hw ⟨m', hm⟩
  obtain ⟨t, z, hx, ht, -⟩ := mem_bearer_iff.mp hm
  obtain ⟨z', rfl, rfl⟩ := hy.split ((show SecretKind.bearer.Lead t from ht).unbracketed) hx
  exact hno u _ heq hw ⟨_, mem_bearer_iff.mpr ⟨t, z' ++ y, by simp, ht, rfl⟩⟩

theorem connection_kept (hno : Nowhere SecretKind.connection.pattern.Begins before seg y) (hy : Replaced y y') :
    Nowhere SecretKind.connection.pattern.Begins b seg y' := by
  rintro u w heq hw ⟨m', hm⟩
  obtain ⟨t, v, hx, ⟨scheme, run, rfl, hscheme, hne, hrun⟩, -⟩ := mem_connection_iff.mp hm
  have hlead : SecretKind.connection.Lead (scheme ++ "://".toList) := ⟨scheme, rfl, hscheme⟩
  have hx' : w ++ y' = (scheme ++ "://".toList) ++ (run ++ v) := by simpa using hx
  obtain ⟨z, rfl, hz⟩ := hy.split hlead.unbracketed hx'
  have hhead : ∃ c ∈ (z ++ y').head?, (!isSpace c) = true := by
    rw [← hz]
    exact RunOf.head hrun hne
  obtain ⟨c, hc, hspace⟩ := hy.head (p := fun c => !isSpace c) (fun c h => by rw [isSpace_of_valueChar h]; rfl) hhead
  obtain ⟨v', hv'⟩ := List.head?_eq_some_iff.mp (Option.mem_def.mp hc)
  refine hno u _ heq hw ⟨_, mem_connection_iff.mpr ⟨scheme ++ ("://".toList ++ [c]), v', ?_,
    ⟨scheme, [c], rfl, hscheme, by simp, ?_⟩, rfl⟩⟩
  · rw [List.append_assoc, hv']
    simp
  · intro d hd
    rw [List.mem_singleton.mp hd]
    exact hspace

end

/-! A kept part stays free of GitHub tokens and AWS keys, whose ends are word boundaries. -/

def SecretKind.isToken : SecretKind → Bool
  | .githubToken | .awsKey => true
  | _ => false

theorem tokenChar_of_keyChar {c : Char} (h : keyChar c = true) : tokenChar c = true := by
  rcases Bool.or_eq_true_iff.mp h with h | h
  · exact Bool.or_eq_true_iff.mpr (.inr h)
  · have hletter : isFoldedLetter c = true := by
      unfold isFoldedLetter
      rw [isAlpha_iff.mpr (.inl (isUpper_of_between h))]
      rfl
    exact Bool.or_eq_true_iff.mpr (.inl hletter)

theorem isSpace_of_tokenChar {c : Char} (h : tokenChar c = true) : isSpace c = false := by
  have hplain := plainChar_of_tokenChar h
  simp only [plainChar, Bool.and_eq_true, Bool.not_eq_true'] at hplain
  exact hplain.1.1

theorem RunOf.last {p : Char → Bool} {t : Str} (h : RunOf p t) (hne : t ≠ []) : ∃ a c, t = a ++ [c] ∧ p c = true := by
  obtain rfl | ⟨a, c, rfl⟩ := List.eq_nil_or_concat t
  · exact absurd rfl hne
  · rw [List.concat_eq_append] at h ⊢
    exact ⟨a, c, rfl, h c (List.mem_append_right _ (List.mem_singleton_self c))⟩

/-- The first and the last character of a token. -/
theorem SecretKind.Lead.token {kind : SecretKind} (hkind : kind.isToken = true) {t : Str} (h : kind.Lead t) :
    (∃ c t', t = c :: t' ∧ opensToken c = true) ∧ ∃ a c, t = a ++ [c] ∧ tokenChar c = true := by
  cases kind with
  | bearer | assignment | connection | privateKey => cases hkind
  | githubToken =>
    obtain ⟨w, o, run, rfl, hw, -, hlen, hrun⟩ := h
    have hw' : FoldsTo ('g' :: 'h' :: []) w := hw
    have hne : run ≠ [] := by
      rintro rfl
      simp at hlen
    obtain ⟨a, c, rfl, hc⟩ := hrun.last hne
    cases hw' with
    | @cons _ g _ w' hg _ =>
      have hopen : opensToken g = true := Bool.or_eq_true_iff.mpr (.inl hg)
      exact ⟨⟨g, w' ++ (o :: '_' :: (a ++ [c])), rfl, hopen⟩, g :: w' ++ (o :: '_' :: a), c, by simp, hc⟩
  | awsKey =>
    obtain ⟨run, rfl, hlen, hrun⟩ := h
    have hne : run ≠ [] := by
      rintro rfl
      simp at hlen
    obtain ⟨a, c, rfl, hc⟩ := hrun.last hne
    exact ⟨⟨'A', "KIA".toList ++ (a ++ [c]), rfl, by decide⟩, "AKIA".toList ++ a, c, by simp, tokenChar_of_keyChar hc⟩

/-- A left-hand side ends with a sign or a space. -/
theorem AssignmentSign.last {t : Str} (h : AssignmentSign t) : ∃ a c, t = a ++ [c] ∧ tokenChar c = false := by
  obtain ⟨sp, c, sp', rfl, -, hc, hsp'⟩ := h
  by_cases hne : sp' = []
  · subst hne
    have hall : ∀ c ∈ ":=".toList, tokenChar c = false := by decide
    exact ⟨sp, c, rfl, hall c (List.contains_iff_mem.mp hc)⟩
  · obtain ⟨a, d, rfl, hd⟩ := hsp'.last hne
    refine ⟨sp ++ c :: a, d, by simp, ?_⟩
    by_contra htoken
    rw [Bool.not_eq_false] at htoken
    rw [isSpace_of_tokenChar htoken] at hd
    cases hd

section

variable [UnicodeData] {b before seg y y' : Str}

theorem begins_token_iff {kind : SecretKind} (hkind : kind.isToken = true) {x : Str} : kind.pattern.Begins b x ↔
    atWordBoundary ⟨b, x, []⟩ = true ∧ ∃ t v, x = t ++ v ∧ kind.Lead t ∧ atWordBoundary ⟨t.reverse ++ b, v, []⟩ = true := by
  cases kind with
  | bearer | assignment | connection | privateKey => cases hkind
  | githubToken =>
    constructor
    · rintro ⟨m', hm⟩
      obtain ⟨hb, t, v, hx, ht, hb', -⟩ := mem_githubToken_iff.mp hm
      exact ⟨hb, t, v, hx, ht, hb'⟩
    · rintro ⟨hb, t, v, hx, ht, hb'⟩
      exact ⟨_, mem_githubToken_iff.mpr ⟨hb, t, v, hx, ht, hb', rfl⟩⟩
  | awsKey =>
    constructor
    · rintro ⟨m', hm⟩
      obtain ⟨hb, t, v, hx, ht, hb', -⟩ := mem_awsKey_iff.mp hm
      exact ⟨hb, t, v, hx, ht, hb'⟩
    · rintro ⟨hb, t, v, hx, ht, hb'⟩
      exact ⟨_, mem_awsKey_iff.mpr ⟨hb, t, v, hx, ht, hb', rfl⟩⟩

theorem atWordBoundary_congr {b b' x x' : Str} (hb : b.head?.elim false isWord = b'.head?.elim false isWord)
    (hx : x.head?.elim false isWord = x'.head?.elim false isWord) :
    atWordBoundary ⟨b, x, []⟩ = atWordBoundary ⟨b', x', []⟩ := by
  unfold atWordBoundary
  dsimp only
  rw [hb, hx]

/-- A token that ends before the placeholder ends before what stood there. -/
def TokenEnds (kind : SecretKind) (before seg y : Str) : Prop :=
  ∀ a t c, seg = a ++ (t ++ [c]) → kind.Lead (t ++ [c]) → atWordBoundary ⟨a.reverse ++ before, t ++ [c] ++ y, []⟩ = true →
    isWord c = true → kind.pattern.Begins (a.reverse ++ before) (t ++ [c] ++ y)

theorem token_kept {kind : SecretKind} (hkind : kind.isToken = true) (hno : Nowhere kind.pattern.Begins before seg y)
    (hopens : Opens before (seg ++ y)) (hy : Replaced y y') (hends : TokenEnds kind before seg y) :
    Nowhere kind.pattern.Begins b seg y' := by
  intro u w heq hw hbegins
  obtain ⟨hb, t, v, hx, ht, hb'⟩ := (begins_token_iff hkind).mp hbegins
  obtain ⟨z, rfl, rfl⟩ := hy.split ht.unbracketed hx
  obtain ⟨⟨first, rest, hfirst, hopen⟩, a, c, rfl, hc⟩ := ht.token hkind
  have hstart : atWordBoundary ⟨u.reverse ++ before, a ++ [c] ++ z ++ y, []⟩ = true := by
    obtain rfl | ⟨u, d, rfl⟩ := List.eq_nil_or_concat u
    · rw [heq] at hopens
      refine hopens first ?_ hopen
      rw [hfirst]
      rfl
    · rw [← hb]
      refine atWordBoundary_congr ?_ ?_
      · simp
      · rw [hfirst]
        rfl
  refine hno u _ heq hw ?_
  cases z with
  | nil =>
    rw [List.append_nil] at heq hstart ⊢
    have hword : isWord c = true := by
      rw [List.reverse_append] at hb'
      rcases hy with ⟨-, rfl⟩ | ⟨-, out, rfl⟩
      · have hhead : (isWord c != false) = true := hb'
        simpa using hhead
      · rw [redacted_cons] at hb'
        have hmark : isWord '[' = false := not_isWord_ascii (by decide) (by decide) (by decide)
        have hhead : (isWord c != isWord '[') = true := hb'
        rw [hmark] at hhead
        simpa using hhead
    exact hends u a c heq ht hstart hword
  | cons d z =>
    refine (begins_token_iff hkind).mpr ⟨hstart, a ++ [c], d :: z ++ y, by simp, ht, ?_⟩
    rw [← hb']
    refine atWordBoundary_congr ?_ rfl
    simp

/-! ## The ends of tokens at the removed parts -/

theorem tokenEnds_nil {kind : SecretKind} (hkind : kind.isToken = true) : TokenEnds kind before seg [] := by
  intro a t c _ ht hstart hword
  refine (begins_token_iff hkind).mpr ⟨hstart, t ++ [c], [], rfl, ht, ?_⟩
  rw [List.reverse_append]
  show (isWord c != false) = true
  rw [hword]
  rfl

theorem tokenEnds_of_boundary {kind : SecretKind} (hkind : kind.isToken = true)
    (h : atWordBoundary ⟨seg.reverse ++ before, y, []⟩ = true) : TokenEnds kind before seg y := by
  intro a t c hseg ht hstart _
  refine (begins_token_iff hkind).mpr ⟨hstart, t ++ [c], y, rfl, ht, ?_⟩
  rwa [hseg, List.reverse_append, List.append_assoc] at h

/-- Before a dash every token ends. -/
theorem tokenEnds_dash {kind : SecretKind} (hkind : kind.isToken = true) {v : Str} : TokenEnds kind before seg ('-' :: v) := by
  intro a t c _ ht hstart hword
  refine (begins_token_iff hkind).mpr ⟨hstart, t ++ [c], '-' :: v, rfl, ht, ?_⟩
  have hdash : isWord '-' = false := not_isWord_ascii (by decide) (by decide) (by decide)
  rw [List.reverse_append]
  show (isWord c != isWord '-') = true
  rw [hword, hdash]
  rfl

/-- No token ends where a left-hand side does. -/
theorem tokenEnds_sign {kind : SecretKind} (hkind : kind.isToken = true) {u sign : Str} (hsign : AssignmentSign sign) :
    TokenEnds kind before (u ++ sign) y := by
  intro a t c hseg ht _ _
  obtain ⟨-, a', c', hlast, hc⟩ := ht.token hkind
  obtain ⟨s, d, rfl, hd⟩ := hsign.last
  obtain rfl := (List.cons.inj (List.append_inj' hlast rfl).2).1
  rw [← List.append_assoc, ← List.append_assoc] at hseg
  obtain rfl := (List.cons.inj (List.append_inj' hseg rfl).2).1
  rw [hd] at hc
  cases hc

/-- Before letters and a colon a GitHub token ends at some point. -/
theorem github_extends {w : Str} (hw : RunOf isFoldedLetter w) {t v : Str} {c : Char} (ht : GithubText (t ++ [c]))
    (hword : isWord c = true) :
    ∃ t' v', t ++ [c] ++ (w ++ ':' :: v) = t' ++ v' ∧ GithubText t' ∧ atWordBoundary ⟨t'.reverse ++ b, v', []⟩ = true := by
  induction w generalizing t c with
  | nil =>
    have hcolon : isWord ':' = false := not_isWord_ascii (by decide) (by decide) (by decide)
    refine ⟨t ++ [c], ':' :: v, rfl, ht, ?_⟩
    rw [List.reverse_append]
    show (isWord c != isWord ':') = true
    rw [hword, hcolon]
    rfl
  | cons d w ih =>
    rw [RunOf, List.forall_mem_cons] at hw
    by_cases hd : isWord d = true
    · obtain ⟨s, o, run, htext, hs, ho, hlen, hrun⟩ := ht
      have hlonger : GithubText (t ++ [c] ++ [d]) := by
        refine ⟨s, o, run ++ [d], by rw [htext]; simp, hs, ho, ?_, runOf_append.mpr ⟨hrun, ?_⟩⟩
        · rw [List.length_append]
          omega
        · intro e he
          rw [List.mem_singleton.mp he]
          exact Bool.or_eq_true_iff.mpr (.inl hw.1)
      obtain ⟨t', v', heq, ht', hb⟩ := ih hw.2 hlonger hd
      exact ⟨t', v', by rw [← heq]; simp, ht', hb⟩
    · refine ⟨t ++ [c], d :: (w ++ ':' :: v), rfl, ht, ?_⟩
      rw [Bool.not_eq_true] at hd
      rw [List.reverse_append]
      show (isWord c != isWord d) = true
      rw [hword, hd]
      rfl

theorem github_tokenEnds {t v : Str} (h : ConnectionText t) : TokenEnds .githubToken before seg (t ++ v) := by
  obtain ⟨w, run, rfl, hw, -, -⟩ := h
  intro a t c _ ht hstart hword
  have hscheme : w ++ ("://".toList ++ run) ++ v = w ++ ':' :: ("//".toList ++ (run ++ v)) := by simp
  rw [hscheme] at hstart ⊢
  obtain ⟨t', v', heq, ht', hb⟩ := github_extends (b := a.reverse ++ before) hw.letters ht hword
  exact (begins_token_iff rfl).mpr ⟨hstart, t', v', heq, ht', hb⟩

end

end FailureOrchestrator
