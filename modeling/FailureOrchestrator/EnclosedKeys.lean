import FailureOrchestrator.StableRedaction

namespace FailureOrchestrator

open Regex

/-! A connection string that goes right behind an AWS key uncovers the key. -/

/-- The text before a position ends with an AWS key. -/
def UncoversKey [UnicodeData] (before : Str) : Prop :=
  ∃ key b, before = key.reverse ++ b ∧ AwsText key ∧ atWordBoundary ⟨b, key, []⟩ = true

/-- A position stands within one of the matches. -/
def Encloses (ms : List (Cursor × Cursor)) (n : Nat) : Prop := ∃ p ∈ ms, p.1.before.length ≤ n ∧ n < p.2.before.length

theorem encloses_cons {ms : List (Cursor × Cursor)} {p : Cursor × Cursor} {n : Nat} :
    Encloses (p :: ms) n ↔ (p.1.before.length ≤ n ∧ n < p.2.before.length) ∨ Encloses ms n := by
  unfold Encloses
  simp only [List.mem_cons, exists_eq_or_imp]

section

variable [UnicodeData] {before rest out text : Str} {ms : List (Cursor × Cursor)}

/-- Every AWS key of the text stands in one of the private keys that the last pass removes. -/
def KeysEnclosed (text : Str) : Prop :=
  ∀ a x, text = a ++ x → SecretKind.awsKey.pattern.Begins a.reverse x →
    Encloses (SecretKind.privateKey.matchesIn text) a.length

/-! ## The last pass -/

/-- The keys behind a position stand in matches. -/
def EnclosedFrom (before rest : Str) (ms : List (Cursor × Cursor)) : Prop :=
  ∀ a x, rest = a ++ x → SecretKind.awsKey.pattern.Begins (a.reverse ++ before) x → Encloses ms (a.reverse ++ before).length

theorem enclosed_pieces
    (h : Substitutes SecretKind.privateKey.pattern (fun _ m => SecretKind.privateKey.replacement m) before rest out ms)
    (hopens : Opens before rest) (henclosed : EnclosedFrom before rest ms) :
    Pieces (fun b s g v => WholePiece .privateKey b s g v ∧ Nowhere SecretKind.awsKey.pattern.Begins b s (g ++ v))
      (fun b x => LastPiece .privateKey b x ∧ Nowhere SecretKind.awsKey.pattern.Begins b x []) before rest out := by
  induction h with
  | stop hfree =>
    refine .last ⟨⟨hopens, hfree⟩, ?_⟩
    rintro a x heq - hkey
    rw [List.append_nil] at hkey
    obtain ⟨p, hp, -⟩ := henclosed a x heq hkey
    cases hp
  | @step before u t v out g ms hfree hmatch htail ih =>
    have hstarts := htail.starts
    refine .step ⟨⟨hopens, hfree, g, hmatch⟩, ?_⟩ (ih (SecretKind.whole_opens rfl hmatch) ?_)
    · rintro a x rfl hx hkey
      have hpos := List.length_pos_of_ne_nil hx
      obtain ⟨hle, -⟩ | ⟨p, hp, hle, -⟩ := encloses_cons.mp (henclosed a (x ++ (t ++ v)) (by simp) hkey)
      · simp only [List.length_append, List.length_reverse] at hle
        omega
      · have hlater := hstarts p hp
        simp only [List.length_append, List.length_reverse] at hle hlater
        omega
    · rintro a x rfl hkey
      have hshift : (u ++ (t ++ a)).reverse ++ before = a.reverse ++ (t.reverse ++ (u.reverse ++ before)) := by simp
      have hin := henclosed (u ++ (t ++ a)) x (by simp) (by rw [hshift]; exact hkey)
      rw [hshift] at hin
      refine (encloses_cons.mp hin).resolve_left ?_
      rintro ⟨-, hlt⟩
      simp only [List.length_append, List.length_reverse] at hlt
      omega

theorem isWord_of_keyChar {c : Char} (h : keyChar c = true) : isWord c = true := by
  have hascii : c.toNat < 128 ∧ c.isAlphanum = true := by
    rcases Bool.or_eq_true_iff.mp h with h | h
    · refine ⟨?_, by simp [Char.isAlphanum, h]⟩
      simp only [Char.isDigit, Bool.and_eq_true, decide_eq_true_eq, ge_iff_le, UInt32.le_iff_toNat_le] at h
      have hc : c.val.toNat = c.toNat := rfl
      rw [hc] at h
      simp at h
      omega
    · have hletter : c.isAlpha = true := isAlpha_iff.mpr (.inl (isUpper_of_between h))
      have hnat := isAlpha_toNat hletter
      exact ⟨by omega, by simp [Char.isAlphanum, hletter]⟩
  unfold isWord
  rw [UnicodeData.isAlnum_ascii c hascii.1, hascii.2]
  rfl

/-- What stands behind a kept part of the last pass, before and after it. -/
def KeyRemoved (y y' : Str) : Prop := (y = [] ∧ y' = []) ∨ (∃ v, y = '-' :: v) ∧ ∃ out, y' = redacted ++ out

/-- A key in a kept part of the last pass is a key of the result. -/
theorem key_shown {a b x y y' : Str} (hb : ∀ c ∈ b.head?, isWord c = false) (hy : KeyRemoved y y')
    (hkey : SecretKind.awsKey.pattern.Begins (a.reverse ++ before) (x ++ y)) :
    SecretKind.awsKey.pattern.Begins (a.reverse ++ b) (x ++ y') := by
  obtain ⟨hstart, t, z, hx, ht, hend⟩ := (begins_token_iff rfl).mp hkey
  obtain ⟨run, rfl, hlen, hrun⟩ := ht
  have hne : run ≠ [] := by
    rintro rfl
    simp at hlen
  have hnodash : '-' ∉ "AKIA".toList ++ run := by
    refine RunOf.not_mem (p := keyChar) (runOf_append.mpr ⟨?_, hrun⟩) (by decide)
    unfold RunOf
    decide
  obtain ⟨z', rfl, rfl⟩ : ∃ z', x = "AKIA".toList ++ run ++ z' ∧ z = z' ++ y := by
    rcases hy with ⟨rfl, -⟩ | ⟨⟨v, rfl⟩, -⟩
    · exact ⟨z, by simpa using hx, by simp⟩
    · exact split_before hnodash hx.symm
  refine (begins_token_iff rfl).mpr ⟨?_, "AKIA".toList ++ run, z' ++ y', by simp, ⟨run, rfl, hlen, hrun⟩, ?_⟩
  · obtain rfl | ⟨a, d, rfl⟩ := List.eq_nil_or_concat a
    · have hfirst : isWord 'A' = true := isWord_of_isAlpha (by decide)
      have hbefore : b.head?.elim false isWord = false := by
        cases b with
        | nil => rfl
        | cons c b => exact hb c rfl
      show (b.head?.elim false isWord != isWord 'A') = true
      rw [hbefore, hfirst]
      rfl
    · rw [← hstart]
      exact atWordBoundary_congr (by simp) rfl
  · obtain ⟨s, c, rfl, hc⟩ := hrun.last hne
    cases z' with
    | cons d z' =>
      rw [← hend]
      exact atWordBoundary_congr (by simp) rfl
    | nil =>
      simp only [List.reverse_append, List.reverse_singleton, List.append_assoc, List.singleton_append, List.nil_append]
      rcases hy with ⟨-, rfl⟩ | ⟨-, out, rfl⟩
      · show (isWord c != false) = true
        rw [isWord_of_keyChar hc]
        rfl
      · have hmark : isWord '[' = false := not_isWord_ascii (by decide) (by decide) (by decide)
        rw [redacted_cons]
        show (isWord c != isWord '[') = true
        rw [isWord_of_keyChar hc, hmark]
        rfl

theorem enclosed_of_absent
    (h : Substitutes SecretKind.privateKey.pattern (fun _ m => SecretKind.privateKey.replacement m) before rest out ms)
    {b : Str} (hb : ∀ c ∈ b.head?, isWord c = false) (hno : Nowhere SecretKind.awsKey.pattern.Begins b out []) :
    EnclosedFrom before rest ms := by
  have hnil : ∀ b, ¬ SecretKind.awsKey.pattern.Begins b [] := by
    intro b hkey
    obtain ⟨-, t, z, hx, ht, -⟩ := (begins_token_iff rfl).mp hkey
    obtain ⟨⟨c, t', rfl, -⟩, -⟩ := ht.token rfl
    cases hx
  induction h generalizing b with
  | stop hfree =>
    intro a x heq hkey
    by_cases hx : x = []
    · rw [hx] at hkey
      exact absurd hkey (hnil _)
    · rw [← List.append_nil x] at hkey
      exact absurd (key_shown hb (.inl ⟨rfl, rfl⟩) hkey) (hno a x heq hx)
  | @step before u t v out g ms hfree hmatch htail ih =>
    obtain ⟨hseg, hrest⟩ := nowhere_append.mp hno
    obtain ⟨-, hout⟩ := nowhere_append.mp hrest
    rw [List.append_nil] at hseg
    have htext : PrivateKeyText t := by
      obtain ⟨t', v', heq, ht, hcursor⟩ := mem_privateKey_iff.mp (List.mem_of_head? hmatch)
      obtain ⟨-, rfl, -⟩ := Cursor.mk.inj hcursor
      rwa [List.append_cancel_right heq]
    have hmark : ∀ c ∈ (redacted.reverse ++ (u.reverse ++ b)).head?, isWord c = false := by
      intro c hc
      have hlast : redacted = "[REDACTED_SECRET".toList ++ [']'] := by decide
      rw [hlast, List.reverse_append] at hc
      obtain rfl : ']' = c := Option.some.inj hc
      exact not_isWord_ascii (by decide) (by decide) (by decide)
    intro a x heq hkey
    rcases List.append_eq_append_iff.mp heq with ⟨a', rfl, ha⟩ | ⟨x', rfl, rfl⟩
    · rcases List.append_eq_append_iff.mp ha with ⟨a'', rfl, rfl⟩ | ⟨t', rfl, rfl⟩
      · have hshift : (u ++ (t ++ a'')).reverse ++ before = a''.reverse ++ (t.reverse ++ (u.reverse ++ before)) := by simp
        rw [hshift] at hkey ⊢
        exact encloses_cons.mpr (.inr (ih hmark hout a'' x rfl hkey))
      · by_cases hend : t' = []
        · subst hend
          rw [List.append_nil] at ih
          have hshift : (u ++ a').reverse ++ before = [].reverse ++ (a'.reverse ++ (u.reverse ++ before)) := by simp
          rw [hshift] at hkey ⊢
          exact encloses_cons.mpr (.inr (ih hmark hout [] v rfl hkey))
        · have hpos := List.length_pos_of_ne_nil hend
          refine encloses_cons.mpr (.inl ⟨?_, ?_⟩)
          · simp only [List.length_append, List.length_reverse]
            omega
          · simp only [List.length_append, List.length_reverse]
            omega
    · by_cases hstart : x' = []
      · subst hstart
        obtain ⟨t', rfl⟩ := htext.dash
        refine encloses_cons.mpr (.inl ⟨?_, ?_⟩)
        · simp
        · simp only [List.length_append, List.length_reverse, List.length_cons, List.append_nil]
          omega
      · obtain ⟨t', rfl⟩ := htext.dash
        rw [List.append_assoc] at heq
        exact absurd (key_shown hb (.inr ⟨⟨_, rfl⟩, out, rfl⟩) hkey) (hseg a x' rfl hstart)

/-! ## The pass for connection strings -/

theorem connection_pieces
    (h : Substitutes SecretKind.connection.pattern (fun _ m => SecretKind.connection.replacement m) before rest out ms)
    (hopens : Opens before rest) (hcovered : ∀ p ∈ ms, ¬ UncoversKey p.1.before) :
    Pieces (fun b s g v => WholePiece .connection b s g v ∧ ¬ UncoversKey (s.reverse ++ b)) (LastPiece .connection) before
      rest out := by
  induction h with
  | stop hfree => exact .last ⟨hopens, hfree⟩
  | step hfree hmatch _ ih =>
    obtain ⟨hfirst, hlater⟩ := List.forall_mem_cons.mp hcovered
    exact .step ⟨⟨hopens, hfree, _, hmatch⟩, hfirst⟩ (ih (SecretKind.whole_opens rfl hmatch) hlater)

/-- The pass for connection strings leaves a text free of AWS keys when it uncovers none. -/
theorem aws_connection (hcovered : ∀ p ∈ SecretKind.connection.matchesIn text, ¬ UncoversKey p.1.before)
    (hno : Nowhere SecretKind.awsKey.pattern.Begins [] text []) :
    Nowhere SecretKind.awsKey.pattern.Begins [] (SecretKind.connection.redact text) [] := by
  have hpieces := (connection_pieces (SecretKind.connection.redact_substitutes text) (opens_nil text) hcovered).within hno
  refine tokens_settled .connection rfl (hpieces.mono (fun b s g v hpiece => ⟨hpiece.1.1, hpiece.2, ?_⟩) fun _ _ h => h)
  intro a t c hseg ht hstart _
  refine absurd ⟨t ++ [c], a.reverse ++ b, by rw [hseg, List.reverse_append, List.append_assoc], ht, ?_⟩ hpiece.1.2
  rw [← hstart]
  refine atWordBoundary_congr rfl ?_
  cases t <;> rfl

/-! ## The passes one after the other -/

/-- The pass for the kind changes nothing in the text. -/
def SecretKind.Untouched (kind : SecretKind) (text : Str) : Prop :=
  match kind with
  | .assignment => Nowhere (fun _ => Unsettled) [] text []
  | kind => Nowhere kind.pattern.Begins [] text []

theorem SecretKind.Untouched.redact_eq {kind : SecretKind} (h : kind.Untouched text) : kind.redact text = text := by
  cases kind with
  | assignment =>
    exact assignment_unchanged (redact_pieces (by decide : SecretKind.assignment ≠ .bearer) text) h
  | bearer | githubToken | awsKey | connection | privateKey =>
    exact (freeIn_iff_nowhere.mpr h).sub (SecretKind.consumes _) _

theorem redactAll_eq_self {kinds : List SecretKind} (h : ∀ kind ∈ kinds, kind.Untouched text) :
    redactAll kinds text = text := by
  induction kinds with
  | nil => rfl
  | cons kind kinds ih =>
    obtain ⟨hfirst, hlater⟩ := List.forall_mem_cons.mp h
    show redactAll kinds (kind.redact text) = text
    rw [hfirst.redact_eq, ih hlater]

/-- The text that the pass for private keys reads. -/
def beforePrivateKeys (text : Str) : Str :=
  redactAll [.bearer, .githubToken, .awsKey, .assignment, .connection] text

theorem sanitizeText_last (text : Str) : (sanitizeText text).1 = SecretKind.privateKey.redact (beforePrivateKeys text) :=
  sanitizeText_eq_redactAll text

/-- Of all secrets only an AWS key can be left. -/
theorem sanitizeText_untouched (text : Str) {kind : SecretKind} (hkind : kind ≠ .awsKey) :
    kind.Untouched (sanitizeText text).1 := by
  rw [sanitizeText_last]
  cases kind with
  | awsKey => exact absurd rfl hkind
  | bearer =>
    refine bearer_later (by decide) (bearer_later (by decide) (bearer_later (by decide) (bearer_later (by decide) ?_)))
    exact bearer_later (by decide) (bearer_own text)
  | githubToken =>
    refine token_later rfl (by decide) (by decide) (github_connection (token_later rfl (by decide) (by decide) ?_))
    exact token_later rfl (by decide) (by decide) (token_own rfl _)
  | assignment => exact assignment_later (.inr rfl) (assignment_later (.inl rfl) (assignment_own _))
  | connection => exact connection_later (by decide) (connection_own _)
  | privateKey => exact privateKey_own _

theorem keysEnclosed_iff (text : Str) :
    KeysEnclosed text ↔ Nowhere SecretKind.awsKey.pattern.Begins [] (SecretKind.privateKey.redact text) [] := by
  have hsub := SecretKind.privateKey.redact_substitutes text
  have hfrom : KeysEnclosed text ↔ EnclosedFrom [] text (SecretKind.privateKey.matchesIn text) := by
    unfold KeysEnclosed EnclosedFrom
    simp only [List.append_nil, List.length_reverse]
  rw [hfrom]
  constructor
  · intro henclosed
    refine tokens_settled .privateKey rfl
      ((enclosed_pieces hsub (opens_nil text) henclosed).mono (fun b s g v hpiece => ?_) fun _ _ h => h)
    have hlast : SecretKind.privateKey.Piece b s g v := hpiece.1
    exact ⟨hlast, hpiece.2, hlast.tokenEnds rfl (by decide) (by decide)⟩
  · exact enclosed_of_absent hsub fun c hc => absurd hc (by simp)

theorem containsHighConfidenceSecret_eq_false : containsHighConfidenceSecret text = false ↔
    ∀ kind : SecretKind, kind.highConfidence = true → found kind.pattern text = false := by
  unfold containsHighConfidenceSecret
  by_cases htext : text = []
  · subst htext
    exact iff_of_true rfl fun kind _ => found_nil kind.consumes
  · have hempty : text.isEmpty = false := by simpa using htext
    have hall : ∀ kind, kind ∈ SecretKind.all := by
      intro kind
      cases kind <;> decide
    simp [hempty, hall]

/-- No pass changes a text exactly when redaction keeps it and finds no secret of the certain kinds in it. -/
theorem untouched_iff : ((sanitizeText text).1 = text ∧ containsHighConfidenceSecret text = false) ↔
    ∀ kind : SecretKind, kind.Untouched text := by
  constructor
  · rintro ⟨hsame, hnone⟩ kind
    by_cases hkind : kind = .awsKey
    · subst hkind
      have haws := containsHighConfidenceSecret_eq_false.mp hnone .awsKey rfl
      exact freeIn_iff_nowhere.mp ((freeIn_iff_found (SecretKind.consumes _)).mpr haws)
    · rw [← hsame]
      exact sanitizeText_untouched text hkind
  · intro hall
    refine ⟨?_, ?_⟩
    · rw [sanitizeText_eq_redactAll]
      exact redactAll_eq_self fun kind _ => hall kind
    · refine containsHighConfidenceSecret_eq_false.mpr fun kind hkind => ?_
      refine (freeIn_iff_found kind.consumes).mp (freeIn_iff_nowhere.mpr ?_)
      cases kind with
      | bearer | assignment | connection => cases hkind
      | githubToken => exact hall .githubToken
      | awsKey => exact hall .awsKey
      | privateKey => exact hall .privateKey

theorem sanitizeText_untouched_iff (text : Str) :
    (∀ kind : SecretKind, kind.Untouched (sanitizeText text).1) ↔ KeysEnclosed (beforePrivateKeys text) := by
  rw [keysEnclosed_iff, ← sanitizeText_last]
  constructor
  · exact fun hall => hall .awsKey
  · intro haws kind
    by_cases hkind : kind = .awsKey
    · subst hkind
      exact haws
    · exact sanitizeText_untouched text hkind

/-- Redacting once more changes nothing and no secret of the certain kinds is left, exactly when the AWS keys that the text
has before the last pass stand in private keys. -/
theorem sanitizeText_stable_iff (text : Str) :
    ((sanitizeText (sanitizeText text).1).1 = (sanitizeText text).1 ∧
      containsHighConfidenceSecret (sanitizeText text).1 = false) ↔ KeysEnclosed (beforePrivateKeys text) :=
  untouched_iff.trans (sanitizeText_untouched_iff text)

/-- The text that the pass for connection strings reads. -/
def beforeConnections (text : Str) : Str := redactAll [.bearer, .githubToken, .awsKey, .assignment] text

/-- A text in which no connection string goes from behind an AWS key has no AWS key before the last pass. -/
theorem keysEnclosed_of_covered
    (hcovered : ∀ p ∈ SecretKind.connection.matchesIn (beforeConnections text), ¬ UncoversKey p.1.before) :
    KeysEnclosed (beforePrivateKeys text) := by
  have hbefore : Nowhere SecretKind.awsKey.pattern.Begins [] (beforeConnections text) [] :=
    token_later rfl (by decide) (by decide) (token_own rfl _)
  have hafter := aws_connection hcovered hbefore
  exact (keysEnclosed_iff _).mpr (token_later rfl (by decide) (by decide) hafter)

end

/-- The key stands directly before a connection string, so that no word ends behind it when keys are redacted. -/
theorem uncoveredKey_shown :
    let text := "AKIAABCDEFGHIJKLMNOPredis://x".toList
    ¬ ((@sanitizeText asciiData (@sanitizeText asciiData text).1).1 = (@sanitizeText asciiData text).1 ∧
      @containsHighConfidenceSecret asciiData (@sanitizeText asciiData text).1 = false) := by
  decide +kernel

end FailureOrchestrator
