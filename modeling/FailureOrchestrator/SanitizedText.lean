import FailureOrchestrator.Sanitization
import FailureOrchestrator.RunEvidence

namespace FailureOrchestrator

open Regex

/-- A character that no redaction needs. -/
def unneededChar (c : Char) : Bool := !isSpace c && c != ':' && c != '=' && c != '-' && c != 'K'

/-- A text without what the patterns for secrets need. -/
def Harmless (text : Str) : Prop :=
  (∀ c ∈ text, unneededChar c = true) ∧ ('_' ∉ text ∨ ∀ c ∈ text, sameFold 'h' c = false)

instance (text : Str) : Decidable (Harmless text) := inferInstanceAs (Decidable (_ ∧ _))

section Redaction

variable {text : Str}

/-- Each pattern needs a character that a harmless text has not. -/
theorem Harmless.needs (h : Harmless text) (kind : SecretKind) :
    ∃ p, kind.pattern.Needs p ∧ ∀ c ∈ text, p c = false := by
  have hplain : ∀ c ∈ text, isSpace c = false ∧ c ≠ ':' ∧ c ≠ '=' ∧ c ≠ '-' ∧ c ≠ 'K' := by
    intro c hc
    have hchar := h.1 c hc
    simp only [unneededChar, Bool.and_eq_true, Bool.not_eq_true', bne_iff_ne] at hchar
    obtain ⟨⟨⟨⟨hspace, hcolon⟩, hequals⟩, hdash⟩, hk⟩ := hchar
    exact ⟨hspace, hcolon, hequals, hdash, hk⟩
  cases kind with
  | bearer => exact ⟨_, SecretKind.needs .bearer, fun c hc => (hplain c hc).1⟩
  | githubToken =>
    rcases h.2 with hline | hh
    · refine ⟨_, SecretKind.needs .githubToken, fun c hc => ?_⟩
      refine beq_false_of_ne ?_
      rintro rfl
      exact hline hc
    · exact ⟨sameFold 'h', .inr (.inl (.inr (.inl fun _ hc => hc))), hh⟩
  | awsKey => exact ⟨_, SecretKind.needs .awsKey, fun c hc => beq_false_of_ne (hplain c hc).2.2.2.2⟩
  | assignment =>
    refine ⟨_, SecretKind.needs .assignment, fun c hc => ?_⟩
    have hcolon := (hplain c hc).2.1
    have hequals := (hplain c hc).2.2.1
    simp [SecretKind.neededChar, hcolon, hequals]
  | connection => exact ⟨_, SecretKind.needs .connection, fun c hc => beq_false_of_ne (hplain c hc).2.1⟩
  | privateKey => exact ⟨_, SecretKind.needs .privateKey, fun c hc => beq_false_of_ne (hplain c hc).2.2.2.1⟩

theorem redacted_replacement (kind : SecretKind) (m : Cursor) : redacted <:+: kind.replacement m := by
  cases kind with
  | assignment => exact (List.suffix_append _ _).isInfix
  | bearer => exact (List.suffix_append _ _).isInfix
  | githubToken | awsKey | connection | privateKey => exact List.infix_rfl

variable [UnicodeData]

/-- A redaction leaves a text as it is, or marks it. -/
theorem redactKind_cases (state : Str × Nat) (kind : SecretKind) :
    (redactKind state kind).1 = state.1 ∨ redacted <:+: (redactKind state kind).1 := by
  rcases sub_cases (r := kind.pattern) (fun _ m => kind.replacement m) state.1 with h | ⟨t, m, before, after, h⟩
  · exact .inl h
  · refine .inr ?_
    show redacted <:+: sub kind.pattern (fun _ m => kind.replacement m) state.1
    rw [h]
    exact (redacted_replacement kind m).trans (List.infix_append _ _ _)

theorem sanitizeText_cases (text : Str) : (sanitizeText text).1 = text ∨ redacted <:+: (sanitizeText text).1 := by
  have hkinds : ∀ (kinds : List SecretKind) (state : Str × Nat), state.1 = text ∨ redacted <:+: state.1 →
      (kinds.foldl redactKind state).1 = text ∨ redacted <:+: (kinds.foldl redactKind state).1 := by
    intro kinds
    induction kinds with
    | nil => exact fun _ h => h
    | cons kind kinds ih =>
      intro state h
      apply ih
      rcases redactKind_cases state kind with hsame | hmarked
      · rw [hsame]
        exact h
      · exact .inr hmarked
  unfold sanitizeText
  split
  · exact .inl rfl
  · exact hkinds SecretKind.all (text, 0) (.inl rfl)

theorem sanitizeText_harmless (h : Harmless text) : (sanitizeText text).1 = text := sanitizeText_eq_self h.needs

theorem boundedText_harmless {maxChars : Nat} (h : Harmless text) (hlength : text.length ≤ maxChars) :
    boundedText text maxChars = text := by
  unfold boundedText
  rw [sanitizeText_harmless h, if_neg (by omega)]

/-- A harmless text without brackets is stored only where it was given. -/
theorem boundedText_eq_iff {maxChars : Nat} {other : Str} (h : Harmless text) (hlength : text.length ≤ maxChars)
    (hbracket : '[' ∉ text) : boundedText other maxChars = text ↔ other = text := by
  constructor
  · intro heq
    unfold boundedText at heq
    dsimp only at heq
    split at heq
    · refine absurd ?_ hbracket
      rw [← heq]
      exact List.mem_append_right _ (by decide)
    · rcases sanitizeText_cases other with hsame | hmarked
      · exact hsame.symm.trans heq
      · rw [heq] at hmarked
        exact absurd (hmarked.subset (by decide)) hbracket
  · rintro rfl
    exact boundedText_harmless h hlength

end Redaction

end FailureOrchestrator
