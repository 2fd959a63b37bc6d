import FailureOrchestrator.NeutralizedText
import FailureOrchestrator.SecretMatches

namespace FailureOrchestrator

open Regex LineState

/-- A character after which nothing on its line is a command. -/
def plainChar (c : Char) : Bool := !isSpace c && c != ':' && c != '#'

theorem step_plain {c : Char} (h : plainChar c = true) {q : LineState} (hq : q.step c ≠ .command) :
    q.step c = .inside := by
  simp only [plainChar, Bool.and_eq_true, Bool.not_eq_true', bne_iff_ne] at h
  obtain ⟨⟨hspace, hcolon⟩, hhash⟩ := h
  have hn : c ≠ '\n' := by
    rintro rfl
    exact absurd hspace (by decide)
  cases q with
  | opening => simp [LineState.step, hn, hspace, hcolon, hhash]
  | colon => simp [LineState.step, hn, hcolon]
  | colons =>
    have hc : ¬ c.isAlpha = true := fun hc => hq (by simp [LineState.step, hn, hc])
    simp [LineState.step, hn, hc]
  | hash => simp [LineState.step, hn, hhash]
  | hashes =>
    have hc : ¬ c = '[' := fun hc => hq (by simp [LineState.step, hc])
    simp [LineState.step, hn, hc]
  | inside => simp [LineState.step, hn]
  | command => exact absurd rfl hq

/-- Behind a plain character the rest of the line is no command. -/
theorem scan_plain {a b : Str} {c : Char} (hc : plainChar c = true) (hb : '\n' ∉ b) {q : LineState}
    (hq : q.scan (a ++ c :: b) ≠ .command) : q.scan (a ++ c :: b) = .inside := by
  rw [scan_append, scan_cons] at hq ⊢
  rw [step_plain hc (ne_command_of_scan hq), scan_inside hb]

theorem scan_redacted {q : LineState} (h : q ≠ .command) :
    q.scan redacted = if q = .hashes then .command else .inside := by
  cases q with
  | command => exact absurd rfl h
  | opening | colon | colons | hash | hashes | inside => rfl

/-! ## The last characters of the secrets -/

theorem isAlpha_of_isLower_toLower {c : Char} (h : c.toLower.isLower = true) : c.isAlpha = true := by
  unfold Char.toLower at h
  rw [isAlpha_iff]
  split at h
  · next hupper => exact .inl (decide_eq_true hupper)
  · exact .inr h

theorem isFoldedLetter_of_sameFold {c x : Char} (hc : c.toLower.isLower = true) (h : sameFold c x = true) :
    isFoldedLetter x = true := by
  unfold sameFold at h
  unfold isFoldedLetter
  simp only [Bool.or_eq_true, Bool.and_eq_true, beq_iff_eq] at h ⊢
  rcases h with ((h | ⟨-, h⟩) | ⟨-, h⟩) | ⟨-, h⟩
  · rw [← h] at hc
    exact .inl (.inl (.inl (.inl (isAlpha_of_isLower_toLower hc))))
  · rcases h with h | h
    · exact .inl (.inl (.inl (.inr h)))
    · exact .inl (.inl (.inr h))
  · exact .inl (.inr h)
  · exact .inr h

theorem plainChar_of_toNat {c : Char} (h : 36 ≤ c.toNat) (h' : c.toNat ≤ 126) (hcolon : c ≠ ':') :
    plainChar c = true := by
  have hspace : isSpace c = false := by
    unfold isSpace
    simp only [Bool.or_eq_false_iff, Bool.and_eq_false_iff, decide_eq_false_iff_not, beq_eq_false_iff_ne]
    omega
  have hhash : c ≠ '#' := by
    rintro rfl
    exact absurd h (by decide)
  simp [plainChar, hspace, hcolon, hhash]

theorem plainChar_of_isFoldedLetter {c : Char} (h : isFoldedLetter c = true) : plainChar c = true := by
  simp only [isFoldedLetter, Bool.or_eq_true, beq_iff_eq] at h
  rcases h with (((h | rfl) | rfl) | rfl) | rfl
  · have hnat := isAlpha_toNat h
    refine plainChar_of_toNat (by omega) (by omega) ?_
    rintro rfl
    exact absurd h (by decide)
  · decide
  · decide
  · decide
  · decide

theorem plainChar_of_isDigit {c : Char} (h : c.isDigit = true) : plainChar c = true := by
  have hcolon : c ≠ ':' := by
    rintro rfl
    exact absurd h (by decide)
  simp only [Char.isDigit, Bool.and_eq_true, decide_eq_true_eq, ge_iff_le, UInt32.le_iff_toNat_le] at h
  have hc : c.val.toNat = c.toNat := rfl
  rw [hc] at h
  simp at h
  exact plainChar_of_toNat (by omega) (by omega) hcolon

theorem plainChar_of_tokenChar {c : Char} (h : tokenChar c = true) : plainChar c = true :=
  (Bool.or_eq_true_iff.mp h).elim plainChar_of_isFoldedLetter plainChar_of_isDigit

theorem plainChar_of_bearerChar {c : Char} (h : bearerChar c = true) : plainChar c = true := by
  rcases Bool.or_eq_true_iff.mp h with h | h
  · exact plainChar_of_tokenChar h
  · have hall : ∀ c ∈ "._~+/=-".toList, plainChar c = true := by decide
    exact hall c (List.contains_iff_mem.mp h)

theorem plainChar_of_keyChar {c : Char} (h : keyChar c = true) : plainChar c = true := by
  rcases Bool.or_eq_true_iff.mp h with h | h
  · exact plainChar_of_isDigit h
  · simp only [between, Bool.and_eq_true, decide_eq_true_eq, Char.le_def, UInt32.le_iff_toNat_le] at h
    have hc : c.val.toNat = c.toNat := rfl
    rw [hc] at h
    simp at h
    refine plainChar_of_toNat (by omega) (by omega) ?_
    rintro rfl
    exact absurd h (by decide)

/-- A text has a plain character with the rest of the line behind it. -/
def EndsPlain (t : Str) : Prop := ∃ a c b, t = a ++ c :: b ∧ plainChar c = true ∧ '\n' ∉ b

theorem EndsPlain.scan {t : Str} (h : EndsPlain t) {q : LineState} (hq : q.scan t ≠ .command) :
    q.scan t = .inside := by
  obtain ⟨a, c, b, rfl, hc, hb⟩ := h
  exact scan_plain hc hb hq

theorem EndsPlain.append_left (a : Str) {t : Str} (h : EndsPlain t) : EndsPlain (a ++ t) := by
  obtain ⟨a', c, b, rfl, hc, hb⟩ := h
  exact ⟨a ++ a', c, b, by rw [List.append_assoc], hc, hb⟩

theorem RunOf.endsPlain {p : Char → Bool} (hp : ∀ c, p c = true → plainChar c = true) {t : Str} (h : RunOf p t)
    (hne : t ≠ []) : EndsPlain t := by
  obtain rfl | ⟨u, c, rfl⟩ := List.eq_nil_or_concat t
  · exact absurd rfl hne
  · rw [List.concat_eq_append] at h ⊢
    exact ⟨u, c, [], rfl, hp c (h c (List.mem_append_right _ (List.mem_singleton_self c))), List.not_mem_nil⟩

theorem Regex.FoldsTo.run {u w : Str} (h : FoldsTo u w) (hu : ∀ c ∈ u, c.toLower.isLower = true) : RunOf isFoldedLetter w := by
  induction h with
  | nil => exact fun _ hc => absurd hc List.not_mem_nil
  | cons hfold _ ih =>
    rw [List.forall_mem_cons] at hu
    exact List.forall_mem_cons.mpr ⟨isFoldedLetter_of_sameFold hu.1 hfold, ih hu.2⟩

theorem Regex.FoldsTo.endsPlain {u w : Str} (h : FoldsTo u w) (hu : ∀ c ∈ u, c.toLower.isLower = true) (hne : u ≠ []) :
    EndsPlain w := by
  refine (h.run hu).endsPlain (fun _ => plainChar_of_isFoldedLetter) ?_
  rintro rfl
  exact hne (List.eq_nil_of_length_eq_zero h.length_eq.symm)

theorem BearerText.endsPlain {t : Str} (h : BearerText t) : EndsPlain t := by
  obtain ⟨w, sp, run, rfl, -, -, -, hlen, hrun⟩ := h
  refine EndsPlain.append_left w (EndsPlain.append_left sp (hrun.endsPlain (fun _ => plainChar_of_bearerChar) ?_))
  rintro rfl
  simp at hlen

theorem GithubText.endsPlain {t : Str} (h : GithubText t) : EndsPlain t := by
  obtain ⟨w, o, run, rfl, -, -, hlen, hrun⟩ := h
  refine EndsPlain.append_left w (EndsPlain.append_left [o, '_'] (hrun.endsPlain (fun _ => plainChar_of_tokenChar) ?_))
  rintro rfl
  simp at hlen

theorem AwsText.endsPlain {t : Str} (h : AwsText t) : EndsPlain t := by
  obtain ⟨run, rfl, hlen, hrun⟩ := h
  refine EndsPlain.append_left _ (hrun.endsPlain (fun _ => plainChar_of_keyChar) ?_)
  rintro rfl
  simp at hlen

theorem AssignmentName.endsPlain {t : Str} (h : AssignmentName t) : EndsPlain t := by
  rcases h with ⟨a, sep, k, rfl, -, -, hk⟩ | ⟨u, hu, hw⟩
  · exact EndsPlain.append_left a (EndsPlain.append_left sep (hk.endsPlain (by decide) (by decide)))
  · have hwords : ∀ u ∈ ["password", "secret", "token", "authorization"],
        (∀ c ∈ u.toList, c.toLower.isLower = true) ∧ u.toList ≠ [] := by decide
    exact hw.endsPlain (hwords u hu).1 (hwords u hu).2

theorem ConnectionText.endsPlain {t : Str} (h : ConnectionText t) : EndsPlain t := by
  obtain ⟨w, run, rfl, -, -, hrun⟩ := h
  refine EndsPlain.append_left w ⟨":/".toList, '/', run, rfl, by decide, ?_⟩
  intro hn
  exact absurd (hrun '\n' hn) (by decide)

theorem PrivateKeyText.endsPlain {t : Str} (h : PrivateKeyText t) : EndsPlain t := by
  obtain ⟨b, body, e, rfl, -, k, -, rfl⟩ := h
  refine EndsPlain.append_left b (EndsPlain.append_left body ?_)
  refine EndsPlain.append_left _ (EndsPlain.append_left _ (EndsPlain.append_left k ?_))
  exact ⟨" PRIVATE KEY----".toList, '-', [], by decide, by decide, by decide⟩

end FailureOrchestrator
