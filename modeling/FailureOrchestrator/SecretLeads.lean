import FailureOrchestrator.Sanitization
import FailureOrchestrator.RegexFree
import FailureOrchestrator.SecretLines

namespace FailureOrchestrator

open Regex

/-! The placeholder stands apart from every secret. -/

/-- What a match of the pattern begins with, as far as no character is arbitrary. -/
def SecretKind.Lead : SecretKind → Str → Prop
  | .bearer => BearerText
  | .githubToken => GithubText
  | .awsKey => AwsText
  | .assignment => fun t => ∃ name sign, t = name ++ sign ∧ AssignmentName name ∧ AssignmentSign sign
  | .connection => fun t => ∃ w, t = w ++ "://".toList ∧ SchemeText w
  | .privateKey => KeyLine "BEGIN"

def unbracketed (c : Char) : Bool := c != '[' && c != ']'

theorem runOf_append {p : Char → Bool} {u v : Str} : RunOf p (u ++ v) ↔ RunOf p u ∧ RunOf p v := List.forall_mem_append

theorem RunOf.mono {p q : Char → Bool} {t : Str} (h : RunOf p t) (hpq : ∀ c, p c = true → q c = true) : RunOf q t :=
  fun c hc => hpq c (h c hc)

theorem RunOf.unbracketed {p : Char → Bool} {t : Str} (h : RunOf p t) (hopen : p '[' = false) (hclose : p ']' = false) :
    RunOf unbracketed t := by
  intro c hc
  have hp := h c hc
  unfold FailureOrchestrator.unbracketed
  rw [Bool.and_eq_true, bne_iff_ne, bne_iff_ne]
  constructor
  · rintro rfl
    rw [hopen] at hp
    cases hp
  · rintro rfl
    rw [hclose] at hp
    cases hp

theorem RunOf.not_mem {p : Char → Bool} {t : Str} (h : RunOf p t) {c : Char} (hc : p c = false) : c ∉ t := by
  intro hmem
  rw [h c hmem] at hc
  cases hc

theorem AssignmentName.unbracketed {t : Str} (h : AssignmentName t) : RunOf unbracketed t := by
  rcases h with ⟨a, sep, k, rfl, ha, hsep, hk⟩ | ⟨u, hu, hw⟩
  · have hmid : RunOf FailureOrchestrator.unbracketed sep := by
      rcases hsep with rfl | ⟨c, hc, rfl⟩
      · exact fun _ hc => absurd hc List.not_mem_nil
      · have hmark : RunOf (fun c => "_-".toList.contains c) [c] := by simpa [RunOf] using hc
        exact hmark.unbracketed (by decide) (by decide)
    refine runOf_append.mpr ⟨?_, runOf_append.mpr ⟨hmid, ?_⟩⟩
    · exact (ha.run (by decide)).unbracketed (by decide) (by decide)
    · exact (hk.run (by decide)).unbracketed (by decide) (by decide)
  · have hwords : ∀ u ∈ ["password", "secret", "token", "authorization"], ∀ c ∈ u.toList, c.toLower.isLower = true := by
      decide
    exact (hw.run (hwords u hu)).unbracketed (by decide) (by decide)

theorem AssignmentSign.unbracketed {t : Str} (h : AssignmentSign t) : RunOf unbracketed t := by
  obtain ⟨sp, c, sp', rfl, hsp, hc, hsp'⟩ := h
  have hmark : RunOf (fun c => ":=".toList.contains c) [c] := by simpa [RunOf] using hc
  refine runOf_append.mpr ⟨hsp.unbracketed (by decide) (by decide), ?_⟩
  rw [← List.singleton_append]
  exact runOf_append.mpr ⟨hmark.unbracketed (by decide) (by decide), hsp'.unbracketed (by decide) (by decide)⟩

theorem SchemeText.letters {t : Str} (h : SchemeText t) : RunOf isFoldedLetter t := by
  obtain ⟨u, hu, hw⟩ := h
  have hwords : ∀ u ∈ ["postgres", "mysql", "mongodb", "redis"], ∀ c ∈ u.toList, c.toLower.isLower = true := by decide
  exact hw.run (hwords u hu)

theorem KeyLine.unbracketed {mark : String} (hmark : RunOf unbracketed mark.toList) {t : Str} (h : KeyLine mark t) :
    RunOf unbracketed t := by
  obtain ⟨k, hk, rfl⟩ := h
  have hkind : RunOf FailureOrchestrator.unbracketed k := by
    rcases hk with rfl | ⟨u, hu, rfl⟩
    · exact fun _ hc => absurd hc List.not_mem_nil
    · have hall : ∀ u ∈ [" RSA", " OPENSSH", " EC"], RunOf FailureOrchestrator.unbracketed u.toList := by
        unfold RunOf
        decide
      exact hall u hu
  refine runOf_append.mpr ⟨?_, runOf_append.mpr ⟨hmark, runOf_append.mpr ⟨hkind, ?_⟩⟩⟩
  · unfold RunOf
    decide
  · unfold RunOf
    decide

theorem SecretKind.Lead.unbracketed {kind : SecretKind} {t : Str} (h : kind.Lead t) : RunOf unbracketed t := by
  cases kind with
  | bearer =>
    obtain ⟨w, sp, run, rfl, hw, -, hsp, -, hrun⟩ := h
    refine runOf_append.mpr ⟨?_, runOf_append.mpr ⟨hsp.unbracketed (by decide) (by decide), ?_⟩⟩
    · exact (hw.run (by decide)).unbracketed (by decide) (by decide)
    · exact hrun.unbracketed (by decide) (by decide)
  | githubToken =>
    obtain ⟨w, o, run, rfl, hw, ho, -, hrun⟩ := h
    have hkind : RunOf (fun c => "pousr".toList.any fun x => sameFold x c) [o] := by simpa [RunOf] using ho
    refine runOf_append.mpr ⟨(hw.run (by decide)).unbracketed (by decide) (by decide), ?_⟩
    rw [← List.singleton_append, ← List.singleton_append (x := '_')]
    refine runOf_append.mpr ⟨hkind.unbracketed (by decide) (by decide), runOf_append.mpr ⟨?_, ?_⟩⟩
    · unfold RunOf
      decide
    · exact hrun.unbracketed (by decide) (by decide)
  | awsKey =>
    obtain ⟨run, rfl, -, hrun⟩ := h
    refine runOf_append.mpr ⟨?_, hrun.unbracketed (by decide) (by decide)⟩
    unfold RunOf
    decide
  | assignment =>
    obtain ⟨name, sign, rfl, hname, hsign⟩ := h
    exact runOf_append.mpr ⟨hname.unbracketed, hsign.unbracketed⟩
  | connection =>
    obtain ⟨w, rfl, hw⟩ := h
    refine runOf_append.mpr ⟨hw.letters.unbracketed (by decide) (by decide), ?_⟩
    unfold RunOf
    decide
  | privateKey => exact KeyLine.unbracketed (by unfold RunOf; decide) h

/-- A secret begins with a text that has a character the placeholder does not have. -/
theorem SecretKind.Lead.not_redacted {kind : SecretKind} {t : Str} (h : kind.Lead t) : ∃ c ∈ t, c ∉ redacted := by
  cases kind with
  | bearer =>
    obtain ⟨w, sp, run, rfl, -, hne, hsp, -, -⟩ := h
    obtain ⟨c, hc⟩ := List.exists_mem_of_ne_nil sp hne
    have hall : ∀ c ∈ redacted, isSpace c = false := by decide
    refine ⟨c, by simp [hc], fun hmem => ?_⟩
    have hspace := hsp c hc
    rw [hall c hmem] at hspace
    cases hspace
  | githubToken =>
    obtain ⟨w, o, run, rfl, hw, -, -, -⟩ := h
    have hw' : FoldsTo ('g' :: 'h' :: []) w := hw
    cases hw' with
    | cons _ hrest =>
      cases hrest with
      | @cons _ c _ _ hh _ =>
        have hall : ∀ c ∈ redacted, sameFold 'h' c = false := by decide
        refine ⟨c, by simp, fun hmem => ?_⟩
        rw [hall c hmem] at hh
        cases hh
  | awsKey =>
    obtain ⟨run, rfl, -, -⟩ := h
    exact ⟨'K', by simp, by decide⟩
  | assignment =>
    obtain ⟨name, sign, rfl, -, sp, c, sp', rfl, -, hc, -⟩ := h
    have hall : ∀ c ∈ redacted, ":=".toList.contains c = false := by decide
    refine ⟨c, by simp, fun hmem => ?_⟩
    rw [hall c hmem] at hc
    cases hc
  | connection =>
    obtain ⟨w, rfl, -⟩ := h
    exact ⟨':', by simp, by decide⟩
  | privateKey =>
    obtain ⟨k, -, rfl⟩ := h
    exact ⟨'-', by simp, by decide⟩

/-- A text without `c` in front of one that has it. -/
theorem split_before {c : Char} {t z w y : Str} (hc : c ∉ t) (h : t ++ z = w ++ c :: y) :
    ∃ z', w = t ++ z' ∧ z = z' ++ c :: y := by
  rcases List.append_eq_append_iff.mp h with ⟨a, hw, hz⟩ | ⟨a, ht, hy⟩
  · exact ⟨a, hw, hz⟩
  · cases a with
    | nil => exact ⟨[], by simpa using ht.symm, by simpa using hy.symm⟩
    | cons d a =>
      obtain ⟨rfl, -⟩ := List.cons.inj hy
      exact absurd (by rw [ht]; simp) hc

theorem redacted_cons : redacted = '[' :: "REDACTED_SECRET]".toList := by decide

theorem redacted_last {u w : Str} {c : Char} (h : redacted = u ++ (w ++ [c])) : c = ']' := by
  have hlast := congrArg List.getLast? h
  rw [← List.append_assoc, List.getLast?_concat] at hlast
  exact (Option.some.inj hlast).symm

/-- Nothing that begins like a secret begins within the placeholder. -/
theorem nowhere_redacted {P : Str → Str → Prop} (hP : ∀ b x, P b x → ∃ kind t z, x = t ++ z ∧ SecretKind.Lead kind t)
    (b v : Str) : Nowhere P b redacted v := by
  intro u w heq hw hp
  obtain ⟨kind, t, z, hx, ht⟩ := hP _ _ hp
  obtain rfl | ⟨w, c, rfl⟩ := List.eq_nil_or_concat w
  · exact hw rfl
  rw [List.concat_eq_append] at heq hx
  obtain rfl := redacted_last heq
  rw [List.append_assoc] at hx
  obtain ⟨z', rfl, -⟩ := split_before (ht.unbracketed.not_mem (by decide)) hx.symm
  obtain ⟨c, hc, hout⟩ := ht.not_redacted
  refine hout ?_
  rw [heq]
  simp [hc]

section

variable [UnicodeData]

theorem SecretKind.lead_of_mem {kind : SecretKind} {b x : Str} {g : List (Nat × Str)} {m' : Cursor}
    (h : m' ∈ kind.pattern.matchesAt ⟨b, x, g⟩) : ∃ t z, x = t ++ z ∧ kind.Lead t := by
  cases kind with
  | bearer =>
    obtain ⟨t, v, rfl, ht, -⟩ := mem_bearer_iff.mp h
    exact ⟨t, v, rfl, ht⟩
  | githubToken =>
    obtain ⟨-, t, v, rfl, ht, -⟩ := mem_githubToken_iff.mp h
    exact ⟨t, v, rfl, ht⟩
  | awsKey =>
    obtain ⟨-, t, v, rfl, ht, -⟩ := mem_awsKey_iff.mp h
    exact ⟨t, v, rfl, ht⟩
  | assignment =>
    obtain ⟨name, sign, value, v, rfl, hname, hsign, -, -⟩ := mem_assignment_iff.mp h
    exact ⟨name ++ sign, value ++ v, by simp, name, sign, rfl, hname, hsign⟩
  | connection =>
    obtain ⟨t, v, rfl, ⟨w, run, rfl, hw, -, -⟩, -⟩ := mem_connection_iff.mp h
    exact ⟨w ++ "://".toList, run ++ v, by simp, w, rfl, hw⟩
  | privateKey =>
    obtain ⟨t, v, rfl, ⟨s, body, e, rfl, hs, -⟩, -⟩ := mem_privateKey_iff.mp h
    exact ⟨s, body ++ (e ++ v), by simp, hs⟩

theorem SecretKind.nowhere_redacted (kind : SecretKind) (b v : Str) : Nowhere kind.pattern.Begins b redacted v := by
  refine FailureOrchestrator.nowhere_redacted (fun b x => ?_) b v
  rintro ⟨m', hm⟩
  obtain ⟨t, z, hx, ht⟩ := lead_of_mem hm
  exact ⟨kind, t, z, hx, ht⟩

end

end FailureOrchestrator
