import FailureOrchestrator.Sanitization
import FailureOrchestrator.SecretLines

namespace FailureOrchestrator

open Regex LineState

/-! ## One pass -/

/-- A bearer token begins with a letter, and so does what it is replaced by. -/
theorem BearerText.scan_replacement {t : Str} (h : BearerText t) {q : LineState} (hq : q.scan t ≠ .command) :
    q.scan ("Bearer ".toList ++ redacted) = .inside := by
  obtain ⟨w, sp, run, rfl, hw, -⟩ := h
  have hfolds : FoldsTo ('b' :: "earer".toList) w := hw
  obtain ⟨c, w, hfirst, -, rfl⟩ := List.forall₂_cons_left_iff.mp hfolds
  have hletter : c.toLower = 'b' := by simpa [sameFold] using hfirst
  have hc : c.isAlpha = true := isAlpha_of_isLower_toLower (by rw [hletter]; decide)
  have hcolons : q ≠ .colons := by
    rintro rfl
    refine hq ?_
    have hn : c ≠ '\n' := by
      rintro rfl
      exact absurd hc (by decide)
    have hstep : LineState.step .colons c = .command := by simp [LineState.step, hn, hc]
    rw [List.cons_append, scan_cons, hstep, scan_command]
  have hcommand := ne_command_of_scan hq
  cases q with
  | colons => exact absurd rfl hcolons
  | command => exact absurd rfl hcommand
  | opening | colon | hash | hashes | inside => rfl

theorem AssignmentSign.scan_inside {sign : Str} (h : AssignmentSign sign) :
    scan .inside sign = .inside ∨ scan .inside sign = .opening ∨ scan .inside sign = .colon := by
  obtain ⟨sp, c, sp', rfl, hsp, hc, hsp'⟩ := h
  have hspaces : ∀ {q : LineState} {s : Str}, RunOf isSpace s → q = .inside ∨ q = .opening →
      q.scan s = .inside ∨ q.scan s = .opening := by
    intro q s hs hq
    rcases hq with rfl | rfl
    · have hwithin : Within .inside .opening := .inl rfl
      have hscan := hwithin.scan (s := s) (by rw [scan_spaces hs]; decide)
      rwa [scan_spaces hs] at hscan
    · exact .inr (scan_spaces hs)
  have hsign : c = ':' ∨ c = '=' := by simpa using hc
  have hstep : (scan .inside sp).step c = .inside ∨ (scan .inside sp).step c = .colon := by
    rcases hspaces hsp (.inl rfl) with h | h
    · rcases hsign with rfl | rfl
      · rw [h]
        exact .inl rfl
      · rw [h]
        exact .inl rfl
    · rcases hsign with rfl | rfl
      · rw [h]
        exact .inr rfl
      · rw [h]
        exact .inl rfl
  rw [scan_append, scan_cons]
  rcases hstep with h | h
  · rw [h]
    exact (hspaces hsp' (.inl rfl)).imp_right .inl
  · rw [h]
    cases sp' with
    | nil => exact .inr (.inr rfl)
    | cons d sp' =>
      unfold RunOf at hsp'
      rw [List.forall_mem_cons] at hsp'
      rw [scan_cons]
      by_cases hd : d = '\n'
      · rw [hd]
        exact (hspaces hsp'.2 (.inr rfl)).imp_right .inl
      · have hcolon : d ≠ ':' := by
          rintro rfl
          exact absurd hsp'.1 (by decide)
        have hinside : LineState.step .colon d = .inside := by simp [LineState.step, hd, hcolon]
        rw [hinside]
        exact (hspaces hsp'.2 (.inl rfl)).imp_right .inl

/-- Behind a name and its sign the placeholder is no command. -/
theorem scan_assignment {name sign : Str} (hname : AssignmentName name) (hsign : AssignmentSign sign) {q : LineState}
    (hq : q.scan name ≠ .command) : q.scan (name ++ sign ++ redacted) = .inside := by
  rw [scan_append, scan_append, hname.endsPlain.scan hq]
  rcases hsign.scan_inside with h | h | h
  · rw [h]
    rfl
  · rw [h]
    rfl
  · rw [h]
    rfl

section

variable [UnicodeData]

/-- What is kept of a bearer token or an assignment makes no line a command. -/
theorem scan_kept {kind : SecretKind} (hkind : kind.whole = false) {b t v : Str} {g : List (Nat × Str)}
    (h : ⟨t.reverse ++ b, v, g⟩ ∈ kind.pattern.matchesAt ⟨b, t ++ v, []⟩) {q : LineState} (hq : q.scan t ≠ .command) :
    q.scan (kind.replacement ⟨t.reverse ++ b, v, g⟩) = .inside := by
  cases kind with
  | bearer =>
    obtain ⟨t', v', heq, ht, hm⟩ := mem_bearer_iff.mp h
    obtain ⟨-, rfl, -⟩ := Cursor.mk.inj hm
    obtain rfl := List.append_cancel_right heq
    exact ht.scan_replacement hq
  | assignment =>
    obtain ⟨name, sign, value, v', heq, hname, hsign, -, hm⟩ := mem_assignment_iff.mp h
    obtain ⟨-, rfl, rfl⟩ := Cursor.mk.inj hm
    have ht : t = name ++ (sign ++ value) := by
      refine @List.append_cancel_right _ _ v _ ?_
      rw [heq]
      simp
    rw [ht, scan_append] at hq
    exact scan_assignment hname hsign (ne_command_of_scan hq)
  | githubToken | awsKey | connection | privateKey => cases hkind

/-- A secret that is replaced whole ends inside a line. -/
theorem endsPlain_whole {kind : SecretKind} (hkind : kind.whole = true) {b t v : Str} {g : List (Nat × Str)}
    (h : ⟨t.reverse ++ b, v, g⟩ ∈ kind.pattern.matchesAt ⟨b, t ++ v, []⟩) : EndsPlain t := by
  have hshape : ∀ {P : Str → Prop}, (∀ s, P s → EndsPlain s) → (∃ s w, t ++ v = s ++ w ∧ P s ∧
      (⟨t.reverse ++ b, v, g⟩ : Cursor) = ⟨s.reverse ++ b, w, []⟩) → EndsPlain t := by
    rintro P hP ⟨s, w, heq, hs, hm⟩
    obtain ⟨-, rfl, -⟩ := Cursor.mk.inj hm
    obtain rfl := List.append_cancel_right heq
    exact hP t hs
  cases kind with
  | bearer | assignment => cases hkind
  | githubToken =>
    obtain ⟨-, s, w, heq, hs, -, hm⟩ := mem_githubToken_iff.mp h
    exact hshape (fun _ => GithubText.endsPlain) ⟨s, w, heq, hs, hm⟩
  | awsKey =>
    obtain ⟨-, s, w, heq, hs, -, hm⟩ := mem_awsKey_iff.mp h
    exact hshape (fun _ => AwsText.endsPlain) ⟨s, w, heq, hs, hm⟩
  | connection => exact hshape (fun _ => ConnectionText.endsPlain) (mem_connection_iff.mp h)
  | privateKey => exact hshape (fun _ => PrivateKeyText.endsPlain) (mem_privateKey_iff.mp h)

/-- A pass that keeps a part of its secrets keeps a text free of commands. -/
theorem scan_keeping {kind : SecretKind} (hkind : kind.whole = false) {before rest out : Str}
    {ms : List (Cursor × Cursor)}
    (h : Substitutes kind.pattern (fun _ m => kind.replacement m) before rest out ms) {q q' : LineState}
    (hwithin : q.Within q') (hrest : q'.scan rest ≠ .command) : q.scan out ≠ .command := by
  induction h generalizing q q' with
  | stop => exact (hwithin.scan hrest).ne_command hrest
  | @step before u t v out g ms _ hmatch _ ih =>
    rw [scan_append, scan_append] at hrest ⊢
    have ht := ne_command_of_scan hrest
    have hu : (q.scan u).Within (q'.scan u) := hwithin.scan (ne_command_of_scan ht)
    have hkept := scan_kept hkind (List.mem_of_head? hmatch) ((hu.scan ht).ne_command ht)
    rw [hkept]
    exact ih (.inl rfl) hrest

/-- A pass that replaces its secrets whole makes a command of a line where it finds one behind `##`. -/
theorem scan_whole_iff {kind : SecretKind} (hkind : kind.whole = true) {before rest out : Str}
    {ms : List (Cursor × Cursor)}
    (h : Substitutes kind.pattern (fun _ m => kind.replacement m) before rest out ms)
    (hrest : (scan .opening before.reverse).scan rest ≠ .command) :
    (scan .opening before.reverse).scan out ≠ .command ↔
      ∀ p ∈ ms, scan .opening p.1.before.reverse ≠ .hashes := by
  induction h with
  | stop => simpa using hrest
  | @step before u t v out g ms _ hmatch _ ih =>
    have hline : ∀ (b s : Str), scan .opening (s.reverse ++ b).reverse = (scan .opening b.reverse).scan s := by
      intro b s
      rw [List.reverse_append, List.reverse_reverse, scan_append]
    rw [scan_append, scan_append] at hrest ⊢
    have hend := (endsPlain_whole hkind (List.mem_of_head? hmatch)).scan (ne_command_of_scan hrest)
    rw [hline, hline, hend] at ih
    rw [hend] at hrest
    have hu : (scan .opening before.reverse).scan u ≠ .command := by
      intro hcommand
      rw [hcommand, scan_command] at hend
      cases hend
    have hredacted := scan_redacted hu
    rw [List.forall_mem_cons, hline, SecretKind.replacement_whole hkind]
    by_cases hhashes : (scan .opening before.reverse).scan u = .hashes
    · rw [if_pos hhashes] at hredacted
      rw [hredacted, scan_command]
      exact iff_of_false (fun h => h rfl) fun h => h.1 hhashes
    · rw [if_neg hhashes] at hredacted
      rw [hredacted, ih hrest]
      exact (and_iff_right hhashes).symm

/-- A secret that is replaced whole stands where its line has only whitespace and `##` before it. -/
def CompletesCommand (kind : SecretKind) (text : Str) : Prop :=
  kind.whole = true ∧ ∃ p ∈ kind.matchesIn text, lstrip (afterLast '\n' p.1.before.reverse) = "##".toList

instance (kind : SecretKind) (text : Str) : Decidable (CompletesCommand kind text) :=
  inferInstanceAs (Decidable (_ ∧ ∃ _ ∈ _, _))

omit [UnicodeData] in
/-- The reading of a text without commands depends on its last line. -/
theorem scan_afterLast {s : Str} (h : scan .opening s ≠ .command) : scan .opening s = scan .opening (afterLast '\n' s) := by
  unfold afterLast
  induction s using List.reverseRecOn with
  | nil => rfl
  | append_singleton s c ih =>
    rw [scan_append] at h
    have hs := ne_command_of_scan h
    by_cases hc : c = '\n'
    · subst hc
      rw [List.rtakeWhile_concat_neg _ _ _ (by simp), scan_append, scan_cons, step_newline hs]
    · rw [List.rtakeWhile_concat_pos _ _ _ (by simpa using hc), scan_append, scan_append, ih hs]

omit [UnicodeData] in
theorem scan_reads {q : LineState} {seen s : Str} (hq : q.Reads seen) (hn : '\n' ∉ s) (h : q.scan s ≠ .command) :
    (q.scan s).Reads (seen ++ s) := by
  induction s generalizing q seen with
  | nil => simpa using hq
  | cons c s ih =>
    rw [List.mem_cons, not_or] at hn
    rcases hq.step c (Ne.symm hn.1) with ⟨hcommand, -⟩ | ⟨-, hreads⟩
    · rw [scan_cons, hcommand, scan_command] at h
      exact absurd rfl h
    · have hrest := ih hreads hn.2 h
      rwa [List.append_assoc, List.singleton_append] at hrest

omit [UnicodeData] in
theorem scan_hashes_iff {line : Str} (hn : '\n' ∉ line) (h : scan .opening line ≠ .command) :
    scan .opening line = .hashes ↔ lstrip line = "##".toList := by
  constructor
  · intro hhashes
    have hreads := scan_reads (q := .opening) (by simp [LineState.Reads] : LineState.opening.Reads []) hn h
    rw [hhashes, List.nil_append] at hreads
    obtain ⟨ws, hws, rfl⟩ := hreads
    unfold lstrip
    rw [List.dropWhile_append_of_pos hws]
    rfl
  · intro hstrip
    have hsplit : line = line.takeWhile isSpace ++ lstrip line := List.takeWhile_append_dropWhile.symm
    rw [hsplit, hstrip, scan_append, scan_spaces fun c hc => List.mem_takeWhile_imp hc]
    rfl

omit [UnicodeData] in
theorem scan_afterLast_hashes_iff {s : Str} (h : scan .opening s ≠ .command) :
    scan .opening s = .hashes ↔ lstrip (afterLast '\n' s) = "##".toList := by
  have hline : '\n' ∉ afterLast '\n' s := by
    intro hmem
    have hne := List.mem_rtakeWhile_imp hmem
    simp at hne
  have hlast := scan_afterLast h
  rw [hlast] at h ⊢
  exact scan_hashes_iff hline h

/-- A pass keeps a text free of commands unless it completes one. -/
theorem redact_noCommand_iff {kind : SecretKind} {text : Str} (h : NoCommand text) :
    NoCommand (kind.redact text) ↔ ¬ CompletesCommand kind text := by
  rw [noCommand_iff] at h ⊢
  have hsub := kind.redact_substitutes text
  unfold CompletesCommand
  cases hkind : kind.whole with
  | false => exact iff_of_true (scan_keeping hkind hsub (.inr rfl) h) fun hwhole => nomatch hwhole.1
  | true =>
    have hlines : ∀ p ∈ kind.matchesIn text, scan .opening p.1.before.reverse ≠ .hashes ↔
        lstrip (afterLast '\n' p.1.before.reverse) ≠ "##".toList := by
      intro p hp
      obtain ⟨rest, hrest⟩ := hsub.before_prefix p hp
      rw [List.reverse_nil, List.nil_append] at hrest
      refine not_congr (scan_afterLast_hashes_iff ?_)
      rw [← hrest, scan_append] at h
      exact ne_command_of_scan h
    rw [and_iff_right rfl, not_exists]
    refine (scan_whole_iff hkind hsub h).trans ?_
    constructor
    · rintro hall p ⟨hp, hline⟩
      exact (hlines p hp).mp (hall p hp) hline
    · intro hall p hp
      exact (hlines p hp).mpr fun hline => hall p ⟨hp, hline⟩

theorem redact_noControl {kind : SecretKind} {text : Str} (h : NoControl text) : NoControl (kind.redact text) := by
  refine (kind.redact_substitutes text).forall_mem ?_ h
  intro b t v g hm ht
  have hredacted : NoControl redacted := by decide
  cases hkind : kind.whole with
  | true =>
    rw [SecretKind.replacement_whole hkind]
    exact hredacted
  | false =>
    cases kind with
    | bearer => exact List.forall_mem_append.mpr ⟨by decide, hredacted⟩
    | assignment =>
      obtain ⟨name, sign, value, v', heq, -, -, -, hcursor⟩ := mem_assignment_iff.mp hm
      obtain ⟨-, rfl, rfl⟩ := Cursor.mk.inj hcursor
      have hsplit : t = name ++ sign ++ value := by
        refine @List.append_cancel_right _ _ v _ ?_
        rw [heq]
        simp
      rw [hsplit, List.forall_mem_append] at ht
      exact List.forall_mem_append.mpr ⟨ht.1, hredacted⟩
    | githubToken | awsKey | connection | privateKey => cases hkind

/-! ## The passes one after the other -/

theorem redactAll_noControl (kinds : List SecretKind) {text : Str} (h : NoControl text) :
    NoControl (redactAll kinds text) := by
  induction kinds generalizing text with
  | nil => exact h
  | cons kind kinds ih => exact ih (redact_noControl h)

/-- The run stays free of commands when none of its passes completes one. -/
theorem redactionRun_noCommand_iff (kinds : List SecretKind) {text : Str} (h : NoCommand text) :
    (NoCommand (redactAll kinds text) ∧ ∀ p ∈ redactionRun kinds text, NoCommand p.2) ↔
      ∀ p ∈ redactionRun kinds text, ¬ CompletesCommand p.1 p.2 := by
  induction kinds generalizing text with
  | nil => simpa [redactAll, redactionRun] using h
  | cons kind kinds ih =>
    have hstep := @redact_noCommand_iff _ kind _ h
    unfold redactionRun
    rw [List.forall_mem_cons, List.forall_mem_cons]
    constructor
    · rintro ⟨hlast, -, hrun⟩
      have hnext : NoCommand (kind.redact text) := by
        cases kinds with
        | nil => exact hlast
        | cons _ _ => exact hrun _ List.mem_cons_self
      exact ⟨hstep.mp hnext, (ih hnext).mp ⟨hlast, hrun⟩⟩
    · rintro ⟨hfirst, hrun⟩
      obtain ⟨hlast, hall⟩ := (ih (hstep.mpr hfirst)).mpr hrun
      exact ⟨hlast, h, hall⟩

/-- Untrusted text is cleaned of control characters and commands, before and after each redaction, exactly when no
redaction completes a command. -/
theorem cleanUntrusted_safe_iff (text : Str) :
    (NoControl (cleanUntrusted text) ∧ NoCommand (cleanUntrusted text) ∧
      ∀ p ∈ redactionRun SecretKind.all (neutralize text), NoCommand p.2) ↔
      ∀ p ∈ redactionRun SecretKind.all (neutralize text), ¬ CompletesCommand p.1 p.2 := by
  obtain ⟨hcontrol, hcommand⟩ := neutralize_clean text
  unfold cleanUntrusted
  rw [sanitizeText_eq_redactAll]
  exact (and_iff_right (redactAll_noControl SecretKind.all hcontrol)).trans
    (redactionRun_noCommand_iff SecretKind.all hcommand)

end

/-- The placeholder stands behind `##`. -/
theorem connection_completes_command :
    NoCommand (@neutralize asciiData "##redis://x".toList) ∧ ¬ NoCommand (@cleanUntrusted asciiData "##redis://x".toList) := by
  decide +kernel

end FailureOrchestrator
