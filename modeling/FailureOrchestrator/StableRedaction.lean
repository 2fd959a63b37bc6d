import FailureOrchestrator.SettledPasses

namespace FailureOrchestrator

open Regex

/-! What the assignment and the bearer pass leave, and when another run changes nothing. -/

/-- A list is cut in one way at the only element that `q` holds of. -/
theorem split_unique {q : Char → Bool} {a b a' b' : Str} {c d : Char} (ha : ∀ e ∈ a, q e = false) (hb : ∀ e ∈ b, q e = false)
    (hd : q d = true) (h : a ++ c :: b = a' ++ d :: b') : b = b' := by
  have hnot : ∀ {s : Str}, (∀ e ∈ s, q e = false) → d ∉ s := by
    intro s hs hmem
    rw [hs d hmem] at hd
    cases hd
  rcases List.append_eq_append_iff.mp h with ⟨x, rfl, hx⟩ | ⟨x, rfl, hx⟩
  · cases x with
    | nil => exact (List.cons.inj hx).2
    | cons e x =>
      obtain ⟨-, rfl⟩ := List.cons.inj hx
      exact absurd (by simp) (hnot hb)
  · cases x with
    | nil => exact (List.cons.inj hx).2.symm
    | cons e x =>
      obtain ⟨rfl, -⟩ := List.cons.inj hx
      exact absurd (by simp) (hnot ha)

/-- A run of characters of one class is as long as it can be in one way. -/
theorem run_unique {p : Char → Bool} {a b x y : Str} (ha : RunOf p a) (hb : RunOf p b) (hx : ∀ c ∈ x.head?, p c = false)
    (hy : ∀ c ∈ y.head?, p c = false) (h : a ++ x = b ++ y) : a = b := by
  have hrun : ∀ {a x : Str}, RunOf p a → (∀ c ∈ x.head?, p c = false) → (a ++ x).takeWhile p = a := by
    intro a x ha hx
    rw [List.takeWhile_append_of_pos ha]
    cases x with
    | nil => simp
    | cons c x => simp [hx c rfl]
  rw [← hrun ha hx, ← hrun hb hy, h]

theorem BearerText.last {t : Str} (h : BearerText t) : ∃ a c, t = a ++ [c] ∧ bearerChar c = true := by
  obtain ⟨w, sp, run, rfl, -, -, -, hlen, hrun⟩ := h
  have hne : run ≠ [] := by
    rintro rfl
    simp at hlen
  obtain ⟨a, c, rfl, hc⟩ := hrun.last hne
  exact ⟨w ++ (sp ++ a), c, by simp, hc⟩

theorem BearerText.length_ge {t : Str} (h : BearerText t) : 8 ≤ t.length := by
  obtain ⟨w, sp, run, rfl, -, -, -, hlen, -⟩ := h
  simp only [List.length_append]
  omega

/-- The last few characters of a bearer token can be any others of its class. -/
theorem BearerText.swap {w q q' : Str} (h : BearerText (w ++ q)) (hq : q.length ≤ 8) (hlength : q'.length = q.length)
    (hrun' : RunOf bearerChar q') : BearerText (w ++ q') := by
  obtain ⟨word, sp, run, heq, hword, hne, hsp, hlen, hrun⟩ := h
  have hsuffix : q <:+ run := by
    refine List.suffix_of_suffix_length_le (List.suffix_append w q) ?_ (hq.trans hlen)
    rw [heq, ← List.append_assoc]
    exact List.suffix_append _ _
  obtain ⟨run₁, rfl⟩ := hsuffix
  have hw : w = word ++ (sp ++ run₁) := by
    refine @List.append_cancel_right _ _ q _ ?_
    rw [heq]
    simp
  refine ⟨word, sp, run₁ ++ q', by rw [hw]; simp, hword, hne, hsp, ?_, runOf_append.mpr ⟨(runOf_append.mp hrun).1, hrun'⟩⟩
  rw [List.length_append] at hlen ⊢
  omega

/-- The characters that separate a name from its value. -/
def signChar (c : Char) : Bool := ":=".toList.contains c

theorem RunOf.no_sign {p : Char → Bool} {t : Str} (h : RunOf p t) (hcolon : p ':' = false) (hequals : p '=' = false) :
    ∀ c ∈ t, signChar c = false := by
  intro c hc
  have hp := h c hc
  rw [← Bool.not_eq_true]
  intro hsign
  have hcases : c = ':' ∨ c = '=' := by simpa [signChar] using hsign
  rcases hcases with rfl | rfl
  · rw [hcolon] at hp
    cases hp
  · rw [hequals] at hp
    cases hp

theorem AssignmentName.no_sign {t : Str} (h : AssignmentName t) : ∀ c ∈ t, signChar c = false := by
  rcases h with ⟨a, sep, k, rfl, ha, hsep, hk⟩ | ⟨u, hu, hw⟩
  · rw [List.forall_mem_append, List.forall_mem_append]
    refine ⟨(ha.run (by decide)).no_sign (by decide) (by decide), ?_, (hk.run (by decide)).no_sign (by decide) (by decide)⟩
    rcases hsep with rfl | ⟨c, hc, rfl⟩
    · exact fun _ hc => absurd hc List.not_mem_nil
    · have hmark : RunOf (fun c => "_-".toList.contains c) [c] := by simpa [RunOf] using hc
      exact hmark.no_sign (by decide) (by decide)
  · have hwords : ∀ u ∈ ["password", "secret", "token", "authorization"], ∀ c ∈ u.toList, c.toLower.isLower = true := by
      decide
    exact (hw.run (hwords u hu)).no_sign (by decide) (by decide)

theorem unsettled_lead (_ x : Str) (h : Unsettled x) : ∃ kind t z, x = t ++ z ∧ SecretKind.Lead kind t := by
  obtain ⟨name, sign, z, rfl, hname, hsign, -⟩ := h
  exact ⟨.assignment, name ++ sign, z, by simp, name, sign, rfl, hname, hsign⟩

section

variable [UnicodeData] {kind : SecretKind} {before u name sign value v out text : Str}

theorem begins_of_unsettled {b x : Str} (h : Unsettled x) : SecretKind.assignment.pattern.Begins b x := by
  obtain ⟨name, sign, z, rfl, hname, hsign, ⟨c, hc, hvalue⟩, -⟩ := h
  obtain ⟨z', rfl⟩ := List.head?_eq_some_iff.mp (Option.mem_def.mp hc)
  refine ⟨_, mem_assignment_iff.mpr ⟨name, sign, [c], z', rfl, hname, hsign, ⟨by simp, ?_⟩, rfl⟩⟩
  intro d hd
  rw [List.mem_singleton.mp hd]
  exact hvalue

/-- The left-hand sides that the pass keeps stand before a placeholder and nothing else. -/
theorem AssignmentPiece.settled (h : AssignmentPiece before u name sign value v) (hout : ∀ c ∈ out.head?, valueChar c = false)
    (b : Str) : Nowhere (fun _ => Unsettled) b (u ++ (name ++ sign)) (redacted ++ out) := by
  rw [nowhere_append]
  constructor
  · rintro u' w heq hw ⟨n, s, z, hx, hn, hs, hvalue, hplace⟩
    rw [← List.append_assoc w, ← List.append_assoc n] at hx
    obtain ⟨z', hz', rfl⟩ := h.replaced.split (runOf_append.mpr ⟨hn.unbracketed, hs.unbracketed⟩) hx
    obtain ⟨c, hc, hvalue⟩ := h.replaced.head (fun _ hc => hc) hvalue
    obtain ⟨y, hy⟩ := List.head?_eq_some_iff.mp (Option.mem_def.mp hc)
    refine freeIn_iff_nowhere.mp h.free u' w heq hw ⟨_, mem_assignment_iff.mpr ⟨n, s, [c], y, ?_, hn, hs, ⟨by simp, ?_⟩, rfl⟩⟩
    · have hjoin : w ++ (name ++ sign) ++ (value ++ v) = n ++ s ++ z' ++ (value ++ v) := by rw [hz']
      simp only [List.append_assoc] at hjoin hy
      rw [hjoin, hy]
      rfl
    · intro d hd
      rw [List.mem_singleton.mp hd]
      exact hvalue
  · rintro a w heq hw ⟨n, s, z, hx, hn, hs, hvalue, hplace⟩
    rw [← List.append_assoc n] at hx
    obtain ⟨z', rfl, rfl⟩ := h.replaced.split (runOf_append.mpr ⟨hn.unbracketed, hs.unbracketed⟩) hx
    obtain ⟨sp, c, sp', rfl, hsp, hc, hsp'⟩ := h.sign_text
    obtain ⟨sq, d, sq', rfl, hsq, hd, hsq'⟩ := hs
    have hspaces : sp' = sq' ++ z' := by
      have hwhole : name ++ sp ++ c :: sp' = a ++ (n ++ sq) ++ d :: (sq' ++ z') := by simpa using heq
      refine split_unique ?_ ?_ hd hwhole
      · rw [List.forall_mem_append]
        exact ⟨h.name_text.no_sign, hsp.no_sign (by decide) (by decide)⟩
      · exact hsp'.no_sign (by decide) (by decide)
    cases z' with
    | nil => exact hplace ⟨out, rfl, hout⟩
    | cons e z' =>
      obtain ⟨e', he, hvalue⟩ := hvalue
      obtain rfl : e = e' := Option.some.inj he
      have hspace : isSpace e = true := hsp' e (by rw [hspaces]; simp)
      rw [isSpace_of_valueChar hvalue] at hspace
      cases hspace

theorem assignment_settled {before rest out : Str} (h : Pieces KeepsName (LastPiece .assignment) before rest out) (b : Str) :
    Nowhere (fun _ => Unsettled) b out [] := by
  induction h generalizing b with
  | last hlast =>
    intro u w heq hw hopen
    exact freeIn_iff_nowhere.mp hlast.free u w heq hw (begins_of_unsettled hopen)
  | @step before seg value v out hpiece htail ih =>
    have hkept : ∀ b s g v, KeepsName b s g v → s ≠ [] := by
      rintro b s g v ⟨u, name, sign, rfl, hpiece⟩
      obtain ⟨a, c, hsign, -⟩ := hpiece.sign_text.last
      simp [hsign]
    have hhead := htail.head hkept
    obtain ⟨u, name, sign, rfl, hpiece⟩ := hpiece
    refine nowhere_append.mpr ⟨?_, nowhere_append.mpr ⟨nowhere_redacted unsettled_lead _ _, ih _⟩⟩
    rw [List.append_nil]
    refine hpiece.settled ?_ b
    rw [hhead]
    exact hpiece.ends

theorem assignment_own (text : Str) : Nowhere (fun _ => Unsettled) [] (SecretKind.assignment.redact text) [] :=
  assignment_settled (redact_pieces (by decide : SecretKind.assignment ≠ .bearer) text) []

theorem SecretKind.Piece.apart (hkind : kind = .connection ∨ kind = .privateKey) {seg gone : Str}
    (h : kind.Piece before seg gone v) : Apart (gone ++ v) := by
  rcases hkind with rfl | rfl
  · exact (WholePiece.connection h).apart
  · exact (WholePiece.privateKey h).apart

theorem assignment_later (hkind : kind = .connection ∨ kind = .privateKey) (hno : Nowhere (fun _ => Unsettled) [] text []) :
    Nowhere (fun _ => Unsettled) [] (kind.redact text) [] := by
  have hbearer : kind ≠ .bearer := by
    rcases hkind with rfl | rfl
    · decide
    · decide
  refine ((redact_pieces hbearer text).within hno).nowhere (nowhere_redacted unsettled_lead) ?_ ?_ []
  · rintro b before seg gone v out ⟨hpiece, hno⟩
    exact unsettled_kept hno hpiece.replaced (hpiece.apart hkind)
  · rintro b before rest ⟨-, hno⟩
    exact unsettled_kept hno replaced_nil apart_nil

/-! ## Bearer tokens -/

/-- The word that the bearer pass writes back completes no token that was not there. -/
theorem bearer_word {u word rest : Str} (hno : Nowhere SecretKind.bearer.pattern.Begins before u (word ++ rest))
    (hword : FoldsTo "bearer".toList word) (b : Str) :
    Nowhere SecretKind.bearer.pattern.Begins b u ("Bearer ".toList ++ (redacted ++ out)) := by
  rintro u' w heq hw ⟨m', hm⟩
  obtain ⟨t, z, hx, ht, -⟩ := mem_bearer_iff.mp hm
  rw [← List.append_assoc, redacted_cons, List.cons_append] at hx
  obtain ⟨z', hz', -⟩ := split_before ((show SecretKind.bearer.Lead t from ht).unbracketed.not_mem (by decide)) hx.symm
  rcases List.append_eq_append_iff.mp hz' with ⟨q, rfl, hq⟩ | ⟨q, rfl, -⟩
  · have hshort : q.length ≤ 6 := by
      have hlength := congrArg List.length hq
      simp only [List.length_append] at hlength
      have hseven : "Bearer ".toList.length = 7 := by decide
      by_contra hlong
      have hnil : z' = [] := List.eq_nil_of_length_eq_zero (by omega)
      obtain ⟨a, c, hlast, hc⟩ := ht.last
      rw [hnil, List.append_nil] at hq
      have hspace : "Bearer ".toList = "Bearer".toList ++ [' '] := by decide
      rw [← hq, hspace, ← List.append_assoc] at hlast
      obtain rfl := (List.cons.inj (List.append_inj' hlast rfl).2).1
      exact absurd hc (by decide)
    have hsix : word.length = 6 := hword.length_eq
    have hletters : RunOf bearerChar (word.take q.length) := by
      intro c hc
      have hletter := hword.run (by decide) c (List.mem_of_mem_take hc)
      unfold bearerChar
      rw [hletter]
      rfl
    have hswap := ht.swap (by omega) (by rw [List.length_take]; omega) hletters
    refine hno u' w heq hw ⟨_, mem_bearer_iff.mpr ⟨_, word.drop q.length ++ rest, ?_, hswap, rfl⟩⟩
    rw [List.append_assoc, ← List.append_assoc (word.take _), List.take_append_drop]
  · exact hno u' _ heq hw ⟨_, mem_bearer_iff.mpr ⟨t, q ++ (word ++ rest), by simp, ht, rfl⟩⟩

theorem bearer_settled {rest : Str} {ms : List (Cursor × Cursor)}
    (h : Substitutes SecretKind.bearer.pattern (fun _ m => SecretKind.bearer.replacement m) before rest out ms) (b : Str) :
    Nowhere SecretKind.bearer.pattern.Begins b out [] := by
  induction h generalizing b with
  | stop hfree =>
    rintro u w heq hw ⟨m', hm⟩
    obtain ⟨t, z, hx, ht, -⟩ := mem_bearer_iff.mp hm
    exact freeIn_iff_nowhere.mp hfree u w heq hw ⟨_, mem_bearer_iff.mpr ⟨t, z, hx, ht, rfl⟩⟩
  | @step before u t v out g ms hfree hmatch _ ih =>
    obtain ⟨t', v', heq, ⟨word, sp, run, rfl, hword, -⟩, hcursor⟩ := mem_bearer_iff.mp (List.mem_of_head? hmatch)
    have hno := freeIn_iff_nowhere.mp hfree
    rw [heq, List.append_assoc] at hno
    show Nowhere _ b (u ++ ("Bearer ".toList ++ redacted ++ out)) []
    rw [List.append_assoc]
    refine nowhere_append.mpr ⟨?_, nowhere_append.mpr ⟨?_, nowhere_append.mpr ⟨SecretKind.bearer.nowhere_redacted _ _, ih _⟩⟩⟩
    · rw [List.append_nil]
      exact bearer_word hno hword b
    · rw [List.append_nil]
      rintro a w hsplit hw ⟨m', hm⟩
      obtain ⟨t, z, hx, ht, -⟩ := mem_bearer_iff.mp hm
      rw [redacted_cons, List.cons_append] at hx
      obtain ⟨z', rfl, -⟩ := split_before ((show SecretKind.bearer.Lead t from ht).unbracketed.not_mem (by decide)) hx.symm
      have hlength := congrArg List.length hsplit
      have hseven : "Bearer ".toList.length = 7 := by decide
      have hlong := ht.length_ge
      simp only [List.length_append] at hlength
      omega

theorem bearer_own (text : Str) : Nowhere SecretKind.bearer.pattern.Begins [] (SecretKind.bearer.redact text) [] :=
  bearer_settled (SecretKind.bearer.redact_substitutes text) []

/-! ## A second run -/

theorem assignment_unchanged {rest : Str} (h : Pieces KeepsName (LastPiece .assignment) before rest out)
    (hno : Nowhere (fun _ => Unsettled) before rest []) : out = rest := by
  induction h with
  | last => rfl
  | @step before seg value v out hpiece _ ih =>
    obtain ⟨hseg, hrest⟩ := nowhere_append.mp hno
    rw [ih (nowhere_append.mp hrest).2]
    obtain ⟨u, name, sign, rfl, hpiece⟩ := hpiece
    have hname : name ++ sign ≠ [] := by
      obtain ⟨a, c, hsign, -⟩ := hpiece.sign_text.last
      simp [hsign]
    have hsettled := (nowhere_append.mp hseg).2 [] (name ++ sign) rfl hname
    obtain ⟨v', hv', hends⟩ : ∃ v', value ++ v = redacted ++ v' ∧ ∀ c ∈ v'.head?, valueChar c = false := by
      by_contra hplace
      refine hsettled ⟨name, sign, value ++ v, by simp, hpiece.name_text, hpiece.sign_text, ?_, hplace⟩
      exact RunOf.head hpiece.value_text.2 hpiece.value_text.1
    have hredacted : RunOf valueChar redacted := by
      unfold RunOf
      decide
    rw [run_unique hpiece.value_text.2 hredacted hpiece.ends hends hv']

end

end FailureOrchestrator
