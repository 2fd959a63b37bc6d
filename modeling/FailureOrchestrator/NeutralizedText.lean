import FailureOrchestrator.UntrustedText

namespace FailureOrchestrator

open Regex LineState

/-- The text that makes a line a command. -/
def CommandHead (cmd : Str) : Prop := (∃ c : Char, c.isAlpha = true ∧ cmd = [':', ':', c]) ∨ cmd = "##[".toList

/-- What of the line a state has read. -/
def LineState.Reads : LineState → Str → Prop
  | .opening, seen => ∀ c ∈ seen, isSpace c = true
  | .colon, seen => ∃ ws, (∀ c ∈ ws, isSpace c = true) ∧ seen = ws ++ [':']
  | .colons, seen => ∃ ws, (∀ c ∈ ws, isSpace c = true) ∧ seen = ws ++ [':', ':']
  | .hash, seen => ∃ ws, (∀ c ∈ ws, isSpace c = true) ∧ seen = ws ++ ['#']
  | .hashes, seen => ∃ ws, (∀ c ∈ ws, isSpace c = true) ∧ seen = ws ++ ['#', '#']
  | .inside, _ => True
  | .command, _ => False

/-- A command has been read, or the state tells what has been read. -/
theorem LineState.Reads.step {q : LineState} {seen : Str} (h : q.Reads seen) (c : Char) (hn : c ≠ '\n') :
    (q.step c = .command ∧ q ≠ .inside ∧ ∃ ws cmd, (∀ d ∈ ws, isSpace d = true) ∧ CommandHead cmd ∧
      seen ++ [c] = ws ++ cmd) ∨ (q.step c ≠ .command ∧ (q.step c).Reads (seen ++ [c])) := by
  cases q with
  | opening =>
    by_cases hs : isSpace c = true
    · have hstep : LineState.step .opening c = .opening := by simp [LineState.step, hs]
      rw [hstep]
      exact .inr ⟨by decide, List.forall_mem_append.mpr ⟨h, by simpa using hs⟩⟩
    · by_cases hcolon : c = ':'
      · subst hcolon
        exact .inr ⟨by decide, seen, h, rfl⟩
      · by_cases hhash : c = '#'
        · subst hhash
          exact .inr ⟨by decide, seen, h, rfl⟩
        · have hstep : LineState.step .opening c = .inside := by
            simp [LineState.step, hn, hs, hcolon, hhash]
          rw [hstep]
          exact .inr ⟨by decide, trivial⟩
  | colon =>
    obtain ⟨ws, hws, rfl⟩ := h
    by_cases hcolon : c = ':'
    · subst hcolon
      exact .inr ⟨by decide, ws, hws, by simp⟩
    · have hstep : LineState.step .colon c = .inside := by simp [LineState.step, hn, hcolon]
      rw [hstep]
      exact .inr ⟨by decide, trivial⟩
  | colons =>
    obtain ⟨ws, hws, rfl⟩ := h
    by_cases hc : c.isAlpha = true
    · refine .inl ⟨by simp [LineState.step, hn, hc], by decide, ws, [':', ':', c], hws, .inl ⟨c, hc, rfl⟩, by simp⟩
    · have hstep : LineState.step .colons c = .inside := by simp [LineState.step, hn, hc]
      rw [hstep]
      exact .inr ⟨by decide, trivial⟩
  | hash =>
    obtain ⟨ws, hws, rfl⟩ := h
    by_cases hhash : c = '#'
    · subst hhash
      exact .inr ⟨by decide, ws, hws, by simp⟩
    · have hstep : LineState.step .hash c = .inside := by simp [LineState.step, hn, hhash]
      rw [hstep]
      exact .inr ⟨by decide, trivial⟩
  | hashes =>
    obtain ⟨ws, hws, rfl⟩ := h
    by_cases hc : c = '['
    · subst hc
      exact .inl ⟨by decide, by decide, ws, "##[".toList, hws, .inr rfl, by simp⟩
    · have hstep : LineState.step .hashes c = .inside := by simp [LineState.step, hn, hc]
      rw [hstep]
      exact .inr ⟨by decide, trivial⟩
  | inside =>
    have hstep : LineState.step .inside c = .inside := by simp [LineState.step, hn]
    rw [hstep]
    exact .inr ⟨by decide, trivial⟩
  | command => exact h.elim

/-- Where a command is read, it stands at the beginning of a line. -/
theorem exists_command_of_scan {q : LineState} {seen u : Str} (hq : q.Reads seen) (h : q.scan u = .command) :
    ∃ a ws cmd v, seen ++ u = a ++ (ws ++ (cmd ++ v)) ∧ (∀ c ∈ ws, isSpace c = true) ∧ CommandHead cmd ∧
      (a = [] ∧ q ≠ .inside ∨ a.getLast? = some '\n') := by
  induction u generalizing q seen with
  | nil =>
    rw [scan_nil] at h
    rw [h] at hq
    exact hq.elim
  | cons c u ih =>
    rw [scan_cons] at h
    by_cases hn : c = '\n'
    · subst hn
      have hne : q ≠ .command := by
        rintro rfl
        exact hq
      rw [step_newline hne] at h
      obtain ⟨a, ws, cmd, v, heq, hws, hcmd, ha⟩ := ih (by simp [LineState.Reads] : LineState.opening.Reads []) h
      refine ⟨seen ++ ['\n'] ++ a, ws, cmd, v, ?_, hws, hcmd, .inr ?_⟩
      · rw [List.nil_append] at heq
        rw [heq]
        simp
      · rcases ha with ⟨rfl, -⟩ | ha
        · simp
        · rw [List.getLast?_append, ha]
          rfl
    · rcases hq.step c hn with ⟨-, hin, ws, cmd, hws, hcmd, heq⟩ | ⟨-, hreads⟩
      · refine ⟨[], ws, cmd, u, ?_, hws, hcmd, .inl ⟨rfl, hin⟩⟩
        rw [← List.singleton_append, ← List.append_assoc, heq]
        simp
      · obtain ⟨a, ws, cmd, v, heq, hws, hcmd, ha⟩ := ih hreads h
        refine ⟨a, ws, cmd, v, by rw [← heq]; simp, hws, hcmd, ?_⟩
        rcases ha with ⟨ha, hin⟩ | ha
        · refine .inl ⟨ha, ?_⟩
          rintro rfl
          exact hin (by simp [LineState.step, hn])
        · exact .inr ha

theorem isAlpha_toNat {c : Char} (h : c.isAlpha = true) : 65 ≤ c.toNat ∧ c.toNat ≤ 122 := by
  rw [isAlpha_iff, isUpper_iff, isLower_iff] at h
  omega

theorem isUpper_of_between {c : Char} (h : between 'A' 'Z' c = true) : c.isUpper = true := by
  simp only [between, Bool.and_eq_true, decide_eq_true_eq] at h
  exact isUpper_iff.mpr h

theorem CommandHead.plain {cmd : Str} (h : CommandHead cmd) : '\n' ∉ cmd ∧ NoControl cmd := by
  rcases h with ⟨c, hc, rfl⟩ | rfl
  · have hnat := isAlpha_toNat hc
    constructor
    · intro hmem
      simp only [List.mem_cons, List.not_mem_nil, or_false] at hmem
      rcases hmem with h | h | rfl
      · exact absurd h (by decide)
      · exact absurd h (by decide)
      · exact absurd hnat (by decide)
    · intro d hd
      simp only [List.mem_cons, List.not_mem_nil, or_false] at hd
      rcases hd with rfl | rfl | rfl
      · decide
      · decide
      · simp only [isControl, Bool.or_eq_false_iff, Bool.and_eq_false_iff, decide_eq_false_iff_not]
        omega
  · decide

section Substitution

variable [UnicodeData]

theorem mem_spaces_iff {b x : Str} {g : List (Nat × Str)} {m' : Cursor} : m' ∈ spaces.matchesAt ⟨b, x, g⟩ ↔
    ∃ u v, x = u ++ v ∧ (∀ c ∈ u, isSpace c = true) ∧ m' = ⟨u.reverse ++ b, v, g⟩ := mem_star_cls_iff

theorem mem_command_iff {b x : Str} {g : List (Nat × Str)} {m' : Cursor} :
    m' ∈ (anyOf [cat [lit "::", .cls Char.isAlpha], lit "##["]).matchesAt ⟨b, x, g⟩ ↔
      ∃ cmd v, x = cmd ++ v ∧ CommandHead cmd ∧ m' = ⟨cmd.reverse ++ b, v, g⟩ := by
  rw [mem_anyOf_iff]
  simp only [List.mem_cons, List.not_mem_nil, or_false, exists_eq_or_imp, exists_eq_left, mem_cat_cons_iff,
    mem_cat_nil_iff]
  constructor
  · rintro (⟨m₁, hm₁, m₂, hm₂, rfl⟩ | h)
    · obtain ⟨v, rfl, rfl⟩ := mem_lit_iff.mp hm₁
      obtain ⟨c, v, rfl, hc, rfl⟩ := mem_cls_iff.mp hm₂
      exact ⟨[':', ':', c], v, rfl, .inl ⟨c, hc, rfl⟩, rfl⟩
    · obtain ⟨v, rfl, rfl⟩ := mem_lit_iff.mp h
      exact ⟨"##[".toList, v, rfl, .inr rfl, rfl⟩
  · rintro ⟨cmd, v, rfl, ⟨c, hc, rfl⟩ | rfl, rfl⟩
    · exact .inl ⟨_, mem_lit_iff.mpr ⟨c :: v, rfl, rfl⟩, _, mem_cls_iff.mpr ⟨c, v, rfl, hc, rfl⟩, rfl⟩
    · exact .inr (mem_lit_iff.mpr ⟨v, rfl, rfl⟩)

theorem mem_workflowCommandRe_iff {b x : Str} {m' : Cursor} : m' ∈ workflowCommandRe.matchesAt ⟨b, x, []⟩ ↔
    b.head?.elim true (· == '\n') = true ∧ ∃ ws cmd v, x = ws ++ (cmd ++ v) ∧ (∀ c ∈ ws, isSpace c = true) ∧
      CommandHead cmd ∧ m' = ⟨cmd.reverse ++ (ws.reverse ++ b), v, [(2, cmd), (1, ws)]⟩ := by
  unfold workflowCommandRe
  simp only [mem_cat_cons_iff, mem_cat_nil_iff, mem_grp_iff]
  constructor
  · rintro ⟨m₁, hm₁, m₂, ⟨m₃, hm₃, rfl⟩, m₄, ⟨m₅, hm₅, rfl⟩, rfl⟩
    simp only [matchesAt] at hm₁
    split at hm₁
    · next hb =>
      rw [List.mem_singleton] at hm₁
      subst hm₁
      obtain ⟨ws, v, rfl, hws, rfl⟩ := mem_spaces_iff.mp hm₃
      obtain ⟨cmd, v, rfl, hcmd, rfl⟩ := mem_command_iff.mp hm₅
      refine ⟨hb, ws, cmd, v, rfl, hws, hcmd, ?_⟩
      unfold Cursor.capture
      rw [readTo_append, readTo_append]
    · cases hm₁
  · rintro ⟨hb, ws, cmd, v, rfl, hws, hcmd, rfl⟩
    refine ⟨⟨b, ws ++ (cmd ++ v), []⟩, ?_, _, ⟨_, mem_spaces_iff.mpr ⟨ws, cmd ++ v, rfl, hws, rfl⟩, rfl⟩, _,
      ⟨_, mem_command_iff.mpr ⟨cmd, v, rfl, hcmd, rfl⟩, rfl⟩, ?_⟩
    · simp only [matchesAt]
      rw [if_pos hb]
      exact List.mem_singleton_self _
    · unfold Cursor.capture
      rw [readTo_append, readTo_append]

theorem consumes_workflowCommandRe : workflowCommandRe.Consumes := by
  have hneeds : workflowCommandRe.Needs fun c => c == ':' || c == '#' := by
    refine .inr (.inr (.inl ⟨.inl (.inl ?_), .inl ?_⟩))
    · intro c hc
      have hcolon : (c == ':') = true := hc
      exact Bool.or_eq_true_iff.mpr (.inl hcolon)
    · intro c hc
      have hhash : (c == '#') = true := hc
      exact Bool.or_eq_true_iff.mpr (.inr hhash)
  exact hneeds.consumes

/-- Where the pattern matches nowhere, no command is read. -/
theorem scan_freeIn {before u v : Str} (h : workflowCommandRe.FreeIn before u v) {q : LineState}
    (hq : q = .inside ∨ q = .opening ∧ before.head?.elim true (· == '\n') = true) : q.scan u ≠ .command := by
  intro hscan
  have hreads : q.Reads [] := by
    rcases hq with rfl | ⟨rfl, -⟩
    · trivial
    · simp [LineState.Reads]
  obtain ⟨a, ws, cmd, v', heq, hws, hcmd, ha⟩ := exists_command_of_scan hreads hscan
  rw [List.nil_append] at heq
  have hstart : (a.reverse ++ before).head?.elim true (· == '\n') = true := by
    rcases ha with ⟨rfl, hin⟩ | ha
    · rcases hq with hq | hq
      · exact absurd hq hin
      · exact hq.2
    · rw [List.head?_append, List.head?_reverse, ha]
      rfl
  have hne : ws ++ (cmd ++ v') ≠ [] := by
    rcases hcmd with ⟨c, -, rfl⟩ | rfl
    · simp
    · simp
  have hnone := h a _ heq hne
  rw [List.append_assoc, List.append_assoc] at hnone
  have hmem := mem_workflowCommandRe_iff.mpr ⟨hstart, ws, cmd, v' ++ v, rfl, hws, hcmd, rfl⟩
  rw [hnone] at hmem
  cases hmem

omit [UnicodeData] in
theorem scan_mark {q : LineState} (hq : q = .inside ∨ q = .opening) {ws cmd : Str} (hws : ∀ c ∈ ws, isSpace c = true)
    (hcmd : CommandHead cmd) : q.scan (ws ++ workflowCommandMark ++ cmd) = .inside := by
  have hopen : q.scan ws = .inside ∨ q.scan ws = .opening := by
    rcases hq with rfl | rfl
    · have hwithin : Within .inside .opening := .inl rfl
      have hscan := hwithin.scan (s := ws) (by rw [scan_spaces hws]; decide)
      rw [scan_spaces hws] at hscan
      exact hscan
    · exact .inr (scan_spaces hws)
  have hmark : (q.scan ws).scan workflowCommandMark = .inside := by
    rcases hopen with h | h
    · rw [h]
      rfl
    · rw [h]
      rfl
  rw [scan_append, scan_append, hmark, scan_inside hcmd.plain.1]

/-- The match of a command is its whitespace and its text. -/
theorem workflowCommandRe_takes {b t v : Str} {g : List (Nat × Str)}
    (h : ⟨t.reverse ++ b, v, g⟩ ∈ workflowCommandRe.matchesAt ⟨b, t ++ v, []⟩) :
    b.head?.elim true (· == '\n') = true ∧ ∃ ws cmd, t = ws ++ cmd ∧ (∀ c ∈ ws, isSpace c = true) ∧ CommandHead cmd ∧
      g = [(2, cmd), (1, ws)] := by
  obtain ⟨hb, ws, cmd, v', heq, hws, hcmd, hm⟩ := mem_workflowCommandRe_iff.mp h
  obtain ⟨-, rfl, rfl⟩ := Cursor.mk.inj hm
  rw [← List.append_assoc] at heq
  exact ⟨hb, ws, cmd, List.append_cancel_right heq, hws, hcmd, rfl⟩

/-- A command with its mark. -/
def markCommand (_ : Str) (m : Cursor) : Str := (m.group 1).getD [] ++ workflowCommandMark ++ (m.group 2).getD []

theorem scan_marked {before rest out : Str} {ms : List (Cursor × Cursor)}
    (h : Substitutes workflowCommandRe markCommand before rest out ms) {q : LineState}
    (hq : q = .inside ∨ q = .opening ∧ before.head?.elim true (· == '\n') = true) : q.scan out ≠ .command := by
  induction h generalizing q with
  | stop hfree => exact scan_freeIn hfree hq
  | @step before u t v out g ms hfree hmatch htail ih =>
    obtain ⟨hstart, ws, cmd, rfl, hws, hcmd, rfl⟩ := workflowCommandRe_takes (List.mem_of_head? hmatch)
    have hu := scan_freeIn hfree hq
    have hopen : q.scan u = .inside ∨ q.scan u = .opening := by
      rcases List.eq_nil_or_concat u with rfl | ⟨u, c, rfl⟩
      · exact hq.imp_right And.left
      · rw [List.concat_eq_append] at hstart hu ⊢
        rw [List.reverse_append] at hstart
        have hc : c = '\n' := by simpa using hstart
        rw [scan_append, hc] at hu ⊢
        exact .inr (step_newline (ne_command_of_scan hu))
    rw [scan_append, scan_append]
    have hmarked : (q.scan u).scan (markCommand (ws ++ cmd)
        ⟨(ws ++ cmd).reverse ++ (u.reverse ++ before), v, [(2, cmd), (1, ws)]⟩) = .inside := scan_mark hopen hws hcmd
    rw [hmarked]
    exact ih (.inl rfl)

theorem sub_workflowCommandRe_noCommand (s : Str) : NoCommand (sub workflowCommandRe markCommand s) :=
  (noCommand_iff _).mpr (scan_marked (sub_substitutes consumes_workflowCommandRe markCommand s) (.inr ⟨rfl, rfl⟩))

theorem sub_workflowCommandRe_noControl {s : Str} (h : NoControl s) :
    NoControl (sub workflowCommandRe markCommand s) := by
  refine (sub_substitutes consumes_workflowCommandRe markCommand s).forall_mem ?_ h
  intro b t v g hm ht
  obtain ⟨-, ws, cmd, rfl, -, -, rfl⟩ := workflowCommandRe_takes hm
  rw [List.forall_mem_append] at ht
  have hmark : NoControl workflowCommandMark := by decide
  exact List.forall_mem_append.mpr ⟨List.forall_mem_append.mpr ⟨ht.1, hmark⟩, ht.2⟩

/-- A neutralized text has neither control characters nor workflow commands. -/
theorem neutralize_clean (text : Str) : NoControl (neutralize text) ∧ NoCommand (neutralize text) := by
  unfold neutralize
  split
  · next h =>
    rw [List.isEmpty_iff.mp h]
    decide
  · exact ⟨sub_workflowCommandRe_noControl (sub_cls_delete isControl _), sub_workflowCommandRe_noCommand _⟩

end Substitution

end FailureOrchestrator
