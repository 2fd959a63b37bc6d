import FailureOrchestrator.JsonDumps

namespace FailureOrchestrator

/-- Where a scan of a JSON text stands: between tokens, in a string, behind a backslash, in a `\u` escape that still
needs `n + 1` digits, or behind a closing quote. -/
inductive ScanMode where
  | plain
  | quoted
  | escaped
  | hex (n : Nat)
  | closed
  deriving DecidableEq

/-- The number of open brackets and the mode. -/
abbrev ScanState := Nat × ScanMode

def scanPlain (depth : Nat) (c : Char) : Option ScanState :=
  if c = '"' then some (depth, .quoted)
  else if c = '[' ∨ c = '\x7b' then some (depth + 1, .plain)
  else if c = ']' ∨ c = '\x7d' then if depth = 0 then none else some (depth - 1, .plain)
  else some (depth, .plain)

/-- One character; `none` where no JSON text goes on like this. -/
def scanStep : ScanState → Char → Option ScanState
  | (depth, .plain), c => scanPlain depth c
  | (depth, .quoted), c =>
    some (depth, if c = '"' then .closed else if c = '\\' then .escaped else .quoted)
  | (depth, .escaped), c => if c = '\x7b' then none else some (depth, if c = 'u' then .hex 3 else .quoted)
  | (depth, .hex n), c =>
    if (hexValue c).isNone then none else some (depth, if n = 0 then .quoted else .hex (n - 1))
  | (depth, .closed), c =>
    if isJsonSpace c ∨ c = ',' ∨ c = ':' ∨ c = ']' ∨ c = '\x7d' then scanPlain depth c else none

/-- The scan of a text gets from a state to a state and never below a depth. -/
def Above (d : Nat) : ScanState → Str → ScanState → Prop
  | st, [], st' => d ≤ st.1 ∧ st = st'
  | st, c :: s, st' => d ≤ st.1 ∧ ∃ next, scanStep st c = some next ∧ Above d next s st'

section Scan

variable {d : Nat} {st st' mid : ScanState} {s t : Str}

theorem Above.nil (h : d ≤ st.1) : Above d st [] st := ⟨h, rfl⟩

theorem Above.append (hs : Above d st s mid) (ht : Above d mid t st') : Above d st (s ++ t) st' := by
  induction s generalizing st with
  | nil =>
    obtain ⟨-, rfl⟩ := hs
    exact ht
  | cons c s ih =>
    obtain ⟨hd, next, hstep, hrest⟩ := hs
    exact ⟨hd, next, hstep, ih hrest⟩

theorem Above.split (h : Above d st (s ++ t) st') : ∃ mid, Above d st s mid ∧ Above d mid t st' := by
  induction s generalizing st with
  | nil =>
    have hd : d ≤ st.1 := by
      cases t with
      | nil => exact h.1
      | cons c t => exact h.1
    exact ⟨st, Above.nil hd, h⟩
  | cons c s ih =>
    obtain ⟨hd, next, hstep, hrest⟩ := h
    obtain ⟨mid, hs, ht⟩ := ih hrest
    exact ⟨mid, ⟨hd, next, hstep, hs⟩, ht⟩

theorem Above.last (h : Above d st s st') : d ≤ st'.1 := by
  induction s generalizing st with
  | nil =>
    obtain ⟨hd, rfl⟩ := h
    exact hd
  | cons c s ih =>
    obtain ⟨-, next, -, hrest⟩ := h
    exact ih hrest

theorem Above.mono {e : Nat} (hle : e ≤ d) (h : Above d st s st') : Above e st s st' := by
  induction s generalizing st with
  | nil => exact ⟨hle.trans h.1, h.2⟩
  | cons c s ih =>
    obtain ⟨hd, next, hstep, hrest⟩ := h
    exact ⟨hle.trans hd, next, hstep, ih hrest⟩

/-- A text is scanned in one way. -/
theorem Above.unique {e : Nat} (h : Above d st s mid) (h' : Above e st s st') : mid = st' := by
  induction s generalizing st with
  | nil =>
    obtain ⟨-, rfl⟩ := h
    exact h'.2
  | cons c s ih =>
    obtain ⟨-, next, hstep, hrest⟩ := h
    obtain ⟨-, next', hstep', hrest'⟩ := h'
    cases hstep.symm.trans hstep'
    exact ih hrest hrest'

/-- The state behind a value or a token: between tokens or behind a closing quote. -/
def Done (d : Nat) (st : ScanState) : Prop := st = (d, .plain) ∨ st = (d, .closed)

theorem Done.space {c : Char} (h : Done d st) (hc : isJsonSpace c = true) : scanStep st c = some (d, .plain) := by
  have hplain : scanPlain d c = some (d, .plain) := by
    simp only [isJsonSpace, Bool.or_eq_true, beq_iff_eq] at hc
    rcases hc with ((rfl | rfl) | rfl) | rfl <;> rfl
  rcases h with rfl | rfl
  · exact hplain
  · exact (if_pos (.inl hc)).trans hplain

theorem Done.comma (h : Done d st) : scanStep st ',' = some (d, .plain) := by
  rcases h with rfl | rfl <;> rfl

theorem Done.colon (h : Done d st) : scanStep st ':' = some (d, .plain) := by
  rcases h with rfl | rfl <;> rfl

theorem Done.close {c : Char} (h : Done (d + 1) st) (hc : c = ']' ∨ c = '\x7d') : scanStep st c = some (d, .plain) := by
  rcases h with rfl | rfl <;> rcases hc with rfl | rfl <;> rfl

theorem Done.blank {w : Str} (hw : Blank w) (h : Done d st) : ∃ st', Done d st' ∧ Above d st w st' := by
  induction w generalizing st with
  | nil =>
    have hd : d ≤ st.1 := by rcases h with rfl | rfl <;> exact Nat.le_refl _
    exact ⟨st, h, Above.nil hd⟩
  | cons c w ih =>
    have hd : d ≤ st.1 := by rcases h with rfl | rfl <;> exact Nat.le_refl _
    obtain ⟨st', hdone, hrest⟩ := ih (fun e he => hw e (List.mem_cons_of_mem _ he)) (.inl rfl : Done d (d, .plain))
    exact ⟨st', hdone, hd, _, h.space (hw c List.mem_cons_self), hrest⟩

theorem skipSpace_split (s : Str) : ∃ w, Blank w ∧ s = w ++ skipSpace s :=
  ⟨s.takeWhile isJsonSpace, fun _ hc => List.mem_takeWhile_imp hc, List.takeWhile_append_dropWhile.symm⟩

end Scan

/-- A part of a text that a reader consumed, and what it left. -/
def Consumed (s rest : Str) (P : Str → Prop) : Prop := ∃ part, s = part ++ rest ∧ P part

section Strings

variable {s rest : Str}

theorem readHex4_scan {u : Nat} (h : readHex4 s = some (u, rest)) :
    Consumed s rest fun part => ∀ d, Above d (d, .hex 3) part (d, .quoted) := by
  match s, h with
  | a :: b :: c :: e :: tail, h =>
    rw [readHex4] at h
    obtain ⟨m, ha, h⟩ := Option.bind_eq_some_iff.mp h
    obtain ⟨n, hb, h⟩ := Option.bind_eq_some_iff.mp h
    obtain ⟨k, hc, h⟩ := Option.bind_eq_some_iff.mp h
    obtain ⟨l, he, h⟩ := Option.bind_eq_some_iff.mp h
    cases h
    refine ⟨[a, b, c, e], rfl, fun d => ?_⟩
    refine ⟨Nat.le_refl d, (d, .hex 2), by simp [scanStep, ha], Nat.le_refl d, (d, .hex 1), by simp [scanStep, hb],
      Nat.le_refl d, (d, .hex 0), by simp [scanStep, hc], Nat.le_refl d, (d, .quoted), by simp [scanStep, he],
      Nat.le_refl d, rfl⟩

theorem readUnit_scan {u : Nat} {x : Char} (h : readUnit u s = some (x, rest)) :
    Consumed s rest fun part => ∀ d, Above d (d, .quoted) part (d, .quoted) := by
  unfold readUnit at h
  split at h
  · split at h
    next tail =>
      obtain ⟨⟨low, after⟩, hlow, h⟩ := Option.bind_eq_some_iff.mp h
      obtain ⟨part, htail, hpart⟩ := readHex4_scan hlow
      dsimp only at h
      split at h
      next =>
        simp only [Option.pure_def, Option.some.injEq, Prod.mk.injEq] at h
        obtain ⟨-, rfl⟩ := h
        refine ⟨'\\' :: 'u' :: part, by rw [htail]; rfl, fun d => ?_⟩
        exact ⟨Nat.le_refl d, (d, .escaped), rfl, Nat.le_refl d, (d, .hex 3), rfl, hpart d⟩
      next => cases h
    next => cases h
  · split at h
    · cases h
    · cases h
      exact ⟨[], rfl, fun d => Above.nil (Nat.le_refl d)⟩

theorem readEscape_scan {x : Char} (h : readEscape s = some (x, rest)) :
    Consumed s rest fun part => ∀ d, Above d (d, .escaped) part (d, .quoted) := by
  cases s with
  | nil => cases h
  | cons c tail =>
    rw [readEscape] at h
    split at h
    next hu =>
      subst hu
      obtain ⟨⟨u, after⟩, hhex, h⟩ := Option.bind_eq_some_iff.mp h
      obtain ⟨first, htail, hfirst⟩ := readHex4_scan hhex
      obtain ⟨second, hafter, hsecond⟩ := readUnit_scan h
      refine ⟨'u' :: (first ++ second), ?_, fun d => ?_⟩
      · rw [htail, hafter, List.cons_append, List.append_assoc]
      · exact ⟨Nat.le_refl d, (d, .hex 3), rfl, (hfirst d).append (hsecond d)⟩
    next hu =>
      have hstep : c ≠ '\x7b' → ∀ d, Above d (d, .escaped) [c] (d, .quoted) := by
        intro hbrace d
        exact ⟨Nat.le_refl d, (d, .quoted), by simp [scanStep, hbrace, hu], Nat.le_refl d, rfl⟩
      have hother : c ≠ '\x7b' ∧ tail = rest := by
        split at h
        next hc =>
          cases h
          rcases hc with rfl | rfl | rfl <;> exact ⟨by decide, rfl⟩
        split at h
        next hc => cases h; exact ⟨by rw [hc]; decide, rfl⟩
        split at h
        next hc => cases h; exact ⟨by rw [hc]; decide, rfl⟩
        split at h
        next hc => cases h; exact ⟨by rw [hc]; decide, rfl⟩
        split at h
        next hc => cases h; exact ⟨by rw [hc]; decide, rfl⟩
        split at h
        next hc => cases h; exact ⟨by rw [hc]; decide, rfl⟩
        next => cases h
      obtain ⟨hbrace, rfl⟩ := hother
      exact ⟨[c], rfl, hstep hbrace⟩

theorem readString_scan {n : Nat} {cs : Str} (h : readString n s = some (cs, rest)) :
    Consumed s rest fun part => ∀ d, Above d (d, .quoted) part (d, .closed) := by
  induction n generalizing s cs with
  | zero => cases h
  | succ n ih =>
    rw [readString] at h
    split at h
    next hquote =>
      cases h
      cases s with
      | nil => cases hquote
      | cons c tail =>
        cases hquote
        exact ⟨['"'], rfl, fun d => ⟨Nat.le_refl d, (d, .closed), rfl, Nat.le_refl d, rfl⟩⟩
    next hquote =>
      obtain ⟨⟨c, after⟩, hchar, h⟩ := Option.bind_eq_some_iff.mp h
      obtain ⟨⟨more, last⟩, hmore, h⟩ := Option.bind_eq_some_iff.mp h
      cases h
      obtain ⟨second, hafter, hsecond⟩ := ih hmore
      cases s with
      | nil => cases hchar
      | cons e tail =>
        rw [readChar] at hchar
        split at hchar
        next hslash =>
          obtain ⟨first, htail, hfirst⟩ := readEscape_scan hchar
          refine ⟨'\\' :: (first ++ second), ?_, fun d => ?_⟩
          · rw [hslash, htail, hafter, List.cons_append, List.append_assoc]
          · exact ⟨Nat.le_refl d, (d, .escaped), rfl, (hfirst d).append (hsecond d)⟩
        next hslash =>
          split at hchar
          · cases hchar
          · cases hchar
            have hc : c ≠ '"' := fun heq => hquote (congrArg some heq)
            refine ⟨c :: second, by rw [hafter]; rfl, fun d => ?_⟩
            exact ⟨Nat.le_refl d, (d, .quoted), by simp [scanStep, hc, hslash], hsecond d⟩

end Strings

section Atoms

variable {F : Type} [PyFloat F] {s rest : Str}

/-- Characters that open and close nothing. -/
def Inert (s : Str) : Prop := ∀ c ∈ s, c ≠ '"' ∧ c ≠ '[' ∧ c ≠ '\x7b' ∧ c ≠ ']' ∧ c ≠ '\x7d'

instance (s : Str) : Decidable (Inert s) := List.decidableBAll _ s

theorem inert_nil : Inert [] := by decide

theorem Inert.scan (h : Inert s) (d : Nat) : Above d (d, .plain) s (d, .plain) := by
  induction s with
  | nil => exact Above.nil (Nat.le_refl d)
  | cons c s ih =>
    obtain ⟨hquote, hlist, hdict, hlist', hdict'⟩ := h c List.mem_cons_self
    have hstep : scanStep (d, .plain) c = some (d, .plain) := by
      simp [scanStep, scanPlain, hquote, hlist, hdict, hlist', hdict']
    exact ⟨Nat.le_refl d, (d, .plain), hstep, ih fun e he => h e (List.mem_cons_of_mem _ he)⟩

theorem inert_digits {ds : Str} (h : ∀ c ∈ ds, c.isDigit = true) : Inert ds := fun c hc =>
  ⟨ne_of_isDigit (h c hc) rfl, ne_of_isDigit (h c hc) rfl, ne_of_isDigit (h c hc) rfl, ne_of_isDigit (h c hc) rfl,
    ne_of_isDigit (h c hc) rfl⟩

theorem Inert.append {t : Str} (hs : Inert s) (ht : Inert t) : Inert (s ++ t) := by
  intro c hc
  rcases List.mem_append.mp hc with hc | hc
  · exact hs c hc
  · exact ht c hc

theorem inert_takeWhile (s : Str) : Inert (s.takeWhile Char.isDigit) :=
  inert_digits fun _ hc => List.mem_takeWhile_imp hc

theorem startsWith_split {p : Str} (h : startsWith s p = true) : s = p ++ s.drop p.length := by
  obtain ⟨t, rfl⟩ := startsWith_iff.mp h
  rw [List.drop_left]

theorem readName_scan {v : JsonValue F} (h : readName s = some (v, rest)) :
    Consumed s rest fun part => ∀ d, Above d (d, .plain) part (d, .plain) := by
  unfold readName at h
  split at h
  next hname =>
    cases h
    exact ⟨_, startsWith_split hname, Inert.scan (by decide)⟩
  split at h
  next hname =>
    cases h
    exact ⟨_, startsWith_split hname, Inert.scan (by decide)⟩
  split at h
  next hname =>
    cases h
    exact ⟨_, startsWith_split hname, Inert.scan (by decide)⟩
  next =>
    obtain ⟨name, hmem, h⟩ := List.exists_of_findSome?_eq_some h
    split at h
    next hname =>
      cases h
      refine ⟨_, startsWith_split hname, Inert.scan ?_⟩
      have hall : ∀ name ∈ floatNames, Inert name := by decide
      exact hall name hmem
    next => cases h

theorem scanInt_part (s : Str) : s = scanInt s ++ s.drop (scanInt s).length ∧ Inert (scanInt s) := by
  unfold scanInt
  split
  next hzero =>
    cases s with
    | nil => cases hzero
    | cons c s =>
      cases hzero
      exact ⟨rfl, by decide⟩
  next => exact ⟨(List.prefix_iff_eq_append.mp (List.takeWhile_prefix _)).symm, inert_takeWhile s⟩

theorem scanFrac_part (s : Str) : s = scanFrac s ++ s.drop (scanFrac s).length ∧ Inert (scanFrac s) := by
  cases s with
  | nil => exact ⟨rfl, inert_nil⟩
  | cons c s =>
    rw [scanFrac]
    split
    next hdot =>
      rw [hdot.1]
      refine ⟨?_, Inert.append (s := ['.']) (by decide) (inert_takeWhile s)⟩
      exact congrArg ('.' :: ·) (List.prefix_iff_eq_append.mp (List.takeWhile_prefix _)).symm
    next => exact ⟨rfl, inert_nil⟩

theorem scanExpSign_part (s : Str) : s = scanExpSign s ++ s.drop (scanExpSign s).length ∧ Inert (scanExpSign s) := by
  unfold scanExpSign
  split
  next hplus =>
    cases s with
    | nil => cases hplus
    | cons c s =>
      cases hplus
      exact ⟨rfl, by decide⟩
  split
  next hminus =>
    cases s with
    | nil => cases hminus
    | cons c s =>
      cases hminus
      exact ⟨rfl, by decide⟩
  next => exact ⟨rfl, inert_nil⟩

theorem scanExp_part (s : Str) : s = scanExp s ++ s.drop (scanExp s).length ∧ Inert (scanExp s) := by
  cases s with
  | nil => exact ⟨rfl, inert_nil⟩
  | cons c s =>
    rw [scanExp]
    split
    next hexp =>
      obtain ⟨hsplit, hsign⟩ := scanExpSign_part s
      have hdigits := (List.prefix_iff_eq_append.mp
        (List.takeWhile_prefix (l := s.drop (scanExpSign s).length) Char.isDigit)).symm
      refine ⟨?_, ?_⟩
      · rw [List.cons_append, List.length_cons, List.drop_succ_cons, List.length_append, ← List.drop_drop,
          List.append_assoc, ← hdigits, ← hsplit]
      · refine Inert.append (s := [c]) ?_ (hsign.append (inert_takeWhile _))
        intro e he
        rw [List.mem_singleton.mp he]
        rcases hexp.1 with rfl | rfl <;> decide
    next => exact ⟨rfl, inert_nil⟩

theorem scanNumber_part (s : Str) : s = (scanNumber s).1.text ++ (scanNumber s).2 ∧ Inert (scanNumber s).1.text := by
  have hsign : ∀ s : Str, s = (if s.head? = some '-' then ['-'] else []) ++
      s.drop (if s.head? = some '-' then ['-'] else []).length := by
    intro s
    split
    next hminus =>
      cases s with
      | nil => cases hminus
      | cons c s =>
        cases hminus
        rfl
    next => rfl
  have hinert : Inert (if s.head? = some '-' then ['-'] else []) := by
    split
    · decide
    · exact inert_nil
  unfold scanNumber
  dsimp only
  generalize hs1 : s.drop (if s.head? = some '-' then ['-'] else []).length = s1
  generalize hs2 : s1.drop (scanInt s1).length = s2
  generalize hs3 : s2.drop (scanFrac s2).length = s3
  obtain ⟨h1, hint⟩ := scanInt_part s1
  obtain ⟨h2, hfrac⟩ := scanFrac_part s2
  obtain ⟨h3, hexp⟩ := scanExp_part s3
  have h0 := hsign s
  rw [hs1] at h0
  rw [hs2] at h1
  rw [hs3] at h2
  constructor
  · show s = _ ++ scanInt s1 ++ scanFrac s2 ++ scanExp s3 ++ _
    rw [List.append_assoc, ← h3, List.append_assoc, ← h2, List.append_assoc, ← h1]
    exact h0
  · exact ((hinert.append hint).append hfrac).append hexp

theorem readNumber_scan {v : JsonValue F} (h : readNumber s = some (v, rest)) :
    Consumed s rest fun part => ∀ d, Above d (d, .plain) part (d, .plain) := by
  obtain ⟨hsplit, hinert⟩ := scanNumber_part s
  have hrest : (scanNumber s).2 = rest := by
    unfold readNumber at h
    dsimp only at h
    split at h
    · cases h
    split at h
    · cases h
      rfl
    split at h
    · cases h
      rfl
    · cases h
  exact ⟨(scanNumber s).1.text, by rw [← hrest]; exact hsplit, hinert.scan⟩

end Atoms

end FailureOrchestrator
