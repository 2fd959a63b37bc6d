import FailureOrchestrator.JsonScanned

namespace FailureOrchestrator

variable {F : Type} [PyFloat F] {s rest : Str}

/-- Scanned from between tokens, the text ends between tokens or behind a closing quote, at the same depth. -/
def Whole (part : Str) : Prop := ∀ d, ∃ st, Done d st ∧ Above d (d, .plain) part st

theorem Done.depth {d : Nat} {st : ScanState} (h : Done d st) : d ≤ st.1 := by
  rcases h with rfl | rfl <;> exact Nat.le_refl d

theorem Whole.nil : Whole [] := fun d => ⟨(d, .plain), .inl rfl, Above.nil (Nat.le_refl d)⟩

theorem Whole.of_plain {part : Str} (h : ∀ d, Above d (d, .plain) part (d, .plain)) : Whole part :=
  fun d => ⟨(d, .plain), .inl rfl, h d⟩

theorem Above.blank {d : Nat} {w : Str} (hw : Blank w) : Above d (d, .plain) w (d, .plain) := by
  induction w with
  | nil => exact Above.nil (Nat.le_refl d)
  | cons c w ih =>
    have hspace := (show Done d (d, .plain) from .inl rfl).space (hw c List.mem_cons_self)
    exact ⟨Nat.le_refl d, _, hspace, ih fun e he => hw e (List.mem_cons_of_mem _ he)⟩

theorem Whole.blank_left {part w : Str} (hw : Blank w) (h : Whole part) : Whole (w ++ part) := by
  intro d
  obtain ⟨st, hdone, hpart⟩ := h d
  exact ⟨st, hdone, (Above.blank hw).append hpart⟩

theorem Whole.of_blank {w : Str} (hw : Blank w) : Whole w := fun _ => Done.blank hw (.inl rfl)

theorem Whole.blank {part w : Str} (h : Whole part) (hw : Blank w) : Whole (part ++ w) := by
  intro d
  obtain ⟨st, hdone, hpart⟩ := h d
  obtain ⟨st', hdone', hspace⟩ := hdone.blank hw
  exact ⟨st', hdone', hpart.append hspace⟩

/-- A whole part, a comma or a colon, spaces and another whole part. -/
theorem Whole.sep {part more w : Str} {c : Char} (h : Whole part) (hc : c = ',' ∨ c = ':') (hw : Blank w)
    (hmore : Whole more) : Whole (part ++ c :: (w ++ more)) := by
  intro d
  obtain ⟨st, hdone, hpart⟩ := h d
  have hstep : scanStep st c = some (d, .plain) := by
    rcases hc with rfl | rfl
    · exact hdone.comma
    · exact hdone.colon
  obtain ⟨st', hdone', hrest⟩ := hmore d
  exact ⟨st', hdone', hpart.append ⟨hdone.depth, _, hstep, (Above.blank hw).append hrest⟩⟩

/-- A whole part in brackets is whole. -/
theorem Whole.bracket {part : Str} {left right : Char} (h : Whole part) (hleft : left = '[' ∨ left = '\x7b')
    (hright : right = ']' ∨ right = '\x7d') : Whole (left :: (part ++ [right])) := by
  intro d
  obtain ⟨st, hdone, hpart⟩ := h (d + 1)
  have hstep : scanStep (d, .plain) left = some (d + 1, .plain) := by
    rcases hleft with rfl | rfl <;> rfl
  refine ⟨(d, .plain), .inl rfl, Nat.le_refl d, _, hstep, (hpart.mono (by omega)).append ?_⟩
  exact ⟨Nat.le_trans (by omega) hdone.depth, _, hdone.close hright, Nat.le_refl d, rfl⟩

theorem Whole.string {part : Str} (h : ∀ d, Above d (d, .quoted) part (d, .closed)) : Whole ('"' :: part) :=
  fun d => ⟨(d, .closed), .inr rfl, Nat.le_refl d, (d, .quoted), rfl, h d⟩

theorem skipSpace_cons_split {c : Char} {t : Str} (h : skipSpace s = c :: t) : ∃ w, Blank w ∧ s = w ++ c :: t := by
  obtain ⟨w, hw, hs⟩ := skipSpace_split s
  rw [h] at hs
  exact ⟨w, hw, hs⟩

theorem head_cons {c : Char} (h : s.head? = some c) : s = c :: s.tail := by
  cases s with
  | nil => cases h
  | cons d s =>
    cases h
    rfl

section Readers

variable {n : Nat}
  (hvalue : ∀ (s : Str) (v : JsonValue F) (rest : Str), JsonValue.read n s = some (v, rest) → Consumed s rest Whole)
  (hitems : ∀ (s : Str) (items : List (JsonValue F)) (rest : Str), JsonValue.readItems n s = some (items, rest) →
    Consumed s (']' :: rest) Whole)
  (hentries : ∀ (s : Str) (entries : List (Str × JsonValue F)) (rest : Str),
    JsonValue.readEntries n s = some (entries, rest) → Consumed s ('\x7d' :: rest) Whole)

include hitems in
theorem list_whole {v : JsonValue F} (h : JsonValue.read (n + 1) ('[' :: s) = some (v, rest)) :
    Consumed s (']' :: rest) Whole := by
  rw [JsonValue.read, if_neg (by decide), if_pos rfl] at h
  split at h
  next hclose =>
    cases h
    obtain ⟨w, hw, hs⟩ := skipSpace_cons_split (head_cons hclose)
    exact ⟨w, hs, Whole.of_blank hw⟩
  next =>
    obtain ⟨⟨items, after⟩, hread, h⟩ := Option.bind_eq_some_iff.mp h
    cases h
    obtain ⟨w, hw, hs⟩ := skipSpace_split s
    obtain ⟨part, hsplit, hpart⟩ := hitems _ _ _ hread
    exact ⟨w ++ part, by rw [List.append_assoc, ← hsplit]; exact hs, hpart.blank_left hw⟩

include hentries in
theorem dict_whole {v : JsonValue F} (h : JsonValue.read (n + 1) ('\x7b' :: s) = some (v, rest)) :
    Consumed s ('\x7d' :: rest) Whole := by
  rw [JsonValue.read, if_neg (by decide), if_neg (by decide), if_pos rfl] at h
  split at h
  next hclose =>
    cases h
    obtain ⟨w, hw, hs⟩ := skipSpace_cons_split (head_cons hclose)
    exact ⟨w, hs, Whole.of_blank hw⟩
  next =>
    obtain ⟨⟨entries, after⟩, hread, h⟩ := Option.bind_eq_some_iff.mp h
    cases h
    obtain ⟨w, hw, hs⟩ := skipSpace_split s
    obtain ⟨part, hsplit, hpart⟩ := hentries _ _ _ hread
    exact ⟨w ++ part, by rw [List.append_assoc, ← hsplit]; exact hs, hpart.blank_left hw⟩

include hitems hentries in
theorem value_whole {v : JsonValue F} (h : JsonValue.read (n + 1) s = some (v, rest)) : Consumed s rest Whole := by
  cases s with
  | nil => cases h
  | cons c tail =>
    by_cases hlist : c = '['
    · subst hlist
      obtain ⟨part, hs, hpart⟩ := list_whole hitems h
      exact ⟨'[' :: (part ++ [']']), by rw [hs]; simp, hpart.bracket (.inl rfl) (.inl rfl)⟩
    by_cases hdict : c = '\x7b'
    · subst hdict
      obtain ⟨part, hs, hpart⟩ := dict_whole hentries h
      exact ⟨'\x7b' :: (part ++ ['\x7d']), by rw [hs]; simp, hpart.bracket (.inr rfl) (.inr rfl)⟩
    rw [JsonValue.read] at h
    split at h
    next hquote =>
      obtain ⟨⟨cs, after⟩, hstring, h⟩ := Option.bind_eq_some_iff.mp h
      cases h
      obtain ⟨part, htail, hpart⟩ := readString_scan hstring
      exact ⟨'"' :: part, by rw [hquote, htail]; rfl, Whole.string hpart⟩
    next =>
      rcases Option.or_eq_some_iff.mp h with hname | ⟨-, hnumber⟩
      · obtain ⟨part, hs, hpart⟩ := readName_scan hname
        exact ⟨part, hs, Whole.of_plain hpart⟩
      · obtain ⟨part, hs, hpart⟩ := readNumber_scan hnumber
        exact ⟨part, hs, Whole.of_plain hpart⟩

include hvalue hitems in
theorem items_whole {items : List (JsonValue F)} (h : JsonValue.readItems (n + 1) s = some (items, rest)) :
    Consumed s (']' :: rest) Whole := by
  rw [JsonValue.readItems] at h
  obtain ⟨⟨x, after⟩, hx, h⟩ := Option.bind_eq_some_iff.mp h
  dsimp only at h
  obtain ⟨part, hs, hpart⟩ := hvalue _ _ _ hx
  cases hskip : skipSpace after with
  | nil =>
    rw [hskip] at h
    cases h
  | cons c more =>
    rw [hskip] at h
    obtain ⟨w, hw, hafter⟩ := skipSpace_cons_split hskip
    dsimp only at h
    split at h
    next hclose =>
      cases h
      exact ⟨part ++ w, by rw [hs, hafter, hclose, List.append_assoc], hpart.blank hw⟩
    split at h
    next hcomma =>
      obtain ⟨⟨xs, last⟩, hxs, h⟩ := Option.bind_eq_some_iff.mp h
      cases h
      obtain ⟨u, hu, hmore⟩ := skipSpace_split more
      obtain ⟨part', hsplit, hpart'⟩ := hitems _ _ _ hxs
      refine ⟨(part ++ w) ++ ',' :: (u ++ part'), ?_, (hpart.blank hw).sep (.inl rfl) hu hpart'⟩
      rw [hsplit] at hmore
      rw [hs, hafter, hmore, hcomma]
      simp only [List.append_assoc, List.cons_append]
    next => cases h

include hvalue hentries in
theorem entries_whole {entries : List (Str × JsonValue F)}
    (h : JsonValue.readEntries (n + 1) s = some (entries, rest)) : Consumed s ('\x7d' :: rest) Whole := by
  cases s with
  | nil => cases h
  | cons q tail =>
    rw [JsonValue.readEntries] at h
    split at h
    next hquote =>
      obtain ⟨⟨k, afterKey⟩, hkey, h⟩ := Option.bind_eq_some_iff.mp h
      dsimp only at h
      obtain ⟨key, htail, hkeyPart⟩ := readString_scan hkey
      cases hcolon : skipSpace afterKey with
      | nil =>
        rw [hcolon] at h
        cases h
      | cons colon value =>
        rw [hcolon] at h
        obtain ⟨w, hw, hafterKey⟩ := skipSpace_cons_split hcolon
        dsimp only at h
        split at h
        next hc =>
          obtain ⟨⟨x, after⟩, hx, h⟩ := Option.bind_eq_some_iff.mp h
          dsimp only at h
          obtain ⟨u, hu, hvalueSplit⟩ := skipSpace_split value
          obtain ⟨part, hs, hpart⟩ := hvalue _ _ _ hx
          have hentry : Whole (('"' :: key ++ w) ++ ':' :: (u ++ part)) :=
            ((Whole.string hkeyPart).blank hw).sep (.inr rfl) hu hpart
          have hstart : q :: tail = (('"' :: key ++ w) ++ ':' :: (u ++ part)) ++ after := by
            rw [hs] at hvalueSplit
            rw [hquote, htail, hafterKey, hc, hvalueSplit]
            simp only [List.append_assoc, List.cons_append]
          rw [hstart]
          cases hskip : skipSpace after with
          | nil =>
            rw [hskip] at h
            cases h
          | cons c more =>
            rw [hskip] at h
            obtain ⟨w', hw', hafter⟩ := skipSpace_cons_split hskip
            dsimp only at h
            split at h
            next hclose =>
              cases h
              exact ⟨_, by rw [hafter, hclose, ← List.append_assoc], hentry.blank hw'⟩
            split at h
            next hcomma =>
              obtain ⟨⟨xs, last⟩, hxs, h⟩ := Option.bind_eq_some_iff.mp h
              cases h
              obtain ⟨u', hu', hmore⟩ := skipSpace_split more
              obtain ⟨part', hsplit, hpart'⟩ := hentries _ _ _ hxs
              refine ⟨_, ?_, (hentry.blank hw').sep (.inl rfl) hu' hpart'⟩
              rw [hsplit] at hmore
              rw [hafter, hmore, hcomma]
              simp only [List.append_assoc, List.cons_append]
            next => cases h
        next => cases h
    next => cases h

end Readers

/-- What the readers consume is whole, up to the closing bracket of items and entries. -/
theorem read_whole (n : Nat) :
    (∀ (s : Str) (v : JsonValue F) (rest : Str), JsonValue.read n s = some (v, rest) → Consumed s rest Whole) ∧
    (∀ (s : Str) (items : List (JsonValue F)) (rest : Str), JsonValue.readItems n s = some (items, rest) →
      Consumed s (']' :: rest) Whole) ∧
    (∀ (s : Str) (entries : List (Str × JsonValue F)) (rest : Str), JsonValue.readEntries n s = some (entries, rest) →
      Consumed s ('\x7d' :: rest) Whole) := by
  induction n with
  | zero => exact ⟨fun _ _ _ h => (nomatch h), fun _ _ _ h => (nomatch h), fun _ _ _ h => (nomatch h)⟩
  | succ n ih =>
    obtain ⟨hvalue, hitems, hentries⟩ := ih
    exact ⟨fun _ _ _ h => value_whole hitems hentries h, fun _ _ _ h => items_whole hvalue hitems h,
      fun _ _ _ h => entries_whole hvalue hentries h⟩

/-- Characters that can stand behind a closing quote. -/
def closesString (c : Char) : Bool := isJsonSpace c || c == ',' || c == ':' || c == ']' || c == '\x7d'

/-- The text of a dict whose first key starts with a character that no closing quote is followed by. -/
structure DictText (r : Str) : Prop where
  body : ∃ body, r = '\x7b' :: (body ++ ['\x7d']) ∧ Whole body
  key : ∃ c tail, r = '\x7b' :: '"' :: c :: tail ∧ closesString c = false

/-- What an interrupted writer leaves of the text of a dict, if it leaves anything. -/
def Piece (p : Str) : Prop := p ≠ [] ∧ ∃ r, DictText r ∧ p <+: r

theorem Piece.head {p : Str} (h : Piece p) : ∃ tail, p = '\x7b' :: tail := by
  obtain ⟨hne, r, ⟨⟨body, rfl, -⟩, -⟩, hp⟩ := h
  obtain ⟨c, tail, rfl⟩ := List.exists_cons_of_ne_nil hne
  obtain ⟨rfl, -⟩ := List.cons_prefix_cons.mp hp
  exact ⟨tail, rfl⟩

theorem DictText.scan {r : Str} (h : DictText r) (d : Nat) : Above d (d, .plain) r (d, .plain) := by
  obtain ⟨body, rfl, hbody⟩ := h.body
  obtain ⟨st, hdone, hscan⟩ := hbody (d + 1)
  refine ⟨Nat.le_refl d, (d + 1, .plain), rfl, (hscan.mono (by omega)).append ?_⟩
  exact ⟨Nat.le_trans (by omega) hdone.depth, _, hdone.close (.inr rfl), Nat.le_refl d, rfl⟩

section Pieces

variable {p : Str} {ps : List Str} {st st' : ScanState}

/-- Inside a bracket a piece never closes that bracket. -/
theorem Piece.depth (hp : Piece p) (hst : 1 ≤ st.1) (h : Above 0 st p st') : 1 ≤ st'.1 := by
  obtain ⟨hne, r, hr, hprefix⟩ := hp
  obtain ⟨d, mode⟩ := st
  obtain ⟨c, tail, hkey, hc⟩ := hr.key
  cases mode with
  | plain =>
    obtain ⟨q, hq⟩ := hprefix
    have hscan := hr.scan d
    rw [← hq] at hscan
    obtain ⟨mid, hmid, -⟩ := hscan.split
    rw [← hmid.unique h]
    exact hst.trans hmid.last
  | closed =>
    obtain ⟨tail', rfl⟩ := Piece.head ⟨hne, r, hr, hprefix⟩
    obtain ⟨-, next, hstep, -⟩ := h
    cases hstep
  | escaped =>
    obtain ⟨tail', rfl⟩ := Piece.head ⟨hne, r, hr, hprefix⟩
    obtain ⟨-, next, hstep, -⟩ := h
    cases hstep
  | hex n =>
    obtain ⟨tail', rfl⟩ := Piece.head ⟨hne, r, hr, hprefix⟩
    obtain ⟨-, next, hstep, -⟩ := h
    cases hstep
  | quoted =>
    obtain ⟨tail', rfl⟩ := Piece.head ⟨hne, r, hr, hprefix⟩
    obtain ⟨-, next, hstep, hrest⟩ := h
    cases hstep
    rw [hkey] at hprefix
    have hprefix' := (List.cons_prefix_cons.mp hprefix).2
    cases tail' with
    | nil =>
      obtain ⟨-, rfl⟩ := hrest
      exact hst
    | cons quote tail' =>
      obtain ⟨rfl, hprefix''⟩ := List.cons_prefix_cons.mp hprefix'
      obtain ⟨-, next, hstep, hrest⟩ := hrest
      cases hstep
      cases tail' with
      | nil =>
        obtain ⟨-, rfl⟩ := hrest
        exact hst
      | cons e tail' =>
        obtain ⟨rfl, -⟩ := List.cons_prefix_cons.mp hprefix''
        obtain ⟨-, next, hstep, -⟩ := hrest
        have hnone : scanStep (d, .closed) e = none := by
          simp only [closesString, Bool.or_eq_false_iff, beq_eq_false_iff_ne] at hc
          obtain ⟨⟨⟨⟨hspace, hcomma⟩, hcolon⟩, hlist⟩, hdict⟩ := hc
          simp [scanStep, hspace, hcomma, hcolon, hlist, hdict]
        have hstep' := hnone.symm.trans hstep
        cases hstep'

theorem pieces_depth (hps : ∀ p ∈ ps, Piece p) (hst : 1 ≤ st.1) (h : Above 0 st ps.flatten st') : 1 ≤ st'.1 := by
  induction ps generalizing st with
  | nil =>
    obtain ⟨-, rfl⟩ := h
    exact hst
  | cons p ps ih =>
    rw [List.flatten_cons] at h
    obtain ⟨mid, hp, hrest⟩ := h.split
    have hmid := (hps p List.mem_cons_self).depth hst hp
    exact ih (fun q hq => hps q (List.mem_cons_of_mem _ hq)) hmid hrest

/-- A piece that is read back as JSON is the whole text of a dict, and nothing is glued to it. -/
theorem pieces_loads {v : JsonValue F} (hps : ∀ p ∈ ps, Piece p) (h : JsonValue.loads ps.flatten = some v) :
    ∃ r, DictText r ∧ ps = [r] := by
  cases ps with
  | nil => cases h
  | cons p ps =>
    have hp := hps p List.mem_cons_self
    obtain ⟨tail, htail⟩ := hp.head
    have htext : (p :: ps).flatten = '\x7b' :: (tail ++ ps.flatten) := by
      rw [List.flatten_cons, htail, List.cons_append]
    rw [htext] at h
    obtain ⟨⟨w, rest⟩, hread, h⟩ := Option.bind_eq_some_iff.mp h
    have hblank : Blank rest := by
      dsimp only at h
      split at h
      next hempty =>
        rw [List.isEmpty_iff] at hempty
        obtain ⟨w, hw, hrest⟩ := skipSpace_split rest
        rw [hrest, hempty, List.append_nil]
        exact hw
      next => cases h
    rw [skipSpace_cons rfl] at hread
    obtain ⟨body, hbody, hwhole⟩ := dict_whole (read_whole _).2.2 hread
    obtain ⟨st, hdone, hscan⟩ := hwhole 1
    have hclosed : Above 0 (1, .plain) (body ++ '\x7d' :: rest) (0, .plain) :=
      (hscan.mono (by omega)).append ⟨Nat.zero_le _, _, hdone.close (.inr rfl), Above.blank hblank⟩
    obtain ⟨hne, r, hr, hprefix⟩ := hp
    obtain ⟨inner, hinner, hwhole'⟩ := hr.body
    rw [hinner, htail] at hprefix
    rcases List.prefix_concat_iff.mp (List.cons_prefix_cons.mp hprefix).2 with hend | ⟨cut, hcut⟩
    · have hpr : p = r := by rw [htail, hinner, hend]
      refine ⟨r, hr, ?_⟩
      cases ps with
      | nil => rw [hpr]
      | cons q qs =>
        obtain ⟨tail', htail'⟩ := (hps q (by simp)).head
        have hmore : (q :: qs).flatten = '\x7b' :: (tail' ++ qs.flatten) := by
          rw [List.flatten_cons, htail', List.cons_append]
        rcases List.append_eq_append_iff.mp hbody with ⟨a, hbody', -⟩ | ⟨a, -, hrest⟩
        · rw [hbody'] at hscan
          obtain ⟨mid, hmid, -⟩ := hscan.split
          have hzero := hr.scan 0
          rw [← hpr, htail] at hzero
          obtain ⟨-, next, hstep, hzero⟩ := hzero
          cases hstep
          have hdepth := hmid.last
          rw [hmid.unique hzero] at hdepth
          exact absurd hdepth (by decide)
        · rw [hmore] at hrest
          cases a with
          | nil => cases hrest
          | cons c a =>
            have hspace := hblank '\x7b' (by rw [(List.cons.inj hrest).2]; simp)
            cases hspace
    · obtain ⟨st', -, hscan'⟩ := hwhole' 1
      rw [← hcut] at hscan'
      obtain ⟨mid, hmid, -⟩ := hscan'.split
      rw [← hbody] at hclosed
      obtain ⟨mid', hmid', hrest⟩ := hclosed.split
      rw [← hmid.unique hmid'] at hrest
      have hdepth := pieces_depth (fun q hq => hps q (List.mem_cons_of_mem _ hq)) hmid.last hrest
      exact absurd hdepth (by decide)

end Pieces

/-- The text of a dict that was written is one. -/
theorem dictText_write {style : JsonStyle} (hstyle : style.Valid) {v : JsonValue F} {c : Char} {s t : Str}
    (hordered : v.ordered = true) (hdump : v.dumpable = true) (hdict : v.write style 0 = '\x7b' :: s)
    (hkey : s = '"' :: c :: t) (hc : closesString c = false) : DictText (v.write style 0) := by
  have hread := read_write hstyle v 0 ((v.write style 0).length + 1) [] hordered hdump follows_nil (Nat.le_succ _)
  rw [List.append_nil, hdict] at hread
  obtain ⟨body, hbody, hwhole⟩ := dict_whole (read_whole _).2.2 hread
  refine ⟨⟨body, ?_, hwhole⟩, ⟨c, t, ?_, hc⟩⟩
  · rw [hdict, hbody]
  · rw [hdict, hkey]

end FailureOrchestrator
