import FailureOrchestrator.JsonValues

namespace FailureOrchestrator

variable {F : Type} [PyFloat F] {style : JsonStyle}

theorem writeItems_ne_nil (q : StringWriter) (style : JsonStyle) (level : Nat) {items : List (JsonValue F)} (h : items ≠ []) :
    q.writeItems style level items ≠ [] := by
  cases items with
  | nil => exact absurd rfl h
  | cons x xs => exact List.cons_ne_nil _ _

theorem writeEntries_ne_nil (q : StringWriter) (style : JsonStyle) (level : Nat) {entries : List (Str × JsonValue F)}
    (h : entries ≠ []) :
    q.writeEntries style level entries ≠ [] := by
  cases entries with
  | nil => exact absurd rfl h
  | cons x xs => exact List.cons_ne_nil _ _

/-- A bracket that holds something, with what follows it. -/
theorem bracket_append (style : JsonStyle) (level : Nat) (left right : Char) {texts : List Str} (h : texts ≠ []) (rest : Str) :
    style.bracket level left right texts ++ rest =
      left :: (style.newline (level + 1) ++ (joinWith (style.item ++ style.newline (level + 1)) texts ++
        (style.newline level ++ right :: rest))) := by
  have hne : texts.isEmpty = false := List.isEmpty_eq_false_iff.mpr h
  rw [JsonStyle.bracket, hne]
  simp only [Bool.false_eq_true, ↓reduceIte, List.cons_append, List.append_assoc, List.nil_append]

theorem bracket_length (style : JsonStyle) (level : Nat) (left right : Char) {texts : List Str} (h : texts ≠ []) :
    (joinWith (style.item ++ style.newline (level + 1)) texts).length + 2 ≤
      (style.bracket level left right texts).length := by
  have htext := bracket_append style level left right h []
  rw [List.append_nil] at htext
  rw [htext]
  simp only [List.length_cons, List.length_append]
  omega

/-- The first of the written items starts with a character that the reader stops at. -/
theorem joinWith_items_cons (q : StringWriter) (style : JsonStyle) (x : JsonValue F) (xs : List (JsonValue F)) (level : Nat)
    (rest : Str) :
    ∃ c t, joinWith (style.item ++ style.newline level) (q.writeItems style level (x :: xs)) ++ rest = c :: t ∧
      isJsonSpace c = false ∧ c ≠ ']' := by
  obtain ⟨c, s, hs, hspace, hclose, -⟩ := write_cons q style x level
  cases xs with
  | nil => exact ⟨c, s ++ rest, congrArg (· ++ rest) hs, hspace, hclose⟩
  | cons y ys =>
    rw [StringWriter.writeItems, joinWith_cons (writeItems_ne_nil q style level (List.cons_ne_nil y ys)), hs]
    exact ⟨c, _, rfl, hspace, hclose⟩

theorem joinWith_entries_cons (q : StringWriter) (style : JsonStyle) (k : Str) (x : JsonValue F)
    (xs : List (Str × JsonValue F)) (level : Nat) (rest : Str) :
    ∃ t, joinWith (style.item ++ style.newline level) (q.writeEntries style level ((k, x) :: xs)) ++ rest =
      '"' :: t := by
  cases xs with
  | nil => exact ⟨_, rfl⟩
  | cons y ys =>
    rw [StringWriter.writeEntries, joinWith_cons (writeEntries_ne_nil q style level (List.cons_ne_nil y ys))]
    exact ⟨_, rfl⟩

section Steps

variable {n : Nat} {s r t rest : Str} {x : JsonValue F}

theorem readItems_last (hx : JsonValue.read n s = some (x, r)) (hr : skipSpace r = ']' :: rest) :
    JsonValue.readItems (n + 1) s = some ([x], rest) := by
  rw [JsonValue.readItems, hx]
  simp only [Option.bind_eq_bind, Option.bind_some, hr, ↓reduceIte, Option.pure_def]

theorem readItems_more {xs : List (JsonValue F)} (hx : JsonValue.read n s = some (x, r))
    (hr : skipSpace r = ',' :: t) (hxs : JsonValue.readItems n (skipSpace t) = some (xs, rest)) :
    JsonValue.readItems (n + 1) s = some (x :: xs, rest) := by
  rw [JsonValue.readItems, hx]
  have hcomma : ¬ ',' = ']' := by decide
  simp only [Option.bind_eq_bind, Option.bind_some, hr, hcomma, hxs, ↓reduceIte, Option.pure_def]

theorem readEntries_last {k u : Str} (hk : readString u.length u = some (k, s)) (hs : skipSpace s = ':' :: t)
    (hx : JsonValue.read n (skipSpace t) = some (x, r)) (hr : skipSpace r = '\x7d' :: rest) :
    JsonValue.readEntries (n + 1) ('"' :: u) = some ([(k, x)], rest) := by
  rw [JsonValue.readEntries]
  simp only [Option.bind_eq_bind, Option.bind_some, hk, hs, hx, hr, ↓reduceIte, Option.pure_def]

theorem readEntries_more {k u r' : Str} {xs : List (Str × JsonValue F)} (hk : readString u.length u = some (k, s))
    (hs : skipSpace s = ':' :: t) (hx : JsonValue.read n (skipSpace t) = some (x, r)) (hr : skipSpace r = ',' :: r')
    (hxs : JsonValue.readEntries n (skipSpace r') = some (xs, rest)) :
    JsonValue.readEntries (n + 1) ('"' :: u) = some ((k, x) :: xs, rest) := by
  rw [JsonValue.readEntries]
  have hcomma : ¬ ',' = '\x7d' := by decide
  simp only [Option.bind_eq_bind, Option.bind_some, hk, hs, hx, hr, hcomma, hxs, ↓reduceIte, Option.pure_def]

theorem read_list {items : List (JsonValue F)} {c : Char} (hc : skipSpace s = c :: t) (hclose : c ≠ ']')
    (hitems : JsonValue.readItems n (c :: t) = some (items, rest)) :
    JsonValue.read (n + 1) ('[' :: s) = some (.arr items, rest) := by
  have hquote : ¬ '[' = '"' := by decide
  rw [JsonValue.read]
  simp only [hquote, hc, hitems, List.head?_cons, Option.some.injEq, hclose, ↓reduceIte, Option.bind_eq_bind,
    Option.bind_some, Option.pure_def]

theorem read_dict {entries : List (Str × JsonValue F)} {c : Char} (hc : skipSpace s = c :: t) (hclose : c ≠ '\x7d')
    (hentries : JsonValue.readEntries n (c :: t) = some (entries, rest)) :
    JsonValue.read (n + 1) ('\x7b' :: s) = some (.obj (dictOf entries), rest) := by
  have hquote : ¬ '\x7b' = '"' := by decide
  have hlist : ¬ '\x7b' = '[' := by decide
  rw [JsonValue.read]
  simp only [hquote, hlist, hc, hentries, List.head?_cons, Option.some.injEq, hclose, ↓reduceIte, Option.bind_eq_bind,
    Option.bind_some, Option.pure_def]

end Steps

mutual

/-- A written value is read back, whatever follows it. -/
theorem read_written (q : StringWriter) (hstyle : style.Valid) : ∀ (v : JsonValue F) (level n : Nat) (rest : Str), v.ordered = true →
    v.dumpable = true → Follows rest → (q.write style level v).length ≤ n →
    JsonValue.read n (q.write style level v ++ rest) = some (v, rest) := by
  intro v level n rest hordered hdump hrest hn
  obtain ⟨m, rfl⟩ : ∃ m, n = m + 1 := by
    obtain ⟨c, s, hs, -⟩ := write_cons q style v level
    rw [hs, List.length_cons] at hn
    exact ⟨n - 1, by omega⟩
  match v with
  | .null => rfl
  | .bool true => rfl
  | .bool false => rfl
  | .int k =>
    rw [StringWriter.write]
    simp only [JsonValue.dumpable, decide_eq_true_eq] at hdump
    exact read_int k hdump hrest
  | .float x =>
    rw [StringWriter.write]
    exact read_float x hrest
  | .str s =>
    rw [StringWriter.write]
    show (readString (q.body s ++ rest).length (q.body s ++ rest)).bind _ = _
    rw [q.reads]
    rfl
  | .arr [] => rfl
  | .arr (x :: xs) =>
    rw [StringWriter.write] at hn ⊢
    have htexts := writeItems_ne_nil q style (level + 1) (List.cons_ne_nil x xs)
    have hlength := bracket_length style level '[' ']' htexts
    have hread := readItems_written q hstyle (x :: xs) (level + 1) level m rest (List.cons_ne_nil x xs) hordered hdump
      (by omega)
    obtain ⟨c, t, ht, hspace, hclose⟩ := joinWith_items_cons q style x xs (level + 1)
      (style.newline level ++ ']' :: rest)
    rw [bracket_append style level _ _ htexts, ht]
    rw [ht] at hread
    exact read_list ((skipSpace_blank (blank_newline style _) _).trans (skipSpace_cons hspace)) hclose hread
  | .obj [] => rfl
  | .obj ((k, x) :: xs) =>
    rw [JsonValue.ordered, Bool.and_eq_true, decide_eq_true_eq] at hordered
    rw [StringWriter.write] at hn ⊢
    have htexts := writeEntries_ne_nil q style (level + 1) (List.cons_ne_nil (k, x) xs)
    have hlength := bracket_length style level '\x7b' '\x7d' htexts
    have hread := readEntries_written q hstyle ((k, x) :: xs) (level + 1) level m rest (List.cons_ne_nil _ xs)
      hordered.2 hdump (by omega)
    obtain ⟨t, ht⟩ := joinWith_entries_cons q style k x xs (level + 1)
      (style.newline level ++ '\x7d' :: rest)
    rw [bracket_append style level _ _ htexts, ht]
    rw [ht] at hread
    have hdict := dictOf_ordered hordered.1
    rw [← hdict]
    exact read_dict ((skipSpace_blank (blank_newline style _) _).trans (skipSpace_cons rfl)) (by decide) hread

theorem readItems_written (q : StringWriter) (hstyle : style.Valid) : ∀ (items : List (JsonValue F)) (level outer n : Nat) (rest : Str),
    items ≠ [] → JsonValue.orderedItems items = true → JsonValue.dumpableItems items = true →
    (joinWith (style.item ++ style.newline level) (q.writeItems style level items)).length + 1 ≤ n →
    JsonValue.readItems n (joinWith (style.item ++ style.newline level) (q.writeItems style level items) ++
      (style.newline outer ++ ']' :: rest)) = some (items, rest) := by
  intro items level outer n rest hne hordered hdump hn
  obtain ⟨m, rfl⟩ : ∃ m, n = m + 1 := ⟨n - 1, by omega⟩
  match items with
  | [] => exact absurd rfl hne
  | [x] =>
    rw [JsonValue.orderedItems, Bool.and_eq_true] at hordered
    obtain ⟨hx, -⟩ := hordered
    have hlength : (q.write style level x).length ≤ m := by
      have hn' : (q.write style level x).length + 1 ≤ m + 1 := hn
      omega
    rw [JsonValue.dumpableItems, Bool.and_eq_true] at hdump
    have hread := read_written q hstyle x level m (style.newline outer ++ ']' :: rest) hx hdump.1
      (follows_close style outer (.inl rfl) rest) hlength
    exact readItems_last hread ((skipSpace_blank (blank_newline style _) _).trans (skipSpace_cons rfl))
  | x :: y :: ys =>
    rw [JsonValue.orderedItems, Bool.and_eq_true] at hordered
    obtain ⟨hx, hxs⟩ := hordered
    rw [JsonValue.dumpableItems, Bool.and_eq_true] at hdump
    obtain ⟨w, hw, hblank⟩ := hstyle.item
    have htexts := writeItems_ne_nil q style level (List.cons_ne_nil y ys)
    rw [StringWriter.writeItems, joinWith_cons htexts] at hn ⊢
    have hlength : (q.write style level x).length ≤ m ∧ (joinWith (style.item ++ style.newline level)
        (q.writeItems style level (y :: ys))).length + 1 ≤ m := by
      simp only [List.length_append, hw, List.length_cons] at hn ⊢
      omega
    have hrest := readItems_written q hstyle (y :: ys) level outer m rest (List.cons_ne_nil y ys) hxs hdump.2 hlength.2
    obtain ⟨c, t, ht, hspace, -⟩ := joinWith_items_cons q style y ys level (style.newline outer ++ ']' :: rest)
    have hread := read_written q hstyle x level m (',' :: (w ++ (style.newline level ++ (c :: t)))) hx hdump.1
      (follows_cons (.inr (.inl rfl))) hlength.1
    have htext : q.write style level x ++ (style.item ++ style.newline level) ++ joinWith (style.item ++ style.newline level)
        (q.writeItems style level (y :: ys)) ++ (style.newline outer ++ ']' :: rest) =
        q.write style level x ++ ',' :: (w ++ (style.newline level ++ (c :: t))) := by
      simp only [hw, List.append_assoc, List.cons_append, ← ht]
    rw [htext]
    rw [ht] at hrest
    refine readItems_more hread (skipSpace_cons rfl) ?_
    rw [skipSpace_blank hblank, skipSpace_blank (blank_newline style level), skipSpace_cons hspace]
    exact hrest

theorem readEntries_written (q : StringWriter) (hstyle : style.Valid) : ∀ (entries : List (Str × JsonValue F)) (level outer n : Nat)
    (rest : Str), entries ≠ [] → JsonValue.orderedEntries entries = true → JsonValue.dumpableEntries entries = true →
    (joinWith (style.item ++ style.newline level) (q.writeEntries style level entries)).length + 1 ≤ n →
    JsonValue.readEntries n (joinWith (style.item ++ style.newline level) (q.writeEntries style level entries) ++
      (style.newline outer ++ '\x7d' :: rest)) = some (entries, rest) := by
  intro entries level outer n rest hne hordered hdump hn
  obtain ⟨m, rfl⟩ : ∃ m, n = m + 1 := ⟨n - 1, by omega⟩
  match entries with
  | [] => exact absurd rfl hne
  | [(k, x)] =>
    rw [JsonValue.orderedEntries, Bool.and_eq_true] at hordered
    obtain ⟨hx, -⟩ := hordered
    obtain ⟨w, hw, hblank⟩ := hstyle.key
    rw [JsonValue.dumpableEntries, Bool.and_eq_true] at hdump
    have htext : joinWith (style.item ++ style.newline level) (q.writeEntries style level [(k, x)]) ++
        (style.newline outer ++ '\x7d' :: rest) = '"' :: (q.body k ++ ':' :: (w ++ (q.write style level x ++
          (style.newline outer ++ '\x7d' :: rest)))) := by
      show q.quote k ++ style.key ++ q.write style level x ++ _ = _
      rw [hw]
      simp only [StringWriter.quote, List.cons_append, List.append_assoc]
    have hlength : (q.write style level x).length ≤ m := by
      have hn' : (q.quote k ++ style.key ++ q.write style level x).length + 1 ≤ m + 1 := hn
      simp only [List.length_append] at hn'
      omega
    have hread := read_written q hstyle x level m (style.newline outer ++ '\x7d' :: rest) hx hdump.1
      (follows_close style outer (.inr rfl) rest) hlength
    rw [htext]
    refine readEntries_last (r := style.newline outer ++ '\x7d' :: rest) (q.reads k _)
      (skipSpace_cons rfl) ?_ ?_
    · rw [skipSpace_write q x level hblank]
      exact hread
    · exact (skipSpace_blank (blank_newline style _) _).trans (skipSpace_cons rfl)
  | (k, x) :: (l, y) :: ys =>
    rw [JsonValue.orderedEntries, Bool.and_eq_true] at hordered
    obtain ⟨hx, hxs⟩ := hordered
    rw [JsonValue.dumpableEntries, Bool.and_eq_true] at hdump
    obtain ⟨w, hw, hblank⟩ := hstyle.item
    obtain ⟨u, hu, hkey⟩ := hstyle.key
    have htexts := writeEntries_ne_nil q style level (List.cons_ne_nil (l, y) ys)
    rw [StringWriter.writeEntries, joinWith_cons htexts] at hn ⊢
    have hlength : (q.write style level x).length ≤ m ∧ (joinWith (style.item ++ style.newline level)
        (q.writeEntries style level ((l, y) :: ys))).length + 1 ≤ m := by
      simp only [List.length_append, hw, List.length_cons] at hn ⊢
      omega
    have hrest := readEntries_written q hstyle ((l, y) :: ys) level outer m rest (List.cons_ne_nil (l, y) ys) hxs hdump.2
      hlength.2
    obtain ⟨t, ht⟩ := joinWith_entries_cons q style l y ys level (style.newline outer ++ '\x7d' :: rest)
    have hread := read_written q hstyle x level m (',' :: (w ++ (style.newline level ++ ('"' :: t)))) hx hdump.1
      (follows_cons (.inr (.inl rfl))) hlength.1
    have htext : q.quote k ++ style.key ++ q.write style level x ++ (style.item ++ style.newline level) ++
        joinWith (style.item ++ style.newline level) (q.writeEntries style level ((l, y) :: ys)) ++
        (style.newline outer ++ '\x7d' :: rest) = '"' :: (q.body k ++ ':' :: (u ++ (q.write style level x ++
          ',' :: (w ++ (style.newline level ++ ('"' :: t)))))) := by
      rw [← ht]
      simp only [hw, hu, StringWriter.quote, List.cons_append, List.append_assoc]
    rw [htext]
    rw [ht] at hrest
    refine readEntries_more (r := ',' :: (w ++ (style.newline level ++ ('"' :: t)))) (q.reads k _)
      (skipSpace_cons rfl) ?_ (skipSpace_cons rfl) ?_
    · rw [skipSpace_write q x level hkey]
      exact hread
    · rw [skipSpace_blank hblank, skipSpace_blank (blank_newline style level), skipSpace_cons rfl]
      exact hrest

end

theorem loads_written_blank (q : StringWriter) (hstyle : style.Valid) {v : JsonValue F} {w : Str}
    (hordered : v.ordered = true) (hdump : v.dumpable = true) (hblank : Blank w) : JsonValue.loads (q.write style 0 v ++ w) = some v := by
  obtain ⟨c, s, hs, hspace, -⟩ := write_cons q style v 0
  have hfollows : Follows w := by
    rw [← List.append_nil w]
    exact follows_append hblank follows_nil
  have hlength : (q.write style 0 v).length ≤ (q.write style 0 v ++ w).length := by
    rw [List.length_append]
    omega
  have hread := read_written q hstyle v 0 (q.write style 0 v ++ w).length w hordered hdump hfollows hlength
  have hskip : skipSpace (q.write style 0 v ++ w) = q.write style 0 v ++ w := by
    rw [hs]
    exact skipSpace_cons hspace
  have hend : skipSpace w = [] := by
    rw [← List.append_nil w]
    exact skipSpace_blank hblank []
  unfold JsonValue.loads
  rw [hskip, hread]
  show (if (skipSpace w).isEmpty then some v else none) = some v
  rw [hend]
  rfl

theorem loads_written (q : StringWriter) (hstyle : style.Valid) {v : JsonValue F} (hordered : v.ordered = true)
    (hdump : v.dumpable = true) : JsonValue.loads (q.write style 0 v) = some v := by
  have hload := loads_written_blank q hstyle hordered hdump (fun c hc => nomatch hc : Blank [])
  rw [List.append_nil] at hload
  exact hload

/-- A value written in ASCII is read back, whatever follows it. -/
theorem read_write (hstyle : style.Valid) (v : JsonValue F) (level n : Nat) (rest : Str) (hordered : v.ordered = true)
    (hdump : v.dumpable = true) (hrest : Follows rest) (hn : (v.write style level).length ≤ n) :
    JsonValue.read n (v.write style level ++ rest) = some (v, rest) := by
  rw [← StringWriter.write_ascii] at hn ⊢
  exact read_written asciiWriter hstyle v level n rest hordered hdump hrest hn

theorem loads_write_blank (hstyle : style.Valid) {v : JsonValue F} {w : Str} (hordered : v.ordered = true)
    (hdump : v.dumpable = true) (hblank : Blank w) : JsonValue.loads (v.write style 0 ++ w) = some v := by
  rw [← StringWriter.write_ascii]
  exact loads_written_blank asciiWriter hstyle hordered hdump hblank

/-- `json.loads` inverts `json.dumps`. -/
theorem loads_write (hstyle : style.Valid) {v : JsonValue F} (hordered : v.ordered = true) (hdump : v.dumpable = true) :
    JsonValue.loads (v.write style 0) = some v := by
  rw [← StringWriter.write_ascii]
  exact loads_written asciiWriter hstyle hordered hdump

theorem loads_dumps (hstyle : style.Valid) {v : JsonValue F} {text : Str} (hordered : v.ordered = true)
    (h : v.dumps style = some text) : JsonValue.loads text = some v := by
  unfold JsonValue.dumps at h
  split at h
  next hdump =>
    cases h
    exact loads_write hstyle hordered hdump
  next => cases h

/-- `canonical_json(value)`. -/
def canonicalJson (value : JsonValue F) : Option Str := (value.dumps indentedStyle).map (· ++ ['\n'])

theorem loads_canonicalJson {value : JsonValue F} {text : Str} (hordered : value.ordered = true)
    (h : canonicalJson value = some text) : JsonValue.loads text = some value := by
  obtain ⟨dumped, hdumped, rfl⟩ := Option.map_eq_some_iff.mp h
  unfold JsonValue.dumps at hdumped
  split at hdumped
  next hdump =>
    cases hdumped
    have hblank : Blank ['\n'] := by decide
    exact loads_write_blank indentedStyle_valid hordered hdump hblank
  next => cases hdumped

end FailureOrchestrator
