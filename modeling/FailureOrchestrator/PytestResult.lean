import FailureOrchestrator.PytestLog

namespace FailureOrchestrator

open Regex

/-- A result line starts with a character of its own. -/
theorem ResultLine.body_cons (r : ResultLine) : ∃ c t, r.body = c :: t ∧ isSpace c = false ∧ (c == '=') = false := by
  unfold ResultLine.body
  split
  · exact ⟨'n', "o tests ran".toList, rfl, by decide, by decide⟩
  next hne =>
    obtain ⟨i, is, his⟩ := List.exists_cons_of_ne_nil hne
    obtain ⟨c, t, hct⟩ := List.exists_cons_of_ne_nil (natStr_ne_nil i.1)
    have hdigit : c.isDigit = true := natStr_isDigit (n := i.1) (by rw [hct]; exact List.mem_cons_self)
    have heq : (c == '=') = false := by
      refine beq_eq_false_iff_ne.mpr ?_
      rintro rfl
      cases hdigit
    rw [his]
    cases is with
    | nil => exact ⟨c, _, by rw [itemsText, itemText, hct]; rfl, isSpace_of_isDigit hdigit, heq⟩
    | cons j is => exact ⟨c, _, by rw [itemsText, itemText, hct]; rfl, isSpace_of_isDigit hdigit, heq⟩

variable [UnicodeData]

/-- One count of a result line with the comma after it. -/
def resultCountRe : Regex := cat [some1 digit, chr ' ', some1 (.cls (between 'a' 'z')), opt (lit ", ")]

theorem isDecimal_n : isDecimal 'n' = false := by
  simp [isDecimal, UnicodeData.decimal_ascii 'n' (by decide)]

theorem takes_number {n : Nat} {b rest : Str} {g : List (Nat × Str)} :
    (some1 digit).Takes ⟨b, natStr n ++ ' ' :: rest, g⟩ ⟨(natStr n).reverse ++ b, ' ' :: rest, g⟩ :=
  takes_some1 (natStr_ne_nil n) (fun _ hc => natStr_isDecimal hc) (by simpa using isDecimal_space)

theorem takes_word {w b rest : Str} {g : List (Nat × Str)} (hw : w ≠ [] ∧ ∀ c ∈ w, between 'a' 'z' c = true)
    (hrest : ∀ c ∈ rest.head?, between 'a' 'z' c = false) :
    (some1 (.cls (between 'a' 'z'))).Takes ⟨b, w ++ rest, g⟩ ⟨w.reverse ++ b, rest, g⟩ := takes_some1 hw.1 hw.2 hrest

theorem takes_count {i : Nat × Str} (hi : i.2 ≠ [] ∧ ∀ c ∈ i.2, between 'a' 'z' c = true) {b rest : Str}
    {g : List (Nat × Str)} {m' : Cursor} (hrest : ∀ c ∈ rest.head?, between 'a' 'z' c = false)
    (hcomma : (opt (lit ", ")).Takes ⟨(itemText i).reverse ++ b, rest, g⟩ m') :
    resultCountRe.Takes ⟨b, itemText i ++ rest, g⟩ m' := by
  have hshape : itemText i ++ rest = natStr i.1 ++ ' ' :: (i.2 ++ rest) := by simp [itemText]
  have hend : (itemText i).reverse ++ b = i.2.reverse ++ ' ' :: ((natStr i.1).reverse ++ b) := by simp [itemText]
  rw [hend] at hcomma
  rw [hshape]
  exact takes_number.cons ((takes_chr ' ').cons ((takes_word hi hrest).cons (hcomma.cons takes_nil)))

/-- The first count of a line is read with its comma. -/
theorem takes_first_count {i : Nat × Str} {is : List (Nat × Str)} (hi : i.2 ≠ [] ∧ ∀ c ∈ i.2, between 'a' 'z' c = true)
    {b rest : Str} (g : List (Nat × Str)) (hrest : rest.head? = some ' ') :
    ∃ pre, pre ≠ [] ∧ itemsText (i :: is) = pre ++ itemsText is ∧
      resultCountRe.Takes ⟨b, pre ++ (itemsText is ++ rest), g⟩ ⟨pre.reverse ++ b, itemsText is ++ rest, g⟩ := by
  have hne : itemText i ≠ [] := by simp [itemText]
  cases is with
  | nil =>
    refine ⟨itemText i, hne, by simp [itemsText], takes_count hi ?_ (Takes.right ?_ rfl)⟩
    · simp only [itemsText, List.nil_append, hrest]
      simp [between]
    · refine lit_fails (c := ',') rfl ?_
      simp [itemsText, hrest]
  | cons j is =>
    refine ⟨itemText i ++ ", ".toList, by simp, ?_, ?_⟩
    · rw [itemsText, List.append_assoc]
    · have hcomma : (opt (lit ", ")).Takes ⟨(itemText i).reverse ++ b, ", ".toList ++ (itemsText (j :: is) ++ rest), g⟩
          ⟨", ".toList.reverse ++ ((itemText i).reverse ++ b), itemsText (j :: is) ++ rest, g⟩ := (takes_lit ", ").left
      have hread := takes_count hi (by simp [between]) hcomma
      rw [List.reverse_append, List.append_assoc, List.append_assoc]
      exact hread

theorem takes_many_counts {is : List (Nat × Str)} (his : ∀ i ∈ is, i.2 ≠ [] ∧ ∀ c ∈ i.2, between 'a' 'z' c = true)
    {b rest : Str} (g : List (Nat × Str)) (hrest : rest.head? = some ' ') :
    (many resultCountRe).Takes ⟨b, itemsText is ++ rest, g⟩ ⟨(itemsText is).reverse ++ b, rest, g⟩ := by
  induction is generalizing b with
  | nil =>
    refine many_stop (seq_fails (seq_fails (cls_fails ?_)))
    simp only [itemsText, List.nil_append, hrest]
    simpa using isDecimal_space
  | cons i is ih =>
    obtain ⟨pre, hpre, htext, hread⟩ := @takes_first_count _ i is (his i List.mem_cons_self) b rest g hrest
    have hlonger : (itemsText is ++ rest).length < (pre ++ (itemsText is ++ rest)).length := by
      have hpos := List.length_pos_of_ne_nil hpre
      simp only [List.length_append]
      omega
    have hmore := hread.many hlonger (ih fun j hj => his j (List.mem_cons_of_mem _ hj))
    rw [htext, List.append_assoc, List.reverse_append, List.append_assoc]
    exact hmore

theorem takes_counts {i : Nat × Str} {is : List (Nat × Str)}
    (his : ∀ j ∈ i :: is, j.2 ≠ [] ∧ ∀ c ∈ j.2, between 'a' 'z' c = true) {b rest : Str} (g : List (Nat × Str))
    (hrest : rest.head? = some ' ') :
    (some1 resultCountRe).Takes ⟨b, itemsText (i :: is) ++ rest, g⟩ ⟨(itemsText (i :: is)).reverse ++ b, rest, g⟩ := by
  obtain ⟨pre, -, htext, hread⟩ := @takes_first_count _ i is (his i List.mem_cons_self) b rest g hrest
  have hmore := hread.seq (takes_many_counts (fun j hj => his j (List.mem_cons_of_mem _ hj)) g hrest)
  rw [htext, List.append_assoc, List.reverse_append, List.append_assoc]
  exact hmore

theorem takes_body (r : ResultLine) {b rest : Str} (hrest : rest.head? = some ' ') :
    (Regex.grp 1 (anyOf [some1 resultCountRe, lit "no tests ran"])).Takes ⟨b, r.body ++ rest, []⟩
      ⟨r.body.reverse ++ b, rest, [(1, r.body)]⟩ := by
  refine Takes.grp 1 ?_
  unfold ResultLine.body
  split
  · refine Takes.right ?_ (takes_lit "no tests ran")
    refine seq_fails (seq_fails (seq_fails (cls_fails ?_)))
    intro c hc
    cases hc
    exact isDecimal_n
  next hne =>
    obtain ⟨i, is, his⟩ := List.exists_cons_of_ne_nil hne
    rw [his]
    exact (takes_counts (his ▸ r.words) [] hrest).left

/-- The time, the duration and the right bar after the counts. -/
theorem takes_ending (r : ResultLine) {b : Str} {g : List (Nat × Str)} {ending : Str}
    (hending : ending = [] ∨ ∃ n, ending = ' ' :: bar n) :
    ∃ m, (cat [lit " in ", some1 (.cls fun c => isDecimal c || c == '.'), chr 's',
        opt (cat [lit " (", many (noneOf ")"), chr ')']), spaces, many (chr '='), .eos]).Takes
      ⟨b, " in ".toList ++ (r.seconds ++ 's' :: (durationText r.duration ++ ending)), g⟩ m := by
  have hseconds : ∀ c ∈ r.seconds, (isDecimal c || c == '.') = true := by
    intro c hc
    rcases r.seconds_chars c hc with h | rfl
    · rw [isDecimal_of_isDigit h]
      rfl
    · exact Bool.or_true _
  have hs : isDecimal 's' = false := by
    simp [isDecimal, UnicodeData.decimal_ascii 's' (by decide)]
  have htime : (some1 (.cls fun c => isDecimal c || c == '.')).Takes
      ⟨" in ".toList.reverse ++ b, r.seconds ++ 's' :: (durationText r.duration ++ ending), g⟩
      ⟨r.seconds.reverse ++ (" in ".toList.reverse ++ b), 's' :: (durationText r.duration ++ ending), g⟩ :=
    takes_some1 r.seconds_nonempty hseconds (by simp [hs])
  have hopt : ∀ b, ∃ b', (opt (cat [lit " (", many (noneOf ")"), chr ')'])).Takes
      ⟨b, durationText r.duration ++ ending, g⟩ ⟨b', ending, g⟩ := by
    intro b
    cases hd : r.duration with
    | none =>
      refine ⟨b, Takes.right (seq_fails ?_) rfl⟩
      rcases hending with rfl | ⟨n, rfl⟩
      · rw [matchesAt_lit]
        rfl
      · rw [matchesAt_lit]
        rfl
    | some d =>
      have hchars : ∀ c ∈ d, (!")".toList.contains c) = true := by
        intro c hc
        have hne := (r.duration_chars d hd c hc).2
        simpa using hne
      have hread : (many (noneOf ")")).Takes ⟨" (".toList.reverse ++ b, d ++ ')' :: ending, g⟩
          ⟨d.reverse ++ (" (".toList.reverse ++ b), ')' :: ending, g⟩ := takes_many hchars (by simp)
      have hshape : durationText (some d) ++ ending = " (".toList ++ (d ++ ')' :: ending) := by simp [durationText]
      rw [hshape]
      exact ⟨_, ((takes_lit " (").cons (hread.cons ((takes_chr ')').cons takes_nil))).left⟩
  obtain ⟨b', hduration⟩ := hopt ('s' :: (r.seconds.reverse ++ (" in ".toList.reverse ++ b)))
  obtain ⟨m, hm⟩ : ∃ m, (cat [spaces, many (chr '='), .eos]).Takes ⟨b', ending, g⟩ m := by
    rcases hending with rfl | ⟨n, rfl⟩
    · exact ⟨_, Takes.cons (many_stop rfl) (Takes.cons (many_stop rfl) (takes_eos.cons takes_nil))⟩
    · have hblank : spaces.Takes ⟨b', [' '] ++ bar n, g⟩ ⟨' ' :: b', bar n, g⟩ :=
        takes_many (by simp [isSpace]) (by simp [bar, List.replicate_succ, isSpace])
      have hbar : (many (chr '=')).Takes ⟨' ' :: b', bar n ++ [], g⟩ ⟨(bar n).reverse ++ ' ' :: b', [], g⟩ :=
        takes_many (by simp [bar]) (by simp)
      rw [List.append_nil] at hbar
      exact ⟨_, hblank.cons (hbar.cons (takes_eos.cons takes_nil))⟩
  exact ⟨m, (takes_lit " in ").cons (htime.cons ((takes_chr 's').cons (hduration.cons hm)))⟩

theorem matchStart_result (r : ResultLine) : ∃ m, matchStart resultLineRe r.text = some m ∧ m.group 1 = some r.body := by
  obtain ⟨c, t, hbody, hspace, hbar⟩ := r.body_cons
  have hcore : ∀ ending, r.core ++ ending =
      r.body ++ (" in ".toList ++ (r.seconds ++ 's' :: (durationText r.duration ++ ending))) := by
    intro ending
    simp [ResultLine.core]
  have hbodied : ∀ b ending, (ending = [] ∨ ∃ n, ending = ' ' :: bar n) →
      ∃ m, (cat [.grp 1 (anyOf [some1 resultCountRe, lit "no tests ran"]), lit " in ",
        some1 (.cls fun c => isDecimal c || c == '.'), chr 's', opt (cat [lit " (", many (noneOf ")"), chr ')']), spaces,
        many (chr '='), .eos]).Takes ⟨b, r.core ++ ending, []⟩ m ∧ m.group 1 = some r.body := by
    intro b ending hending
    obtain ⟨m, hm⟩ := takes_ending r (b := r.body.reverse ++ b) (g := [(1, r.body)]) hending
    refine ⟨m, ?_, ?_⟩
    · rw [hcore]
      exact (takes_body r rfl).cons hm
    · have hkeeps : (cat [lit " in ", some1 (.cls fun c => isDecimal c || c == '.'), chr 's',
          opt (cat [lit " (", many (noneOf ")"), chr ')']), spaces, many (chr '='), .eos]).Keeps 1 := by
        simp [cat, opt, some1, many, chr, noneOf, spaces, space, lit, text, Keeps]
      rw [hkeeps.group (List.mem_of_head? hm)]
      rfl
  cases hbars : r.bars with
  | none =>
    have htext : r.text = r.core ++ [] := by simp [ResultLine.text, hbars]
    obtain ⟨m, hm, hgroup⟩ := hbodied [] [] (Or.inl rfl)
    have hleft : (many (chr '=')).Takes ⟨[], [] ++ (r.core ++ []), []⟩ ⟨[], r.core ++ [], []⟩ :=
      takes_many (by simp) (by rw [hcore, hbody]; simpa using hbar)
    have hblanks : spaces.Takes ⟨[], [] ++ (r.core ++ []), []⟩ ⟨[], r.core ++ [], []⟩ :=
      takes_many (by simp) (by rw [hcore, hbody]; simpa using hspace)
    refine ⟨m, Takes.matchStart ?_, hgroup⟩
    rw [htext]
    exact takes_bos.cons (hleft.cons (hblanks.cons hm))
  | some n =>
    have htext : r.text = bar n.1 ++ (' ' :: (r.core ++ ' ' :: bar n.2)) := by simp [ResultLine.text, hbars]
    obtain ⟨m, hm, hgroup⟩ := hbodied (' ' :: ((bar n.1).reverse ++ [])) (' ' :: bar n.2) (Or.inr ⟨n.2, rfl⟩)
    have hleft : (many (chr '=')).Takes ⟨[], bar n.1 ++ (' ' :: (r.core ++ ' ' :: bar n.2)), []⟩
        ⟨(bar n.1).reverse ++ [], ' ' :: (r.core ++ ' ' :: bar n.2), []⟩ := takes_many (by simp [bar]) (by simp)
    have hblank : spaces.Takes ⟨(bar n.1).reverse ++ [], [' '] ++ (r.core ++ ' ' :: bar n.2), []⟩
        ⟨' ' :: ((bar n.1).reverse ++ []), r.core ++ ' ' :: bar n.2, []⟩ :=
      takes_many (by simp [isSpace]) (by rw [hcore, hbody]; simpa using hspace)
    refine ⟨m, Takes.matchStart ?_, hgroup⟩
    rw [htext]
    exact takes_bos.cons (hleft.cons (hblank.cons hm))

/-! The counts inside the body. -/

theorem takes_item {i : Nat × Str} (hi : i.2 ≠ [] ∧ ∀ c ∈ i.2, between 'a' 'z' c = true) {b rest : Str}
    (hrest : ∀ c ∈ rest.head?, between 'a' 'z' c = false) :
    resultItemRe.Takes ⟨b, itemText i ++ rest, []⟩ ⟨(itemText i).reverse ++ b, rest, [(2, i.2), (1, natStr i.1)]⟩ := by
  have hshape : itemText i ++ rest = natStr i.1 ++ ' ' :: (i.2 ++ rest) := by simp [itemText]
  have hend : (itemText i).reverse ++ b = i.2.reverse ++ ' ' :: ((natStr i.1).reverse ++ b) := by simp [itemText]
  rw [hshape, hend]
  exact (takes_number.grp 1).cons ((takes_chr ' ').cons (((takes_word hi hrest).grp 2).cons takes_nil))

theorem searchFrom_item {i : Nat × Str} (hi : i.2 ≠ [] ∧ ∀ c ∈ i.2, between 'a' 'z' c = true) {b rest : Str}
    (hrest : ∀ c ∈ rest.head?, between 'a' 'z' c = false) :
    searchFrom resultItemRe b (itemText i ++ rest) = some (⟨b, itemText i ++ rest, []⟩,
      ⟨(itemText i).reverse ++ b, rest, [(2, i.2), (1, natStr i.1)]⟩) := by
  have hread : (resultItemRe.matchesAt ⟨b, itemText i ++ rest, []⟩).head? = _ := takes_item hi hrest
  obtain ⟨c, t, hct⟩ := List.exists_cons_of_ne_nil (show itemText i ++ rest ≠ [] by simp [itemText])
  rw [hct] at hread ⊢
  unfold searchFrom
  rw [hread]

/-- The comma between two counts is passed over. -/
theorem findFrom_comma {fuel : Nat} {b t : Str} : findFrom resultItemRe fuel ⟨b, ", ".toList ++ t, []⟩ =
    findFrom resultItemRe fuel ⟨' ' :: ',' :: b, t, []⟩ := by
  have hnone : ∀ {c : Char} {b t : Str}, isDecimal c = false → resultItemRe.matchesAt ⟨b, c :: t, []⟩ = [] := by
    intro c b t hc
    refine seq_fails ?_
    change (((some1 digit).matchesAt ⟨b, c :: t, []⟩).map _) = []
    rw [show (some1 digit).matchesAt ⟨b, c :: t, []⟩ = [] from seq_fails (cls_fails (by simpa using hc))]
    rfl
  have hskip : searchFrom resultItemRe b (", ".toList ++ t) = searchFrom resultItemRe (' ' :: ',' :: b) t := by
    change searchFrom resultItemRe b (',' :: ' ' :: t) = _
    rw [searchFrom_skip (hnone isDecimal_comma), searchFrom_skip (hnone isDecimal_space)]
  cases fuel with
  | zero => rfl
  | succ fuel =>
    unfold findFrom
    rw [hskip]

theorem findFrom_items {is : List (Nat × Str)} (his : ∀ i ∈ is, i.2 ≠ [] ∧ ∀ c ∈ i.2, between 'a' 'z' c = true)
    {b : Str} {fuel : Nat} (hfuel : is.length ≤ fuel) :
    (findFrom resultItemRe fuel ⟨b, itemsText is, []⟩).map (fun m => (m.2.group 1, m.2.group 2)) =
      is.map fun i => (some (natStr i.1), some i.2) := by
  induction is generalizing b fuel with
  | nil =>
    cases fuel with
    | zero => rfl
    | succ fuel => rfl
  | cons i is ih =>
    obtain ⟨fuel, rfl⟩ : ∃ n, fuel = n + 1 := ⟨fuel - 1, by simp at hfuel; omega⟩
    have hi := his i List.mem_cons_self
    have hlater : ∀ b, (findFrom resultItemRe fuel ⟨b, itemsText is, []⟩).map (fun m => (m.2.group 1, m.2.group 2)) =
        is.map fun i => (some (natStr i.1), some i.2) :=
      fun b => ih (fun j hj => his j (List.mem_cons_of_mem _ hj)) (by simpa using hfuel)
    unfold findFrom
    cases is with
    | nil =>
      have hfound := @searchFrom_item _ i hi b [] (by simp)
      rw [List.append_nil] at hfound
      simp only [itemsText, hfound, List.map_cons, List.map_nil]
      exact congrArg _ (hlater _)
    | cons j is =>
      have hfound := @searchFrom_item _ i hi b (", ".toList ++ itemsText (j :: is)) (by simp [between])
      simp only [itemsText, hfound, findFrom_comma, List.map_cons]
      exact congrArg _ (hlater _)

end FailureOrchestrator
