import FailureOrchestrator.PytestStamps

namespace FailureOrchestrator

open Regex

/-! Counting the items of a result line. -/

section

variable (s : TestRunSummary) (w : Str) (n : Nat)

theorem count_passed : (s.count w n).passed = s.passed + if inSet w ["passed"] then n else 0 := by
  unfold TestRunSummary.count
  split_ifs <;> simp_all [inSet]

theorem count_failed : (s.count w n).failed = s.failed + if inSet w ["failed"] then n else 0 := by
  unfold TestRunSummary.count
  split_ifs <;> simp_all [inSet]

theorem count_errors : (s.count w n).errors = s.errors + if inSet w ["error", "errors"] then n else 0 := by
  unfold TestRunSummary.count
  split_ifs <;> simp_all [inSet]

theorem count_skipped : (s.count w n).skipped = s.skipped + if inSet w ["skipped"] then n else 0 := by
  unfold TestRunSummary.count
  split_ifs <;> simp_all [inSet]
  grind

theorem count_xfailed : (s.count w n).xfailed = s.xfailed + if inSet w ["xfailed"] then n else 0 := by
  unfold TestRunSummary.count
  split_ifs <;> simp_all [inSet]
  grind

theorem count_xpassed : (s.count w n).xpassed = s.xpassed + if inSet w ["xpassed"] then n else 0 := by
  unfold TestRunSummary.count
  split_ifs <;> simp_all [inSet]
  grind

theorem count_deselected : (s.count w n).deselected = s.deselected + if inSet w ["deselected"] then n else 0 := by
  unfold TestRunSummary.count
  split_ifs <;> simp_all [inSet]
  grind

theorem count_kept : (s.count w n).parsed = s.parsed ∧ (s.count w n).failures = s.failures := by
  unfold TestRunSummary.count
  split_ifs <;> exact ⟨rfl, rfl⟩

end

def countAll (s : TestRunSummary) (items : List (Nat × Str)) : TestRunSummary := items.foldl (fun s i => s.count i.2 i.1) s

theorem countAll_kept (s : TestRunSummary) (items : List (Nat × Str)) :
    (countAll s items).parsed = s.parsed ∧ (countAll s items).failures = s.failures := by
  unfold countAll
  induction items generalizing s with
  | nil => exact ⟨rfl, rfl⟩
  | cons i items ih =>
    have hstep := count_kept s i.2 i.1
    have hrest := ih (s.count i.2 i.1)
    exact ⟨hrest.1.trans hstep.1, hrest.2.trans hstep.2⟩

/-- A count that takes the numbers of some words shows their sum. -/
theorem countAll_sum {count : TestRunSummary → Nat} {words : List String}
    (hcount : ∀ s w n, count (s.count w n) = count s + if inSet w words then n else 0) (s : TestRunSummary)
    (items : List (Nat × Str)) :
    count (countAll s items) = count s + ((items.filter fun i => inSet i.2 words).map (·.1)).sum := by
  unfold countAll
  induction items generalizing s with
  | nil => rfl
  | cons i items ih =>
    rw [List.foldl_cons, ih, hcount]
    by_cases hi : inSet i.2 words = true
    · simp only [if_pos hi, List.filter_cons, List.map_cons, List.sum_cons]
      omega
    · simp only [if_neg hi, List.filter_cons]
      omega

theorem countAll_shows {s : TestRunSummary} (hparsed : s.parsed = true) (r : ResultLine)
    (hzero : s.passed = 0 ∧ s.failed = 0 ∧ s.errors = 0 ∧ s.skipped = 0 ∧ s.xfailed = 0 ∧ s.xpassed = 0 ∧
      s.deselected = 0) : (countAll s r.items).Shows r := by
  obtain ⟨hp, hf, he, hs, hxf, hxp, hd⟩ := hzero
  constructor
  · exact (countAll_kept s r.items).1.trans hparsed
  · rw [countAll_sum count_passed, hp, Nat.zero_add]
    rfl
  · rw [countAll_sum count_failed, hf, Nat.zero_add]
    rfl
  · rw [countAll_sum count_errors, he, Nat.zero_add]
    rfl
  · rw [countAll_sum count_skipped, hs, Nat.zero_add]
    rfl
  · rw [countAll_sum count_xfailed, hxf, Nat.zero_add]
    rfl
  · rw [countAll_sum count_xpassed, hxp, Nat.zero_add]
    rfl
  · rw [countAll_sum count_deselected, hd, Nat.zero_add]
    rfl

variable [UnicodeData]

def countItem (s : TestRunSummary) (i : Nat × Str) : Except PyError TestRunSummary := do
  let n ← pyInt (natStr i.1)
  return s.count i.2 n

theorem finditer_noTests : finditer resultItemRe "no tests ran".toList = [] := by
  have hneeds : resultItemRe.Needs isDecimal := by
    simp [resultItemRe, cat, some1, digit, Needs]
  have hascii : ∀ c ∈ "no tests ran".toList, c.toNat < 128 ∧ c.isDigit = false := by decide
  refine finditer_eq_nil hneeds fun c hc => ?_
  simp [isDecimal, UnicodeData.decimal_ascii c (hascii c hc).1, (hascii c hc).2]

omit [UnicodeData] in
theorem itemsText_length (is : List (Nat × Str)) : is.length ≤ (itemsText is).length := by
  induction is with
  | nil => exact Nat.zero_le _
  | cons i is ih =>
    cases is with
    | nil =>
      simp only [itemsText, itemText, List.length_append, List.length_cons, List.length_nil]
      omega
    | cons j is =>
      simp only [itemsText, itemText, List.length_append, List.length_cons] at ih ⊢
      omega

theorem countItems_body (r : ResultLine) (s : TestRunSummary) : countItems s r.body = r.items.foldlM countItem s := by
  have hgroups : (finditer resultItemRe r.body).map (fun m => (m.group 1, m.group 2)) =
      r.items.map fun i => (some (natStr i.1), some i.2) := by
    unfold ResultLine.body
    split
    next hnil =>
      rw [hnil, finditer_noTests]
      rfl
    next =>
      unfold finditer
      rw [List.map_map]
      exact findFrom_items r.words (itemsText_length r.items)
  let count (s : TestRunSummary) (p : Option Str × Option Str) : Except PyError TestRunSummary := do
    let n ← pyInt (p.1.getD [])
    return s.count (p.2.getD []) n
  calc countItems s r.body
    _ = ((finditer resultItemRe r.body).map fun m => (m.group 1, m.group 2)).foldlM count s := by
      rw [List.foldlM_map]
      rfl
    _ = (r.items.map fun i => (some (natStr i.1), some i.2)).foldlM count s := by rw [hgroups]
    _ = r.items.foldlM countItem s := by
      rw [List.foldlM_map]
      rfl

theorem foldlM_countItem {items : List (Nat × Str)} (h : ∀ i ∈ items, Convertible i.1) (s : TestRunSummary) :
    items.foldlM countItem s = .ok (countAll s items) := by
  induction items generalizing s with
  | nil => rfl
  | cons i items ih =>
    have hi : countItem s i = .ok (s.count i.2 i.1) := by
      unfold countItem
      rw [pyInt_natStr (h i List.mem_cons_self)]
      rfl
    rw [List.foldlM_cons, hi]
    exact ih (fun j hj => h j (List.mem_cons_of_mem _ hj)) _

theorem foldlM_countItem_error {items : List (Nat × Str)} (h : ∃ i ∈ items, ¬ Convertible i.1) (s : TestRunSummary) :
    ∃ e, items.foldlM countItem s = .error e := by
  obtain ⟨i, hi, hbig⟩ := h
  induction items generalizing s with
  | nil => cases hi
  | cons j items ih =>
    rw [List.foldlM_cons]
    cases hj : countItem s j with
    | error e => exact ⟨e, rfl⟩
    | ok s' =>
      rcases List.mem_cons.mp hi with rfl | hi
      · obtain ⟨e, he⟩ := pyInt_natStr_error hbig
        unfold countItem at hj
        rw [he] at hj
        cases hj
      · exact ih s' hi

/-! One line of the output. -/

theorem matchStart_summary_none {c : Char} {t : Str} (hf : c ≠ 'F') (he : c ≠ 'E') :
    matchStart summaryLineRe (c :: t) = none := by
  have hword : (lits ["FAILED", "ERROR"]).matchesAt (start (c :: t)) = [] := by
    refine alt_fails (lit_fails (c := 'F') rfl ?_) (lit_fails (c := 'E') rfl ?_)
    · simpa [start] using hf
    · simpa [start] using he
  have hnone : summaryLineRe.matchesAt (start (c :: t)) = [] := (matchesAt_bos _).trans (seq_fails hword)
  exact List.head?_eq_none_iff.mpr hnone

omit [UnicodeData] in
/-- The end of a line is stripped: only a detail can end in white space. -/
theorem SummaryLine.rstrip_text (l : SummaryLine) (hid : ∀ c ∈ l.nodeid, isSpace c = false) :
    rstrip l.text = summaryText l.kind l.nodeid (l.detail.map fun d => rstrip d.text) := by
  unfold SummaryLine.text
  cases l.detail with
  | none =>
    obtain ⟨u, c, hu⟩ := List.eq_nil_or_concat l.nodeid |>.resolve_left l.nodeid_nonempty
    have hc : isSpace c = false := hid c (by rw [hu]; simp)
    have hshape : summaryText l.kind l.nodeid none = (l.kind.word ++ ' ' :: u) ++ [c] := by
      simp [summaryText, detailText, hu]
    exact hshape ▸ rstrip_concat hc _
  | some d =>
    have hshape : ∀ t, summaryText l.kind l.nodeid (some t) = (l.kind.word ++ ' ' :: (l.nodeid ++ " - ".toList)) ++ t := by
      intro t
      simp [summaryText, detailText]
    rw [Option.map_some, Option.map_some, hshape, hshape]
    exact rstrip_append_nonblank d.nonblank _

theorem parseLine_summary (s : TestRunSummary) (l : SummaryLine) (hid : ' ' ∉ l.nodeid) :
    ∃ f : TestFailure, f.nodeid = l.nodeid ∧
      parseLine s (strip (rstrip l.text)) = .ok { s with failures := addFailure s.failures f } := by
  have hsolid : ∀ c ∈ l.nodeid, isSpace c = false := by
    intro c hc
    refine Bool.eq_false_iff.mpr fun hspace => hid ?_
    rw [← l.nodeid_printable c hc hspace]
    exact hc
  have hdetail : ∀ d ∈ l.detail.map fun d => rstrip d.text, (∃ c ∈ d, isSpace c = false) ∧ '\n' ∉ d := by
    intro d hd
    obtain ⟨e, -, rfl⟩ := Option.map_eq_some_iff.mp hd
    refine ⟨nonblank_rstrip e.nonblank, fun hn => ?_⟩
    have := e.unbroken _ (rstrip_subset hn)
    cases this
  obtain ⟨m, hm, hgroup⟩ := matchStart_summary l.kind l.nodeid_nonempty hsolid hdetail
  obtain ⟨c, t, hword, hspace, -⟩ := l.kind.word_cons
  have hstrip : strip (rstrip l.text) = rstrip l.text := by
    have htext : l.text = c :: (t ++ ' ' :: (l.nodeid ++ detailText (l.detail.map (·.text)))) := by
      unfold SummaryLine.text summaryText
      rw [hword]
      rfl
    rw [htext]
    exact strip_rstrip hspace _
  let exc := exceptionOf ((m.group 2).getD [])
  refine ⟨⟨(m.group 1).getD [], exc.1, exc.2⟩, by rw [hgroup]; rfl, ?_⟩
  rw [hstrip, l.rstrip_text hsolid]
  unfold parseLine
  rw [hm]

theorem parseLine_heading (s : TestRunSummary) (n : Nat × Nat) : parseLine s (strip (headingText n)) = .ok s := by
  have hstrip : strip (headingText n) = headingText n := by
    refine strip_solid (c := '=') (d := '=')
      (u := bar n.1 ++ (" short test summary info ".toList ++ List.replicate n.2 '=')) rfl rfl ?_
    change headingText n = _
    unfold headingText
    rw [show bar n.2 = List.replicate n.2 '=' ++ ['='] from List.replicate_succ', List.append_assoc, List.append_assoc]
  have hchars : ∀ c ∈ headingText n, c.toNat < 128 ∧ c.isDigit = false ∧ c ≠ '.' ∧ c ≠ '%' := by
    have hbar : ∀ k, ∀ c ∈ bar k, c.toNat < 128 ∧ c.isDigit = false ∧ c ≠ '.' ∧ c ≠ '%' := by
      intro k c hc
      rw [(List.mem_replicate.mp hc).2]
      decide
    exact List.forall_mem_append.mpr ⟨hbar n.1, List.forall_mem_append.mpr ⟨by decide, hbar n.2⟩⟩
  have hresult : matchStart resultLineRe (headingText n) = none := by
    have hneeds : resultLineRe.Needs fun c => isDecimal c || c == '.' := by
      simp [resultLineRe, cat, some1, Needs]
    refine hneeds.matchStart fun c hc => ?_
    obtain ⟨hascii, hdigit, hdot, -⟩ := hchars c hc
    simp [isDecimal, UnicodeData.decimal_ascii c hascii, hdigit, hdot]
  have hcoverage : matchStart coverageTotalRe (headingText n) = none := by
    have hneeds : coverageTotalRe.Needs fun c => c == '%' := by
      simp [coverageTotalRe, cat, chr, Needs]
    refine hneeds.matchStart fun c hc => ?_
    simpa using (hchars c hc).2.2.2
  have hsummary : matchStart summaryLineRe (headingText n) = none := matchStart_summary_none (c := '=') (by decide) (by decide)
  rw [hstrip]
  unfold parseLine
  rw [hsummary, hresult, hcoverage]

omit [UnicodeData] in
theorem ResultLine.text_ends (r : ResultLine) : ∃ t c, r.text = t ++ [c] ∧ isSpace c = false := by
  unfold ResultLine.text ResultLine.core
  cases r.bars with
  | some n =>
    refine ⟨bar n.1 ++ ' ' :: (r.core ++ ' ' :: List.replicate n.2 '='), '=', ?_, rfl⟩
    rw [Option.elim_some, show bar n.2 = List.replicate n.2 '=' ++ ['='] from List.replicate_succ']
    simp [ResultLine.core]
  | none =>
    cases r.duration with
    | none => exact ⟨r.body ++ (" in ".toList ++ r.seconds), 's', by simp [durationText], rfl⟩
    | some d => exact ⟨r.body ++ (" in ".toList ++ (r.seconds ++ 's' :: (" (".toList ++ d))), ')', by simp [durationText], rfl⟩

omit [UnicodeData] in
theorem ResultLine.text_cons (r : ResultLine) : ∃ c t, r.text = c :: t ∧ isSpace c = false ∧ c ≠ 'F' ∧ c ≠ 'E' := by
  obtain ⟨c, t, hcons, hspace⟩ : ∃ c t, r.text = c :: t ∧ isSpace c = false := by
    unfold ResultLine.text
    cases r.bars with
    | some n => exact ⟨'=', _, rfl, rfl⟩
    | none =>
      obtain ⟨c, t, hbody, hspace, -⟩ := r.body_cons
      exact ⟨c, t ++ _, by rw [Option.elim_none, ResultLine.core, hbody]; rfl, hspace⟩
  have hchar : resultChar c = true := r.text_resultText c (by rw [hcons]; exact List.mem_cons_self)
  refine ⟨c, t, hcons, hspace, ?_, ?_⟩
  · rintro rfl
    cases hchar
  · rintro rfl
    cases hchar

theorem parseLine_result (s : TestRunSummary) (r : ResultLine) :
    parseLine s (strip r.text) = r.items.foldlM countItem { s with parsed := true } := by
  obtain ⟨c, t, hcons, hspace, hf, he⟩ := r.text_cons
  obtain ⟨u, d, hends, hd⟩ := r.text_ends
  obtain ⟨m, hm, hgroup⟩ := matchStart_result r
  have hstrip : strip r.text = r.text := by
    rw [hcons]
    exact strip_solid hspace hd (hcons.symm.trans hends)
  have hsummary : matchStart summaryLineRe r.text = none := by
    rw [hcons]
    exact matchStart_summary_none hf he
  rw [hstrip]
  unfold parseLine
  rw [hsummary, hm]
  dsimp only
  rw [hgroup, Option.getD_some, countItems_body]

end FailureOrchestrator
