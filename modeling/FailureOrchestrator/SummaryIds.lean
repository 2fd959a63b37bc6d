import FailureOrchestrator.PytestSummary
import FailureOrchestrator.RegexReads

namespace FailureOrchestrator

open Regex

theorem mem_addFailure {failures : List TestFailure} {f : TestFailure} {id : Str} :
    id ∈ (addFailure failures f).map (·.nodeid) ↔ id ∈ failures.map (·.nodeid) ∨ id = f.nodeid := by
  unfold addFailure
  split
  next hmem =>
    constructor
    · exact Or.inl
    · rintro (h | rfl)
      · exact h
      · exact hmem
  next => simp [List.map_append]

theorem TestFailure.explain_nodeid (text : Str) (f : TestFailure) [UnicodeData] : (f.explain text).nodeid = f.nodeid := by
  unfold TestFailure.explain
  split <;> rfl

section

variable [UnicodeData]

/-- The lines of the output after their time stamps, one after the other. -/
def readOutput (s : TestRunSummary) (lines : List Str) : Except PyError TestRunSummary :=
  lines.foldlM (fun s line => parseLine s (strip line)) s

/-- The failures that have no exception of their own take the first one that the output prints. -/
def explained (lines : List Str) (s : TestRunSummary) : TestRunSummary :=
  { s with failures := (firstE lines).elim s.failures fun text => s.failures.map (·.explain text) }

theorem explained_failedIds (lines : List Str) (s : TestRunSummary) : (explained lines s).failedIds = s.failedIds := by
  unfold TestRunSummary.failedIds explained
  cases firstE lines with
  | none => rfl
  | some e => simp [List.map_map, Function.comp_def, TestFailure.explain_nodeid]

theorem parseTestOutput_eq (text : Str) : parseTestOutput text =
    (readOutput {} (outputLines text)).bind fun s => .ok (explained (outputLines text) s) := rfl

/-! No failure is recorded under an ID with white space. -/

def Solid (id : Str) : Prop := ∀ c ∈ id, isSpace c = false

theorem countItems_failures {s s' : TestRunSummary} {body : Str} (h : countItems s body = .ok s') :
    s'.failures = s.failures := by
  unfold countItems at h
  generalize finditer resultItemRe body = ms at h
  induction ms generalizing s with
  | nil =>
    cases h
    rfl
  | cons m ms ih =>
    rw [List.foldlM_cons] at h
    cases hn : pyInt ((m.group 1).getD []) with
    | error e =>
      rw [hn] at h
      cases h
    | ok n =>
      rw [hn] at h
      exact (ih h).trans (count_kept s _ n).2

theorem matchStart_summary_solid {line : Str} {m : Cursor} (h : matchStart summaryLineRe line = some m) :
    Solid ((m.group 1).getD []) := by
  have hm : m ∈ summaryLineRe.matchesAt (start line) := List.mem_of_head? h
  obtain ⟨m₁, -, hm⟩ := List.mem_flatMap.mp hm
  obtain ⟨m₂, -, hm⟩ := List.mem_flatMap.mp hm
  obtain ⟨m₃, -, hm⟩ := List.mem_flatMap.mp hm
  obtain ⟨m₄, hm₄, hm⟩ := List.mem_flatMap.mp hm
  have hsolid : (some1 notSpace).ReadsOnly fun c => !isSpace c := by
    simp [some1, many, notSpace, ReadsOnly]
  obtain ⟨t, ht, hchars⟩ := hsolid.captured hm₄
  have hkeeps : (cat [opt (cat [spaces1, chr '-', spaces1, .grp 2 (many dot)]), .eos]).Keeps 1 := by
    simp [cat, opt, spaces1, space, some1, many, chr, dot, Keeps]
  rw [hkeeps.group hm, ht]
  intro c hc
  simpa using hchars c hc

theorem parseLine_solid {s s' : TestRunSummary} {line : Str} (h : parseLine s line = .ok s')
    (hs : ∀ id ∈ s.failedIds, Solid id) : ∀ id ∈ s'.failedIds, Solid id := by
  unfold parseLine at h
  split at h
  next m hm =>
    cases h
    intro id hid
    rcases mem_addFailure.mp hid with hid | rfl
    · exact hs id hid
    · exact matchStart_summary_solid hm
  next =>
    split at h
    next m _ =>
      unfold TestRunSummary.failedIds
      rw [countItems_failures h]
      exact hs
    next =>
      split at h
      next =>
        cases h
        exact hs
      next =>
        cases h
        exact hs

theorem readOutput_solid {lines : List Str} {s s' : TestRunSummary} (h : readOutput s lines = .ok s')
    (hs : ∀ id ∈ s.failedIds, Solid id) : ∀ id ∈ s'.failedIds, Solid id := by
  unfold readOutput at h
  induction lines generalizing s with
  | nil =>
    cases h
    exact hs
  | cons l lines ih =>
    rw [List.foldlM_cons] at h
    cases hl : parseLine s (strip l) with
    | error e =>
      rw [hl] at h
      cases h
    | ok s₁ =>
      rw [hl] at h
      exact ih h (parseLine_solid hl hs)

theorem parseTestOutput_solid {text : Str} {s : TestRunSummary} (h : parseTestOutput text = .ok s) :
    ∀ id ∈ s.failedIds, Solid id := by
  rw [parseTestOutput_eq] at h
  cases hread : readOutput {} (outputLines text) with
  | error e =>
    rw [hread] at h
    cases h
  | ok s' =>
    rw [hread] at h
    cases h
    rw [explained_failedIds]
    exact readOutput_solid hread fun id hid => nomatch hid

/-! The lines of a short test summary. -/

theorem readOutput_append (s : TestRunSummary) (ls ls' : List Str) :
    readOutput s (ls ++ ls') = (readOutput s ls).bind fun s => readOutput s ls' := by
  unfold readOutput
  exact List.foldlM_append

theorem outputLines_summary (p : PytestSummary) : outputLines p.text =
    (p.heading.toList.map fun h => headingText h.2) ++ p.lines.map (fun l => rstrip l.2.text) ++ [p.result.text] := by
  have hunbroken : ∀ l ∈ (p.heading.toList.map fun h => stamped h.1 (headingText h.2)) ++
      p.lines.map (fun l => stamped l.1 l.2.text) ++ [stamped p.resultStamp p.result.text], Unbroken l := by
    intro l hl
    rcases List.mem_append.mp hl with hl | hl
    · rcases List.mem_append.mp hl with hl | hl
      · obtain ⟨h, -, rfl⟩ := List.mem_map.mp hl
        exact stamped_unbroken (headingText_resultText h.2).unbroken
      · obtain ⟨x, -, rfl⟩ := List.mem_map.mp hl
        exact stamped_unbroken x.2.text_unbroken
    · rw [List.mem_singleton.mp hl]
      exact stamped_unbroken p.result.text_resultText.unbroken
  have hheading : ∀ stamp n, untimed (stamped stamp (headingText n)) = headingText n := by
    intro stamp n
    have hends : headingText n = (bar n.1 ++ (" short test summary info ".toList ++ List.replicate n.2 '=')) ++ ['='] := by
      unfold headingText
      rw [show bar n.2 = List.replicate n.2 '=' ++ ['='] from List.replicate_succ', List.append_assoc, List.append_assoc]
    rw [hends]
    exact untimed_resultText stamp (hends ▸ headingText_resultText n) rfl
  have hresult : untimed (stamped p.resultStamp p.result.text) = p.result.text := by
    obtain ⟨t, c, hends, hc⟩ := p.result.text_ends
    have hchars := p.result.text_resultText
    rw [hends] at hchars ⊢
    exact untimed_resultText p.resultStamp hchars hc
  unfold PytestSummary.text
  rw [outputLines_unlines hunbroken, List.map_append, List.map_append, List.map_map, List.map_map, List.map_singleton,
    hresult]
  congr 2
  · exact List.map_congr_left fun h _ => hheading h.1 h.2
  · exact List.map_congr_left fun l _ => untimed_summary l.1 l.2

theorem readOutput_summary {lines : List (Option CiStamp × SummaryLine)} (h : ∀ l ∈ lines, ' ' ∉ l.2.nodeid)
    (s : TestRunSummary) : ∃ failures, readOutput s (lines.map fun l => rstrip l.2.text) = .ok { s with failures := failures } ∧
      ∀ id, id ∈ failures.map (·.nodeid) ↔ id ∈ s.failedIds ∨ id ∈ lines.map (·.2.nodeid) := by
  induction lines generalizing s with
  | nil => exact ⟨s.failures, rfl, by simp [TestRunSummary.failedIds]⟩
  | cons l lines ih =>
    obtain ⟨f, hf, hl⟩ := parseLine_summary s l.2 (h l List.mem_cons_self)
    obtain ⟨failures, hread, hids⟩ := ih (fun k hk => h k (List.mem_cons_of_mem _ hk))
      { s with failures := addFailure s.failures f }
    refine ⟨failures, ?_, ?_⟩
    · unfold readOutput at hread ⊢
      rw [List.map_cons, List.foldlM_cons, hl]
      exact hread
    · intro id
      have hadd : id ∈ ({ s with failures := addFailure s.failures f } : TestRunSummary).failedIds ↔
          id ∈ s.failedIds ∨ id = f.nodeid := mem_addFailure
      rw [hids, hadd, List.map_cons, List.mem_cons, hf, or_assoc]

theorem readOutput_heading (s : TestRunSummary) (heading : Option (Option CiStamp × Nat × Nat)) :
    readOutput s (heading.toList.map fun h => headingText h.2) = .ok s := by
  cases heading with
  | none => rfl
  | some h =>
    unfold readOutput
    rw [Option.toList_some, List.map_singleton, List.foldlM_cons, parseLine_heading]
    rfl

theorem readOutput_result (s : TestRunSummary) (r : ResultLine) :
    readOutput s [r.text] = r.items.foldlM countItem { s with parsed := true } := by
  unfold readOutput
  rw [List.foldlM_cons, parseLine_result]
  exact bind_pure _

/-- With IDs free of blanks the output is read up to the counts of the result line. -/
theorem parseTestOutput_summary {p : PytestSummary} (h : ∀ id ∈ p.ids, ' ' ∉ id) :
    ∃ failures, (∀ id, id ∈ failures.map (·.nodeid) ↔ id ∈ p.ids) ∧
      parseTestOutput p.text = (p.result.items.foldlM countItem { parsed := true, failures := failures }).bind
        fun s => .ok (explained (outputLines p.text) s) := by
  obtain ⟨failures, hread, hids⟩ := @readOutput_summary _ p.lines
    (fun l hl => h l.2.nodeid (List.mem_map_of_mem hl)) {}
  refine ⟨failures, fun id => ?_, ?_⟩
  · rw [hids]
    simp [TestRunSummary.failedIds, PytestSummary.ids]
  · rw [parseTestOutput_eq]
    congr 1
    rw [outputLines_summary, readOutput_append, readOutput_append, readOutput_heading]
    change ((readOutput {} _).bind _) = _
    rw [hread]
    exact readOutput_result _ p.result

/-- The output of a run is read exactly when no node ID has a blank and Python converts
every count. -/
theorem parseTestOutput_summary_iff (p : PytestSummary) :
    (∃ s, parseTestOutput p.text = .ok s ∧ (∀ id, id ∈ s.failedIds ↔ id ∈ p.ids) ∧ s.Shows p.result) ↔
      (∀ id ∈ p.ids, ' ' ∉ id) ∧ ∀ i ∈ p.result.items, Convertible i.1 := by
  constructor
  · rintro ⟨s, hparse, hids, -⟩
    have hblank : ∀ id ∈ p.ids, ' ' ∉ id := by
      intro id hid hmem
      have := parseTestOutput_solid hparse id ((hids id).mpr hid) ' ' hmem
      cases this
    refine ⟨hblank, ?_⟩
    by_contra hbig
    push Not at hbig
    obtain ⟨failures, -, heq⟩ := parseTestOutput_summary hblank
    obtain ⟨e, he⟩ := foldlM_countItem_error hbig { parsed := true, failures := failures }
    rw [heq, he] at hparse
    cases hparse
  · rintro ⟨hblank, hconv⟩
    obtain ⟨failures, hids, heq⟩ := parseTestOutput_summary hblank
    refine ⟨explained (outputLines p.text) (countAll { parsed := true, failures := failures } p.result.items), ?_, ?_, ?_⟩
    · rw [heq, foldlM_countItem hconv]
      rfl
    · intro id
      rw [explained_failedIds, TestRunSummary.failedIds, (countAll_kept _ _).2]
      exact hids id
    · obtain ⟨h₁, h₂, h₃, h₄, h₅, h₆, h₇, h₈⟩ := countAll_shows (s := { parsed := true, failures := failures }) rfl p.result
        ⟨rfl, rfl, rfl, rfl, rfl, rfl, rfl⟩
      exact ⟨h₁, h₂, h₃, h₄, h₅, h₆, h₇, h₈⟩

end

/-- One failing parametrised test whose ID has a blank between the brackets. -/
def blankIdSummary : PytestSummary where
  heading := none
  lines := [(none, ⟨.failed, "tests/test_a.py::test_x[a b]".toList, none, by decide, by decide⟩)]
  resultStamp := none
  result := {
    items := [(1, "failed".toList)]
    seconds := "0.12".toList
    duration := none
    bars := some (3, 3)
    words := by decide
    seconds_nonempty := by decide
    seconds_chars := by decide
    duration_chars := by decide }

theorem parseTestOutput_misses_blank : ¬ ∃ s, @parseTestOutput asciiData blankIdSummary.text = .ok s ∧
    (∀ id, id ∈ s.failedIds ↔ id ∈ blankIdSummary.ids) ∧ s.Shows blankIdSummary.result := by
  rintro ⟨s, hparse, hids, -⟩
  have hid : "tests/test_a.py::test_x[a b]".toList ∈ s.failedIds := (hids _).mpr (List.mem_singleton_self _)
  have hsolid := @parseTestOutput_solid asciiData _ _ hparse _ hid ' ' (by decide)
  cases hsolid

end FailureOrchestrator
