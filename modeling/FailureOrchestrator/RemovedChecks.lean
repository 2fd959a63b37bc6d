import FailureOrchestrator.Integrity
import FailureOrchestrator.RegexSub
import FailureOrchestrator.RegexMatch

namespace FailureOrchestrator

open Regex

theorem infix_joinWith {sep line : Str} {lines : List Str} (h : line ∈ lines) : line <:+: joinWith sep lines := by
  induction lines with
  | nil => cases h
  | cons x lines ih =>
    cases lines with
    | nil =>
      obtain rfl := List.mem_singleton.mp h
      exact List.infix_rfl
    | cons y rest =>
      rw [joinWith]
      rcases List.mem_cons.mp h with rfl | h
      · exact ⟨[], sep ++ joinWith sep (y :: rest), by simp⟩
      · exact (ih h).trans (List.suffix_append _ _).isInfix

section

variable [UnicodeData]

/-- A match of a group between two word boundaries captures what it reads. -/
theorem bounded_group {r : Regex} {n : Nat} {i m : Cursor}
    (h : m ∈ (cat [.wordB, .grp n r, .wordB]).matchesAt i) : ∃ t, m.group n = some t ∧ i.Reads m t := by
  rw [matchesAt_cat_cons, List.mem_flatMap] at h
  obtain ⟨a, ha, h⟩ := h
  rw [matchesAt_cat_cons, List.mem_flatMap] at h
  obtain ⟨b, hb, h⟩ := h
  rw [matchesAt_cat_cons, flatMap_cat_nil] at h
  obtain ⟨c, hc, rfl⟩ := List.mem_map.mp hb
  simp only [matchesAt] at ha h
  split at ha
  · obtain rfl := List.mem_singleton.mp ha
    split at h
    · obtain rfl := List.mem_singleton.mp h
      obtain ⟨t, ht⟩ := matchesAt_reads hc
      refine ⟨t, ?_, ht⟩
      rw [ht.readTo]
      simp [Cursor.group, Cursor.capture]
    · cases h
  · cases ha

/-- The line names the check tool as a whole word: `_CHECK_TOOL` can match it there. -/
def NamesTool (line tool : Str) : Prop :=
  ∃ before rest m, line = before ++ rest ∧ m ∈ checkToolRe.matchesAt ⟨before.reverse, rest, []⟩ ∧
    m.group 1 = some tool

/-- The tool that `_CHECK_TOOL.search` finds in a line. -/
def firstTool (line : Str) : Option Str := (search checkToolRe line).bind fun m => m.group 1

theorem NamesTool.within {line tool : Str} (h : NamesTool line tool) : tool <:+: line := by
  obtain ⟨before, rest, m, rfl, hm, htool⟩ := h
  obtain ⟨t, ht, hread⟩ := bounded_group hm
  cases htool.symm.trans ht
  have hin := hread.infix
  rwa [List.reverse_reverse] at hin

theorem search_names {line : Str} {m : Cursor} (h : search checkToolRe line = some m) :
    ∃ t, m.group 1 = some t ∧ NamesTool line t := by
  unfold search at h
  obtain ⟨⟨i, m'⟩, hsearch, rfl⟩ := Option.map_eq_some_iff.mp h
  obtain ⟨u, v, rfl, rfl, hhead, -⟩ := searchFrom_eq_some hsearch
  rw [List.append_nil] at hhead
  have hmem := List.mem_of_head? hhead
  obtain ⟨t, ht, -⟩ := bounded_group hmem
  exact ⟨t, ht, u, v, _, rfl, hmem, ht⟩

theorem firstTool_names {line tool : Str} (h : firstTool line = some tool) : NamesTool line tool := by
  obtain ⟨m, hm, htool⟩ := Option.bind_eq_some_iff.mp h
  obtain ⟨t, ht, hnames⟩ := search_names hm
  cases ht.symm.trans htool
  exact hnames

theorem toolRemoved_iff (addedText line : Str) :
    toolRemoved addedText line = true ↔ ∃ tool, firstTool line = some tool ∧ ¬ tool <:+: addedText := by
  unfold toolRemoved firstTool
  cases hs : search checkToolRe line with
  | none => simp
  | some m =>
    obtain ⟨t, ht, -⟩ := search_names hs
    simp [ht, hasSub]

/-- Some removed line names first a tool that the added lines hold nowhere, also not inside
another word. -/
def FirstToolGone (diff : FileDiff) : Prop :=
  ∃ line ∈ diff.removed, ∃ tool, firstTool line = some tool ∧ ¬ tool <:+: joinWith ['\n'] diff.added

/-- Some tool is named in the removed lines and in no added line. -/
def ToolGone (diff : FileDiff) : Prop :=
  ∃ tool, (∃ line ∈ diff.removed, NamesTool line tool) ∧ ∀ line ∈ diff.added, ¬ NamesTool line tool

theorem toolGone_of_firstToolGone {diff : FileDiff} (h : FirstToolGone diff) : ToolGone diff := by
  obtain ⟨line, hline, tool, htool, hout⟩ := h
  refine ⟨tool, ⟨line, hline, firstTool_names htool⟩, fun added hadded hnames => ?_⟩
  exact hout (hnames.within.trans (infix_joinWith hadded))

theorem hasCode_ciFindings (diff : FileDiff) :
    HasCode (ciFindings diff) .ciCheckRemoved ↔ FirstToolGone diff := by
  unfold ciFindings FirstToolGone
  dsimp only
  rw [hasCode_elim, List.find?_isSome]
  simp only [toolRemoved_iff, true_and]

theorem reports_ciCheckRemoved_iff (diff : FileDiff) (hci : isCiPath diff.path = true) :
    HasCode (analyzeFile diff) .ciCheckRemoved ↔ Inspected diff ∧ FirstToolGone diff := by
  rw [hasCode_analyzeFile_iff diff (by decide)]
  have noThreshold : ¬ HasCode (thresholdFindings diff) .ciCheckRemoved := by
    intro h
    cases hasCode_thresholdFindings h
  unfold contentFindings testFindings qualityFindings productionFindings
  simp [hci, noThreshold, hasCode_elim, hasCode_ciFindings]

/-- What is reported is a dropped check of an inspected file, and a check that some removed line
names first is reported wherever no added text holds it. -/
theorem ciCheckRemoved_reported (diff : FileDiff) (hci : isCiPath diff.path = true) :
    (HasCode (analyzeFile diff) .ciCheckRemoved → Inspected diff ∧ ToolGone diff) ∧
    (Inspected diff ∧ FirstToolGone diff → HasCode (analyzeFile diff) .ciCheckRemoved) := by
  have hreports := reports_ciCheckRemoved_iff diff hci
  refine ⟨fun h => ?_, hreports.mpr⟩
  obtain ⟨hinspected, hfirst⟩ := hreports.mp h
  exact ⟨hinspected, toolGone_of_firstToolGone hfirst⟩

end

/-- A step that ran two tools and runs the first one only. -/
def droppedSecondTool : FileDiff where
  path := ".github/workflows/ci.yml".toList
  removed := ["      - run: ruff check . && pytest -q".toList]
  added := ["      - run: ruff check .".toList]

theorem droppedSecondTool_gone : @ToolGone asciiData droppedSecondTool := by
  refine ⟨"pytest".toList, ⟨_, List.mem_singleton.mpr rfl, ?_⟩, fun line hline hnames => ?_⟩
  · exact ⟨"      - run: ruff check . && ".toList, "pytest -q".toList, _, rfl, List.mem_of_head? rfl, rfl⟩
  · obtain rfl := List.mem_singleton.mp hline
    exact absurd (@NamesTool.within asciiData _ _ hnames) (by decide)

/-- A deleted workflow. -/
def deletedWorkflow : FileDiff where
  path := ".github/workflows/ci.yml".toList
  deleted := true
  removed := ["      - run: pytest -q".toList]

theorem deletedWorkflow_gone : @ToolGone asciiData deletedWorkflow :=
  @toolGone_of_firstToolGone asciiData _ ⟨_, List.mem_singleton.mpr rfl, "pytest".toList, rfl, by decide⟩

/-- A deleted workflow is reported as such and not for its checks, and the second tool of a
line is not looked for. -/
theorem ciCheckRemoved_not_exact :
    ¬ (HasCode (@analyzeFile asciiData deletedWorkflow) .ciCheckRemoved ↔ @ToolGone asciiData deletedWorkflow) ∧
    ¬ (HasCode (@analyzeFile asciiData droppedSecondTool) .ciCheckRemoved ↔
      @ToolGone asciiData droppedSecondTool) := by
  have hdeleted : @analyzeFile asciiData deletedWorkflow = [⟨.ciConfigDeleted, deletedWorkflow.path, []⟩] := by rfl
  have hsecond : @analyzeFile asciiData droppedSecondTool = [] := by rfl
  constructor
  · intro h
    obtain ⟨f, hf, hcode⟩ := h.mpr deletedWorkflow_gone
    rw [hdeleted, List.mem_singleton] at hf
    subst hf
    cases hcode
  · intro h
    have hreported := h.mpr droppedSecondTool_gone
    rw [hsecond] at hreported
    exact hasCode_nil hreported

/-- The same step with the second tool alone, which makes room for the first one. -/
def droppedOnlyTool : FileDiff where
  path := ".github/workflows/ci.yml".toList
  removed := ["      - run: pytest -q".toList]
  added := ["      - run: ruff check .".toList]

theorem droppedOnlyTool_reported : HasCode (@analyzeFile asciiData droppedOnlyTool) .ciCheckRemoved := by
  have hfirst : @FirstToolGone asciiData droppedOnlyTool :=
    ⟨_, List.mem_singleton.mpr rfl, "pytest".toList, rfl, by decide⟩
  exact (@ciCheckRemoved_reported asciiData droppedOnlyTool rfl).2 ⟨⟨rfl, fun h => nomatch h.1⟩, hfirst⟩

end FailureOrchestrator
