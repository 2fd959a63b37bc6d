import FailureOrchestrator.ErrorTable
import FailureOrchestrator.PolicyApproval
import FailureOrchestrator.RegexFree

namespace FailureOrchestrator

open Regex

/-- `SECURITY_TOOL_RE`. -/
def securityTool : Regex :=
  .alt (ilits ["gitleaks", "trufflehog", "codeql", "trivy", "bandit", "semgrep", "snyk", "grype"])
    (cat [ilit "secret", opt (oneOf "- "), ilit "scan"])

/-- `SECURITY_MESSAGE_RE` without what it looks behind for. -/
def securityPhrase : Regex :=
  anyOf [cat [ilit "leak", opt (ichr 's'), ilit " ", ilits ["detected", "found"]],
    cat [ilit "secret", opt (ichr 's'), ilit " detected"],
    cat [ilit "vulnerabilit", .alt (ichr 'y') (ilit "ies"), ilit " found"]]

/-- `(?<=s)` under `(?i)`, for the text read so far. -/
def endsFolded (s : String) (before : Str) : Bool := decide (FoldsTo s.toList (before.take s.toList.length).reverse)

section

variable [UnicodeData]

/-- `(?<=\b0 )`. -/
def endsZero (before : Str) : Bool := decide (before.take 2 = [' ', '0']) && !(before.drop 2).head?.elim false isWord

/-- The position stands behind a word that says there is nothing. -/
def negated (before : Str) : Bool := endsFolded "no " before || endsFolded "no known " before || endsZero before

/-- Whether the phrase begins at some position of the rest that is not negated. -/
def phraseFrom (before : Str) : Str → Bool
  | [] => !negated before && !(securityPhrase.matchesAt ⟨before, [], []⟩).isEmpty
  | c :: rest =>
    !negated before && !(securityPhrase.matchesAt ⟨before, c :: rest, []⟩).isEmpty || phraseFrom (c :: before) rest

/-- `SECURITY_MESSAGE_RE.search(text)`. -/
def securityMessage (text : Str) : Bool := phraseFrom [] text

def FailureEvent.names (event : FailureEvent) : Str :=
  event.workflow ++ ' ' :: event.job ++ ' ' :: event.failedStep

namespace FailureClassifier

/-- `event.message or event.log_excerpt`. -/
def classified (event : FailureEvent) : Str := if event.message.isEmpty then event.logExcerpt else event.message

/-- Security scanner signals are looked for first. -/
def classify (event : FailureEvent) : FailureClassification :=
  let msg := classifyText (classified event)
  let log := if event.message.isEmpty then msg else classifyText event.logExcerpt
  let stepClass := classifyCiStep event.workflow event.job event.failedStep
    (if event.logExcerpt.isEmpty then event.message else event.logExcerpt)
  let namedStep := classifyCiStep [] [] event.failedStep []
  let repeated := intermittentTests event.logExcerpt
  let security := decide (msg.1 = .securityError) || found securityTool event.names ||
    securityMessage (event.message ++ '\n' :: event.logExcerpt)
  let message := "message=" ++ msg.1.value
  let actions := "actions=" ++ stepClass.value
  let outcome : String × ℚ × List String :=
    if security then ("security_scan_failure", max msg.2 securityConfidence, ["security_scan", message, actions])
    else if !event.message.isEmpty && !environmentClasses.contains msg.1 && environmentClasses.contains log.1 &&
        sourceQuotingSteps.contains namedStep then
      (namedStep.category, stepConfidence,
        ["step=" ++ namedStep.value, message, "log=" ++ log.1.value ++ ":quoted_source"])
    else if environmentClasses.contains msg.1 || environmentClasses.contains log.1 then
      let envClass := if environmentClasses.contains msg.1 then msg.1 else log.1
      (envClass.category, if envClass = msg.1 then msg.2 else log.2,
        [message, "log=" ++ log.1.value, actions])
    else if decide (msg.1 = .flakyTest) || !repeated.isEmpty then
      ("flaky_failure", max msg.2 flakyConfidence,
        [message, actions] ++ (repeated.take 3).map fun test => "passed_and_failed=" ++ String.ofList test)
    else if stepClass ≠ .unknown then (stepClass.category, max msg.2 stepConfidence, [actions, message])
    else (msg.1.category, msg.2, [message])
  { runId := event.runId, category := outcome.1, confidence := outcome.2.1, evidence := outcome.2.2,
    uncertainty := if outcome.1 ≠ "unknown" then "heuristic_regex_only" else "no_strong_pattern" }

omit [UnicodeData] in
theorem stepCategory_ne (c : StepClass) : c.category ≠ "security_scan_failure" := by
  cases c <;> decide

omit [UnicodeData] in
theorem errorCategory_iff (c : ErrorClass) : c.category = "security_scan_failure" ↔ c = .securityError := by
  cases c <;> decide

/-- Nothing but a security signal gives the category. -/
theorem classify_category_iff (event : FailureEvent) : (classify event).category = "security_scan_failure" ↔
    (classifyText (classified event)).1 = .securityError ∨ found securityTool event.names = true ∨
      securityMessage (event.message ++ '\n' :: event.logExcerpt) = true := by
  unfold classify
  generalize classifyText (classified event) = msg
  dsimp only
  generalize (if event.message.isEmpty then msg else classifyText event.logExcerpt) = log
  generalize classifyCiStep event.workflow event.job event.failedStep
    (if event.logExcerpt.isEmpty then event.message else event.logExcerpt) = stepClass
  have henvironment : ∀ c ∈ environmentClasses, c.category ≠ "security_scan_failure" := by decide
  split
  next hsecurity =>
    refine iff_of_true rfl ?_
    simpa only [Bool.or_eq_true, decide_eq_true_eq, or_assoc] using hsecurity
  next hsecurity =>
    simp only [Bool.or_eq_true, decide_eq_true_eq, or_assoc] at hsecurity
    refine iff_of_false ?_ hsecurity
    split
    next => exact stepCategory_ne _
    next =>
      split
      next henv =>
        refine henvironment _ ?_
        split
        next hmsg => exact List.contains_iff_mem.mp hmsg
        next hmsg => exact List.contains_iff_mem.mp ((Bool.or_eq_true_iff.mp henv).resolve_left hmsg)
      next =>
        split
        next =>
          show ¬ "flaky_failure" = "security_scan_failure"
          decide
        next =>
          split
          next => exact stepCategory_ne _
          next => exact fun h => hsecurity (.inl ((errorCategory_iff _).mp h))

end FailureClassifier

/-! ## Where a security message stands -/

theorem phraseFrom_iff {before rest : Str} : phraseFrom before rest = true ↔ ∃ u v, rest = u ++ v ∧
    negated (u.reverse ++ before) = false ∧ ∃ m', m' ∈ securityPhrase.matchesAt ⟨u.reverse ++ before, v, []⟩ := by
  induction rest generalizing before with
  | nil =>
    simp only [phraseFrom, Bool.and_eq_true, Bool.not_eq_true', List.isEmpty_eq_false_iff_exists_mem]
    constructor
    · exact fun h => ⟨[], [], rfl, h⟩
    · rintro ⟨u, v, hnil, h⟩
      obtain ⟨rfl, rfl⟩ := List.append_eq_nil_iff.mp hnil.symm
      exact h
  | cons c rest ih =>
    simp only [phraseFrom, Bool.or_eq_true, Bool.and_eq_true, Bool.not_eq_true', List.isEmpty_eq_false_iff_exists_mem, ih]
    constructor
    · rintro (h | ⟨u, v, rfl, h⟩)
      · exact ⟨[], c :: rest, rfl, h⟩
      · exact ⟨c :: u, v, rfl, by simpa using h⟩
    · rintro ⟨u, v, heq, h⟩
      cases u with
      | nil =>
        obtain rfl : c :: rest = v := heq
        exact .inl h
      | cons d u =>
        obtain ⟨rfl, rfl⟩ := List.cons.inj heq
        exact .inr ⟨u, v, rfl, by simpa using h⟩

omit [UnicodeData] in
theorem securityPhrase_plain : securityPhrase.Plain :=
  ⟨⟨ilit_plain _, ⟨trivial, trivial⟩, ilit_plain _, ilits_plain _, trivial⟩,
    ⟨ilit_plain _, ⟨trivial, trivial⟩, ilit_plain _, trivial⟩,
    ilit_plain _, ⟨trivial, ilit_plain _⟩, ilit_plain _, trivial⟩

omit [UnicodeData] in
theorem FoldsTo.exists_left {u w : Str} (h : FoldsTo u w) {x : Char} (hx : x ∈ w) : ∃ c ∈ u, sameFold c x = true := by
  induction h with
  | nil => cases hx
  | @cons c y u w hfold _ ih =>
    rcases List.mem_cons.mp hx with rfl | hx
    · exact ⟨c, List.mem_cons_self, hfold⟩
    · obtain ⟨d, hd, hfold⟩ := ih hx
      exact ⟨d, List.mem_cons_of_mem c hd, hfold⟩

omit [UnicodeData] in
/-- A newline stops what a lookbehind reads. -/
theorem endsFolded_line {s : String} (hs : ∀ c ∈ s.toList, sameFold c '\n' = false) (b m : Str) :
    endsFolded s (b ++ '\n' :: m) = endsFolded s b := by
  unfold endsFolded
  by_cases hlen : s.toList.length ≤ b.length
  · rw [List.take_append_of_le_length hlen]
  · have hshort : ¬ FoldsTo s.toList (b.take s.toList.length).reverse := by
      intro h
      have hlength := h.length_eq
      simp only [List.length_reverse, List.length_take] at hlength
      omega
    have hnewline : ¬ FoldsTo s.toList ((b ++ '\n' :: m).take s.toList.length).reverse := by
      intro h
      have hmem : '\n' ∈ ((b ++ '\n' :: m).take s.toList.length).reverse := by
        rw [List.mem_reverse, List.take_append]
        refine List.mem_append_right _ ?_
        obtain ⟨k, hk⟩ : ∃ k, s.toList.length - b.length = k + 1 := ⟨s.toList.length - b.length - 1, by omega⟩
        rw [hk, List.take_succ_cons]
        exact List.mem_cons_self
      obtain ⟨c, hc, hfold⟩ := FoldsTo.exists_left h hmem
      rw [hs c hc] at hfold
      cases hfold
    rw [decide_eq_false hshort, decide_eq_false hnewline]

theorem negated_line (b m : Str) : negated (b ++ '\n' :: m) = negated b := by
  have hzero : endsZero (b ++ '\n' :: m) = endsZero b := by
    unfold endsZero
    by_cases hlen : 2 ≤ b.length
    · rw [List.take_append_of_le_length hlen, List.drop_append_of_le_length hlen]
      cases b.drop 2 with
      | nil =>
        show (_ && !isWord '\n') = _
        rw [isWord_newline]
        rfl
      | cons c b => rfl
    · match b with
      | [] => simp
      | [c] => simp
      | c :: d :: b => exact absurd (by simp) hlen
  unfold negated
  rw [endsFolded_line (by decide), endsFolded_line (by decide), hzero]

/-- A message or a log that has the phrase makes the joined text have it. -/
theorem securityMessage_joined {message log : Str} (h : securityMessage message = true ∨ securityMessage log = true) :
    securityMessage (message ++ '\n' :: log) = true := by
  rcases h with h | h
  · obtain ⟨u, v, rfl, hclear, m', hm⟩ := phraseFrom_iff.mp h
    obtain ⟨t, w, rfl, -, ht⟩ := securityPhrase_plain.reads hm
    exact phraseFrom_iff.mpr ⟨u, t ++ (w ++ '\n' :: log), by simp, hclear, _, ht _ _ _⟩
  · obtain ⟨u, v, rfl, hclear, m', hm⟩ := phraseFrom_iff.mp h
    obtain ⟨t, w, rfl, -, ht⟩ := securityPhrase_plain.reads hm
    refine phraseFrom_iff.mpr ⟨message ++ '\n' :: u, t ++ w, by simp, ?_, _, ht _ _ _⟩
    have hbefore : (message ++ '\n' :: u).reverse ++ [] = u.reverse ++ '\n' :: message.reverse := by simp
    rw [List.append_nil] at hclear
    rw [hbefore, negated_line, hclear]

/-! ## Scanner names -/

omit [UnicodeData] in
theorem securityTool_plain : securityTool.Plain :=
  ⟨ilits_plain _, ilit_plain _, ⟨trivial, trivial⟩, ilit_plain _, trivial⟩

theorem securityTool_consumes : securityTool.Consumes :=
  Needs.consumes (p := fun _ => true) (by simp [securityTool, ilits, anyOf, ilit, cat, Needs, ichr])

theorem securityTool_names {event : FailureEvent} (h : found securityTool event.workflow = true ∨
    found securityTool event.job = true ∨ found securityTool event.failedStep = true) :
    found securityTool event.names = true := by
  have hwithin := @Plain.found_within _ _ securityTool_plain securityTool_consumes
  unfold FailureEvent.names
  rcases h with h | h | h
  · exact hwithin ⟨[], ' ' :: event.job ++ ' ' :: event.failedStep, by simp⟩ h
  · exact hwithin ⟨event.workflow ++ [' '], ' ' :: event.failedStep, by simp⟩ h
  · exact hwithin ⟨event.workflow ++ ' ' :: event.job ++ [' '], [], by simp⟩ h

/-! ## Signals -/

namespace FailureClassifier

def scanFailed (text : Str) : Bool := hasSub (UnicodeData.lower text) "security scan failed".toList

/-- A scanner is named, or a scanner's finding is reported. -/
def ScannerSignal (event : FailureEvent) : Prop :=
  (found securityTool event.workflow = true ∨ found securityTool event.job = true ∨
    found securityTool event.failedStep = true) ∨
  securityMessage event.message = true ∨ securityMessage event.logExcerpt = true

def SecuritySignal (event : FailureEvent) : Prop :=
  (scanFailed event.message = true ∨ scanFailed event.logExcerpt = true) ∨ ScannerSignal event

/-- The classifier takes a signal for one: from the names, from the texts, or from the row of the table, where no row
before it matches the text that the table reads. -/
def SignalSeen (event : FailureEvent) : Prop :=
  found securityTool event.names = true ∨ securityMessage (event.message ++ '\n' :: event.logExcerpt) = true ∨
    (securityRow.hits (UnicodeData.lower (classified event)) = true ∧
      ∀ row ∈ earlierRows, row.hits (UnicodeData.lower (classified event)) = false)

/-- A repair of the failure is not approved by the default policy. -/
def NeverApproved (classification : FailureClassification) : Prop :=
  ∀ (engine : StaticPolicyEngine), engine.config = {} →
    ∀ (proposal : RepairProposal) (evaluation : EvaluationResult) (toolsUsed : List String)
      (toolRiskLevels : List ToolRiskLevel) (attemptCount : Int),
    (engine.evaluate (buildPolicyContext proposal evaluation (some classification) toolsUsed toolRiskLevels attemptCount
      {})).outcome ≠ .approve

theorem signalSeen_of_scanner {event : FailureEvent} (h : ScannerSignal event) : SignalSeen event :=
  h.imp securityTool_names fun h => .inl (securityMessage_joined h)

theorem neverApproved_of_security {classification : FailureClassification}
    (h : classification.category = "security_scan_failure") : NeverApproved classification := by
  intro engine hconfig proposal evaluation toolsUsed toolRiskLevels attemptCount happrove
  have hbuilt : (buildPolicyContext proposal evaluation (some classification) toolsUsed toolRiskLevels attemptCount
    {}).Built := rfl
  obtain ⟨c, hc, hcategory, -⟩ := ((engine.outcome_approve_iff hbuilt).mp happrove).classified
  obtain rfl : classification = c := Option.some.inj hc
  rw [h, hconfig] at hcategory
  exact hcategory (by decide)

theorem classify_security_iff (event : FailureEvent) :
    (classify event).category = "security_scan_failure" ↔ SignalSeen event := by
  rw [classify_category_iff, classifyText_security_iff, classifyError_security_iff]
  unfold SignalSeen
  tauto

/-- A security signal outranks the others exactly where a scanner is named or reports it, or the table's row for it is the
first that matches. -/
theorem classify_outranks_iff (event : FailureEvent) :
    (SecuritySignal event → (classify event).category = "security_scan_failure" ∧ NeverApproved (classify event)) ↔
    (SecuritySignal event → SignalSeen event) := by
  refine imp_congr_right fun _ => ?_
  rw [← classify_security_iff]
  exact ⟨And.left, fun hsecurity => ⟨hsecurity, neverApproved_of_security hsecurity⟩⟩

/-- The signals of scanners outrank the others in every event. -/
theorem scanner_outranks {event : FailureEvent} (h : ScannerSignal event) :
    (classify event).category = "security_scan_failure" ∧ NeverApproved (classify event) := by
  have hsecurity := (classify_security_iff event).mpr (signalSeen_of_scanner h)
  exact ⟨hsecurity, neverApproved_of_security hsecurity⟩

end FailureClassifier

end

open FailureClassifier

/-- The row for tests matches before the one for security. -/
def shadowedScan : FailureEvent :=
  { runId := "r".toList, workflow := "ci".toList, job := "test".toList, failedStep := "check".toList,
    message := "2 tests failed: security scan failed".toList }

theorem shadowedScan_outranked : ¬ (@SecuritySignal asciiData shadowedScan →
    (@classify asciiData shadowedScan).category = "security_scan_failure" ∧
      @NeverApproved asciiData (@classify asciiData shadowedScan)) := by
  intro h
  have hsignal : @SecuritySignal asciiData shadowedScan := .inl (.inl (by decide +kernel))
  have hcategory := (h hsignal).1
  revert hcategory
  decide +kernel

end FailureOrchestrator
