import FailureOrchestrator.VerificationRecord
import FailureOrchestrator.VerifiedFix

namespace FailureOrchestrator

def RemediationState.value : RemediationState → String
  | .failureReceived => "FAILURE_RECEIVED"
  | .failureReproduced => "FAILURE_REPRODUCED"
  | .repairProposed => "REPAIR_PROPOSED"
  | .patchApplied => "PATCH_APPLIED"
  | .targetedValidationPassed => "TARGETED_VALIDATION_PASSED"
  | .regressionValidationPassed => "REGRESSION_VALIDATION_PASSED"
  | .policyApproved => "POLICY_APPROVED"
  | .ciGreenButUnverified => "CI_GREEN_BUT_UNVERIFIED"
  | .verifiedFixed => "VERIFIED_FIXED"
  | .regressionDetected => "REGRESSION_DETECTED"
  | .policyRejected => "POLICY_REJECTED"
  | .humanReviewRequired => "HUMAN_REVIEW_REQUIRED"
  | .notFixed => "NOT_FIXED"

def MergeRequirement.value : MergeRequirement → String
  | .automaticVerificationAllowed => "AUTOMATIC_VERIFICATION_ALLOWED"
  | .humanApprovalBeforeMerge => "HUMAN_APPROVAL_BEFORE_MERGE"
  | .humanReviewRequired => "HUMAN_REVIEW_REQUIRED"
  | .blocked => "BLOCKED"

def verificationSchema : Str := "repair-verification/v1".toList

section Record

variable {F : Type}

def RemediationDecision.toDict (d : RemediationDecision) : JsonValue F :=
  .obj (dictOf [
    ("state".toList, .str d.state.value.toList),
    ("verified".toList, .bool (d.state = .verifiedFixed)),
    ("reasons".toList, jsonTexts d.reasons),
    ("missing_evidence".toList, jsonTexts d.missingEvidence),
    ("merge_requirement".toList, .str d.mergeRequirement.value.toList),
    ("trail".toList, jsonTexts (d.trail.map fun s => s.value.toList))])

variable [UnicodeData]

/-- The record that `record_verification` stores for the local stage of a run. -/
def verificationRecord (runId createdAt : Str) (v : VerificationResult) (evidence config : JsonValue F) :
    List (Str × JsonValue F) :=
  dictOf [
    ("schema".toList, .str verificationSchema),
    ("run_id".toList, .str runId),
    ("stage".toList, .str "local".toList),
    ("result".toList, v.toDict),
    ("decision".toList, (decideRemediation v).toDict),
    ("evidence".toList, evidence),
    ("verification_config".toList, config),
    ("created_at".toList, .str createdAt)]

end Record

section Redecide

variable [UnicodeData] (F : Type) [PyFloat F]

/-- The result in the text of a stored record. -/
def localResult (text : Str) : Except RecordError VerificationResult :=
  match JsonValue.loads (F := F) text with
  | some (.obj record) => (record.lookup "result".toList).elim (.error .malformed) VerificationResult.fromDict
  | some _ => .error .uncaught
  | none => .error .malformed

omit [UnicodeData] [PyFloat F] in
/-- `{**previous.to_dict(), "real_ci_passed": ..., "human_approved": ...}`. -/
def withRealCi (previous : VerificationResult) (passed humanApproved : Bool) : List (Str × JsonValue F) :=
  insertEntry "human_approved".toList (.bool humanApproved)
    (insertEntry "real_ci_passed".toList (.bool passed) previous.entries)

/-- The decision of `verify_real_ci` from the text of the local record. -/
def verifyRealCi (text : Str) (passed humanApproved : Bool) : Except RecordError RemediationDecision := do
  let previous ← localResult F text
  let result ← VerificationResult.fromDict (.obj (withRealCi F previous passed humanApproved))
  return decideRemediation result

end Redecide

/-- A text of a list as it is read back; a cut one is a list of its own. -/
def storedItem [UnicodeData] (s : Str) : Str :=
  if truncated s then
    ['['] ++ joinWith ", ".toList [pyRepr (boundedText s maxMetadataChars), "True".toList, writeInt s.length,
      writeInt maxMetadataChars] ++ [']']
  else boundedText s maxMetadataChars

section Stored

variable [UnicodeData] {F : Type}

theorem itemText_storedText (s : Str) : (storedText (F := F) s).itemText = .ok (storedItem s) := by
  unfold storedText storedItem
  split
  · rfl
  · rfl

theorem boundedText_value (g : GateStatus) : boundedText g.value.toList maxMetadataChars = g.value.toList := by
  cases g with
  | passed | failed | failedPreexisting | notRun | waived => exact boundedText_harmless (by decide) (by decide)

/-- A result survives sanitizing up to its texts. -/
theorem transport_sanitize :
    Transport (F := F) JsonValue.sanitize (fun s => boundedText s maxMetadataChars) storedItem := by
  refine ⟨rfl, fun _ => rfl, fun g => congrArg JsonValue.str (boundedText_value g), fun _ => rfl, fun texts => ?_⟩
  refine ⟨texts.map storedText, congrArg JsonValue.arr (JsonValue.sanitizeItems_texts texts), ?_⟩
  induction texts with
  | nil => rfl
  | cons s texts ih =>
    rw [List.map_cons, List.mapM_cons, itemText_storedText, ih]
    rfl

omit [UnicodeData] in
theorem keys_nodup (entries : List (Str × JsonValue F)) : ((dictOf entries).map Prod.fst).Nodup := by
  refine (sorted_dictOf entries).imp ?_
  rintro a b hlt rfl
  exact List.lt_irrefl a hlt

theorem lookup_sanitized {k : Str} (hmark : ¬ truncationMark <:+ k) (entries : List (Str × JsonValue F)) :
    (JsonValue.sanitizeEntries (dictOf entries) []).lookup k = ((dictOf entries).lookup k).map JsonValue.sanitize := by
  rw [JsonValue.lookup_sanitizeEntries hmark _ _ (keys_nodup entries), List.lookup_nil, Option.or_none]

/-- The result that is read from the stored record. -/
def VerificationResult.stored (v : VerificationResult) : VerificationResult :=
  v.mapTexts (fun s => boundedText s maxMetadataChars) storedItem

theorem localResult_evidenceText [PyFloat F] {v : VerificationResult} {runId createdAt text : Str}
    {evidence config : JsonValue F}
    (h : evidenceText (.obj (verificationRecord runId createdAt v evidence config)) = some text) :
    localResult F text = .ok v.stored := by
  have hresult : (JsonValue.sanitizeEntries (verificationRecord runId createdAt v evidence config) []).lookup
      "result".toList = some (v.toDict (F := F)).sanitize := by
    rw [verificationRecord, lookup_sanitized (by decide), lookup_dictOf]
    rfl
  have hread : VerificationResult.fromDict (v.toDict (F := F)).sanitize = .ok v.stored :=
    transport_sanitize.fromDict fun k hmark => lookup_sanitized hmark v.items
  unfold localResult
  rw [loads_evidenceText h]
  show ((JsonValue.sanitizeEntries _ []).lookup _).elim _ _ = _
  rw [hresult]
  exact hread

omit [UnicodeData] in
/-- An entry with another key can be left out of a dict's entries. -/
theorem lookup_reverse_skip {k : Str} {e : Str × JsonValue F} (h : ¬ k = e.1) (before after : List (Str × JsonValue F)) :
    (before ++ e :: after).reverse.lookup k = (before ++ after).reverse.lookup k := by
  rw [List.reverse_append, List.reverse_append, List.reverse_cons, List.append_assoc, List.lookup_append,
    List.lookup_append, List.lookup_append, List.lookup_cons, beq_false_of_ne h]
  rfl

omit [UnicodeData] in
theorem VerificationResult.lookup_items (v : VerificationResult) {k : Str} (hhuman : ¬ k = "human_approved".toList)
    (hreal : ¬ k = "real_ci_passed".toList) : (v.items (F := F)).reverse.lookup k =
      (v.items.take 20 ++ v.items.drop 22).reverse.lookup k := by
  have hsplit : v.items (F := F) = v.items.take 20 ++ ("human_approved".toList, .bool v.humanApproved) ::
      ("real_ci_passed".toList, jsonFlag v.realCiPassed) :: v.items.drop 22 := rfl
  exact (congrArg (fun items => items.reverse.lookup k) hsplit).trans
    ((lookup_reverse_skip hhuman _ _).trans (lookup_reverse_skip hreal _ _))

/-- A result with the outcome of real CI and the answer of the human reviewer. -/
def VerificationResult.afterCi (v : VerificationResult) (passed humanApproved : Bool) : VerificationResult :=
  { v with realCiPassed := some passed, humanApproved }

theorem fromDict_withRealCi (v : VerificationResult) (passed humanApproved : Bool) :
    VerificationResult.fromDict (.obj (withRealCi F v passed humanApproved)) = .ok (v.afterCi passed humanApproved) := by
  refine VerificationResult.fromDict_of_lookup fun k => ?_
  rw [VerificationResult.entries, lookup_dictOf, withRealCi]
  by_cases hhuman : k = "human_approved".toList
  · rw [hhuman, lookup_insertEntry_self]
    rfl
  by_cases hreal : k = "real_ci_passed".toList
  · rw [lookup_insertEntry_ne _ hhuman, hreal, lookup_insertEntry_self]
    rfl
  · rw [lookup_insertEntry_ne _ hhuman, lookup_insertEntry_ne _ hreal, VerificationResult.entries, lookup_dictOf,
      v.lookup_items hhuman hreal, VerificationResult.lookup_items _ hhuman hreal]
    rfl

end Stored

section Agreement

variable [UnicodeData] {v w : VerificationResult}

/-- Two results that no branch of the decision tells apart. -/
structure Alike (v w : VerificationResult) : Prop where
  rejected : rejectedReasons v = [] ↔ rejectedReasons w = []
  notFixed : notFixedReasons v = [] ↔ notFixedReasons w = []
  regressions : regressionReasons v = [] ↔ regressionReasons w = []
  review : reviewReasons v = [] ↔ reviewReasons w = []
  realCi : v.realCiPassed = w.realCiPassed
  verified : isVerifiedFix v = isVerifiedFix w
  merge : mergeRequirementForRisk v = mergeRequirementForRisk w

theorem Alike.decide (h : Alike v w) : (decideRemediation v).state = (decideRemediation w).state ∧
    (decideRemediation v).mergeRequirement = (decideRemediation w).mergeRequirement := by
  simp only [decideRemediation, ne_eq, h.rejected, h.notFixed, h.regressions, h.review, h.realCi, h.verified, h.merge]
  split_ifs <;> exact ⟨rfl, rfl⟩

/-- The texts that the decision compares with are stored where they were given, and nowhere else. -/
theorem boundedText_compared {s : Str} (hs : s ∈ ["APPROVE".toList, "REJECT".toList, riskLow, riskMedium]) (other : Str) :
    boundedText other maxMetadataChars = s ↔ other = s := by
  have hplain : ∀ s ∈ ["APPROVE".toList, "REJECT".toList, riskLow, riskMedium],
      Harmless s ∧ s.length ≤ maxMetadataChars ∧ '[' ∉ s := by decide
  obtain ⟨hharmless, hlength, hbracket⟩ := hplain s hs
  exact boundedText_eq_iff hharmless hlength hbracket

theorem outcome_compared {s : Str} (hs : s ∈ ["APPROVE".toList, "REJECT".toList, riskLow, riskMedium]) (o : Option Str) :
    o.map (fun t => boundedText t maxMetadataChars) = some s ↔ o = some s := by
  cases o with
  | none => simp
  | some other => simpa using boundedText_compared hs other

theorem policySatisfied_stored : policySatisfied v.stored = policySatisfied v := by
  have happrove : v.stored.policyOutcome = some "APPROVE".toList ↔ v.policyOutcome = some "APPROVE".toList :=
    outcome_compared (by decide) v.policyOutcome
  have hhuman : v.stored.humanApproved = v.humanApproved := rfl
  simp only [policySatisfied, happrove, hhuman]

theorem riskSatisfied_stored : riskSatisfied v.stored = riskSatisfied v := by
  have hlow : v.stored.riskLevel = riskLow ↔ v.riskLevel = riskLow := boundedText_compared (by decide) v.riskLevel
  have hmedium : v.stored.riskLevel = riskMedium ↔ v.riskLevel = riskMedium :=
    boundedText_compared (by decide) v.riskLevel
  have hhuman : v.stored.humanApproved = v.humanApproved := rfl
  simp only [riskSatisfied, hlow, hmedium, hhuman]

/-- The stored result is decided as the result itself. -/
theorem alike_stored (v : VerificationResult) : Alike v.stored v := by
  have hcodes : v.stored.forbiddenDiffCodes = [] ↔ v.forbiddenDiffCodes = [] := List.map_eq_nil_iff
  have hfailures : v.stored.newTestFailures = [] ↔ v.newTestFailures = [] := List.map_eq_nil_iff
  have hreject : v.stored.policyOutcome = some "REJECT".toList ↔ v.policyOutcome = some "REJECT".toList :=
    outcome_compared (by decide) v.policyOutcome
  have hlow : v.stored.riskLevel = riskLow ↔ v.riskLevel = riskLow := boundedText_compared (by decide) v.riskLevel
  refine ⟨?_, Iff.rfl, ?_, ?_, rfl, ?_, ?_⟩
  · rw [rejectedReasons_eq_nil, rejectedReasons_eq_nil, hcodes]
    exact and_congr_right fun _ => and_congr_right fun _ => and_congr_right fun _ => and_congr_right fun _ =>
      and_congr_right fun _ => not_congr hreject
  · rw [regressionReasons_eq_nil, regressionReasons_eq_nil, hfailures]
    exact Iff.rfl
  · rw [reviewReasons_eq_nil, reviewReasons_eq_nil, policySatisfied_stored, riskSatisfied_stored]
    exact Iff.rfl
  · rw [Bool.eq_iff_iff, isVerifiedFix_iff, isVerifiedFix_iff, hfailures, policySatisfied_stored, riskSatisfied_stored]
    exact Iff.rfl
  · have hhuman : v.stored.humanApproved = v.humanApproved := rfl
    simp only [mergeRequirementForRisk, hlow, hhuman]

end Agreement

theorem verifyRealCi_evidenceText [UnicodeData] {F : Type} [PyFloat F] {v : VerificationResult} {passed humanApproved : Bool}
    {runId createdAt text : Str} {evidence config : JsonValue F}
    (hwrite : evidenceText (.obj (verificationRecord runId createdAt v evidence config)) = some text) :
    verifyRealCi F text passed humanApproved = .ok (decideRemediation (v.stored.afterCi passed humanApproved)) := by
  have hsteps : verifyRealCi F text passed humanApproved = (localResult F text).bind fun previous =>
      (VerificationResult.fromDict (.obj (withRealCi F previous passed humanApproved))).bind fun result =>
        .ok (decideRemediation result) := rfl
  rw [hsteps, localResult_evidenceText hwrite, Except.bind, fromDict_withRealCi, Except.bind]

/-- Deciding on the stored record agrees with deciding on the result, and a result's dict is read back as the result. -/
theorem verifyRealCi_agrees [UnicodeData] {F : Type} [PyFloat F] (v : VerificationResult) (passed humanApproved : Bool)
    {runId createdAt text : Str} {evidence config : JsonValue F}
    (hwrite : evidenceText (.obj (verificationRecord runId createdAt v evidence config)) = some text) :
    (∃ d, verifyRealCi F text passed humanApproved = .ok d ∧
      d.state = (decideRemediation (v.afterCi passed humanApproved)).state ∧
      d.missingEvidence = (decideRemediation (v.afterCi passed humanApproved)).missingEvidence ∧
      d.mergeRequirement = (decideRemediation (v.afterCi passed humanApproved)).mergeRequirement) ∧
    VerificationResult.fromDict (v.toDict (F := F)) = .ok v := by
  refine ⟨⟨decideRemediation (v.stored.afterCi passed humanApproved), verifyRealCi_evidenceText hwrite, ?_⟩, v.fromDict_toDict⟩
  · have hdecide := (alike_stored (v.afterCi passed humanApproved)).decide
    refine ⟨hdecide.1, ?_, hdecide.2⟩
    rw [decideRemediation_missingEvidence, decideRemediation_missingEvidence]
    rfl

/-- A repair that lacks the result of real CI alone. -/
def awaitingCi : VerificationResult where
  repairProposed := true
  patchApplied := true
  originalFailureReproduced := some true
  originalFailureResolved := some true
  targetedTestPassed := some true
  affectedTests := .passed
  regressionSuite := .passed
  testCountDecreased := some false
  coverage := .passed
  lint := .waived
  typecheck := .passed
  security := .passed
  build := .passed
  behavioralInvariants := .passed
  policyOutcome := some "APPROVE".toList
  riskLevel := riskLow
  riskReasons := ["documentation only".toList]

def awaitingRecord : JsonValue Unit :=
  .obj (@verificationRecord Unit asciiData "run-1".toList "2026-01-01T00:00:00Z".toList awaitingCi (.obj []) .null)

theorem awaitingRecord_dumpable : (@JsonValue.sanitize asciiData Unit awaitingRecord).dumpable = true := by
  decide +kernel

theorem awaitingRecord_text : ∃ text, @evidenceText asciiData Unit noFloats awaitingRecord = some text := by
  refine ⟨@JsonValue.write Unit noFloats indentedStyle 0 (@JsonValue.sanitize asciiData Unit awaitingRecord) ++ ['\n'], ?_⟩
  unfold evidenceText canonicalJson JsonValue.dumps
  rw [if_pos awaitingRecord_dumpable]
  exact Option.map_some _ _

theorem awaitingCi_verified : ∃ text, @evidenceText asciiData Unit noFloats awaitingRecord = some text ∧
    ∃ d, @verifyRealCi asciiData Unit noFloats text true false = .ok d ∧ d.state = .verifiedFixed ∧
      d.missingEvidence = [] ∧ d.mergeRequirement = .automaticVerificationAllowed := by
  obtain ⟨text, hwrite⟩ := awaitingRecord_text
  have hdirect : @decideRemediation asciiData (awaitingCi.afterCi true false) =
      @decideRemediation asciiData { awaitingCi with realCiPassed := some true } := rfl
  refine ⟨text, hwrite, ?_⟩
  obtain ⟨⟨d, hread, hstate, hmissing, hmerge⟩, -⟩ :=
    @verifyRealCi_agrees asciiData Unit noFloats awaitingCi true false _ _ _ _ _ hwrite
  rw [hdirect] at hstate hmissing hmerge
  exact ⟨d, hread, hstate, hmissing, hmerge⟩

end FailureOrchestrator
