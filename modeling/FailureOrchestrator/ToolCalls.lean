import FailureOrchestrator.EnclosedKeys
import FailureOrchestrator.Evaluator

namespace FailureOrchestrator

open Regex

/-- A limit in seconds; `str` of a float is short and has no other characters. -/
structure TimeLimit where
  seconds : WithTop ℚ
  text : Str
  short : text.length ≤ 24
  plain : ∀ c ∈ text, c ∈ "0123456789.e+-infa".toList

structure ToolSpec where
  name : String
  riskLevel : ToolRiskLevel
  timeoutSeconds : TimeLimit

/-- What becomes of a tool: it returns a result, or raises an exception with a message. -/
inductive Execution where
  | returned (result : CommandResult)
  | raised (message : Str)

structure Tool where
  spec : ToolSpec
  execute : List (String × Json) → Execution

/-- Invalid tool registration or lookup. -/
structure ToolValidationError where
  text : Str

/-- Tools keyed by unique name. -/
structure ToolRegistry where
  tools : List (String × Tool) := []
  named : ∀ entry ∈ tools, entry.1 = entry.2.spec.name := by simp
  nodup : (tools.map (·.1)).Nodup := by simp

structure CallRecord extends ToolCall where
  callId : Str
  runId : Str
  arguments : List (String × Json)

structure CallResult extends CommandResult where
  callId : Str
  runId : Str

/-- `{**first, **second}`. -/
def mergeEntries (first second : List (String × Json)) : List (String × Json) :=
  first.map (fun entry => (entry.1, (second.lookup entry.1).getD entry.2)) ++
    second.filter fun entry => !(first.map (·.1)).contains entry.1

def maxStdout : Nat := 20000

def maxStderr : Nat := 8000

namespace ToolRegistry

def register (registry : ToolRegistry) (tool : Tool) : Except ToolValidationError ToolRegistry :=
  if h : tool.spec.name ∈ registry.tools.map (·.1) then
    .error ⟨"duplicate tool name: ".toList ++ tool.spec.name.toList⟩
  else
    .ok
      { tools := registry.tools ++ [(tool.spec.name, tool)]
        named := fun entry hentry => (List.mem_append.mp hentry).elim (registry.named entry) fun hlast => by
          rw [List.mem_singleton.mp hlast]
        nodup := by
          rw [List.map_append, List.map_singleton]
          exact List.nodup_append'.mpr ⟨registry.nodup, List.nodup_singleton _, by simpa using h⟩ }

def get (registry : ToolRegistry) (name : String) : Except ToolValidationError Tool :=
  match registry.tools.lookup name with
  | none => .error ⟨"unknown tool: ".toList ++ name.toList⟩
  | some tool => .ok tool

variable [UnicodeData]

/-- `sanitize_text((text or "")[:limit])`. -/
def boundOutput (limit : Nat) (text : Str) : Str := (sanitizeText (text.take limit)).1

/-- Runs a tool; `elapsed` is the time in milliseconds until the result is built. -/
def invoke (registry : ToolRegistry) (callId runId : Str) (elapsed : ℚ) (toolName : String)
    (arguments : List (String × Json)) : Except ToolValidationError (CallRecord × CallResult) := do
  let tool ← registry.get toolName
  let call : CallRecord :=
    { callId := callId, runId := runId, toolName := toolName, arguments := arguments, riskLevel := tool.spec.riskLevel }
  match tool.execute arguments with
  | .raised message =>
    .ok (call,
      { toolName := toolName, success := false, exitCode := 1, stderr := message,
        metadata := [("duration_ms", .num elapsed)], callId := callId, runId := runId })
  | .returned result =>
    let stdout := boundOutput maxStdout result.stdout
    let stderr := boundOutput maxStderr result.stderr
    let metadata := mergeEntries [("duration_ms", .num elapsed)] result.metadata
    if tool.spec.timeoutSeconds.seconds < ((elapsed / 1000 : ℚ) : WithTop ℚ) then
      .ok (call,
        { toolName := toolName, success := false, exitCode := 124, stdout := stdout,
          stderr := if stderr.isEmpty then "timeout>".toList ++ tool.spec.timeoutSeconds.text ++ ['s'] else stderr,
          metadata := metadata, callId := callId, runId := runId })
    else
      .ok (call,
        { toolName := toolName, success := result.success, exitCode := result.exitCode, stdout := stdout, stderr := stderr,
          metadata := metadata, callId := callId, runId := runId })

end ToolRegistry

/-! ## Lengths of redacted texts -/

/-- How much longer a text gets when its matches are replaced. -/
def growth (f : Cursor → Str) (ms : List (Cursor × Cursor)) : ℤ :=
  (ms.map fun p => ((f p.2).length : ℤ) - ((p.2.before.length : ℤ) - p.1.before.length)).sum

theorem growth_cons (f : Cursor → Str) (p : Cursor × Cursor) (ms : List (Cursor × Cursor)) :
    growth f (p :: ms) = ((f p.2).length : ℤ) - ((p.2.before.length : ℤ) - p.1.before.length) + growth f ms := rfl

section

variable [UnicodeData] {text before rest out : Str} {ms : List (Cursor × Cursor)}

theorem Regex.Substitutes.length_eq {r : Regex} {f : Cursor → Str} (h : Substitutes r (fun _ m => f m) before rest out ms) :
    (out.length : ℤ) = rest.length + growth f ms := by
  induction h with
  | stop => simp [growth]
  | step _ _ _ ih =>
    rw [growth_cons]
    simp only [List.length_append, List.length_reverse, Nat.cast_add]
    omega

/-- What the passes for the kinds add to a text; it is negative where the secrets are longer than the marks. -/
def totalGrowth (kinds : List SecretKind) (text : Str) : ℤ :=
  ((redactionRun kinds text).map fun pass => growth pass.1.replacement (pass.1.matchesIn pass.2)).sum

theorem redactAll_length (kinds : List SecretKind) (text : Str) :
    ((redactAll kinds text).length : ℤ) = text.length + totalGrowth kinds text := by
  induction kinds generalizing text with
  | nil => exact (Int.add_zero _).symm
  | cons kind kinds ih =>
    have hpass := (kind.redact_substitutes text).length_eq
    have hrun : totalGrowth (kind :: kinds) text =
        growth kind.replacement (kind.matchesIn text) + totalGrowth kinds (kind.redact text) := rfl
    rw [hrun, ← add_assoc, ← hpass]
    exact ih (kind.redact text)

/-! ## Bounded and sanitized output -/

/-- A text within its bound that redaction keeps and in which it finds no secret of the certain kinds. -/
def BoundedOutput (limit : Nat) (text : Str) : Prop :=
  text.length ≤ limit ∧ (sanitizeText text).1 = text ∧ containsHighConfidenceSecret text = false

/-- The marks that replace secrets fit within the limit, and no AWS key is uncovered. -/
def FitsRedacted (limit : Nat) (text : Str) : Prop :=
  (text.length : ℤ) + totalGrowth SecretKind.all text ≤ limit ∧ KeysEnclosed (beforePrivateKeys text)

theorem boundOutput_iff (limit : Nat) (text : Str) :
    BoundedOutput limit (ToolRegistry.boundOutput limit text) ↔ FitsRedacted limit (text.take limit) := by
  unfold BoundedOutput FitsRedacted ToolRegistry.boundOutput
  rw [untouched_iff, sanitizeText_untouched_iff, ← redactAll_length, ← sanitizeText_eq_redactAll, Nat.cast_le]

theorem boundedOutput_iff_untouched {limit : Nat} :
    BoundedOutput limit text ↔ text.length ≤ limit ∧ ∀ kind : SecretKind, kind.Untouched text := by
  unfold BoundedOutput
  rw [untouched_iff]

theorem boundedOutput_nil (limit : Nat) : BoundedOutput limit [] := by
  refine boundedOutput_iff_untouched.mpr ⟨Nat.zero_le _, fun kind => ?_⟩
  have hnowhere (P : Str → Str → Prop) : Nowhere P [] [] [] := fun u w heq hw =>
    absurd (List.append_eq_nil_iff.mp heq.symm).2 hw
  cases kind with
  | assignment => exact hnowhere fun _ => Unsettled
  | bearer | githubToken | awsKey | connection | privateKey => exact hnowhere (SecretKind.pattern _).Begins

/-- A text without the characters that the patterns need. -/
theorem boundedOutput_of_absent {limit : Nat} (hlength : text.length ≤ limit)
    (h : ∀ c ∈ text, isSpace c = false ∧ c ∉ "_K:=B".toList) : BoundedOutput limit text := by
  have hneeds (kind : SecretKind) : ∃ p, kind.pattern.Needs p ∧ ∀ c ∈ text, p c = false := by
    cases kind with
    | privateKey =>
      refine ⟨(· == 'B'), .inl (.inr (.inl (.inl fun _ hc => hc))), fun c hc => ?_⟩
      have hno := (h c hc).2
      simp_all
    | bearer => exact ⟨_, SecretKind.needs _, fun c hc => (h c hc).1⟩
    | githubToken | awsKey | assignment | connection =>
      refine ⟨_, SecretKind.needs _, fun c hc => ?_⟩
      have hno := (h c hc).2
      simp_all [SecretKind.neededChar]
  refine ⟨hlength, sanitizeText_eq_self hneeds, containsHighConfidenceSecret_eq_false.mpr fun kind _ => ?_⟩
  obtain ⟨p, hp, hfree⟩ := hneeds kind
  rw [← Bool.not_eq_true, found_iff kind.consumes]
  rintro ⟨u, v, m', rfl, hm⟩
  obtain ⟨c, hc, hpc⟩ := hp.mem hm
  rw [hfree c (List.mem_append_right _ hc)] at hpc
  cases hpc

theorem boundedOutput_timeout (limit : TimeLimit) :
    BoundedOutput maxStderr ("timeout>".toList ++ limit.text ++ ['s']) := by
  have hplain : ∀ c ∈ "timeout>".toList ++ "0123456789.e+-infa".toList ++ ['s'],
      isSpace c = false ∧ c ∉ "_K:=B".toList := by
    decide +kernel
  refine boundedOutput_of_absent ?_ fun c hc => hplain c ?_
  · have hshort := limit.short
    have hmark : "timeout>".toList.length = 8 := rfl
    simp only [List.length_append, List.length_singleton, hmark, maxStderr]
    omega
  · simp only [List.mem_append] at hc ⊢
    exact hc.imp_left (.imp_right (limit.plain c))

/-! ## Calls -/

namespace ToolRegistry

variable {registry : ToolRegistry} {toolName : String} {tool : Tool} {arguments : List (String × Json)}

theorem invoke_raised (hregistered : registry.tools.lookup toolName = some tool) {message : Str}
    (hexec : tool.execute arguments = .raised message) (callId runId : Str) (elapsed : ℚ) :
    ∃ call result, registry.invoke callId runId elapsed toolName arguments = .ok (call, result) ∧
      result.stdout = [] ∧ result.stderr = message := by
  unfold invoke get
  simp only [hregistered, bind, Except.bind, hexec]
  exact ⟨_, _, rfl, rfl, rfl⟩

/-- The error text of a late call stands in for an empty stream only. -/
theorem invoke_returned (hregistered : registry.tools.lookup toolName = some tool) {output : CommandResult}
    (hexec : tool.execute arguments = .returned output) (callId runId : Str) (elapsed : ℚ) :
    ∃ call result, registry.invoke callId runId elapsed toolName arguments = .ok (call, result) ∧
      result.stdout = boundOutput maxStdout output.stdout ∧
      (result.stderr = boundOutput maxStderr output.stderr ∨ boundOutput maxStderr output.stderr = [] ∧
        result.stderr = "timeout>".toList ++ tool.spec.timeoutSeconds.text ++ ['s']) := by
  unfold invoke get
  simp only [hregistered, bind, Except.bind, hexec]
  split
  next =>
    refine ⟨_, _, rfl, rfl, ?_⟩
    split
    next hempty => exact .inr ⟨List.isEmpty_iff.mp hempty, rfl⟩
    next => exact .inl rfl
  next => exact ⟨_, _, rfl, rfl, .inl rfl⟩

/-- A call gives bounded and sanitized output exactly when an exception's message is so as it is, and when in what is kept of
the streams the marks fit within the bounds and no key is uncovered. -/
theorem invoke_bounded_iff (hregistered : registry.tools.lookup toolName = some tool) (callId runId : Str) (elapsed : ℚ) :
    (∀ call result, registry.invoke callId runId elapsed toolName arguments = .ok (call, result) →
      BoundedOutput maxStdout result.stdout ∧ BoundedOutput maxStderr result.stderr) ↔
    match tool.execute arguments with
    | .raised message => message.length ≤ maxStderr ∧ ∀ kind : SecretKind, kind.Untouched message
    | .returned output => FitsRedacted maxStdout (output.stdout.take maxStdout) ∧
        FitsRedacted maxStderr (output.stderr.take maxStderr) := by
  cases hexec : tool.execute arguments with
  | raised message =>
    obtain ⟨call, result, hinvoke, hout, herr⟩ := invoke_raised hregistered hexec callId runId elapsed
    simp only [hinvoke, Except.ok.injEq, Prod.mk.injEq, and_imp]
    rw [← boundedOutput_iff_untouched, ← herr]
    constructor
    · exact fun h => (h call result rfl rfl).2
    · rintro h _ _ rfl rfl
      rw [hout]
      exact ⟨boundedOutput_nil _, h⟩
  | returned output =>
    obtain ⟨call, result, hinvoke, hout, herr⟩ := invoke_returned hregistered hexec callId runId elapsed
    have hstderr : BoundedOutput maxStderr result.stderr ↔
        BoundedOutput maxStderr (boundOutput maxStderr output.stderr) := by
      rcases herr with herr | ⟨hempty, herr⟩
      · rw [herr]
      · rw [herr, hempty]
        exact iff_of_true (boundedOutput_timeout _) (boundedOutput_nil _)
    simp only [hinvoke, Except.ok.injEq, Prod.mk.injEq, and_imp]
    rw [← boundOutput_iff, ← boundOutput_iff, ← hout, ← hstderr]
    constructor
    · exact fun h => h call result rfl rfl
    · rintro h _ _ rfl rfl
      exact h

end ToolRegistry

end

open ToolRegistry

def halfMinute : TimeLimit := ⟨30, "30.0".toList, by decide, by decide +kernel⟩

/-- A tool that raises an exception with the message. -/
def raisingTool (message : String) : Tool :=
  { spec := ⟨"file_read", .readOnly, halfMinute⟩, execute := fun _ => .raised message.toList }

def raisingRegistry (message : String) : ToolRegistry :=
  { tools := [("file_read", raisingTool message)], named := by simp [raisingTool] }

theorem plainMessage_bounded :
    (raisingRegistry "invalid path: a").tools.lookup "file_read" = some (raisingTool "invalid path: a") ∧
    ∀ call result, @invoke asciiData (raisingRegistry "invalid path: a") [] [] 5 "file_read" [] = .ok (call, result) →
      @BoundedOutput asciiData maxStdout result.stdout ∧ @BoundedOutput asciiData maxStderr result.stderr :=
  ⟨rfl, (@invoke_bounded_iff asciiData (raisingRegistry "invalid path: a") "file_read" (raisingTool "invalid path: a") []
    rfl [] [] 5).mpr ⟨by decide, (@untouched_iff asciiData _).mp ⟨by decide +kernel, by decide +kernel⟩⟩⟩

theorem secretMessage_shown :
    ¬ ∀ call result, @invoke asciiData (raisingRegistry "invalid path: ghp_abcdefghij0123456789") [] [] 5 "file_read" [] =
        .ok (call, result) →
      @BoundedOutput asciiData maxStdout result.stdout ∧ @BoundedOutput asciiData maxStderr result.stderr := by
  intro h
  obtain ⟨-, -, hnone⟩ := (h _ _ rfl).2
  revert hnone
  decide +kernel

end FailureOrchestrator
