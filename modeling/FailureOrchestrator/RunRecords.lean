import FailureOrchestrator.Exec
import FailureOrchestrator.JsonChars
import FailureOrchestrator.JsonEvidence
import FailureOrchestrator.RecordLines
import FailureOrchestrator.SanitizedEvidence

namespace FailureOrchestrator

def isIdChar (c : Char) : Bool := c.isAlphanum || c == '_' || c == '-'

/-- `_ID_RE.match(task_id)`; `$` also matches before a newline at the end. -/
def isTaskId (taskId : Str) : Bool :=
  let id := if taskId.getLast? = some '\n' then taskId.dropLast else taskId
  id.head?.elim false Char.isAlphanum && id.all isIdChar && decide (id.length ≤ 64)

/-- The run files of the tasks. -/
structure TaskStore where
  runFiles : List (Str × Str) := []

namespace TaskStore

section

variable [UnicodeData] {F : Type} [PyFloat F]

/-- `sanitize_value(entry)`. -/
def sanitized (entry : List (Str × JsonValue F)) : JsonValue F := (JsonValue.obj entry).sanitize

def runLine (entry : List (Str × JsonValue F)) : Str := rawWriter.write plainStyle 0 (sanitized entry)

/-- Appends a sanitized entry as one line. -/
def appendRun (store : TaskStore) (taskId : Str) (entry : List (Str × JsonValue F)) : Except PyError TaskStore :=
  if !isTaskId taskId then .error (.valueError ("invalid task id: " ++ String.ofList (pyRepr taskId)))
  else if !(sanitized entry).dumpable then
    .error (.valueError "Exceeds the limit (4300 digits) for integer string conversion")
  else
    .ok { runFiles := setEntry taskId ((store.runFiles.lookup taskId).getD [] ++ (runLine entry ++ ['\n'])) store.runFiles }

omit [UnicodeData] in
/-- The run entries of a task; `none` stands for an exception. -/
def runs (store : TaskStore) (taskId : Str) : Option (List (JsonValue F)) :=
  if !isTaskId taskId then none
  else match store.runFiles.lookup taskId with
    | none => some []
    | some text => (recordLines (universalNewlines text)).mapM JsonValue.loads

/-- Calls of `append_run` one after the other. -/
def appendRuns (store : TaskStore) (calls : List (Str × List (Str × JsonValue F))) : Except PyError TaskStore :=
  calls.foldlM (fun store call => store.appendRun call.1 call.2) store

end

/-- The entries that the calls append to a task. -/
def entriesOf {F : Type} (taskId : Str) (calls : List (Str × List (Str × JsonValue F))) : List (List (Str × JsonValue F)) :=
  (calls.filter fun call => call.1 = taskId).map (·.2)

end TaskStore

/-! ## What a JSON text cannot show -/

mutual

/-- No text of a list is cut, so that the sanitized value holds no tuple, which would be read back as a list. -/
def JsonValue.TupleFree [UnicodeData] {F : Type} : JsonValue F → Prop
  | .arr items => JsonValue.TupleFreeItems items
  | .obj entries => JsonValue.TupleFreeEntries entries
  | _ => True

def JsonValue.TupleFreeItems [UnicodeData] {F : Type} : List (JsonValue F) → Prop
  | [] => True
  | .str s :: items => truncated s = false ∧ JsonValue.TupleFreeItems items
  | x :: items => x.TupleFree ∧ JsonValue.TupleFreeItems items

def JsonValue.TupleFreeEntries [UnicodeData] {F : Type} : List (Str × JsonValue F) → Prop
  | [] => True
  | (_, x) :: entries => x.TupleFree ∧ JsonValue.TupleFreeEntries entries

end

/-- No string and no key has a line end that JSON leaves as it is: U+0085, U+2028 or U+2029. -/
def JsonValue.OneLine {F : Type} (v : JsonValue F) : Prop :=
  ∀ s ∈ v.texts, ∀ c ∈ s, isLineBreak c = true → c.toNat ≤ 126

namespace TaskStore

section

variable [UnicodeData] {F : Type} [PyFloat F] {taskId : Str} {store store' : TaskStore}
  {calls : List (Str × List (Str × JsonValue F))}

theorem runLine_bracket (entry : List (Str × JsonValue F)) :
    ∃ body, runLine entry = '\x7b' :: (body ++ ['\x7d']) := by
  unfold runLine sanitized
  rw [JsonValue.sanitize, StringWriter.write, JsonStyle.bracket]
  split
  next => exact ⟨[], rfl⟩
  next => exact ⟨_, rfl⟩

theorem runLine_recordLine (entry : List (Str × JsonValue F)) : RecordLine (runLine entry) := by
  obtain ⟨body, hbody⟩ := runLine_bracket entry
  refine ⟨⟨'\x7b', by rw [hbody]; rfl, by decide⟩, ⟨'\x7d', ?_, by decide⟩, fun c hc => ?_⟩
  · rw [hbody, ← List.cons_append, List.getLast?_concat]
    rfl
  · by_contra hnarrow
    obtain ⟨s, -, -, hwide⟩ := (mem_rawWrite plainStyle_oneLine (by omega) _ _).mp hc
    omega

theorem runLine_unbroken_iff (entry : List (Str × JsonValue F)) : Unbroken (runLine entry) ↔ (sanitized entry).OneLine := by
  have hplain {c : Char} (hc : isLineBreak c = true) : ¬ (32 ≤ c.toNat ∧ c.toNat ≤ 126) := by
    intro h
    rw [isLineBreak_of_printable h] at hc
    cases hc
  constructor
  · intro h s hs c hc hbreak
    by_contra hwide
    have hmem := (mem_rawWrite plainStyle_oneLine (hplain hbreak) (sanitized entry) 0).mpr ⟨s, hs, hc, by omega⟩
    rw [h c hmem] at hbreak
    cases hbreak
  · intro h c hc
    by_contra hbreak
    rw [Bool.not_eq_false] at hbreak
    obtain ⟨s, hs, hmem, hwide⟩ := (mem_rawWrite plainStyle_oneLine (hplain hbreak) _ _).mp hc
    have hnarrow := h s hs c hmem hbreak
    omega

theorem loads_runLine {entry : List (Str × JsonValue F)} (h : (sanitized entry).dumpable = true) :
    JsonValue.loads (runLine entry) = some (sanitized entry) :=
  loads_written rawWriter plainStyle_valid (JsonValue.sanitize_ordered _) h

/-! ## The file of a task -/

/-- A call adds the line of its entry to the file of its task and leaves the others. -/
theorem appendRun_file (taskId : Str) {id : Str} {entry : List (Str × JsonValue F)} (h : store.appendRun id entry = .ok store') :
    (sanitized entry).dumpable = true ∧ store'.runFiles.lookup taskId =
      if id = taskId then some ((store.runFiles.lookup taskId).getD [] ++ (runLine entry ++ ['\n']))
      else store.runFiles.lookup taskId := by
  unfold appendRun at h
  split at h
  next => cases h
  next =>
    split at h
    next => cases h
    next hdump =>
      cases h
      refine ⟨by simpa using hdump, ?_⟩
      split
      next heq => rw [heq, lookup_setEntry_self]
      next hne => exact lookup_setEntry_ne (Ne.symm hne) _

/-- The calls leave the lines of a task's entries behind what its file held. -/
theorem appendRuns_file (taskId : Str) (h : store.appendRuns calls = .ok store') :
    (∀ entry ∈ entriesOf taskId calls, (sanitized entry).dumpable = true) ∧
    store'.runFiles.lookup taskId = if entriesOf taskId calls = [] then store.runFiles.lookup taskId
      else some ((store.runFiles.lookup taskId).getD [] ++ unlines ((entriesOf taskId calls).map runLine)) := by
  induction calls generalizing store with
  | nil =>
    cases h
    exact ⟨by simp [entriesOf], by simp [entriesOf]⟩
  | cons call calls ih =>
    obtain ⟨mid, hcall, hrest⟩ := bind_eq_ok h
    obtain ⟨hdump, hfile⟩ := appendRun_file taskId hcall
    obtain ⟨hdumps, hfiles⟩ := ih hrest
    by_cases hid : call.1 = taskId
    · have hentries : entriesOf taskId (call :: calls) = call.2 :: entriesOf taskId calls := by simp [entriesOf, hid]
      rw [if_pos hid] at hfile
      rw [hentries, if_neg (List.cons_ne_nil _ _), hfiles, hfile]
      refine ⟨List.forall_mem_cons.mpr ⟨hdump, hdumps⟩, ?_⟩
      split
      next hnil => simp [hnil, unlines]
      next => simp [unlines]
    · have hentries : entriesOf taskId (call :: calls) = entriesOf taskId calls := by simp [entriesOf, hid]
      rw [if_neg hid] at hfile
      rw [hentries, ← hfile]
      exact ⟨hdumps, hfiles⟩

theorem unlines_no_return (entries : List (List (Str × JsonValue F))) : '\r' ∉ unlines (entries.map runLine) := by
  intro h
  obtain ⟨l, hl, hmem⟩ := List.mem_flatMap.mp h
  obtain ⟨entry, -, rfl⟩ := List.mem_map.mp hl
  have hline : '\r' ∈ runLine entry := by simpa using hmem
  exact absurd ((runLine_recordLine entry).narrow _ hline) (by decide)

/-- `runs` reads the lines that the calls appended. -/
theorem runs_appended (h : appendRuns {} calls = .ok store) (hid : isTaskId taskId = true) :
    store.runs taskId = (recordLines (unlines ((entriesOf taskId calls).map runLine))).mapM (JsonValue.loads (F := F)) := by
  have hfile := (appendRuns_file taskId h).2
  unfold runs
  rw [hid, hfile]
  split
  next hnil => cases hnil
  next =>
    by_cases hnone : entriesOf taskId calls = []
    · rw [hnone]
      rfl
    · rw [if_neg hnone]
      show (recordLines (universalNewlines (unlines _))).mapM _ = _
      rw [universalNewlines_eq_self (unlines_no_return _)]

omit [UnicodeData] in
theorem mapM_length {α β : Type} {f : α → Option β} {xs : List α} {ys : List β} (h : xs.mapM f = some ys) :
    ys.length = xs.length := by
  induction xs generalizing ys with
  | nil =>
    cases h
    rfl
  | cons x xs ih =>
    rw [List.mapM_cons] at h
    obtain ⟨y, -, hrest⟩ := Option.bind_eq_some_iff.mp h
    obtain ⟨ys', htail, hys⟩ := Option.bind_eq_some_iff.mp hrest
    cases hys
    rw [List.length_cons, List.length_cons, ih htail]

theorem mapM_runLine {entries : List (List (Str × JsonValue F))} (h : ∀ entry ∈ entries, (sanitized entry).dumpable = true) :
    (entries.map runLine).mapM (JsonValue.loads (F := F)) = some (entries.map sanitized) := by
  induction entries with
  | nil => rfl
  | cons entry entries ih =>
    obtain ⟨hdump, hdumps⟩ := List.forall_mem_cons.mp h
    rw [List.map_cons, List.mapM_cons, loads_runLine hdump, ih hdumps]
    rfl

/-- `runs` returns the sanitized entries in their order exactly when none of them has a line end that JSON leaves as it is,
and no tuple. -/
theorem runs_returns_iff (h : appendRuns {} calls = .ok store) (hid : isTaskId taskId = true) :
    (store.runs taskId = some ((entriesOf taskId calls).map sanitized) ∧
      ∀ entry ∈ entriesOf taskId calls, (JsonValue.obj entry).TupleFree) ↔
    ∀ entry ∈ entriesOf taskId calls, (sanitized entry).OneLine ∧ (JsonValue.obj entry).TupleFree := by
  have hlines : ∀ l ∈ (entriesOf taskId calls).map runLine, RecordLine l := by
    intro l hl
    obtain ⟨entry, -, rfl⟩ := List.mem_map.mp hl
    exact runLine_recordLine entry
  rw [runs_appended h hid]
  constructor
  · rintro ⟨hruns, htuples⟩ entry hentry
    have hlength := mapM_length hruns
    rw [List.length_map, ← List.length_map (f := runLine)] at hlength
    have hunbroken := (recordLines_length_iff hlines).mp hlength.symm
    exact ⟨(runLine_unbroken_iff entry).mp (hunbroken _ (List.mem_map_of_mem hentry)), htuples entry hentry⟩
  · intro hentries
    have hunbroken : ∀ l ∈ (entriesOf taskId calls).map runLine, Unbroken l := by
      intro l hl
      obtain ⟨entry, hentry, rfl⟩ := List.mem_map.mp hl
      exact (runLine_unbroken_iff entry).mpr (hentries entry hentry).1
    refine ⟨?_, fun entry hentry => (hentries entry hentry).2⟩
    rw [recordLines_unlines hlines hunbroken]
    exact mapM_runLine (appendRuns_file taskId h).1

end

def plainEntry (repository : String) : List (Str × JsonValue Unit) := [("repository".toList, .str repository.toList)]

/-- Two entries of one task, and one of another task between them. -/
def plainCalls : List (Str × List (Str × JsonValue Unit)) :=
  [("task-1".toList, plainEntry "a"), ("task-2".toList, plainEntry "b"), ("task-1".toList, plainEntry "c")]

theorem plainRun_returned : ∃ store, @appendRuns asciiData Unit noFloats {} plainCalls = .ok store ∧
    @runs Unit noFloats store "task-1".toList =
      some [@sanitized asciiData Unit (plainEntry "a"), @sanitized asciiData Unit (plainEntry "c")] := by
  have happend : @appendRuns asciiData Unit noFloats {} plainCalls =
      .ok ⟨[("task-1".toList, "\x7b\"repository\": \"a\"\x7d\n\x7b\"repository\": \"c\"\x7d\n".toList),
        ("task-2".toList, "\x7b\"repository\": \"b\"\x7d\n".toList)]⟩ := rfl
  have honly : entriesOf "task-1".toList plainCalls = [plainEntry "a", plainEntry "c"] := rfl
  refine ⟨_, happend, ?_⟩
  have hiff := @runs_returns_iff asciiData Unit noFloats _ _ _ happend (by decide : isTaskId "task-1".toList = true)
  rw [honly] at hiff
  refine (hiff.mpr fun entry hentry => ?_).1
  rcases List.mem_cons.mp hentry with rfl | hentry
  · refine ⟨?_, trivial, trivial⟩
    unfold JsonValue.OneLine
    decide
  · obtain rfl := List.mem_singleton.mp hentry
    refine ⟨?_, trivial, trivial⟩
    unfold JsonValue.OneLine
    decide

def separatorEntry : List (Str × JsonValue Unit) := [("repository".toList, .str "a\u2028b".toList)]

/-- A line separator in a repository name: the two halves of the line are no JSON. -/
theorem separatorRun_lost : ¬ ∀ (calls : List (Str × List (Str × JsonValue Unit))) (store : TaskStore),
    @appendRuns asciiData Unit noFloats {} calls = .ok store →
    @runs Unit noFloats store "task-1".toList = some ((entriesOf "task-1".toList calls).map (@sanitized asciiData Unit)) := by
  intro h
  have happend : @appendRuns asciiData Unit noFloats {} [("task-1".toList, separatorEntry)] =
      .ok ⟨[("task-1".toList, "\x7b\"repository\": \"a\u2028b\"\x7d\n".toList)]⟩ := rfl
  have hnone : (@runs Unit noFloats ⟨[("task-1".toList, "\x7b\"repository\": \"a\u2028b\"\x7d\n".toList)]⟩
      "task-1".toList).isNone = true := by
    decide +kernel
  rw [h _ _ happend] at hnone
  cases hnone

end TaskStore

end FailureOrchestrator
