import FailureOrchestrator.Exec
import FailureOrchestrator.FileTree
import FailureOrchestrator.ToolCalls

namespace FailureOrchestrator

inductive FileReadError where
  | validation (e : ToolValidationError)
  | path (e : PathError)

/-- A relative path without `..` parts. -/
def safeRelpath (path : Str) : Except ToolValidationError Str :=
  let normalized := replaceChar '\\' '/' path
  if normalized.isEmpty || startsWith normalized ['/'] || (splitChar '/' normalized).contains "..".toList then
    .error ⟨"path out of scope: ".toList ++ path⟩
  else .ok normalized

structure FileReadTool where
  root : Option PurePath := none

namespace FileReadTool

variable [UnicodeData]

def readTool (success : Bool) (exitCode : Int) (stdout stderr : Str) (metadata : List (String × Json)) : CommandResult :=
  { toolName := "file_reader", success := success, exitCode := exitCode, stdout := stdout, stderr := stderr,
    metadata := metadata }

/-- Reads a file of the tree; `path` is `str(arguments.get("path") or "")`. -/
def execute (tool : FileReadTool) (tree : FileTree) (cwd : Location) (path : Str) :
    Except FileReadError CommandResult := do
  let rel ← (safeRelpath path).mapError .validation
  match tool.root with
  | none =>
    .ok (readTool true 0 [] []
      [("path", .str rel), ("exists", .bool false), ("note", .text "no_root_configured")])
  | some root =>
    let resolved ← (tree.resolve cwd (root.join (PurePath.ofText rel))).mapError .path
    let base ← (tree.resolve cwd root).mapError .path
    if !startsWith (Location.text resolved) (Location.text base) then
      .error (.validation ⟨"path escape blocked".toList⟩)
    else
      match tree.node resolved with
      | some (.file text) =>
        .ok (readTool true 0 (sanitizeText (text.take 20000)).1 [] [("path", .str rel), ("exists", .bool true)])
      | _ => .ok (readTool false 1 [] "file_not_found".toList [("path", .str rel)])

/-- The argument leads to the file at `loc`, and the root is at `base`. -/
structure LeadsTo (tool : FileReadTool) (tree : FileTree) (cwd : Location) (path : Str) (base loc : Location)
    (text : Str) : Prop where
  resolved : ∃ root rel, tool.root = some root ∧ safeRelpath path = .ok rel ∧ tree.resolve cwd root = .ok base ∧
    tree.resolve cwd (root.join (PurePath.ofText rel)) = .ok loc
  isFile : tree.node loc = some (.file text)

/-- The result shows a file. -/
def Shows (result : CommandResult) : Prop := result.metadata.lookup "exists" = some (.bool true)

variable {tool : FileReadTool} {tree : FileTree} {cwd : Location} {path : Str} {result : CommandResult}

omit [UnicodeData] in
theorem LeadsTo.unique {base base' loc loc' : Location} {text text' : Str}
    (h : tool.LeadsTo tree cwd path base loc text) (h' : tool.LeadsTo tree cwd path base' loc' text') :
    base = base' ∧ loc = loc' ∧ text = text' := by
  obtain ⟨⟨root, rel, hroot, hrel, hbase, hloc⟩, hfile⟩ := h
  obtain ⟨⟨root', rel', hroot', hrel', hbase', hloc'⟩, hfile'⟩ := h'
  obtain rfl := Option.some.inj (hroot.symm.trans hroot')
  obtain rfl := Except.ok.inj (hrel.symm.trans hrel')
  obtain rfl := Except.ok.inj (hbase.symm.trans hbase')
  obtain rfl := Except.ok.inj (hloc.symm.trans hloc')
  rw [hfile, Option.some.injEq, FileNode.file.injEq] at hfile'
  exact ⟨rfl, rfl, hfile'⟩

/-- A shown file is the one that the argument leads to, and its place passed the check of texts. -/
theorem execute_shows (h : tool.execute tree cwd path = .ok result) (hshows : Shows result) :
    ∃ base loc text, tool.LeadsTo tree cwd path base loc text ∧ (base <+: loc ∨ ExtendsName base loc) ∧
      result.stdout = (sanitizeText (text.take 20000)).1 := by
  unfold execute at h
  obtain ⟨rel, hrel, h⟩ := bind_eq_ok h
  split at h
  next =>
    cases h
    cases hshows
  next root hroot =>
    obtain ⟨loc, hloc, h⟩ := bind_eq_ok h
    obtain ⟨base, hbase, h⟩ := bind_eq_ok h
    split at h
    next => cases h
    next hcheck =>
      rw [Bool.not_eq_true', Bool.not_eq_false, text_prefix_iff] at hcheck
      split at h
      next text hfile =>
        cases h
        exact ⟨base, loc, text, ⟨⟨root, rel, hroot, mapError_eq_ok.mp hrel, mapError_eq_ok.mp hbase, mapError_eq_ok.mp hloc⟩, hfile⟩,
          hcheck, rfl⟩
      next =>
        cases h
        cases hshows

theorem execute_of_leadsTo {base loc : Location} {text : Str} (h : tool.LeadsTo tree cwd path base loc text)
    (hcheck : base <+: loc ∨ ExtendsName base loc) : ∃ result, tool.execute tree cwd path = .ok result ∧ Shows result := by
  obtain ⟨⟨root, rel, hroot, hrel, hbase, hloc⟩, hfile⟩ := h
  unfold execute
  rw [hrel, hroot]
  simp only [Except.mapError, bind, Except.bind, hloc, hbase, text_prefix_iff.mpr hcheck, hfile]
  exact ⟨_, rfl, rfl⟩

/-- Shown files are within the root exactly when the argument leads to no file in a place beside the root whose name goes on
after the root's name. -/
theorem execute_contained_iff :
    (∀ result, tool.execute tree cwd path = .ok result → Shows result →
      ∃ base loc text, tool.LeadsTo tree cwd path base loc text ∧
        result.stdout = (sanitizeText (text.take 20000)).1 ∧ base <+: loc) ↔
    ∀ base loc text, tool.LeadsTo tree cwd path base loc text → ¬ ExtendsName base loc := by
  constructor
  · intro h base loc text hleads hextends
    obtain ⟨result, hresult, hshows⟩ := execute_of_leadsTo hleads (.inr hextends)
    obtain ⟨base', loc', text', hleads', -, hin⟩ := h result hresult hshows
    obtain ⟨rfl, rfl, -⟩ := hleads.unique hleads'
    exact hextends.not_prefix hin
  · intro h result hresult hshows
    obtain ⟨base, loc, text, hleads, hcheck, hout⟩ := execute_shows hresult hshows
    exact ⟨base, loc, text, hleads, hout, hcheck.resolve_right (h base loc text hleads)⟩

end FileReadTool

open FileReadTool

def repoName : FileName := ⟨"repo".toList, by decide, by decide⟩

def siblingName : FileName := ⟨"repo-secret".toList, by decide, by decide⟩

def linkName : FileName := ⟨"notes".toList, by decide, by decide⟩

def keyName : FileName := ⟨"key".toList, by decide, by decide⟩

/-- A link in `/repo` to a file of `/repo-secret`. -/
def siblingTree : FileTree where
  entries :=
    [([repoName], .directory), ([repoName, linkName], .link "../repo-secret/key".toList), ([siblingName], .directory),
      ([siblingName, keyName], .file "hunter2".toList)]
  nodup := by decide +kernel
  below := by simp
  parents := by simp

def repoTool : FileReadTool := { root := some (PurePath.ofText "/repo".toList) }

theorem siblingKey_reached :
    repoTool.LeadsTo siblingTree [] "notes".toList [repoName] [siblingName, keyName] "hunter2".toList :=
  ⟨⟨_, "notes".toList, rfl, rfl, rfl, rfl⟩, rfl⟩

theorem siblingKey_shown :
    ¬ ∀ result, @execute asciiData repoTool siblingTree [] "notes".toList = .ok result → Shows result →
      ∃ base loc text, repoTool.LeadsTo siblingTree [] "notes".toList base loc text ∧
        result.stdout = (@sanitizeText asciiData (text.take 20000)).1 ∧ base <+: loc := by
  intro h
  have hextends : ExtendsName [repoName] [siblingName, keyName] :=
    ⟨[], repoName, siblingName, [keyName], rfl, rfl, by decide, by decide⟩
  obtain ⟨result, hresult, hshows⟩ := @execute_of_leadsTo asciiData _ _ _ _ _ _ _ siblingKey_reached (.inr hextends)
  obtain ⟨base, loc, text, hleads, -, hin⟩ := h result hresult hshows
  obtain ⟨rfl, rfl, -⟩ := siblingKey_reached.unique hleads
  exact hextends.not_prefix hin

end FailureOrchestrator
