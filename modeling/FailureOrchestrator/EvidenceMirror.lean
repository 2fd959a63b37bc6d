import FailureOrchestrator.EvidenceNames
import FailureOrchestrator.Interleaving
import FailureOrchestrator.JsonEvidence
import FailureOrchestrator.MetricLabels
import FailureOrchestrator.RecordLines
import FailureOrchestrator.StateStores

namespace FailureOrchestrator

/-- What is handed to `write_json` or to `write_text`. -/
inductive EvidenceBody (F : Type) where
  | json (value : JsonValue F)
  | text (content : Str) (maxChars : Option Nat)

structure EvidenceWrite (F : Type) where
  kind : String
  name : Option Str
  body : EvidenceBody F

def maxLogChars : Nat := 100000

/-- The directory of a run's artifacts. -/
def runRoot (root : PosixPath) (runId : Str) : PosixPath := (root.child "runs".toList).join runId

/-- `path.with_suffix(path.suffix + ".truncation.json")`. -/
def truncationPath (path : PosixPath) : PosixPath :=
  ⟨path.root, path.parts.dropLast ++ [path.name ++ ".truncation.json".toList]⟩

namespace EvidenceWrite

variable {F : Type} (root : PosixPath) (runId : Str) (d : EvidenceWrite F)

def dir : Str := ((kindDirs.lookup d.kind).getD d.kind).toList

def filename : Str :=
  match d.body with
  | .json _ =>
    let filename := firstNonEmpty (d.name.getD []) (d.kind.toList ++ ".json".toList)
    if endsWith filename ".json".toList then filename else filename ++ ".json".toList
  | .text _ _ => firstNonEmpty (d.name.getD []) (d.kind.toList ++ ".txt".toList)

/-- The reference that the call returns. -/
def ref : DurableEvidenceRef where
  kind := d.kind
  ref := evidencePath d.kind d.filename
  contentType := match d.body with
    | .json _ => "application/json"
    | .text _ _ => textContentType d.filename

def path : PosixPath := ((runRoot root runId).join d.dir).join d.filename

variable [UnicodeData] [PyFloat F]

/-- The text of the file; a value that is not JSON has none. -/
def stored : Option Str :=
  match d.body with
  | .json value => evidenceText value
  | .text content maxChars => some (boundedText content (maxChars.getD maxLogChars))

/-- The sidecar of a text that is cut. -/
def sidecar : List (List Str × Option Str) :=
  match d.body with
  | .json _ => []
  | .text content maxChars =>
    if maxChars.getD maxLogChars < (sanitizeText content).1.length then
      [((truncationPath (d.path root runId)).resolved, canonicalJson (F := F) (.obj (dictOf [
        ("truncated".toList, .bool true), ("original_length".toList, .int content.length),
        ("stored_length".toList, .int (boundedText content (maxChars.getD maxLogChars)).length)])))]
    else []

/-- The files that the call writes, in this order. -/
def files : List (List Str × Option Str) := ((d.path root runId).resolved, d.stored) :: d.sidecar root runId

end EvidenceWrite

/-- A row of the `evidence` table. -/
structure EvidenceRow where
  runId : Str
  kind : String
  ref : Str
  contentType : String
  sha256 : Str
  sizeBytes : Nat
  content : Str
  writtenAt : Str
  deriving DecidableEq

/-- `UniqueConstraint("run_id", "ref")`. -/
def EvidenceRow.clash (r r' : EvidenceRow) : Bool := r.runId = r'.runId && r.ref = r'.ref

/-- The artifact files, by their resolved paths, and the `evidence` table. -/
structure EvidenceStores where
  files : List Str → Option Str := fun _ => none
  rows : List EvidenceRow := []

/-- Where a process is with its next document: it writes the files, reads the first one back, and updates its row or
inserts one. -/
inductive MirrorPhase where
  | next
  | writing (files : List (List Str × Option Str))
  | updating (row : EvidenceRow)
  | inserting (row : EvidenceRow)

/-- A process with documents of one run. `outages` are the errors that a step of this process meets on the disk or in the
database, and `now` its clock. -/
structure MirrorCaller (F : Type) where
  runId : Str
  pending : List (EvidenceWrite F)
  outages : Nat → Option Str
  now : Nat → Str

structure MirrorWriter (F : Type) extends MirrorCaller F where
  clock : Nat
  phase : MirrorPhase
  done : List (EvidenceWrite F × Except StoreError DurableEvidenceRef)

def MirrorCaller.start {F : Type} (c : MirrorCaller F) : MirrorWriter F := { c with clock := 0, phase := .next, done := [] }

namespace MirrorWriter

variable {F : Type} (w : MirrorWriter F) (d : EvidenceWrite F)

def advance (phase : MirrorPhase) : MirrorWriter F := { w with clock := w.clock + 1, phase := phase }

def answered (answer : Except StoreError DurableEvidenceRef) : MirrorWriter F :=
  { w with pending := w.pending.tail, clock := w.clock + 1, phase := .next, done := w.done ++ [(d, answer)] }

/-- The document of a call that has begun. -/
def current : Option (EvidenceWrite F) :=
  match w.phase with
  | .next => none
  | _ => w.pending.head?

end MirrorWriter

namespace MirroredEvidenceStore

variable {F : Type} [UnicodeData] [PyFloat F] (root : PosixPath) (digest : Str → Str) (s : EvidenceStores)
  (w : MirrorWriter F) (d : EvidenceWrite F)

/-- The file that `_mirror` reads. -/
def mirrorPath (runId ref : Str) : List Str := ((runRoot root runId).join ref).resolved

/-- The row of a file with the given text, which is read with universal newlines. -/
def mirrorRow (runId : Str) (ref : DurableEvidenceRef) (text writtenAt : Str) : EvidenceRow where
  runId := runId
  kind := ref.kind
  ref := ref.ref
  contentType := ref.contentType
  sha256 := digest (universalNewlines text)
  sizeBytes := (String.ofList (universalNewlines text)).utf8ByteSize
  content := universalNewlines text
  writtenAt := writtenAt

def unreadable (ref : Str) : StoreError := .persistence ("evidence written but unreadable: ".toList ++ ref)

def mirrorFailed (ref error : Str) : StoreError :=
  .persistence ("failed to mirror evidence ".toList ++ ref ++ ": ".toList ++ error)

def writeFailed (ref error : Str) : StoreError :=
  .persistence ("failed to write evidence ".toList ++ ref ++ ": ".toList ++ error)

/-- The next file, or the first one read back when all are written. -/
def writeFile : List (List Str × Option Str) → EvidenceStores × MirrorWriter F
  | (_, none) :: _ => (s, w.answered d (.error .valueError))
  | (path, some text) :: files =>
    match w.outages w.clock with
    | some error => (s, w.answered d (.error (writeFailed d.ref.ref error)))
    | none => ({ s with files := Function.update s.files path (some text) }, w.advance (.writing files))
  | [] =>
    match w.outages w.clock, s.files (mirrorPath root w.runId d.ref.ref) with
    | none, some text => (s, w.advance (.updating (mirrorRow digest w.runId d.ref text (w.now w.clock))))
    | _, _ => (s, w.answered d (.error (unreadable d.ref.ref)))

def updateRow (row : EvidenceRow) : EvidenceStores × MirrorWriter F :=
  match w.outages w.clock with
  | some error => (s, w.answered d (.error (mirrorFailed d.ref.ref error)))
  | none =>
    if s.rows.any row.clash then
      ({ s with rows := SqlTable.update row.clash (fun r => { row with runId := r.runId, ref := r.ref }) s.rows },
        w.answered d (.ok d.ref))
    else (s, w.advance (.inserting row))

def insertRow (row : EvidenceRow) : EvidenceStores × MirrorWriter F :=
  match w.outages w.clock, SqlTable.insert EvidenceRow.clash row s.rows with
  | none, some rows => ({ s with rows := rows }, w.answered d (.ok d.ref))
  | none, none => (s, w.answered d (.error (mirrorFailed d.ref.ref "IntegrityError".toList)))
  | some error, _ => (s, w.answered d (.error (mirrorFailed d.ref.ref error)))

/-- The next step of a process in `write_json` or `write_text`. -/
def act : EvidenceStores × MirrorWriter F :=
  match w.pending with
  | [] => (s, w)
  | d :: _ =>
    match w.phase with
    | .next => (s, w.advance (.writing (d.files root w.runId)))
    | .writing files => writeFile root digest s w d files
    | .updating row => updateRow s w d row
    | .inserting row => insertRow s w d row

end MirroredEvidenceStore

section Rows

variable {root : PosixPath} {digest : Str → Str} {holds : List Str → Str → Prop} {s : EvidenceStores} {row : EvidenceRow}

open MirroredEvidenceStore

/-- The row is that of a text which its file may hold. -/
def EvidenceRow.Backed (root : PosixPath) (digest : Str → Str) (holds : List Str → Str → Prop) (row : EvidenceRow) : Prop :=
  ∃ ref text, row = mirrorRow digest row.runId ref text row.writtenAt ∧ holds (mirrorPath root row.runId ref.ref) text

/-- One row a file, each of a text that the file may hold. -/
structure EvidenceStores.Backed (root : PosixPath) (digest : Str → Str) (holds : List Str → Str → Prop)
    (s : EvidenceStores) : Prop where
  unique : SqlTable.Sound EvidenceRow.clash s.rows
  rows : ∀ row ∈ s.rows, row.Backed root digest holds
  files : ∀ path text, s.files path = some text → holds path text

theorem EvidenceRow.clash_iff {r r' : EvidenceRow} : r.clash r' = true ↔ r.runId = r'.runId ∧ r.ref = r'.ref := by
  unfold EvidenceRow.clash
  rw [Bool.and_eq_true, decide_eq_true_iff, decide_eq_true_iff]

/-- The update writes the row over the one with its run and reference. -/
theorem update_row {r : EvidenceRow} :
    (if row.clash r then { row with runId := r.runId, ref := r.ref } else r) = if row.clash r then row else r := by
  split
  next hclash =>
    obtain ⟨hrun, href⟩ := EvidenceRow.clash_iff.mp hclash
    rw [← hrun, ← href]
  next => rfl

theorem mem_update_row {r : EvidenceRow} {rows : List EvidenceRow}
    (h : r ∈ SqlTable.update row.clash (fun r => { row with runId := r.runId, ref := r.ref }) rows) : r = row ∨ r ∈ rows := by
  obtain ⟨old, hold, rfl⟩ := SqlTable.mem_of_update h
  rw [update_row]
  split
  · exact .inl rfl
  · exact .inr hold

theorem EvidenceStores.Backed.update (h : s.Backed root digest holds) (hrow : row.Backed root digest holds) :
    EvidenceStores.Backed root digest holds
      { s with rows := SqlTable.update row.clash (fun r => { row with runId := r.runId, ref := r.ref }) s.rows } where
  unique := h.unique.update fun r r' => by
    unfold EvidenceRow.clash
    split <;> split <;> rfl
  rows r hr := (mem_update_row hr).elim (fun heq => heq ▸ hrow) (h.rows r)
  files := h.files

theorem EvidenceStores.Backed.insert (h : s.Backed root digest holds) (hrow : row.Backed root digest holds)
    {rows : List EvidenceRow} (hinsert : SqlTable.insert EvidenceRow.clash row s.rows = some rows) :
    EvidenceStores.Backed root digest holds { s with rows := rows } where
  unique := h.unique.insert hinsert
  rows r hr := by
    rw [SqlTable.insert_some hinsert] at hr
    rcases List.mem_append.mp hr with hold | hnew
    · exact h.rows r hold
    · rw [List.mem_singleton.mp hnew]
      exact hrow
  files := h.files

end Rows

/-- What a step of a process can do. -/
inductive MirrorStep {F : Type} [UnicodeData] [PyFloat F] (root : PosixPath) (digest : Str → Str) (s : EvidenceStores)
    (w : MirrorWriter F) : EvidenceStores × MirrorWriter F → Prop where
  | idle : MirrorStep root digest s w (s, w)
  | begun (d : EvidenceWrite F) (rest : List (EvidenceWrite F)) (hpending : w.pending = d :: rest) (hphase : w.phase = .next) :
    MirrorStep root digest s w (s, w.advance (.writing (d.files root w.runId)))
  | refused (d : EvidenceWrite F) (rest : List (EvidenceWrite F)) (error : StoreError) (hpending : w.pending = d :: rest)
    (hphase : w.phase ≠ .next) : MirrorStep root digest s w (s, w.answered d (.error error))
  | wrote (d : EvidenceWrite F) (rest : List (EvidenceWrite F)) (path : List Str) (text : Str)
    (files : List (List Str × Option Str)) (hpending : w.pending = d :: rest)
    (hphase : w.phase = .writing ((path, some text) :: files)) :
    MirrorStep root digest s w
      ({ s with files := Function.update s.files path (some text) }, w.advance (.writing files))
  | readBack (d : EvidenceWrite F) (rest : List (EvidenceWrite F)) (text : Str) (hpending : w.pending = d :: rest)
    (hphase : w.phase = .writing [])
    (hfile : s.files (MirroredEvidenceStore.mirrorPath root w.runId d.ref.ref) = some text) :
    MirrorStep root digest s w
      (s, w.advance (.updating (MirroredEvidenceStore.mirrorRow digest w.runId d.ref text (w.now w.clock))))
  | updated (d : EvidenceWrite F) (rest : List (EvidenceWrite F)) (row : EvidenceRow) (hpending : w.pending = d :: rest)
    (hphase : w.phase = .updating row) (hstored : s.rows.any row.clash = true) :
    MirrorStep root digest s w
      ({ s with rows := SqlTable.update row.clash (fun r => { row with runId := r.runId, ref := r.ref }) s.rows },
        w.answered d (.ok d.ref))
  | absent (d : EvidenceWrite F) (rest : List (EvidenceWrite F)) (row : EvidenceRow) (hpending : w.pending = d :: rest)
    (hphase : w.phase = .updating row) : MirrorStep root digest s w (s, w.advance (.inserting row))
  | inserted (d : EvidenceWrite F) (rest : List (EvidenceWrite F)) (row : EvidenceRow) (rows : List EvidenceRow)
    (hpending : w.pending = d :: rest) (hphase : w.phase = .inserting row)
    (hinsert : SqlTable.insert EvidenceRow.clash row s.rows = some rows) :
    MirrorStep root digest s w ({ s with rows := rows }, w.answered d (.ok d.ref))

section Steps

variable {F : Type} [UnicodeData] [PyFloat F] {root : PosixPath} {digest : Str → Str}

open MirroredEvidenceStore

theorem mirrorStep_act (s : EvidenceStores) (w : MirrorWriter F) : MirrorStep root digest s w (act root digest s w) := by
  unfold act
  split
  · exact .idle
  next d rest hpending =>
    have hrefused : ∀ error, w.phase ≠ .next → MirrorStep root digest s w (s, w.answered d (.error error)) :=
      fun error hphase => .refused d rest error hpending hphase
    split
    next hphase => exact .begun d rest hpending hphase
    next files hphase =>
      have hbegun : w.phase ≠ .next := by rw [hphase]; exact nofun
      unfold writeFile
      split
      · exact hrefused _ hbegun
      next path text files =>
        split
        · exact hrefused _ hbegun
        · exact .wrote d rest path text files hpending hphase
      · split
        next text _ hfile => exact .readBack d rest text hpending hphase hfile
        · exact hrefused _ hbegun
    next row hphase =>
      unfold updateRow
      split
      · exact hrefused _ (by rw [hphase]; exact nofun)
      · split
        next hstored => exact .updated d rest row hpending hphase hstored
        · exact .absent d rest row hpending hphase
    next row hphase =>
      unfold insertRow
      split
      next rows _ hinsert => exact .inserted d rest row rows hpending hphase hinsert
      · exact hrefused _ (by rw [hphase]; exact nofun)
      · exact hrefused _ (by rw [hphase]; exact nofun)

/-- A process writes no text that its files may not hold. -/
structure MirrorWriter.Backed (root : PosixPath) (digest : Str → Str) (holds : List Str → Str → Prop)
    (w : MirrorWriter F) : Prop where
  pending : ∀ d ∈ w.pending, ∀ path text, (path, some text) ∈ d.files root w.runId → holds path text
  writing : ∀ files, w.phase = .writing files → ∀ path text, (path, some text) ∈ files → holds path text
  row : ∀ row, w.phase = .updating row ∨ w.phase = .inserting row → row.Backed root digest holds

variable {holds : List Str → Str → Prop} {s : EvidenceStores} {w : MirrorWriter F}

theorem MirrorWriter.Backed.answered (h : w.Backed root digest holds) (d : EvidenceWrite F)
    (answer : Except StoreError DurableEvidenceRef) : (w.answered d answer).Backed root digest holds where
  pending d' hd' := h.pending d' (List.mem_of_mem_tail hd')
  writing := nofun
  row _ hphase := hphase.elim nofun nofun

/-- What a step keeps of the stores and of its process. -/
theorem backed_act (hs : s.Backed root digest holds) (hw : w.Backed root digest holds) :
    (act root digest s w).1.Backed root digest holds ∧ (act root digest s w).2.Backed root digest holds := by
  have hstep : MirrorStep root digest s w (act root digest s w) := mirrorStep_act s w
  generalize act root digest s w = after at hstep ⊢
  cases hstep with
  | idle => exact ⟨hs, hw⟩
  | begun d rest hpending hphase =>
    refine ⟨hs, hw.pending, ?_, fun row h => h.elim nofun nofun⟩
    rintro _ ⟨⟩
    exact hw.pending d (by rw [hpending]; exact List.mem_cons_self)
  | refused d rest error hpending hphase => exact ⟨hs, hw.answered d _⟩
  | wrote d rest path text files hpending hphase =>
    have hfiles := hw.writing _ hphase
    refine ⟨⟨hs.unique, hs.rows, fun path' text' hheld => ?_⟩, hw.pending, ?_, fun row h => h.elim nofun nofun⟩
    · replace hheld : Function.update s.files path (some text) path' = some text' := hheld
      by_cases hpath : path' = path
      · rw [hpath, Function.update_self] at hheld
        rw [hpath, ← Option.some.inj hheld]
        exact hfiles path text List.mem_cons_self
      · exact hs.files path' text' ((Function.update_of_ne hpath _ _).symm.trans hheld)
    · rintro _ ⟨⟩ path' text' hmem
      exact hfiles path' text' (List.mem_cons_of_mem _ hmem)
  | readBack d rest text hpending hphase hfile =>
    refine ⟨hs, hw.pending, nofun, fun row h => ?_⟩
    rcases h with h | h
    · cases h
      exact ⟨d.ref, text, rfl, hs.files _ _ hfile⟩
    · cases h
  | updated d rest row hpending hphase hstored => exact ⟨hs.update (hw.row row (.inl hphase)), hw.answered d _⟩
  | absent d rest row hpending hphase =>
    refine ⟨hs, hw.pending, nofun, fun row' h => ?_⟩
    rcases h with h | h
    · cases h
    · cases h
      exact hw.row row (.inl hphase)
  | inserted d rest row rows hpending hphase hinsert =>
    exact ⟨hs.insert (hw.row row (.inr hphase)) hinsert, hw.answered d _⟩

theorem backed_noninterference : Pool.Noninterference (act (F := F) root digest) (fun _ _ => True)
    (EvidenceStores.Backed root digest holds) (fun _ w => w.Backed root digest holds) (fun _ _ => True) where
  symm _ _ _ := trivial
  shared _ _ hs hw _ := (backed_act hs hw).1
  own _ _ hs hw _ := (backed_act hs hw).2
  other _ _ _ _ _ hu _ _ := hu
  pair _ _ _ _ _ _ _ _ := trivial

/-- A call of one of the processes writes the text to the file. -/
def WrittenBy {ι : Type} (root : PosixPath) (callers : ι → MirrorCaller F) (path : List Str) (text : Str) : Prop :=
  ∃ i, ∃ d ∈ (callers i).pending, (path, some text) ∈ d.files root (callers i).runId

/-- Whatever fails and in whatever order the processes take their steps, the table has one row a file, and each row shows a
text that some call wrote to this file, with its hash. -/
theorem mirror_backed {ι : Type} [DecidableEq ι] (root : PosixPath) (digest : Str → Str) (callers : ι → MirrorCaller F)
    (schedule : List ι) :
    ((Pool.mk {} fun i => (callers i).start).run (act root digest) schedule).shared.Backed root digest
      (WrittenBy root callers) := by
  refine (backed_noninterference.run schedule ⟨?_, fun i => ?_, fun _ _ _ => trivial⟩
    (Pool.along_of_forall (fun _ _ => trivial) _ _)).shared
  · exact ⟨List.Pairwise.nil, nofun, nofun⟩
  · exact ⟨fun d hd _ _ hmem => ⟨i, d, hd, hmem⟩, nofun, fun _ h => h.elim nofun nofun⟩

end Steps

/-- A step of a path that stays one when backslashes become slashes. -/
structure PlainName (s : Str) : Prop extends PathStep s where
  backslash : '\\' ∉ s

section Places

variable {F : Type} {root p : PosixPath} {runId name : Str} {d : EvidenceWrite F}

/-- A relative path of two steps. -/
theorem join_steps {a b : Str} (ha : PlainName a) (hb : PlainName b) :
    p.join (a ++ '/' :: b) = ⟨p.root, p.parts ++ [a, b]⟩ := by
  obtain ⟨c, rest, rfl⟩ := List.exists_cons_of_ne_nil ha.nonempty
  have hslash : c ≠ '/' := fun hc => ha.slash (hc ▸ List.mem_cons_self)
  have hroot : ∀ more, startsWith ((c :: rest) ++ '/' :: b) ('/' :: more) = false := by
    intro more
    refine Bool.eq_false_iff.mpr fun hstart => hslash ?_
    exact (List.cons_prefix_cons.mp (List.isPrefixOf_iff_prefix.mp hstart)).1.symm
  have hfirst : (!(c :: rest).isEmpty && (c :: rest) != ['.']) = true := by simp [ha.dot]
  have hsecond : (!b.isEmpty && b != ['.']) = true := by simp [hb.nonempty, hb.dot]
  have hof : PosixPath.ofStr ((c :: rest) ++ '/' :: b) = ⟨[], [c :: rest, b]⟩ := by
    unfold PosixPath.ofStr
    rw [show "//".toList = '/' :: ['/'] from rfl, hroot, hroot, splitChar_append_cons, splitChar, splitChar,
      List.splitOn_eq_singleton ha.slash, List.splitOn_eq_singleton hb.slash, List.singleton_append, List.filter_cons,
      if_pos hfirst, List.filter_cons, if_pos hsecond]
    rfl
  unfold PosixPath.join PosixPath.child
  rw [hof]
  rfl

/-- The path leads into the directory of the run. -/
def InRun (root : PosixPath) (runId : Str) (path : List Str) : Prop :=
  ∃ rest, path = (root.child "runs".toList).resolved ++ runId :: rest

theorem InRun.unique {runId' : Str} {path : List Str} (h : InRun root runId path) (h' : InRun root runId' path) :
    runId = runId' := by
  obtain ⟨rest, rfl⟩ := h
  obtain ⟨rest', heq⟩ := h'
  exact (List.cons.inj (List.append_cancel_left heq)).1

/-- The directory and the file of the document are one step each. -/
structure EvidenceWrite.Plain (d : EvidenceWrite F) : Prop where
  dir : PlainName d.dir
  filename : PlainName d.filename

namespace EvidenceWrite

/-- Where the file is. -/
def place (root : PosixPath) (runId : Str) (d : EvidenceWrite F) : List Str := (d.path root runId).resolved

theorem path_plain (hrun : PlainName runId) (hd : d.Plain) :
    d.path root runId = ⟨root.root, (root.child "runs".toList).parts ++ [runId] ++ [d.dir] ++ [d.filename]⟩ := by
  unfold path runRoot
  rw [hrun.join, hd.dir.join, hd.filename.join]
  rfl

theorem place_plain (hrun : PlainName runId) (hd : d.Plain) :
    d.place root runId = (root.child "runs".toList).resolved ++ [runId, d.dir, d.filename] := by
  unfold place
  rw [path_plain hrun hd, resolved_snoc _ _ hd.filename.dots, resolved_snoc _ _ hd.dir.dots, resolved_snoc _ _ hrun.dots,
    List.append_assoc, List.append_assoc]
  rfl

theorem ref_plain (hd : d.Plain) : d.ref.ref = d.dir ++ '/' :: d.filename := by
  show replaceChar '\\' '/' (d.dir ++ ['/'] ++ d.filename) = _
  rw [replaceChar_of_notMem, List.append_assoc]
  · rfl
  · intro hmem
    rcases List.mem_append.mp hmem with hmem | hmem
    · rcases List.mem_append.mp hmem with hmem | hmem
      · exact hd.dir.backslash hmem
      · exact absurd (List.mem_singleton.mp hmem) (by decide)
    · exact hd.filename.backslash hmem

/-- The mirror reads the file that was written. -/
theorem mirrorPath_ref (hrun : PlainName runId) (hd : d.Plain) :
    MirroredEvidenceStore.mirrorPath root runId d.ref.ref = d.place root runId := by
  rw [place_plain hrun hd]
  unfold MirroredEvidenceStore.mirrorPath runRoot
  rw [ref_plain hd, join_steps hd.dir hd.filename, hrun.join]
  have hsteps : ∀ parts : List Str, parts ++ [d.dir, d.filename] = parts ++ [d.dir] ++ [d.filename] := fun parts => by simp
  rw [hsteps, resolved_snoc _ _ hd.filename.dots, resolved_snoc _ _ hd.dir.dots, resolved_snoc _ _ hrun.dots,
    List.append_assoc, List.append_assoc]
  rfl

variable [UnicodeData] [PyFloat F]

/-- A sidecar lies next to its file. -/
theorem sidecar_plain (hrun : PlainName runId) (hd : d.Plain) {f : List Str × Option Str} (hf : f ∈ d.sidecar root runId) :
    f.1 = (root.child "runs".toList).resolved ++ [runId, d.dir, d.filename ++ ".truncation.json".toList] := by
  have hdots : d.filename ++ ".truncation.json".toList ≠ "..".toList := by
    intro h
    have hlength := congrArg List.length h
    rw [List.length_append] at hlength
    have hmore : ".truncation.json".toList.length = 16 := rfl
    have htwo : "..".toList.length = 2 := rfl
    omega
  have hpath : (truncationPath (d.path root runId)).resolved =
      (root.child "runs".toList).resolved ++ [runId, d.dir, d.filename ++ ".truncation.json".toList] := by
    unfold truncationPath PosixPath.name
    rw [path_plain hrun hd]
    dsimp only
    rw [List.dropLast_concat, List.getLastD_concat, resolved_snoc _ _ hdots, resolved_snoc _ _ hd.dir.dots,
      resolved_snoc _ _ hrun.dots, List.append_assoc, List.append_assoc]
    rfl
  unfold sidecar at hf
  split at hf
  · cases hf
  · split at hf
    · rw [List.mem_singleton.mp hf]
      exact hpath
    · cases hf

theorem files_inRun (hrun : PlainName runId) (hd : d.Plain) {f : List Str × Option Str} (hf : f ∈ d.files root runId) :
    InRun root runId f.1 := by
  rcases List.mem_cons.mp hf with rfl | hf
  · exact ⟨_, place_plain hrun hd⟩
  · exact ⟨_, sidecar_plain hrun hd hf⟩

/-- The sidecar does not replace the file. -/
theorem place_notMem_sidecar (hrun : PlainName runId) (hd : d.Plain) : d.place root runId ∉ (d.sidecar root runId).map Prod.fst := by
  intro hmem
  obtain ⟨f, hf, hplace⟩ := List.mem_map.mp hmem
  rw [sidecar_plain hrun hd hf, place_plain hrun hd] at hplace
  have hname := congrArg (fun path => (path.getLastD []).length) (List.append_cancel_left hplace)
  simp at hname

end EvidenceWrite

end Places

section Current

variable {F : Type} [UnicodeData] [PyFloat F] {root : PosixPath} {digest : Str → Str} {s s' : EvidenceStores}
  {w : MirrorWriter F} {d : EvidenceWrite F}

open MirroredEvidenceStore

/-- The call writes the file at the path. -/
def EvidenceWrite.Touches (root : PosixPath) (runId : Str) (d : EvidenceWrite F) (path : List Str) : Prop :=
  path ∈ (d.files root runId).map Prod.fst

/-- The file holds the text of the document, and a row shows it. -/
def Mirrored (root : PosixPath) (digest : Str → Str) (s : EvidenceStores) (runId : Str) (d : EvidenceWrite F)
    (ref : DurableEvidenceRef) : Prop :=
  ref = d.ref ∧ ∃ text writtenAt, d.stored = some text ∧ s.files (d.place root runId) = some text ∧
    mirrorRow digest runId ref text writtenAt ∈ s.rows

/-- What holds of a process between its steps, as long as no other one works on its run. -/
structure MirrorWriter.Current (root : PosixPath) (digest : Str → Str) (s : EvidenceStores) (w : MirrorWriter F) : Prop where
  run : PlainName w.runId
  pending : ∀ d ∈ w.pending, d.Plain
  finished : ∀ c ∈ w.done, c.1.Plain
  writing : ∀ files d, w.phase = .writing files → w.pending.head? = some d → ∃ before,
    d.files root w.runId = before ++ files ∧ (before ≠ [] → s.files (d.place root w.runId) = d.stored)
  row : ∀ row d, w.phase = .updating row ∨ w.phase = .inserting row → w.pending.head? = some d → ∃ text writtenAt,
    d.stored = some text ∧ s.files (d.place root w.runId) = some text ∧ row = mirrorRow digest w.runId d.ref text writtenAt
  mirrored : ∀ before d ref after, w.done = before ++ (d, .ok ref) :: after →
    (∀ c ∈ after, ¬ c.1.Touches root w.runId (d.place root w.runId)) →
    (∀ c, w.current = some c → ¬ c.Touches root w.runId (d.place root w.runId)) → Mirrored root digest s w.runId d ref

/-- The files and the rows of a run are left alone. -/
structure Framed (root : PosixPath) (runId : Str) (s s' : EvidenceStores) : Prop where
  files : ∀ path, InRun root runId path → s'.files path = s.files path
  rows : ∀ row ∈ s.rows, row.runId = runId → row ∈ s'.rows

omit [UnicodeData] in
theorem Framed.refl (runId : Str) : Framed root runId s s := ⟨fun _ _ => rfl, fun _ h _ => h⟩

theorem Mirrored.frame {ref : DurableEvidenceRef} (h : Mirrored root digest s w.runId d ref) (hrun : PlainName w.runId)
    (hd : d.Plain) (hframe : Framed root w.runId s s') : Mirrored root digest s' w.runId d ref := by
  obtain ⟨href, text, writtenAt, hstored, hfile, hrow⟩ := h
  exact ⟨href, text, writtenAt, hstored, (hframe.files _ ⟨_, EvidenceWrite.place_plain hrun hd⟩).trans hfile,
    hframe.rows _ hrow rfl⟩

namespace MirrorWriter.Current

theorem plain_head (h : w.Current root digest s) (hhead : w.pending.head? = some d) : d.Plain :=
  h.pending d (List.mem_of_mem_head? hhead)

theorem plain_done (h : w.Current root digest s) {before after : List (EvidenceWrite F × Except StoreError DurableEvidenceRef)}
    {answer : Except StoreError DurableEvidenceRef} (hdone : w.done = before ++ (d, answer) :: after) : d.Plain :=
  h.finished (d, answer) (by rw [hdone]; exact List.mem_append_right _ List.mem_cons_self)

/-- What another process does in its own run changes nothing here. -/
theorem frame (h : w.Current root digest s) (hframe : Framed root w.runId s s') : w.Current root digest s' where
  run := h.run
  pending := h.pending
  finished := h.finished
  writing files d hphase hhead := by
    obtain ⟨before, hfiles, hplace⟩ := h.writing files d hphase hhead
    refine ⟨before, hfiles, fun hne => ?_⟩
    exact (hframe.files _ ⟨_, EvidenceWrite.place_plain h.run (h.plain_head hhead)⟩).trans (hplace hne)
  row row d hphase hhead := by
    obtain ⟨text, writtenAt, hstored, hfile, hrow⟩ := h.row row d hphase hhead
    refine ⟨text, writtenAt, hstored, ?_, hrow⟩
    exact (hframe.files _ ⟨_, EvidenceWrite.place_plain h.run (h.plain_head hhead)⟩).trans hfile
  mirrored before d ref after hdone hafter hcurrent :=
    (h.mirrored before d ref after hdone hafter hcurrent).frame h.run (h.plain_done hdone) hframe

end MirrorWriter.Current

omit [UnicodeData] in
/-- An update leaves the rows of other runs alone. -/
theorem framed_update {row : EvidenceRow} {runId : Str} (hrun : row.runId ≠ runId) :
    Framed root runId s
      { s with rows := SqlTable.update row.clash (fun r => { row with runId := r.runId, ref := r.ref }) s.rows } where
  files _ _ := rfl
  rows r hr hrunId := by
    have hkept := SqlTable.mem_update (c := row.clash) (f := fun r => { row with runId := r.runId, ref := r.ref }) hr
    rw [if_neg] at hkept
    · exact hkept
    · intro hclash
      exact hrun ((EvidenceRow.clash_iff.mp hclash).1.trans hrunId)

/-- A step works in the run of its process. -/
theorem framed_act (h : w.Current root digest s) {runId : Str} (hne : w.runId ≠ runId) :
    Framed root runId s (act root digest s w).1 := by
  have hstep : MirrorStep root digest s w (act root digest s w) := mirrorStep_act s w
  generalize act root digest s w = after at hstep ⊢
  cases hstep with
  | idle | begun | refused | readBack | absent => exact Framed.refl runId
  | wrote d rest path text files hpending hphase =>
    have hhead : w.pending.head? = some d := by rw [hpending]; rfl
    obtain ⟨before, hfiles, -⟩ := h.writing _ d hphase hhead
    have hmem : (path, some text) ∈ d.files root w.runId := by
      rw [hfiles]
      exact List.mem_append_right _ List.mem_cons_self
    have hin := EvidenceWrite.files_inRun h.run (h.plain_head hhead) hmem
    refine ⟨fun path' hpath' => Function.update_of_ne ?_ _ _, fun _ hrow _ => hrow⟩
    rintro rfl
    exact hne (hin.unique hpath')
  | updated d rest row hpending hphase hstored =>
    obtain ⟨text, writtenAt, -, -, rfl⟩ := h.row row d (.inl hphase) (by rw [hpending]; rfl)
    exact framed_update hne
  | inserted d rest row rows hpending hphase hinsert =>
    refine ⟨fun _ _ => rfl, fun r hr _ => ?_⟩
    show r ∈ rows
    rw [SqlTable.insert_some hinsert]
    exact List.mem_append_left _ hr

omit [UnicodeData] [PyFloat F] in
theorem MirrorWriter.head_of_current {c : EvidenceWrite F} (h : w.current = some c) : w.pending.head? = some c := by
  unfold current at h
  split at h
  · cases h
  · exact h

omit [UnicodeData] [PyFloat F] in
theorem MirrorWriter.current_of_begun (hphase : w.phase ≠ .next) : w.current = w.pending.head? := by
  unfold current
  split
  next h => exact absurd h hphase
  next => rfl

/-- Documents with one reference have one file. -/
theorem ref_ne_of_untouched {d' : EvidenceWrite F} {runId : Str} (hrun : PlainName runId) (hd : d.Plain) (hd' : d'.Plain)
    (hfree : ¬ d.Touches root runId (d'.place root runId)) : d'.ref.ref ≠ d.ref.ref := by
  intro href
  refine hfree (List.mem_map.mpr ⟨_, List.mem_cons_self, ?_⟩)
  rw [← EvidenceWrite.mirrorPath_ref hrun hd', href, EvidenceWrite.mirrorPath_ref hrun hd]
  rfl

/-- A step of a call on `d` keeps the calls mirrored whose files it does not write. -/
def KeepsOthers (root : PosixPath) (digest : Str → Str) (s s' : EvidenceStores) (runId : Str) (d : EvidenceWrite F) : Prop :=
  ∀ (d' : EvidenceWrite F) (ref : DurableEvidenceRef), d'.Plain → ¬ d.Touches root runId (d'.place root runId) →
    Mirrored root digest s runId d' ref → Mirrored root digest s' runId d' ref

/-- A write changes no file that its call does not touch. -/
theorem keepsOthers_write {path : List Str} {text : Str} {runId : Str} (hpath : d.Touches root runId path) :
    KeepsOthers root digest s { s with files := Function.update s.files path (some text) } runId d := by
  rintro d' ref - hfree ⟨href, text', writtenAt, hstored, hfile, hrow⟩
  refine ⟨href, text', writtenAt, hstored, ?_, hrow⟩
  show Function.update s.files path (some text) (d'.place root runId) = some text'
  rw [Function.update_of_ne]
  · exact hfile
  · rintro rfl
    exact hfree hpath

theorem keepsOthers_update {text writtenAt : Str} {row : EvidenceRow} {runId : Str} (hrun : PlainName runId) (hd : d.Plain)
    (hrow : row = mirrorRow digest runId d.ref text writtenAt) :
    KeepsOthers root digest s
      { s with rows := SqlTable.update row.clash (fun r => { row with runId := r.runId, ref := r.ref }) s.rows } runId d := by
  rintro d' _ hd' hfree ⟨rfl, text', writtenAt', htext', hfile', hrow'⟩
  refine ⟨rfl, text', writtenAt', htext', hfile', ?_⟩
  have hkept := SqlTable.mem_update (c := row.clash) (f := fun r => { row with runId := r.runId, ref := r.ref }) hrow'
  rw [if_neg] at hkept
  · exact hkept
  · intro hclash
    rw [hrow] at hclash
    exact ref_ne_of_untouched hrun hd hd' hfree (EvidenceRow.clash_iff.mp hclash).2.symm

theorem keepsOthers_insert {row : EvidenceRow} {runId : Str} : KeepsOthers root digest s { s with rows := s.rows ++ [row] } runId d := by
  rintro d' ref - - ⟨href, text', writtenAt', htext', hfile', hrow'⟩
  exact ⟨href, text', writtenAt', htext', hfile', List.mem_append_left _ hrow'⟩

namespace MirrorWriter.Current

variable {rest : List (EvidenceWrite F)}

/-- A call goes on. -/
theorem advance (h : w.Current root digest s) (hpending : w.pending = d :: rest) {phase : MirrorPhase} (hphase : phase ≠ .next)
    (hkeep : KeepsOthers root digest s s' w.runId d)
    (hwriting : ∀ files, phase = .writing files → ∃ before, d.files root w.runId = before ++ files ∧
      (before ≠ [] → s'.files (d.place root w.runId) = d.stored))
    (hrow : ∀ row, phase = .updating row ∨ phase = .inserting row → ∃ text writtenAt, d.stored = some text ∧
      s'.files (d.place root w.runId) = some text ∧ row = mirrorRow digest w.runId d.ref text writtenAt) :
    (w.advance phase).Current root digest s' := by
  have hhead : w.pending.head? = some d := by rw [hpending]; rfl
  constructor
  case run => exact h.run
  case pending => exact h.pending
  case finished => exact h.finished
  case writing =>
    intro files d' hfiles hhead'
    cases hhead.symm.trans hhead'
    exact hwriting files hfiles
  case row =>
    intro row d' hphases hhead'
    cases hhead.symm.trans hhead'
    exact hrow row hphases
  case mirrored =>
    intro before d' ref after hdone hafter hcurrent
    have hfree : ¬ d.Touches root w.runId (d'.place root w.runId) :=
      hcurrent d ((MirrorWriter.current_of_begun (w := w.advance phase) hphase).trans hhead)
    refine hkeep d' ref (h.plain_done hdone) hfree (h.mirrored before d' ref after hdone hafter fun c hc => ?_)
    cases hhead.symm.trans (MirrorWriter.head_of_current hc)
    exact hfree

/-- A call ends. -/
theorem answered (h : w.Current root digest s) (hpending : w.pending = d :: rest) (hphase : w.phase ≠ .next)
    (hkeep : KeepsOthers root digest s s' w.runId d) {answer : Except StoreError DurableEvidenceRef}
    (hown : ∀ ref, answer = .ok ref → Mirrored root digest s' w.runId d ref) :
    (w.answered d answer).Current root digest s' := by
  have hd : d.Plain := h.pending d (by rw [hpending]; exact List.mem_cons_self)
  constructor
  case run => exact h.run
  case pending => exact fun d' hd' => h.pending d' (List.mem_of_mem_tail hd')
  case finished =>
    intro c hc
    rcases List.mem_append.mp hc with hc | hc
    · exact h.finished c hc
    · rw [List.mem_singleton.mp hc]
      exact hd
  case writing => exact nofun
  case row => exact fun _ _ hphases => hphases.elim nofun nofun
  case mirrored =>
    intro before d' ref after hdone hafter _
    replace hdone : w.done ++ [(d, answer)] = before ++ (d', .ok ref) :: after := hdone
    rcases List.eq_nil_or_concat after with rfl | ⟨after, c, rfl⟩
    · -- the call that has just ended
      obtain ⟨-, hlast⟩ := List.append_inj' hdone rfl
      obtain ⟨hd, hanswer⟩ := Prod.mk.inj (List.cons.inj hlast).1
      rw [← hd]
      exact hown ref hanswer
    · rw [List.concat_eq_append, ← List.cons_append, ← List.append_assoc] at hdone
      obtain ⟨hbefore, hlast⟩ := List.append_inj' hdone rfl
      have hfree := hafter c (by rw [List.concat_eq_append]; exact List.mem_append_right _ List.mem_cons_self)
      rw [← (List.cons.inj hlast).1] at hfree
      refine hkeep d' ref (h.plain_done hbefore) hfree (h.mirrored before d' ref after hbefore (fun c hc => ?_) fun c hc => ?_)
      · exact hafter c (by rw [List.concat_eq_append]; exact List.mem_append_left _ hc)
      · rw [MirrorWriter.current_of_begun hphase, hpending] at hc
        cases hc
        exact hfree

end MirrorWriter.Current

/-- What a step keeps of its own process. -/
theorem current_act (h : w.Current root digest s) :
    (act root digest s w).2.Current root digest (act root digest s w).1 := by
  have hsame : ∀ d : EvidenceWrite F, KeepsOthers root digest s s w.runId d := fun _ _ _ _ _ hold => hold
  have hstep : MirrorStep root digest s w (act root digest s w) := mirrorStep_act s w
  generalize act root digest s w = after at hstep ⊢
  cases hstep with
  | idle => exact h
  | begun d rest hpending hphase =>
    refine h.advance hpending nofun (hsame d) ?_ fun _ hrow => hrow.elim nofun nofun
    rintro _ ⟨⟩
    exact ⟨[], rfl, fun hne => absurd rfl hne⟩
  | refused d rest error hpending hphase => exact h.answered hpending hphase (hsame d) nofun
  | wrote d rest path text files hpending hphase =>
    have hhead : w.pending.head? = some d := by rw [hpending]; rfl
    obtain ⟨before, hfiles, hplace⟩ := h.writing _ d hphase hhead
    have hmem : d.Touches root w.runId path := by
      unfold EvidenceWrite.Touches
      rw [hfiles]
      exact List.mem_map_of_mem (List.mem_append_right _ List.mem_cons_self)
    refine h.advance hpending nofun (keepsOthers_write hmem) ?_ fun _ hrow => hrow.elim nofun nofun
    rintro _ ⟨⟩
    refine ⟨before ++ [(path, some text)], by rw [hfiles, List.append_assoc]; rfl, fun _ => ?_⟩
    show Function.update s.files path (some text) (d.place root w.runId) = d.stored
    cases before with
    | nil =>
      obtain ⟨hpath, hstored⟩ := Prod.mk.inj (List.cons.inj hfiles).1
      rw [← hpath, hstored]
      exact Function.update_self ..
    | cons f before =>
      have hsidecar : (path, some text) ∈ d.sidecar root w.runId := by
        rw [(List.cons.inj hfiles).2]
        exact List.mem_append_right _ List.mem_cons_self
      rw [Function.update_of_ne]
      · exact hplace (List.cons_ne_nil f before)
      · rintro rfl
        exact EvidenceWrite.place_notMem_sidecar h.run (h.plain_head hhead) (List.mem_map_of_mem hsidecar)
  | readBack d rest text hpending hphase hfile =>
    have hhead : w.pending.head? = some d := by rw [hpending]; rfl
    refine h.advance hpending nofun (hsame d) nofun ?_
    rintro row (⟨⟨⟩⟩ | ⟨⟨⟩⟩)
    obtain ⟨before, hfiles, hplace⟩ := h.writing _ d hphase hhead
    have hne : before ≠ [] := by
      rw [List.append_nil] at hfiles
      rw [← hfiles]
      exact List.cons_ne_nil _ _
    rw [EvidenceWrite.mirrorPath_ref h.run (h.plain_head hhead)] at hfile
    exact ⟨text, _, (hplace hne).symm.trans hfile, hfile, rfl⟩
  | updated d rest row hpending hphase hstored =>
    have hhead : w.pending.head? = some d := by rw [hpending]; rfl
    obtain ⟨text, writtenAt, htext, hfile, hrow⟩ := h.row row d (.inl hphase) hhead
    refine h.answered hpending (by rw [hphase]; exact nofun) (keepsOthers_update h.run (h.plain_head hhead) hrow) ?_
    rintro _ ⟨⟩
    refine ⟨rfl, text, writtenAt, htext, hfile, ?_⟩
    obtain ⟨r, hr, hclash⟩ := List.any_eq_true.mp hstored
    have hnew := SqlTable.mem_update (c := row.clash) (f := fun r => { row with runId := r.runId, ref := r.ref }) hr
    rw [update_row, if_pos hclash] at hnew
    rw [← hrow]
    exact hnew
  | absent d rest row hpending hphase =>
    refine h.advance hpending nofun (hsame d) nofun ?_
    rintro row' (⟨⟨⟩⟩ | ⟨⟨⟩⟩)
    exact h.row row d (.inl hphase) (by rw [hpending]; rfl)
  | inserted d rest row rows hpending hphase hinsert =>
    obtain ⟨text, writtenAt, htext, hfile, hrow⟩ := h.row row d (.inr hphase) (by rw [hpending]; rfl)
    rw [SqlTable.insert_some hinsert]
    refine h.answered hpending (by rw [hphase]; exact nofun) keepsOthers_insert ?_
    rintro _ ⟨⟩
    refine ⟨rfl, text, writtenAt, htext, hfile, ?_⟩
    rw [← hrow]
    exact List.mem_append_right _ List.mem_cons_self

theorem runId_act : (act root digest s w).2.runId = w.runId := by
  have hstep : MirrorStep root digest s w (act root digest s w) := mirrorStep_act s w
  generalize act root digest s w = after at hstep ⊢
  cases hstep <;> rfl

/-- Processes that work on different runs leave each other's facts alone. -/
theorem current_noninterference : Pool.Noninterference (act (F := F) root digest) (fun _ _ => True) (fun _ => True)
    (fun s w => w.Current root digest s) (fun w u => w.runId ≠ u.runId) where
  symm _ _ h := h.symm
  shared _ _ _ _ _ := trivial
  own _ _ _ hw _ := current_act hw
  other _ _ _ _ hw hu hne _ := hu.frame (framed_act hw hne)
  pair s w u _ _ _ hne _ := by
    rw [runId_act]
    exact hne

/-- When each process works on a run of its own, a call that has returned stays mirrored until its process begins another
call that writes to the same file, whatever happens in the other runs. -/
theorem mirror_current {ι : Type} [DecidableEq ι] (root : PosixPath) (digest : Str → Str) (stores : EvidenceStores)
    (callers : ι → MirrorCaller F) (hruns : ∀ i j, i ≠ j → (callers i).runId ≠ (callers j).runId)
    (hplain : ∀ i, PlainName (callers i).runId ∧ ∀ d ∈ (callers i).pending, d.Plain) (schedule : List ι) (i : ι)
    {before after : List (EvidenceWrite F × Except StoreError DurableEvidenceRef)} {ref : DurableEvidenceRef}
    (hdone : (((Pool.mk stores fun i => (callers i).start).run (act root digest) schedule).task i).done =
      before ++ (d, .ok ref) :: after)
    (hafter : ∀ c ∈ after, ¬ c.1.Touches root (callers i).runId (d.place root (callers i).runId))
    (hcurrent : ∀ c, (((Pool.mk stores fun i => (callers i).start).run (act root digest) schedule).task i).current = some c →
      ¬ c.Touches root (callers i).runId (d.place root (callers i).runId)) :
    Mirrored root digest ((Pool.mk stores fun i => (callers i).start).run (act root digest) schedule).shared
      (callers i).runId d ref := by
  have hrun : ∀ j, (((Pool.mk stores fun i => (callers i).start).run (act root digest) schedule).task j).runId =
      (callers j).runId := by
    refine Pool.run_keeps (I := fun p : Pool ι EvidenceStores (MirrorWriter F) => ∀ j, (p.task j).runId = (callers j).runId)
      (fun p k hp j => ?_) schedule fun _ => rfl
    by_cases hj : j = k
    · rw [hj, Pool.turn_self, runId_act]
      exact hp k
    · rw [Pool.turn_other hj]
      exact hp j
  have hstart : (Pool.mk stores fun i => (callers i).start).Holds (fun _ => True)
      (fun s w => w.Current root digest s) (fun w u => w.runId ≠ u.runId) := by
    refine ⟨trivial, fun i => ⟨(hplain i).1, (hplain i).2, nofun, nofun, fun _ _ h => h.elim nofun nofun, ?_⟩, hruns⟩
    intro before _ _ _ h
    cases before <;> cases h
  have hholds := current_noninterference.run schedule hstart (Pool.along_of_forall (fun _ _ => trivial) _ _)
  have hmirrored := (hholds.task i).mirrored before d ref after hdone
  rw [hrun i] at hmirrored
  exact hmirrored hafter hcurrent

end Current

section Samples

def sampleWrite (kind : String) : EvidenceWrite Unit := ⟨kind, none, .json .null⟩

/-- Two workers, each with the evidence of its own run; the first one loses the database with its ninth step. -/
def sampleMirrors : Bool → MirrorCaller Unit
  | true => {
    runId := "run-1".toList
    pending := [sampleWrite "plan", sampleWrite "policy"]
    outages := fun n => if n < 8 then none else some "OperationalError".toList
    now := fun _ => [] }
  | false => { runId := "run-2".toList, pending := [sampleWrite "plan"], outages := fun _ => none, now := fun _ => [] }

def sampleMirrorTurns : List Bool := (List.replicate 9 [true, false]).flatten

def sampleMirror : Pool Bool EvidenceStores (MirrorWriter Unit) :=
  (Pool.mk {} fun i => (sampleMirrors i).start).run (@MirroredEvidenceStore.act Unit asciiData noFloats artifacts id) sampleMirrorTurns

theorem sampleMirror_done : (sampleMirror.task true).done = [(sampleWrite "plan", .ok (sampleWrite "plan").ref),
    (sampleWrite "policy", .error (MirroredEvidenceStore.mirrorFailed (sampleWrite "policy").ref.ref "OperationalError".toList))] := by
  rfl

/-- The plan stays mirrored although the row of the policy decision was refused. -/
theorem sampleMirror_current :
    @Mirrored Unit asciiData noFloats artifacts id sampleMirror.shared "run-1".toList (sampleWrite "plan") (sampleWrite "plan").ref := by
  have hname : ∀ kind ∈ ["plan", "policy"], (sampleWrite kind).Plain := by
    intro kind hkind
    rcases List.mem_pair.mp hkind with rfl | rfl
    · exact ⟨⟨⟨by decide, by decide, by decide, by decide⟩, by decide⟩, ⟨⟨by decide, by decide, by decide, by decide⟩, by decide⟩⟩
    · exact ⟨⟨⟨by decide, by decide, by decide, by decide⟩, by decide⟩, ⟨⟨by decide, by decide, by decide, by decide⟩, by decide⟩⟩
  have hplain : ∀ i, PlainName (sampleMirrors i).runId ∧ ∀ d ∈ (sampleMirrors i).pending, d.Plain := by
    intro i
    cases i with
    | false =>
      refine ⟨⟨⟨by decide, by decide, by decide, by decide⟩, by decide⟩, fun d hd => ?_⟩
      rw [List.mem_singleton.mp hd]
      exact hname _ (by decide)
    | true =>
      refine ⟨⟨⟨by decide, by decide, by decide, by decide⟩, by decide⟩, fun d hd => ?_⟩
      rcases List.mem_pair.mp hd with rfl | rfl
      · exact hname _ (by decide)
      · exact hname _ (by decide)
  have hother : ¬ @EvidenceWrite.Touches Unit asciiData noFloats artifacts "run-1".toList (sampleWrite "policy")
      ((sampleWrite "plan").place artifacts "run-1".toList) := by
    unfold EvidenceWrite.Touches
    decide +kernel
  refine @mirror_current Unit asciiData noFloats (sampleWrite "plan") Bool _ artifacts id {} sampleMirrors ?_ hplain sampleMirrorTurns
    true [] _ _ sampleMirror_done ?_ ?_
  · intro i j hij
    cases i <;> cases j <;> first
      | exact absurd rfl hij
      | decide
  · intro c hc
    rw [List.mem_singleton.mp hc]
    exact hother
  · intro c hc
    have hidle : (sampleMirror.task true).current = none := by rfl
    cases hidle.symm.trans hc

end Samples

end FailureOrchestrator
