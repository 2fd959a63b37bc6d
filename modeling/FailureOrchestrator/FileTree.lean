import FailureOrchestrator.PyText

namespace FailureOrchestrator

/-! File trees with symbolic links, and the resolution of paths in them. -/

/-- One part of a location. -/
@[ext]
structure FileName where
  chars : Str
  nonempty : chars ≠ []
  noSlash : '/' ∉ chars

instance : DecidableEq FileName := fun a b => decidable_of_iff (a.chars = b.chars) FileName.ext_iff.symm

/-- An absolute place in the tree: the names from the top down to it. -/
abbrev Location := List FileName

inductive PathPart where
  | up
  | name (n : FileName)
  deriving DecidableEq

/-- A path before it is resolved; empty parts and `.` are dropped. -/
structure PurePath where
  absolute : Bool
  parts : List PathPart
  deriving DecidableEq

def PathPart.ofText (s : Str) : Option PathPart :=
  if h : s = [] ∨ s = ['.'] ∨ '/' ∈ s then none
  else if s = "..".toList then some .up
  else some (.name ⟨s, fun hs => h (.inl hs), fun hs => h (.inr (.inr hs))⟩)

namespace PurePath

def ofText (s : Str) : PurePath := ⟨startsWith s ['/'], (splitChar '/' s).filterMap PathPart.ofText⟩

/-- `path / other`. -/
def join (path other : PurePath) : PurePath := if other.absolute then other else ⟨path.absolute, path.parts ++ other.parts⟩

end PurePath

/-- What stands at a location; a file holds the text that reading it gives. -/
inductive FileNode where
  | directory
  | file (text : Str)
  | link (target : Str)
  | special

/-- Every entry stands in a directory. -/
structure FileTree where
  entries : List (Location × FileNode)
  nodup : (entries.map (·.1)).Nodup
  below : ∀ entry ∈ entries, entry.1 ≠ []
  parents : ∀ entry ∈ entries, entry.1.dropLast = [] ∨ (entry.1.dropLast, FileNode.directory) ∈ entries

inductive PathError where
  | symlinkLoop
  | embeddedNull
  deriving DecidableEq

namespace FileTree

variable (tree : FileTree)

def node (loc : Location) : Option FileNode := if loc = [] then some .directory else tree.entries.lookup loc

def linkCount : Nat := tree.entries.countP fun entry => match entry.2 with
  | .link _ => true
  | _ => false

/-- One part of a path from the place reached so far; `follow` resolves the target of a link. -/
def enter (follow : Location → PurePath → Except PathError Location) (here : Location) :
    PathPart → Except PathError Location
  | .up => .ok here.dropLast
  | .name n =>
    if '\x00' ∈ n.chars then .error .embeddedNull else
    match tree.node (here ++ [n]) with
    | some (.link target) => follow here (PurePath.ofText target)
    | _ => .ok (here ++ [n])

/-- Resolves a path through at most `depth` links that lead to each other. -/
def follow : Nat → Location → PurePath → Except PathError Location
  | 0, _, _ => .error .symlinkLoop
  | depth + 1, here, path => path.parts.foldlM (tree.enter (follow depth)) (if path.absolute then [] else here)

/-- `path.resolve()`: a chain of more links than there are goes through one of them twice. -/
def resolve (cwd : Location) (path : PurePath) : Except PathError Location := tree.follow (tree.linkCount + 1) cwd path

end FileTree

/-! ## Locations as text -/

def namesText (loc : Location) : Str := loc.flatMap fun n => '/' :: n.chars

/-- `str(path)` of a resolved path. -/
def Location.text (loc : Location) : Str := if loc = [] then ['/'] else namesText loc

/-- The location leaves that of the base at its last name, with a name that goes on after the base's. -/
def ExtendsName (base loc : Location) : Prop :=
  ∃ parent b l rest, base = parent ++ [b] ∧ loc = parent ++ l :: rest ∧ b.chars <+: l.chars ∧ b ≠ l

theorem extendsName_cons {b : FileName} {base loc : Location} (h : ExtendsName base loc) :
    ExtendsName (b :: base) (b :: loc) := by
  obtain ⟨parent, c, l, rest, rfl, rfl, hprefix, hne⟩ := h
  exact ⟨b :: parent, c, l, rest, rfl, rfl, hprefix, hne⟩

theorem ExtendsName.not_prefix {base loc : Location} (h : ExtendsName base loc) : ¬ base <+: loc := by
  obtain ⟨parent, b, l, rest, rfl, rfl, -, hne⟩ := h
  rw [List.prefix_append_right_inj, List.cons_prefix_cons]
  exact fun h => hne h.1

/-- Texts without slashes that end at a slash or at the end of the text are equal. -/
theorem slash_split {s t u v : Str} (hs : '/' ∉ s) (ht : '/' ∉ t) (h : s ++ '/' :: u <+: t ++ v)
    (hv : ∀ c ∈ v.head?, c = '/') : s = t ∧ '/' :: u <+: v := by
  induction s generalizing t with
  | nil =>
    cases t with
    | nil => exact ⟨rfl, h⟩
    | cons c t =>
      obtain rfl := (List.cons_prefix_cons.mp h).1
      exact absurd List.mem_cons_self ht
  | cons c s ih =>
    cases t with
    | nil =>
      obtain ⟨w, rfl⟩ := h
      obtain rfl := hv c rfl
      exact absurd List.mem_cons_self hs
    | cons d t =>
      obtain ⟨rfl, htail⟩ := List.cons_prefix_cons.mp h
      obtain ⟨rfl, hrest⟩ := ih (fun hc => hs (List.mem_cons_of_mem _ hc)) (fun hc => ht (List.mem_cons_of_mem _ hc)) htail
      exact ⟨rfl, hrest⟩

theorem namesText_head (loc : Location) : ∀ c ∈ (namesText loc).head?, c = '/' := by
  intro c hc
  cases loc with
  | nil => cases hc
  | cons n loc => exact (Option.some.inj hc).symm

theorem prefix_of_append {s t v : Str} (hs : '/' ∉ s) (h : s <+: t ++ v) (hv : ∀ c ∈ v.head?, c = '/') : s <+: t := by
  obtain ⟨w, hw⟩ := h
  rcases List.append_eq_append_iff.mp hw with ⟨a, rfl, -⟩ | ⟨a, rfl, hrest⟩
  · exact List.prefix_append _ _
  · cases a with
    | nil => simp
    | cons c a =>
      obtain rfl := hv c (by rw [hrest]; rfl)
      exact absurd (List.mem_append_right _ List.mem_cons_self) hs

theorem FileName.ext_chars {b l : FileName} (h : b.chars = l.chars) : b = l := by
  cases b
  cases l
  cases h
  rfl

/-- A text that begins with the text of a location is at the location, below it, or extends its last name. -/
theorem namesText_prefix_iff {base loc : Location} (hbase : base ≠ []) :
    namesText base <+: namesText loc ↔ base <+: loc ∨ ExtendsName base loc := by
  induction base generalizing loc with
  | nil => exact absurd rfl hbase
  | cons b base ih =>
    cases loc with
    | nil =>
      refine iff_of_false ?_ ?_
      · intro h
        cases List.prefix_nil.mp h
      · rintro (h | ⟨parent, c, l, rest, -, hloc, -⟩)
        · cases List.prefix_nil.mp h
        · exact absurd hloc.symm (by simp)
    | cons l loc =>
      have htext (n : FileName) (rest : Location) : namesText (n :: rest) = '/' :: (n.chars ++ namesText rest) := rfl
      rw [htext, htext, List.cons_prefix_cons, and_iff_right rfl]
      cases base with
      | nil =>
        have hlast : namesText [] = [] := rfl
        rw [hlast, List.append_nil]
        constructor
        · intro h
          by_cases heq : b = l
          · exact .inl (by rw [heq]; exact List.cons_prefix_cons.mpr ⟨rfl, List.nil_prefix⟩)
          · exact .inr ⟨[], b, l, loc, rfl, rfl, prefix_of_append b.noSlash h (namesText_head loc), heq⟩
        · rintro (h | ⟨parent, c, d, rest, hb, hl, hprefix, -⟩)
          · rw [(List.cons_prefix_cons.mp h).1]
            exact List.prefix_append _ _
          · obtain rfl : parent = [] := by
              cases parent with
              | nil => rfl
              | cons e parent => simp at hb
            obtain rfl := (List.cons.inj hb).1
            obtain rfl := (List.cons.inj hl).1
            exact hprefix.trans (List.prefix_append _ _)
      | cons c base =>
        constructor
        · intro h
          obtain ⟨hchars, hrest⟩ := slash_split b.noSlash l.noSlash h (namesText_head loc)
          obtain rfl := FileName.ext_chars hchars
          rcases (ih (by simp)).mp hrest with hin | hext
          · exact .inl (List.cons_prefix_cons.mpr ⟨rfl, hin⟩)
          · exact .inr (extendsName_cons hext)
        · intro h
          obtain ⟨rfl, hrest⟩ : b = l ∧ (c :: base <+: loc ∨ ExtendsName (c :: base) loc) := by
            rcases h with h | ⟨parent, d, e, rest, hb, hl, hprefix, hne⟩
            · obtain ⟨rfl, hin⟩ := List.cons_prefix_cons.mp h
              exact ⟨rfl, .inl hin⟩
            · cases parent with
              | nil => simp at hb
              | cons f parent =>
                obtain ⟨rfl, hbs⟩ := List.cons.inj hb
                obtain ⟨rfl, hls⟩ := List.cons.inj hl
                exact ⟨rfl, .inr ⟨parent, d, e, rest, hbs, hls, hprefix, hne⟩⟩
          exact (List.prefix_append_right_inj _).mpr ((ih (by simp)).mpr hrest)

theorem text_prefix_iff {base loc : Location} :
    startsWith (Location.text loc) (Location.text base) = true ↔ base <+: loc ∨ ExtendsName base loc := by
  rw [startsWith_iff]
  unfold Location.text
  by_cases hbase : base = []
  · rw [if_pos hbase, hbase]
    refine iff_of_true ?_ (.inl List.nil_prefix)
    cases loc with
    | nil => exact List.prefix_rfl
    | cons n loc => exact List.cons_prefix_cons.mpr ⟨rfl, List.nil_prefix⟩
  · rw [if_neg hbase]
    cases loc with
    | cons n loc => exact namesText_prefix_iff hbase
    | nil =>
      obtain ⟨b, base, rfl⟩ := List.exists_cons_of_ne_nil hbase
      refine iff_of_false ?_ ?_
      · intro h
        have htail := (List.cons_prefix_cons.mp h).2
        exact b.nonempty (List.append_eq_nil_iff.mp (List.prefix_nil.mp htail)).1
      · rw [← namesText_prefix_iff hbase]
        intro h
        cases List.prefix_nil.mp h

end FailureOrchestrator
