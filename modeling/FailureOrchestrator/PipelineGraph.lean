import FailureOrchestrator.GraphSearch
import FailureOrchestrator.PyText

namespace FailureOrchestrator

open Relation

/-- The order in which a set with the given insertions is iterated. -/
class SetOrder where
  iterate : List Str → List Str
  iterate_perm : ∀ s, (iterate s).Perm s

structure Stage where
  id : Str
  dependsOn : List Str
  deriving DecidableEq

inductive GraphError where
  | valueError (message : Str)
  | keyError (key : Str)
  | recursionError
  deriving DecidableEq

/-- The stages in the order of their dictionary, and the set of children of each stage. -/
structure PipelineGraph where
  stages : List Stage
  children : Str → List Str

/-- `stages[stage.id] = stage`: a known identifier keeps its place. -/
def setStage (stages : List Stage) (stage : Stage) : List Stage :=
  match stages with
  | [] => [stage]
  | other :: rest => if other.id = stage.id then stage :: rest else other :: setStage rest stage

/-- `{s.id: s for s in stages}` -/
def stageDict (stages : List Stage) : List Stage := stages.foldl setStage []

def stageIds (stages : List Stage) : List Str := stages.map Stage.id

/-- `children[parent].add(id)` -/
def addChild (children : Str → List Str) (parent id : Str) : Str → List Str :=
  Function.update children parent (if id ∈ children parent then children parent else children parent ++ [id])

def unknownDependency [UnicodeData] (parent id : Str) : GraphError :=
  .valueError ("Unknown dependency ".toList ++ pyRepr parent ++ " for stage ".toList ++ pyRepr id)

def cycleError : GraphError := .valueError "Pipeline dependencies contain a cycle".toList

/-- The dependencies of one stage, each known to the graph. -/
def linkStage [UnicodeData] (known : List Stage) (children : Str → List Str) (stage : Stage) :
    Except GraphError (Str → List Str) :=
  stage.dependsOn.foldlM (fun children parent =>
    if parent ∈ stageIds known then .ok (addChild children parent stage.id)
    else .error (unknownDependency parent stage.id)) children

namespace PipelineGraph

variable [UnicodeData] [SetOrder]

/-- `self.children.get(stage_id, ())`, iterated. -/
def successors (g : PipelineGraph) (stageId : Str) : List Str := SetOrder.iterate (g.children stageId)

def stage? (g : PipelineGraph) (stageId : Str) : Option Stage := g.stages.find? fun s => s.id = stageId

/-- One count for each dependency that a stage lists. -/
def indegree (g : PipelineGraph) : Str → Int :=
  g.stages.foldl (fun degree stage =>
    stage.dependsOn.foldl (fun degree _ => Function.update degree stage.id (degree stage.id + 1)) degree) fun _ => 0

def validateAcyclic (g : PipelineGraph) : Option (Except GraphError Unit) :=
  let queue := (stageIds g.stages).filter fun sid => g.indegree sid = 0
  (GraphSearch.peel g.successors (g.stages.length + 1) g.indegree queue 0).map fun seen =>
    if seen ≠ g.stages.length then .error cycleError else .ok ()

/-- `PipelineGraph(stages)` -/
def create (stages : List Stage) : Option (Except GraphError PipelineGraph) :=
  let known := stageDict stages
  match stages.foldlM (linkStage known) fun _ => [] with
  | .error e => some (.error e)
  | .ok children =>
    let g : PipelineGraph := ⟨known, children⟩
    g.validateAcyclic.map fun checked => checked.map fun _ => g

/-- Visits some parents in turn with what is remembered. -/
def visitAll (visit : Str → List (Str × Nat) → Except GraphError (Nat × List (Str × Nat))) :
    List Str → List (Str × Nat) → Except GraphError (List Nat × List (Str × Nat))
  | [], memo => .ok ([], memo)
  | parent :: rest, memo =>
    match visit parent memo with
    | .error e => .error e
    | .ok (depth, memo) =>
      match visitAll visit rest memo with
      | .error e => .error e
      | .ok (depths, memo) => .ok (depth :: depths, memo)

/-- `visit`, nested at most `limit` times. -/
def visit (g : PipelineGraph) : Nat → Str → List (Str × Nat) → Except GraphError (Nat × List (Str × Nat))
  | 0, _, _ => .error .recursionError
  | limit + 1, node, memo =>
    match memo.lookup node with
    | some depth => .ok (depth, memo)
    | none =>
      match g.stage? node with
      | none => .error (.keyError node)
      | some stage =>
        match visitAll (visit g limit) stage.dependsOn memo with
        | .error e => .error e
        | .ok (depths, memo) =>
          let depth := if stage.dependsOn = [] then 0 else 1 + depths.max?.getD 0
          .ok (depth, (node, depth) :: memo)

def depth (g : PipelineGraph) (limit : Nat) (stageId : Str) : Except GraphError Nat :=
  (g.visit limit stageId []).map Prod.fst

/-- The steps of a search: every child of every stage is pushed at most once. -/
def searchSteps (g : PipelineGraph) (stageId : Str) : Nat :=
  (g.children stageId).length + ((stageIds g.stages).map fun sid => (g.children sid).length).sum + 1

/-- The stack holds the child that was pushed last in front. -/
def descendants (g : PipelineGraph) (stageId : Str) : Option (List Str) :=
  GraphSearch.explore (fun sid => (g.successors sid).reverse) (g.searchSteps stageId) (g.successors stageId).reverse []

def isUpstream (g : PipelineGraph) (possibleParent possibleChild : Str) : Option Bool :=
  (g.descendants possibleParent).map fun found => possibleChild ∈ found

structure VerificationStep where
  stage : Str
  scope : Str
  reason : Str
  deriving DecidableEq

def VerificationStep.root (stage : Str) : VerificationStep :=
  ⟨stage, "targeted".toList, "verify the proposed root-cause fix first".toList⟩

def VerificationStep.impacted (stage : Str) : VerificationStep :=
  ⟨stage, "targeted".toList, "confirm predicted downstream failure disappears".toList⟩

def VerificationStep.full : VerificationStep :=
  ⟨"*".toList, "full-pipeline".toList, "guard against regressions outside the causal path".toList⟩

/-- `sorted(stages, key=lambda stage: graph.depth(stage))` -/
def sortedByDepth (g : PipelineGraph) (limit : Nat) (stages : List Str) : Except GraphError (List Str) :=
  (stages.mapM fun stage => (g.depth limit stage).map fun d => (d, stage)).map fun keyed =>
    (keyed.mergeSort fun a b => a.1 ≤ b.1).map Prod.snd

def planVerification (g : PipelineGraph) (limit : Nat) (rootStage : Str) (failedStages : List Str) :
    Option (Except GraphError (List VerificationStep)) :=
  if rootStage ∉ stageIds g.stages then some (.error (.valueError ("Unknown stage: ".toList ++ rootStage)))
  else (g.descendants rootStage).map fun found =>
    (g.sortedByDepth limit (SetOrder.iterate (found.filter fun stage => stage ∈ failedStages))).map fun impacted =>
      .root rootStage :: impacted.map .impacted ++ [.full]

end PipelineGraph

/-- `b` lists `a` among its dependencies. -/
def Requires (stages : List Stage) (a b : Str) : Prop := ∃ s ∈ stages, s.id = b ∧ a ∈ s.dependsOn

/-- The first dependency, in the order of the stages, that no stage has as its identifier. -/
def firstUnknown [UnicodeData] (stages : List Stage) : Option GraphError :=
  stages.findSome? fun s => s.dependsOn.findSome? fun parent =>
    if parent ∈ stageIds stages then none else some (unknownDependency parent s.id)

section Stages

variable {stages : List Stage} {s : Stage}

theorem setStage_new (h : s.id ∉ stageIds stages) : setStage stages s = stages ++ [s] := by
  induction stages with
  | nil => rfl
  | cons t stages ih =>
    obtain ⟨hne, hrest⟩ := not_or.mp (mt List.mem_cons.mpr h)
    rw [setStage, if_neg fun heq => hne heq.symm, ih hrest]
    rfl

theorem stageIds_setStage : stageIds (setStage stages s) =
    if s.id ∈ stageIds stages then stageIds stages else stageIds stages ++ [s.id] := by
  split
  next h =>
    induction stages with
    | nil => cases h
    | cons t stages ih =>
      rw [setStage]
      split
      next heq => simp [stageIds, heq]
      next hne =>
        have hin : s.id ∈ stageIds stages := (List.mem_cons.mp h).resolve_left fun heq => hne heq.symm
        exact congrArg (t.id :: ·) (ih hin)
  next h => simp [setStage_new h, stageIds]

theorem stageIds_foldl (known : List Stage) (hknown : (stageIds known).Nodup) :
    (stageIds (stages.foldl setStage known)).Nodup ∧
      ∀ a, a ∈ stageIds (stages.foldl setStage known) ↔ a ∈ stageIds known ∨ a ∈ stageIds stages := by
  induction stages generalizing known with
  | nil => exact ⟨hknown, fun a => by simp [stageIds]⟩
  | cons s stages ih =>
    have hstep : (stageIds (setStage known s)).Nodup ∧
        ∀ a, a ∈ stageIds (setStage known s) ↔ a ∈ stageIds known ∨ a = s.id := by
      rw [stageIds_setStage]
      split
      next h => exact ⟨hknown, fun a => ⟨.inl, fun ha => ha.elim id fun heq => heq ▸ h⟩⟩
      next h =>
        refine ⟨hknown.append (List.nodup_singleton _) ?_, fun a => by simp⟩
        exact List.disjoint_singleton.mpr h
    obtain ⟨hnodup, hmem⟩ := ih (setStage known s) hstep.1
    refine ⟨hnodup, fun a => (hmem a).trans ?_⟩
    rw [hstep.2 a, or_assoc]
    exact or_congr_right List.mem_cons.symm

theorem mem_stageDict {a : Str} : a ∈ stageIds (stageDict stages) ↔ a ∈ stageIds stages :=
  ((stageIds_foldl [] List.nodup_nil).2 a).trans (by simp [stageIds])

/-- Stages with identifiers of their own are kept as they are. -/
theorem stageDict_eq (h : (stageIds stages).Nodup) : stageDict stages = stages := by
  have hkept : ∀ rest known, (stageIds (known ++ rest)).Nodup → rest.foldl setStage known = known ++ rest := by
    intro rest
    induction rest with
    | nil => simp
    | cons s rest ih =>
      intro known hnodup
      have hnew : s.id ∉ stageIds known := by
        intro hin
        rw [stageIds, List.map_append] at hnodup
        exact List.disjoint_of_nodup_append hnodup hin (by simp)
      rw [List.foldl_cons, setStage_new hnew, ih _ (by simpa using hnodup)]
      simp
  exact hkept stages [] h

theorem eq_of_stageId (h : (stageIds stages).Nodup) {t : Stage} (hs : s ∈ stages) (ht : t ∈ stages) (hid : s.id = t.id) :
    s = t := List.inj_on_of_nodup_map h hs ht hid

theorem requires_iff (h : (stageIds stages).Nodup) (hs : s ∈ stages) {a : Str} : Requires stages a s.id ↔ a ∈ s.dependsOn := by
  constructor
  · rintro ⟨t, ht, hid, ha⟩
    rw [← eq_of_stageId h ht hs hid]
    exact ha
  · exact fun ha => ⟨s, hs, rfl, ha⟩

theorem mem_of_find {stages : List Stage} {a : Str} {s : Stage} (h : stages.find? (fun s => s.id = a) = some s) :
    s ∈ stages ∧ s.id = a :=
  ⟨List.mem_of_find?_eq_some h, by simpa using List.find?_some h⟩

end Stages

/-- A loop whose turn depends on its element alone for whether it raises. -/
theorem foldlM_checked {β γ ε : Type} (bad : β → Option ε) (g : γ → β → γ) {f : γ → β → Except ε γ}
    (hf : ∀ c b, f c b = (bad b).elim (.ok (g c b)) .error) (bs : List β) (c : γ) :
    bs.foldlM f c = (bs.findSome? bad).elim (.ok (bs.foldl g c)) .error := by
  induction bs generalizing c with
  | nil => rfl
  | cons b bs ih =>
    rw [List.foldlM_cons, hf, List.findSome?_cons]
    cases bad b with
    | some e => rfl
    | none => exact ih (g c b)

section Links

variable [UnicodeData] {children : Str → List Str} {R : Str → Str → Prop}

/-- The sets of children hold the pairs of a relation. -/
def Linked (children : Str → List Str) (R : Str → Str → Prop) : Prop :=
  ∀ a, (children a).Nodup ∧ ∀ b, b ∈ children a ↔ R a b

omit [UnicodeData] in
theorem Linked.add (h : Linked children R) (parent child : Str) :
    Linked (addChild children parent child) fun a b => R a b ∨ (a = parent ∧ b = child) := by
  intro a
  by_cases ha : a = parent
  · subst ha
    obtain ⟨hnodup, hmem⟩ := h a
    rw [addChild, Function.update_self]
    split
    next hin =>
      refine ⟨hnodup, fun b => (hmem b).trans ⟨.inl, fun hb => hb.elim id fun heq => ?_⟩⟩
      rw [heq.2]
      exact (hmem child).mp hin
    next hnew =>
      refine ⟨hnodup.append (List.nodup_singleton _) (List.disjoint_singleton.mpr hnew), fun b => ?_⟩
      rw [List.mem_append, hmem b, List.mem_singleton]
      exact or_congr_right ⟨fun hb => ⟨rfl, hb⟩, And.right⟩
  · rw [addChild, Function.update_of_ne ha]
    refine ⟨(h a).1, fun b => ((h a).2 b).trans ⟨.inl, fun hb => hb.elim id fun heq => absurd heq.1 ha⟩⟩

omit [UnicodeData] in
theorem Linked.addAll (h : Linked children R) (parents : List Str) (id : Str) :
    Linked (parents.foldl (fun children parent => addChild children parent id) children)
      fun a b => R a b ∨ (a ∈ parents ∧ b = id) := by
  induction parents generalizing children R with
  | nil => simpa using h
  | cons parent parents ih =>
    have hrel : (fun a b => (R a b ∨ (a = parent ∧ b = id)) ∨ (a ∈ parents ∧ b = id))
        = fun a b => R a b ∨ (a ∈ parent :: parents ∧ b = id) := by
      funext a b
      simp only [List.mem_cons, or_and_right, or_assoc]
    exact hrel ▸ ih (h.add parent id)

theorem linkStage_eq (known : List Stage) (children : Str → List Str) (s : Stage) :
    linkStage known children s =
      (s.dependsOn.findSome? fun parent =>
        if parent ∈ stageIds known then none else some (unknownDependency parent s.id)).elim
      (.ok (s.dependsOn.foldl (fun children parent => addChild children parent s.id) children)) .error := by
  unfold linkStage
  refine foldlM_checked _ _ (fun children parent => ?_) s.dependsOn children
  split <;> rfl

omit [UnicodeData] in
theorem linked_stages (stages : List Stage) (h : Linked children R) :
    Linked (stages.foldl (fun children s =>
        s.dependsOn.foldl (fun children parent => addChild children parent s.id) children) children)
      fun a b => R a b ∨ Requires stages a b := by
  induction stages generalizing children R with
  | nil => simpa [Requires] using h
  | cons s stages ih =>
    have hrel : (fun a b => (R a b ∨ (a ∈ s.dependsOn ∧ b = s.id)) ∨ Requires stages a b)
        = fun a b => R a b ∨ Requires (s :: stages) a b := by
      funext a b
      simp only [Requires, List.mem_cons, exists_eq_or_imp, or_assoc, eq_comm (a := b), and_comm (a := s.id = b)]
    exact hrel ▸ ih (h.addAll s.dependsOn s.id)

end Links

section Degrees

variable {stages : List Stage}

/-- The number of dependencies that the stages with one identifier list. -/
def listed (stages : List Stage) (b : Str) : Nat :=
  ((stages.filter fun s => s.id = b).map fun s => s.dependsOn.length).sum

theorem count_foldl (deps : List Str) (degree : Str → Int) (sid : Str) :
    deps.foldl (fun degree _ => Function.update degree sid (degree sid + 1)) degree
      = Function.update degree sid (degree sid + deps.length) := by
  induction deps generalizing degree with
  | nil => simp
  | cons dep deps ih =>
    rw [List.foldl_cons, ih, Function.update_self, Function.update_idem, List.length_cons]
    congr 1
    push_cast
    omega

theorem degree_foldl (stages : List Stage) (degree : Str → Int) (b : Str) :
    stages.foldl (fun degree s =>
      s.dependsOn.foldl (fun degree _ => Function.update degree s.id (degree s.id + 1)) degree) degree b
      = degree b + listed stages b := by
  induction stages generalizing degree with
  | nil => simp [listed]
  | cons s stages ih =>
    rw [List.foldl_cons, count_foldl, ih]
    unfold listed
    by_cases hb : s.id = b
    · subst hb
      rw [Function.update_self, List.filter_cons_of_pos (by simp), List.map_cons, List.sum_cons]
      push_cast
      omega
    · rw [Function.update_of_ne (fun h => hb h.symm), List.filter_cons_of_neg (by simpa using hb)]

theorem PipelineGraph.indegree_eq (g : PipelineGraph) : g.indegree = fun b => (listed g.stages b : Int) := by
  funext b
  rw [indegree, degree_foldl, Int.zero_add]

theorem listed_eq (h : (stageIds stages).Nodup) {s : Stage} (hs : s ∈ stages) : listed stages s.id = s.dependsOn.length := by
  have hone : stages.filter (fun t => t.id = s.id) = [s] := by
    have hall : ∀ t ∈ stages.filter (fun t => t.id = s.id), t = s := fun t ht => by
      obtain ⟨ht, hid⟩ := List.mem_filter.mp ht
      exact eq_of_stageId h ht hs (by simpa using hid)
    have hnodup : (stages.filter fun t => t.id = s.id).Nodup := (List.Nodup.of_map _ h).filter _
    have hin : s ∈ stages.filter fun t => t.id = s.id := List.mem_filter.mpr ⟨hs, by simp⟩
    have hrep := List.eq_replicate_of_mem hall
    rw [hrep] at hnodup hin
    rcases hlen : (stages.filter fun t => t.id = s.id).length with - | - | n
    · rw [hlen] at hin
      cases hin
    · rw [hrep, hlen]
      rfl
    · rw [hlen] at hnodup
      simp [List.replicate_succ] at hnodup
  rw [listed, hone]
  simp

/-- Of nodes listed once, those among some known dependencies are as many as these without their repetitions. -/
theorem countP_deps {nodes deps : List Str} (h : nodes.Nodup) (hsub : deps ⊆ nodes) :
    nodes.countP (fun a => a ∈ deps) = deps.dedup.length := by
  rw [List.countP_eq_length_filter]
  refine ((List.perm_ext_iff_of_nodup (h.filter _) deps.nodup_dedup).mpr fun a => ?_).length_eq
  rw [List.mem_filter, List.mem_dedup, decide_eq_true_eq]
  exact ⟨And.right, fun ha => ⟨hsub ha, ha⟩⟩

end Degrees

namespace PipelineGraph

variable [SetOrder] {stages : List Stage} {g : PipelineGraph}

theorem mem_successors {a b : Str} : b ∈ g.successors a ↔ b ∈ g.children a := (SetOrder.iterate_perm _).mem_iff

theorem nodup_successors {R : Str → Str → Prop} (h : Linked g.children R) (a : Str) : (g.successors a).Nodup :=
  (SetOrder.iterate_perm _).nodup_iff.mpr (h a).1

theorem successors_eq {R : Str → Str → Prop} (h : Linked g.children R) : (fun a b => b ∈ g.successors a) = R := by
  funext a b
  exact propext (mem_successors.trans ((h a).2 b))

/-- Without a second stage of one identifier, the graph has no cycle when each stage can wait for all it lists. -/
theorem validateAcyclic_eq (hlinked : Linked g.children (Requires g.stages)) (hids : (stageIds g.stages).Nodup)
    (hknown : ∀ a b, Requires g.stages a b → a ∈ stageIds g.stages) :
    ∃ checked, g.validateAcyclic = some checked ∧
      (checked = .ok () ↔ (∀ s ∈ g.stages, s.dependsOn.Nodup) ∧ ∀ a, ¬ TransGen (Requires g.stages) a a) ∧
      (checked ≠ .ok () → checked = .error cycleError) := by
  have hedges : ∀ a, ∀ b ∈ g.successors a, a ∈ stageIds g.stages ∧ b ∈ stageIds g.stages := by
    intro a b hb
    have hneeds := ((hlinked a).2 b).mp (mem_successors.mp hb)
    obtain ⟨s, hs, hid, -⟩ := id hneeds
    exact ⟨hknown a b hneeds, hid ▸ List.mem_map_of_mem hs⟩
  have hbefore : ∀ s ∈ g.stages, GraphSearch.before g.successors (stageIds g.stages) s.id = s.dependsOn.dedup.length := by
    intro s hs
    rw [← countP_deps hids fun a ha => hknown a s.id ⟨s, hs, rfl, ha⟩]
    refine GraphSearch.before_eq_countP fun a _ => ?_
    rw [decide_eq_true_eq, mem_successors, (hlinked a).2, requires_iff hids hs]
  obtain ⟨all, waits, hrun, hpeeled⟩ := @GraphSearch.exists_peeled _ _ g.successors (listed g.stages) _ hids
    (nodup_successors hlinked) fun a b hb => (hedges a b hb).2
  have hiff := hpeeled.acyclic_iff hids hedges (by
    intro b hb
    obtain ⟨s, hs, hid⟩ := List.mem_map.mp hb
    rw [← hid, hbefore s hs, listed_eq hids hs]
    exact (List.dedup_sublist _).length_le)
  have hlen : (stageIds g.stages).length = g.stages.length := List.length_map _
  rw [hlen] at hrun hiff
  refine ⟨_, by rw [validateAcyclic, indegree_eq, hrun, Option.map_some], ?_, ?_⟩
  · rw [← successors_eq hlinked]
    have hnodup : (∀ b ∈ stageIds g.stages, listed g.stages b = GraphSearch.before g.successors (stageIds g.stages) b)
        ↔ ∀ s ∈ g.stages, s.dependsOn.Nodup := by
      rw [stageIds, List.forall_mem_map]
      refine forall₂_congr fun s hs => ?_
      rw [listed_eq hids hs]
      change _ = GraphSearch.before _ (stageIds g.stages) _ ↔ _
      rw [hbefore s hs]
      constructor
      · intro heq
        rw [← (List.dedup_sublist s.dependsOn).eq_of_length heq.symm]
        exact List.nodup_dedup _
      · exact fun hn => by rw [hn.dedup]
    rw [← hnodup, ← hiff]
    split
    next hne => exact ⟨nofun, fun heq => absurd heq hne⟩
    next heq => exact ⟨fun _ => not_not.mp heq, fun _ => rfl⟩
  · split
    next => exact fun _ => rfl
    next => exact fun hne => absurd rfl hne

end PipelineGraph

section Create

variable [UnicodeData] [SetOrder] {stages : List Stage}

omit [SetOrder] in
theorem firstUnknown_none : firstUnknown stages = none ↔ ∀ a b, Requires stages a b → a ∈ stageIds stages := by
  have hite : ∀ a b, (if a ∈ stageIds stages then none else some (unknownDependency a b)) = none ↔ a ∈ stageIds stages := by
    intro a b
    split <;> simp_all
  simp only [firstUnknown, List.findSome?_eq_none_iff, hite]
  constructor
  · rintro h a b ⟨s, hs, -, ha⟩
    exact h s hs a ha
  · exact fun h s hs a ha => h a s.id ⟨s, hs, rfl, ha⟩

omit [UnicodeData] [SetOrder] in
theorem linked_children (stages : List Stage) :
    Linked (stages.foldl (fun children s =>
      s.dependsOn.foldl (fun children parent => addChild children parent s.id) children) fun _ => []) (Requires stages) := by
  have hstart : Linked (fun _ => []) fun _ _ => False := fun _ => ⟨List.nodup_nil, fun _ => by simp⟩
  have hrel : (fun a b => False ∨ Requires stages a b) = Requires stages := by simp
  exact hrel ▸ linked_stages stages hstart

/-- The constructor raises for the first unknown dependency, and else checks the sets of children it has built. -/
theorem create_eq (stages : List Stage) : ∃ children, Linked children (Requires stages) ∧
    PipelineGraph.create stages = (firstUnknown stages).elim
      ((PipelineGraph.validateAcyclic ⟨stageDict stages, children⟩).map fun checked =>
        checked.map fun _ => ⟨stageDict stages, children⟩)
      (fun e => some (.error e)) := by
  refine ⟨_, linked_children stages, ?_⟩
  have hknown : ∀ a, a ∈ stageIds (stageDict stages) ↔ a ∈ stageIds stages := fun a => mem_stageDict
  unfold PipelineGraph.create
  simp only []
  rw [foldlM_checked _ _ (linkStage_eq (stageDict stages))]
  simp only [hknown]
  cases h : firstUnknown stages with
  | none =>
    rw [firstUnknown] at h
    rw [h]
    rfl
  | some e =>
    rw [firstUnknown] at h
    rw [h]
    rfl

/-- What an accepted graph holds. -/
structure Accepted (stages : List Stage) (g : PipelineGraph) : Prop where
  stages_eq : g.stages = stageDict stages
  known : ∀ a b, Requires stages a b → a ∈ stageIds stages
  linked : Linked g.children (Requires stages)

theorem accepted_of_create {g : PipelineGraph} (h : PipelineGraph.create stages = some (.ok g)) : Accepted stages g := by
  obtain ⟨children, hlinked, heq⟩ := create_eq stages
  rw [heq] at h
  cases hunknown : firstUnknown stages with
  | some e =>
    rw [hunknown] at h
    cases h
  | none =>
    rw [hunknown] at h
    obtain ⟨checked, -, hg⟩ := Option.map_eq_some_iff.mp h
    cases checked with
    | error e => cases hg
    | ok =>
      cases hg
      exact ⟨rfl, firstUnknown_none.mp hunknown, hlinked⟩

/-- Stages with identifiers of their own make a graph exactly when all their dependencies are known, none is listed
twice by one stage, and no chain of dependencies is a cycle. Else the error names the first unknown dependency, or says
that there is a cycle. -/
theorem create_outcome (hids : (stageIds stages).Nodup) :
    ∃ outcome, PipelineGraph.create stages = some outcome ∧
      (∀ g, outcome = .ok g → g.stages = stages ∧ firstUnknown stages = none ∧ (∀ s ∈ stages, s.dependsOn.Nodup) ∧
        ∀ a, ¬ TransGen (Requires stages) a a) ∧
      ∀ e, outcome = .error e → firstUnknown stages = some e ∨ (firstUnknown stages = none ∧ e = cycleError ∧
        ((∃ s ∈ stages, ¬ s.dependsOn.Nodup) ∨ ∃ a, TransGen (Requires stages) a a)) := by
  obtain ⟨children, hlinked, heq⟩ := create_eq stages
  rw [stageDict_eq hids] at heq
  cases hunknown : firstUnknown stages with
  | some e =>
    rw [hunknown] at heq
    refine ⟨_, heq, nofun, ?_⟩
    rintro e' ⟨⟩
    exact .inl rfl
  | none =>
    rw [hunknown] at heq
    obtain ⟨checked, hchecked, hiff, herror⟩ := PipelineGraph.validateAcyclic_eq (g := ⟨stages, children⟩) hlinked hids
      (firstUnknown_none.mp hunknown)
    rw [Option.elim_none, hchecked, Option.map_some] at heq
    refine ⟨_, heq, ?_⟩
    by_cases hok : checked = .ok ()
    · obtain ⟨hnodup, hacyclic⟩ := hiff.mp hok
      subst hok
      refine ⟨?_, nofun⟩
      rintro g ⟨⟩
      exact ⟨rfl, rfl, hnodup, hacyclic⟩
    · obtain rfl := herror hok
      refine ⟨nofun, ?_⟩
      rintro e ⟨⟩
      refine .inr ⟨rfl, rfl, ?_⟩
      by_contra hnone
      obtain ⟨hnodup, hacyclic⟩ := not_or.mp hnone
      refine hok (hiff.mpr ⟨fun s hs => ?_, fun a ha => hacyclic ⟨a, ha⟩⟩)
      by_contra hs'
      exact hnodup ⟨s, hs, hs'⟩

theorem acyclic_of_create {g : PipelineGraph} (h : PipelineGraph.create stages = some (.ok g))
    (hids : (stageIds stages).Nodup) : g.stages = stages ∧ ∀ a, ¬ TransGen (Requires stages) a a := by
  obtain ⟨outcome, houtcome, hok, -⟩ := create_outcome hids
  rw [h] at houtcome
  cases houtcome
  obtain ⟨hstages, -, -, hacyclic⟩ := hok g rfl
  exact ⟨hstages, hacyclic⟩

end Create

@[reducible] def insertionOrder : SetOrder := ⟨fun s => s, fun _ => .refl _⟩

def samplePipeline : List Stage :=
  [⟨"build".toList, []⟩, ⟨"test".toList, ["build".toList]⟩, ⟨"deploy".toList, ["test".toList, "build".toList]⟩]

theorem samplePipeline_outcome :
    letI := asciiData
    letI := insertionOrder
    ∃ g, PipelineGraph.create samplePipeline = some (.ok g) ∧ g.stages = samplePipeline ∧
      ∀ a, ¬ TransGen (Requires samplePipeline) a a := by
  let _ := asciiData
  let _ := insertionOrder
  have h : ∃ g, PipelineGraph.create samplePipeline = some (.ok g) := ⟨_, rfl⟩
  obtain ⟨g, hg⟩ := h
  obtain ⟨outcome, houtcome, hok, -⟩ := @create_outcome asciiData insertionOrder samplePipeline (by decide +kernel)
  rw [hg] at houtcome
  cases houtcome
  obtain ⟨hstages, -, -, hacyclic⟩ := hok g rfl
  exact ⟨g, hg, hstages, hacyclic⟩

-- A second stage of one identifier can hide a cycle: `b` is released by the dependency of the stage it replaces.
example : (@PipelineGraph.create asciiData insertionOrder [⟨['b'], [['x']]⟩, ⟨['x'], []⟩, ⟨['b'], [['y']]⟩, ⟨['y'], [['b']]⟩]).map
    Except.isOk = some true := by decide +kernel

section Descendants

variable [UnicodeData] [SetOrder] {stages : List Stage} {g : PipelineGraph}

omit [UnicodeData] [SetOrder] in
theorem Accepted.stageIds_iff (h : Accepted stages g) {a : Str} : a ∈ stageIds g.stages ↔ a ∈ stageIds stages := by
  rw [h.stages_eq]
  exact mem_stageDict

omit [UnicodeData] in
/-- The search of an accepted graph ends, and finds each stage that depends on the given one, through any chain of
dependencies, once. -/
theorem Accepted.descendants (h : Accepted stages g) (a : Str) :
    ∃ found, g.descendants a = some found ∧ found.Nodup ∧ ∀ b, b ∈ found ↔ TransGen (Requires stages) a b := by
  have hmem : ∀ a b, b ∈ (g.successors a).reverse ↔ Requires stages a b := fun a b =>
    List.mem_reverse.trans (PipelineGraph.mem_successors.trans ((h.linked a).2 b))
  have hin : ∀ a b, b ∈ (g.successors a).reverse → b ∈ stageIds g.stages := fun a b hb => by
    obtain ⟨s, hs, hid, -⟩ := (hmem a b).mp hb
    exact h.stageIds_iff.mpr (hid ▸ List.mem_map_of_mem hs)
  have hlen : ∀ a, ((g.successors a).reverse).length = (g.children a).length := fun a =>
    List.length_reverse.trans (SetOrder.iterate_perm _).length_eq
  have hrel : (fun a b => b ∈ (g.successors a).reverse) = Requires stages := by
    funext a b
    exact propext (hmem a b)
  rw [← hrel]
  refine @GraphSearch.explore_succs _ _ _ (stageIds g.stages) (fun a _ => hin a) _ (hin a) _ ?_
  rw [GraphSearch.pending_nil hlen, hlen]
  exact Nat.lt_succ_self _

/-- In an accepted graph a stage is upstream of another one exactly when a chain of dependencies leads from this to it;
with identifiers of their own, no stage is upstream of itself. -/
theorem isUpstream_iff (h : PipelineGraph.create stages = some (.ok g)) :
    (∀ a b, ∃ upstream, g.isUpstream a b = some upstream ∧ (upstream = true ↔ TransGen (Requires stages) a b)) ∧
      ((stageIds stages).Nodup → ∀ a, g.isUpstream a a = some false) := by
  have hacc := accepted_of_create h
  have hall : ∀ a b, ∃ upstream, g.isUpstream a b = some upstream ∧
      (upstream = true ↔ TransGen (Requires stages) a b) := fun a b => by
    obtain ⟨found, hfound, -, hmem⟩ := hacc.descendants a
    exact ⟨_, by rw [PipelineGraph.isUpstream, hfound, Option.map_some], decide_eq_true_iff.trans (hmem b)⟩
  refine ⟨hall, fun hids a => ?_⟩
  obtain ⟨upstream, hup, hiff⟩ := hall a a
  rw [hup, Bool.eq_false_iff.mpr (mt hiff.mp ((acyclic_of_create h hids).2 a))]

end Descendants

theorem samplePipeline_upstream :
    letI := asciiData
    letI := insertionOrder
    ∃ g, PipelineGraph.create samplePipeline = some (.ok g) ∧ ∀ a, g.isUpstream a a = some false := by
  let _ := asciiData
  let _ := insertionOrder
  have h : ∃ g, PipelineGraph.create samplePipeline = some (.ok g) := ⟨_, rfl⟩
  obtain ⟨g, hg⟩ := h
  exact ⟨g, hg, (isUpstream_iff hg).2 (by decide +kernel)⟩

section Depth

variable [UnicodeData] [SetOrder] {stages : List Stage} {g : PipelineGraph}

/-- What is remembered of a node is the length of the longest chains that end at it. -/
def Remembered (g : PipelineGraph) (memo : List (Str × Nat)) : Prop :=
  ∀ node d, memo.lookup node = some d → IsGreatest (GraphSearch.chainLengths (Requires g.stages) node) d

/-- A visit that returns has found the longest chain, and remembers longest chains only. -/
def VisitRight (g : PipelineGraph) (visit : Str → List (Str × Nat) → Except GraphError (Nat × List (Str × Nat))) : Prop :=
  ∀ node memo d memo', visit node memo = .ok (d, memo') → Remembered g memo →
    IsGreatest (GraphSearch.chainLengths (Requires g.stages) node) d ∧ Remembered g memo'

omit [UnicodeData] [SetOrder] in
theorem visitAll_right {visit : Str → List (Str × Nat) → Except GraphError (Nat × List (Str × Nat))}
    (hvisit : VisitRight g visit) {parents : List Str} {memo memo' : List (Str × Nat)} {depths : List Nat}
    (h : PipelineGraph.visitAll visit parents memo = .ok (depths, memo')) (hmemo : Remembered g memo) :
    ∃ height : Str → Nat, depths = parents.map height ∧
      (∀ p ∈ parents, IsGreatest (GraphSearch.chainLengths (Requires g.stages) p) (height p)) ∧ Remembered g memo' := by
  induction parents generalizing memo depths with
  | nil =>
    cases h
    exact ⟨fun _ => 0, rfl, nofun, hmemo⟩
  | cons parent parents ih =>
    rw [PipelineGraph.visitAll] at h
    split at h
    next => cases h
    next d memo₁ hfirst =>
      split at h
      next => cases h
      next ds memo₂ hrest =>
        cases h
        obtain ⟨hd, hmemo₁⟩ := hvisit _ _ _ _ hfirst hmemo
        obtain ⟨height, hds, hheight, hmemo₂⟩ := ih hrest hmemo₁
        refine ⟨Function.update height parent d, ?_, fun p hp => ?_, hmemo₂⟩
        · rw [List.map_cons, Function.update_self, hds]
          refine congrArg (d :: ·) (List.map_congr_left fun p hp => ?_)
          by_cases heq : p = parent
          · subst heq
            rw [Function.update_self]
            exact (hheight p hp).unique hd
          · rw [Function.update_of_ne heq]
        · by_cases heq : p = parent
          · subst heq
            rw [Function.update_self]
            exact hd
          · rw [Function.update_of_ne heq]
            exact hheight p ((List.mem_cons.mp hp).resolve_left heq)

omit [UnicodeData] [SetOrder] in
theorem visit_right (hids : (stageIds g.stages).Nodup) (limit : Nat) : VisitRight g (g.visit limit) := by
  induction limit with
  | zero => nofun
  | succ limit ih =>
    intro node memo d memo' h hmemo
    rw [PipelineGraph.visit] at h
    split at h
    next d' hknown =>
      cases h
      exact ⟨hmemo _ _ hknown, hmemo⟩
    next =>
      split at h
      next => cases h
      next stage hstage =>
        split at h
        next => cases h
        next depths memo₁ hall =>
          cases h
          obtain ⟨height, hdepths, hheight, hmemo₁⟩ := visitAll_right ih hall hmemo
          obtain ⟨hin, hid⟩ := mem_of_find hstage
          have hpreds : ∀ p, Requires g.stages p node ↔ p ∈ stage.dependsOn := fun p => by rw [← hid, requires_iff hids hin]
          have hgreatest := GraphSearch.isGreatest_chainLengths hpreds hheight
          rw [← hdepths] at hgreatest
          refine ⟨hgreatest, fun other d hother => ?_⟩
          by_cases heq : other = node
          · subst heq
            rw [List.lookup_cons_self] at hother
            cases hother
            exact hgreatest
          · rw [List.lookup_cons, beq_false_of_ne heq] at hother
            exact hmemo₁ other d hother

omit [UnicodeData] [SetOrder] in
theorem visitAll_returns {visit : Str → List (Str × Nat) → Except GraphError (Nat × List (Str × Nat))}
    {parents : List Str} (h : ∀ p ∈ parents, ∀ memo, ∃ result, visit p memo = .ok result) (memo : List (Str × Nat)) :
    ∃ result, PipelineGraph.visitAll visit parents memo = .ok result := by
  induction parents generalizing memo with
  | nil => exact ⟨_, rfl⟩
  | cons parent parents ih =>
    obtain ⟨⟨d, memo₁⟩, hfirst⟩ := h parent List.mem_cons_self memo
    obtain ⟨⟨ds, memo₂⟩, hrest⟩ := ih (fun p hp => h p (List.mem_cons_of_mem _ hp)) memo₁
    exact ⟨_, by rw [PipelineGraph.visitAll, hfirst]; simp only []; rw [hrest]⟩

omit [UnicodeData] [SetOrder] in
/-- A visit returns when no chain that ends at its node is longer than the visits may nest. -/
theorem visit_returns (hknown : ∀ a b, Requires g.stages a b → a ∈ stageIds g.stages) {limit : Nat} {node : Str}
    (hnode : node ∈ stageIds g.stages)
    (hlimit : ∀ path : List Str, path.IsChain (Requires g.stages) → path.getLast? = some node → path.length ≤ limit)
    (memo : List (Str × Nat)) : ∃ result, g.visit limit node memo = .ok result := by
  induction limit generalizing node memo with
  | zero =>
    have hle := hlimit [node] (List.isChain_singleton node) rfl
    cases hle
  | succ limit ih =>
    rw [PipelineGraph.visit]
    cases memo.lookup node with
    | some d => exact ⟨_, rfl⟩
    | none =>
      cases hstage : g.stage? node with
      | none =>
        obtain ⟨s, hs, hid⟩ := List.mem_map.mp hnode
        have hnot := List.find?_eq_none.mp hstage s hs
        simp [hid] at hnot
      | some stage =>
        obtain ⟨hin, hid⟩ := mem_of_find hstage
        have hparents : ∀ p ∈ stage.dependsOn, ∀ memo, ∃ result, g.visit limit p memo = .ok result := by
          intro p hp memo
          have hneeds : Requires g.stages p node := ⟨stage, hin, hid, hp⟩
          refine ih (hknown p node hneeds) (fun path hpath hlast => ?_) memo
          have hle := hlimit (path ++ [node]) (hpath.append (List.isChain_singleton node) ?_) (by simp)
          · rw [List.length_append, List.length_singleton] at hle
            exact Nat.le_of_succ_le_succ hle
          · intro x hx y hy
            rw [hlast] at hx
            cases hx
            cases hy
            exact hneeds
        obtain ⟨⟨depths, memo'⟩, hall⟩ := visitAll_returns hparents memo
        simp only [hall]
        exact ⟨_, rfl⟩

omit [UnicodeData] [SetOrder] in
theorem chain_length_le (hacyclic : ∀ a, ¬ TransGen (Requires stages) a a)
    (hknown : ∀ a b, Requires stages a b → a ∈ stageIds stages) {path : List Str} {a : Str}
    (hpath : path.IsChain (Requires stages)) (hlast : path.getLast? = some a) (ha : a ∈ stageIds stages) :
    path.length ≤ stages.length := by
  have hsub : path ⊆ stageIds stages := by
    intro b hb
    induction path with
    | nil => cases hb
    | cons c path ih =>
      cases path with
      | nil =>
        cases hlast
        cases List.mem_singleton.mp hb
        exact ha
      | cons d path =>
        obtain ⟨hlink, hrest⟩ := List.isChain_cons_cons.mp hpath
        rcases List.mem_cons.mp hb with heq | hb
        · exact heq ▸ hknown c d hlink
        · exact ih hrest (by rwa [List.getLast?_cons_cons] at hlast) hb
  have hle := ((GraphSearch.chain_nodup hacyclic hpath).subperm hsub).length_le
  rwa [stageIds, List.length_map] at hle

theorem depth_returns (h : PipelineGraph.create stages = some (.ok g)) (hids : (stageIds stages).Nodup) {limit : Nat}
    (hlimit : stages.length ≤ limit) {a : Str} (ha : a ∈ stageIds stages) :
    ∃ d, g.depth limit a = .ok d ∧ IsGreatest (GraphSearch.chainLengths (Requires stages) a) d := by
  obtain ⟨hstages, hacyclic⟩ := acyclic_of_create h hids
  have hknown := (accepted_of_create h).known
  rw [← hstages] at ha hids hknown hacyclic hlimit ⊢
  obtain ⟨⟨d, memo⟩, hvisit⟩ := visit_returns hknown ha
    (fun path hpath hlast => (chain_length_le hacyclic hknown hpath hlast ha).trans hlimit) []
  exact ⟨d, by rw [PipelineGraph.depth, hvisit]; rfl, (visit_right hids limit _ _ _ _ hvisit nofun).1⟩

/-- The depth of a stage of an accepted graph is the number of dependencies on the longest chain that leads to it, and
larger than the depth of every stage upstream. -/
theorem depth_eq (h : PipelineGraph.create stages = some (.ok g)) (hids : (stageIds stages).Nodup) {limit : Nat}
    (hlimit : stages.length ≤ limit) {a : Str} (ha : a ∈ stageIds stages) :
    ∃ d, g.depth limit a = .ok d ∧ IsGreatest (GraphSearch.chainLengths (Requires stages) a) d ∧
      ∀ b, g.isUpstream b a = some true → ∃ d', g.depth limit b = .ok d' ∧ d' < d := by
  obtain ⟨d, hd, hgreatest⟩ := depth_returns h hids hlimit ha
  refine ⟨d, hd, hgreatest, fun b hb => ?_⟩
  obtain ⟨found, hfound, -, hmem⟩ := (accepted_of_create h).descendants b
  rw [PipelineGraph.isUpstream, hfound, Option.map_some, Option.some_inj, decide_eq_true_iff] at hb
  have hpath := (hmem a).mp hb
  have hbin : b ∈ stageIds stages := by
    obtain ⟨c, hbc, -⟩ := TransGen.head'_iff.mp hpath
    exact (accepted_of_create h).known b c hbc
  obtain ⟨d', hd', hgreatest'⟩ := depth_returns h hids hlimit hbin
  exact ⟨d', hd', GraphSearch.chainLengths_lt hpath hgreatest' hgreatest⟩

end Depth

theorem samplePipeline_depth :
    letI := asciiData
    letI := insertionOrder
    ∃ g d, PipelineGraph.create samplePipeline = some (.ok g) ∧ g.depth 1000 "deploy".toList = .ok d ∧
      IsGreatest (GraphSearch.chainLengths (Requires samplePipeline) "deploy".toList) d := by
  let _ := asciiData
  let _ := insertionOrder
  have h : ∃ g, PipelineGraph.create samplePipeline = some (.ok g) := ⟨_, rfl⟩
  obtain ⟨g, hg⟩ := h
  obtain ⟨d, hd, hgreatest, -⟩ := depth_eq hg (by decide +kernel) (show samplePipeline.length ≤ 1000 by decide)
    (show "deploy".toList ∈ stageIds samplePipeline by decide +kernel)
  exact ⟨g, d, hg, hd, hgreatest⟩

section Plan

variable [UnicodeData] [SetOrder] {stages : List Stage} {g : PipelineGraph}

omit [UnicodeData] [SetOrder] in
theorem keyed_returns {limit : Nat} {ids : List Str} (h : ∀ a ∈ ids, ∃ d, g.depth limit a = .ok d) :
    ∃ keyed : List (Nat × Str), ids.mapM (fun a => (g.depth limit a).map fun d => (d, a)) = .ok keyed ∧
      keyed.map Prod.snd = ids ∧ ∀ entry ∈ keyed, g.depth limit entry.2 = .ok entry.1 := by
  induction ids with
  | nil => exact ⟨[], rfl, rfl, nofun⟩
  | cons a ids ih =>
    obtain ⟨d, hd⟩ := h a List.mem_cons_self
    obtain ⟨keyed, hkeyed, hids, hentries⟩ := ih fun b hb => h b (List.mem_cons_of_mem _ hb)
    refine ⟨(d, a) :: keyed, ?_, by rw [List.map_cons, hids], List.forall_mem_cons.mpr ⟨hd, hentries⟩⟩
    rw [List.mapM_cons, hd, hkeyed]
    rfl

omit [UnicodeData] [SetOrder] in
/-- Sorted by depth: no stage comes before one that is not as deep. -/
theorem sortedByDepth_returns {limit : Nat} {ids : List Str} (h : ∀ a ∈ ids, ∃ d, g.depth limit a = .ok d) :
    ∃ sorted, g.sortedByDepth limit ids = .ok sorted ∧ sorted.Perm ids ∧
      sorted.Pairwise fun a b => ∃ d d', g.depth limit a = .ok d ∧ g.depth limit b = .ok d' ∧ d ≤ d' := by
  obtain ⟨keyed, hkeyed, hids, hentries⟩ := keyed_returns h
  have hperm := List.mergeSort_perm keyed fun a b => a.1 ≤ b.1
  refine ⟨_, by rw [PipelineGraph.sortedByDepth, hkeyed]; rfl, hids ▸ hperm.map Prod.snd, ?_⟩
  have hsorted := @List.pairwise_mergeSort (Nat × Str) (fun a b => a.1 ≤ b.1)
    (fun a b c hab hbc => by simp only [decide_eq_true_eq] at hab hbc ⊢; exact hab.trans hbc)
    (fun a b => by simpa using Nat.le_total a.1 b.1) keyed
  refine List.pairwise_map.mpr (hsorted.imp_of_mem fun {a b} ha hb hab => ?_)
  exact ⟨a.1, b.1, hentries a (hperm.subset ha), hentries b (hperm.subset hb), by simpa using hab⟩

/-- The verification plan of a known stage of an accepted graph begins with this stage and ends with the full pipeline;
between them stand, once each, the failed stages that depend on it through any chain, and none before a stage that it
depends on. -/
theorem planVerification_eq (h : PipelineGraph.create stages = some (.ok g)) (hids : (stageIds stages).Nodup)
    {limit : Nat} (hlimit : stages.length ≤ limit) {rootStage : Str} (hroot : rootStage ∈ stageIds stages)
    (failedStages : List Str) :
    ∃ impacted : List Str, g.planVerification limit rootStage failedStages
        = some (.ok (.root rootStage :: impacted.map .impacted ++ [.full])) ∧ impacted.Nodup ∧
      (∀ b, b ∈ impacted ↔ b ∈ failedStages ∧ TransGen (Requires stages) rootStage b) ∧
      impacted.Pairwise fun a b => ¬ TransGen (Requires stages) b a := by
  have hacc := accepted_of_create h
  obtain ⟨found, hfound, hnodup, hmem⟩ := hacc.descendants rootStage
  have hin : ∀ b, TransGen (Requires stages) rootStage b → b ∈ stageIds stages := by
    intro b hb
    obtain ⟨a, -, s, hs, hid, -⟩ := TransGen.tail'_iff.mp hb
    exact hid ▸ List.mem_map_of_mem hs
  let failed := SetOrder.iterate (found.filter fun stage => stage ∈ failedStages)
  have hfailed : failed.Perm (found.filter fun stage => stage ∈ failedStages) := SetOrder.iterate_perm _
  have hfailed_iff : ∀ b, b ∈ failed ↔ b ∈ failedStages ∧ TransGen (Requires stages) rootStage b := fun b => by
    rw [hfailed.mem_iff, List.mem_filter, decide_eq_true_eq, hmem b, and_comm]
  have hdepths : ∀ b ∈ failed, ∃ d, g.depth limit b = .ok d := fun b hb => by
    obtain ⟨d, hd, -⟩ := depth_returns h hids hlimit (hin b ((hfailed_iff b).mp hb).2)
    exact ⟨d, hd⟩
  obtain ⟨sorted, hsorted, hperm, hpairs⟩ := sortedByDepth_returns hdepths
  refine ⟨sorted, ?_, ?_, fun b => hperm.mem_iff.trans (hfailed_iff b), ?_⟩
  · rw [PipelineGraph.planVerification, if_neg (fun hnot => hnot (hacc.stageIds_iff.mpr hroot)), hfound, Option.map_some]
    exact congrArg some (by rw [hsorted]; rfl)
  · exact hperm.nodup_iff.mpr (hfailed.nodup_iff.mpr (hnodup.filter _))
  · refine hpairs.imp_of_mem fun {a b} ha hb hle hpath => ?_
    obtain ⟨d, d', hd, hd', hle⟩ := hle
    have hdeep : ∀ c ∈ sorted, ∀ d, g.depth limit c = .ok d → IsGreatest (GraphSearch.chainLengths (Requires stages) c) d := by
      intro c hc d hd
      obtain ⟨d', hd', hgreatest⟩ := depth_returns h hids hlimit (hin c ((hfailed_iff c).mp (hperm.subset hc)).2)
      rw [hd] at hd'
      cases hd'
      exact hgreatest
    exact absurd (GraphSearch.chainLengths_lt hpath (hdeep b hb d' hd') (hdeep a ha d hd)) (Nat.not_lt.mpr hle)

end Plan

theorem samplePipeline_plan :
    letI := asciiData
    letI := insertionOrder
    ∃ (g : PipelineGraph) (impacted : List Str), PipelineGraph.create samplePipeline = some (.ok g) ∧
      g.planVerification 1000 "build".toList ["deploy".toList, "test".toList]
        = some (.ok (.root "build".toList :: impacted.map .impacted ++ [.full])) ∧
      impacted.Pairwise fun a b => ¬ TransGen (Requires samplePipeline) b a := by
  let _ := asciiData
  let _ := insertionOrder
  have h : ∃ g, PipelineGraph.create samplePipeline = some (.ok g) := ⟨_, rfl⟩
  obtain ⟨g, hg⟩ := h
  obtain ⟨impacted, hplan, -, -, hordered⟩ := planVerification_eq hg (by decide +kernel)
    (show samplePipeline.length ≤ 1000 by decide) (show "build".toList ∈ stageIds samplePipeline by decide +kernel)
    ["deploy".toList, "test".toList]
  exact ⟨g, impacted, hg, hplan, hordered⟩

end FailureOrchestrator
