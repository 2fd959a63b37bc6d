import Mathlib.Algebra.Order.BigOperators.Group.List
import Mathlib.Algebra.Order.Ring.Nat
import Mathlib.Data.Fintype.Card
import Mathlib.Data.Set.Finite.Basic
import Mathlib.Data.List.Chain
import Mathlib.Data.List.Nodup
import Mathlib.Logic.Relation
import Mathlib.Order.Bounds.Basic
import Mathlib.Order.WellFounded

namespace FailureOrchestrator

namespace GraphSearch

open Relation

variable {α : Type} [DecidableEq α]

/-- The nodes that a stack leads to, depth first and the last one found in front; `none` when the steps are used up. -/
def explore (succs : α → List α) : Nat → List α → List α → Option (List α)
  | 0, _, _ => none
  | _ + 1, [], found => some found
  | fuel + 1, node :: stack, found =>
    if node ∈ found then explore succs fuel stack found else explore succs fuel (succs node ++ stack) (node :: found)

/-- A node waits for one predecessor less, and is queued when it waits for none. -/
def release (state : (α → Int) × List α) (child : α) : (α → Int) × List α :=
  (Function.update state.1 child (state.1 child - 1),
    if state.1 child - 1 = 0 then state.2 ++ [child] else state.2)

/-- The number of nodes that leave the queue until it is empty, each of them releasing its successors; `none` when the
steps are used up. -/
def peel (succs : α → List α) : Nat → (α → Int) → List α → Nat → Option Nat
  | 0, _, _, _ => none
  | _ + 1, _, [], seen => some seen
  | fuel + 1, waits, current :: queue, seen =>
    let state := (succs current).foldl release (waits, queue)
    peel succs fuel state.1 state.2 (seen + 1)

/-- How many of the nodes have `b` as a successor. -/
def before (succs : α → List α) (nodes : List α) (b : α) : Nat := nodes.countP fun a => b ∈ succs a

/-- An order in which each node comes after as many of its predecessors as it needs. -/
def Admissible (succs : α → List α) (need : α → Nat) (order : List α) : Prop :=
  ∀ earlier b, earlier ++ [b] <+: order → need b ≤ before succs earlier b

/-- The numbers of edges of the chains that end at a node. -/
def chainLengths (r : α → α → Prop) (a : α) : Set Nat :=
  {n | ∃ path : List α, path.IsChain r ∧ path.getLast? = some a ∧ path.length = n + 1}

section Explore

variable {succs : α → List α}

/-- The steps that the nodes not found yet can still add to the stack. -/
def pending (succs : α → List α) (nodes found : List α) : Nat :=
  ((nodes.filter fun a => a ∉ found).map fun a => (succs a).length).sum

theorem pending_cons {nodes found : List α} {a : α} (ha : a ∈ nodes) (hnew : a ∉ found) :
    pending succs nodes (a :: found) + (succs a).length ≤ pending succs nodes found := by
  induction nodes with
  | nil => cases ha
  | cons b nodes ih =>
    unfold pending at ih ⊢
    have hmono : ((nodes.filter fun x => x ∉ a :: found).map fun x => (succs x).length).sum
        ≤ ((nodes.filter fun x => x ∉ found).map fun x => (succs x).length).sum := by
      refine List.Sublist.sum_le_sum (List.Sublist.map _ ?_) fun _ _ => Nat.zero_le _
      exact List.monotone_filter_right _ fun x hx => by
        simp only [List.mem_cons, not_or, decide_eq_true_eq] at hx ⊢
        exact hx.2
    by_cases hb : b = a
    · subst hb
      rw [List.filter_cons_of_neg (by simp), List.filter_cons_of_pos (by simpa using hnew), List.map_cons,
        List.sum_cons]
      omega
    · have ih := ih ((List.mem_cons.mp ha).resolve_left fun h => hb h.symm)
      by_cases hfound : b ∈ found
      · rw [List.filter_cons_of_neg (by simp [hfound]), List.filter_cons_of_neg (by simpa using hfound)]
        exact ih
      · rw [List.filter_cons_of_pos (by simp [hb, hfound]), List.filter_cons_of_pos (by simpa using hfound),
          List.map_cons, List.map_cons, List.sum_cons, List.sum_cons]
        omega

theorem pending_nil {succs' : α → List α} (hlen : ∀ a, (succs a).length = (succs' a).length) {nodes : List α} :
    pending succs nodes [] = (nodes.map fun a => (succs' a).length).sum := by
  unfold pending
  rw [List.filter_eq_self.mpr (by simp)]
  simp only [hlen]

/-- What is found, and what the stack still leads to. -/
structure Explored (succs : α → List α) (start stack found : List α) : Prop where
  nodup : found.Nodup
  sound : ∀ b ∈ found ++ stack, ∃ a ∈ start, ReflTransGen (fun a b => b ∈ succs a) a b
  closed : ∀ a ∈ found, ∀ b ∈ succs a, b ∈ found ++ stack
  start : ∀ a ∈ start, a ∈ found ++ stack

omit [DecidableEq α] in
theorem Explored.push {start stack found : List α} {node : α} (h : Explored succs start (node :: stack) found)
    (hnew : node ∉ found) : Explored succs start (succs node ++ stack) (node :: found) where
  nodup := List.nodup_cons.mpr ⟨hnew, h.nodup⟩
  sound b hb := by
    have hnode := h.sound node (List.mem_append_right _ List.mem_cons_self)
    have hcases : b = node ∨ b ∈ found ∨ b ∈ succs node ∨ b ∈ stack := by simpa using hb
    rcases hcases with heq | hfound | hsucc | hstack
    · exact heq ▸ hnode
    · exact h.sound b (List.mem_append_left _ hfound)
    · obtain ⟨a, ha, hpath⟩ := hnode
      exact ⟨a, ha, hpath.tail hsucc⟩
    · exact h.sound b (List.mem_append_right _ (List.mem_cons_of_mem _ hstack))
  closed a ha b hb := by
    rcases List.mem_cons.mp ha with heq | hfound
    · rw [heq] at hb
      simp [hb]
    · have hin : b ∈ found ∨ b = node ∨ b ∈ stack := by simpa using h.closed a hfound b hb
      rcases hin with hin | hin | hin <;> simp [hin]
  start a ha := by
    have hin : a ∈ found ∨ a = node ∨ a ∈ stack := by simpa using h.start a ha
    rcases hin with hin | hin | hin <;> simp [hin]

omit [DecidableEq α] in
theorem Explored.pop {start stack found : List α} {node : α} (h : Explored succs start (node :: stack) found)
    (hold : node ∈ found) : Explored succs start stack found := by
  have hin : ∀ b, b ∈ found ++ node :: stack → b ∈ found ++ stack := by
    intro b hb
    have hcases : b ∈ found ∨ b = node ∨ b ∈ stack := by simpa using hb
    rcases hcases with hb | hb | hb
    · exact List.mem_append_left _ hb
    · exact List.mem_append_left _ (hb ▸ hold)
    · exact List.mem_append_right _ hb
  refine ⟨h.nodup, fun b hb => h.sound b ?_, fun a ha b hb => hin b (h.closed a ha b hb), fun a ha => hin a (h.start a ha)⟩
  rcases List.mem_append.mp hb with hb | hb
  · exact List.mem_append_left _ hb
  · exact List.mem_append_right _ (List.mem_cons_of_mem _ hb)

/-- Among finitely many nodes the search ends, and has explored what its stack leads to. -/
theorem Explored.run {nodes start : List α} (hnodes : ∀ a ∈ nodes, ∀ b ∈ succs a, b ∈ nodes) {fuel : Nat}
    {stack found : List α} (h : Explored succs start stack found) (hstack : ∀ a ∈ stack, a ∈ nodes)
    (hfuel : stack.length + pending succs nodes found < fuel) :
    ∃ result, explore succs fuel stack found = some result ∧ Explored succs start [] result := by
  induction fuel generalizing stack found with
  | zero => omega
  | succ fuel ih =>
    cases stack with
    | nil => exact ⟨found, rfl, h⟩
    | cons node stack =>
      have hrest : ∀ a ∈ stack, a ∈ nodes := fun a ha => hstack a (List.mem_cons_of_mem _ ha)
      rw [List.length_cons] at hfuel
      by_cases hold : node ∈ found
      · rw [explore, if_pos hold]
        exact ih (h.pop hold) hrest (by omega)
      · rw [explore, if_neg hold]
        have hnode := hstack node List.mem_cons_self
        have hless : pending succs nodes (node :: found) + (succs node).length ≤ pending succs nodes found :=
          pending_cons hnode hold
        refine ih (h.push hold) (fun a ha => ?_) (by rw [List.length_append]; omega)
        rcases List.mem_append.mp ha with ha | ha
        · exact hnodes node hnode a ha
        · exact hrest a ha

/-- Exploring the successors of a node finds, each once, the nodes that a chain of successors leads to. -/
theorem explore_succs {nodes : List α} (hnodes : ∀ a ∈ nodes, ∀ b ∈ succs a, b ∈ nodes) {a : α}
    (ha : ∀ b ∈ succs a, b ∈ nodes) {fuel : Nat} (hfuel : (succs a).length + pending succs nodes [] < fuel) :
    ∃ result, explore succs fuel (succs a) [] = some result ∧ result.Nodup ∧
      ∀ b, b ∈ result ↔ TransGen (fun a b => b ∈ succs a) a b := by
  have hinit : Explored succs (succs a) (succs a) [] :=
    ⟨List.nodup_nil, fun b hb => ⟨b, hb, .refl⟩, nofun, fun b hb => hb⟩
  obtain ⟨result, hrun, h⟩ := hinit.run hnodes ha hfuel
  refine ⟨result, hrun, h.nodup, fun b => ⟨fun hb => ?_, fun hb => ?_⟩⟩
  · obtain ⟨c, hc, hpath⟩ := h.sound b (List.mem_append_left _ hb)
    exact .head' hc hpath
  · induction hb with
    | single hlast => simpa using h.start _ hlast
    | tail _ hlast ih => simpa using h.closed _ ih _ hlast

end Explore

section Peel

variable {succs : α → List α} {need : α → Nat} {nodes : List α}

theorem before_eq_countP {b : α} {p : α → Bool} (h : ∀ a ∈ nodes, b ∈ succs a ↔ p a = true) :
    before succs nodes b = nodes.countP p :=
  List.countP_congr fun a ha => decide_eq_true_iff.trans (h a ha)

theorem before_append (xs ys : List α) (b : α) : before succs (xs ++ ys) b = before succs xs b + before succs ys b :=
  List.countP_append

theorem before_singleton (a b : α) : before succs [a] b = if b ∈ succs a then 1 else 0 := by
  simp [before, List.countP_singleton]

theorem before_mono {xs ys : List α} (hxs : xs.Nodup) (hsub : xs ⊆ ys) (b : α) : before succs xs b ≤ before succs ys b :=
  (hxs.subperm hsub).countP_le _

theorem release_foldl {children : List α} (h : children.Nodup) (waits : α → Int) (queue : List α) :
    (∀ b, (children.foldl release (waits, queue)).1 b = waits b - if b ∈ children then 1 else 0) ∧
      (children.foldl release (waits, queue)).2 = queue ++ children.filter fun b => waits b = 1 := by
  induction children generalizing waits queue with
  | nil => simp
  | cons c children ih =>
    obtain ⟨hc, hrest⟩ := List.nodup_cons.mp h
    obtain ⟨hwaits, hqueue⟩ := ih hrest (release (waits, queue) c).1 (release (waits, queue) c).2
    rw [List.foldl_cons]
    refine ⟨fun b => (hwaits b).trans ?_, hqueue.trans ?_⟩
    · by_cases hb : b = c
      · subst hb
        simp [release, hc]
      · simp [release, hb]
    · have hsame : children.filter (fun b => (release (waits, queue) c).1 b = 1)
          = children.filter fun b => waits b = 1 := by
        refine List.filter_congr fun b hb => ?_
        have hne : b ≠ c := fun h => hc (h ▸ hb)
        simp [release, hne]
      rw [hsame]
      by_cases hone : waits c = 1
      · simp [release, hone]
      · have hsub : ¬ waits c - 1 = 0 := by omega
        simp [release, hone, hsub]

/-- What has left the queue in some turns, and what waits for how many. -/
structure Peeled (succs : α → List α) (need : α → Nat) (nodes out : List α) (waits : α → Int) (queue : List α) :
    Prop where
  count : ∀ b, waits b = need b - before succs out b
  nodup : (out ++ queue).Nodup
  ready : ∀ b, b ∈ out ++ queue ↔ b ∈ nodes ∧ waits b ≤ 0
  admissible : Admissible succs need out

theorem Admissible.concat {order : List α} {b : α} (h : Admissible succs need order)
    (hb : need b ≤ before succs order b) : Admissible succs need (order ++ [b]) := by
  intro earlier c hbegins
  rcases List.prefix_concat_iff.mp hbegins with heq | hshort
  · obtain ⟨heq, hlast⟩ := List.append_inj' heq rfl
    cases heq
    cases hlast
    exact hb
  · exact h earlier c hshort

theorem Peeled.turn {out : List α} {waits : α → Int} {current : α} {queue : List α}
    (h : Peeled succs need nodes out waits (current :: queue)) (hsuccs : (succs current).Nodup)
    (hnodes : ∀ b ∈ succs current, b ∈ nodes) :
    Peeled succs need nodes (out ++ [current]) ((succs current).foldl release (waits, queue)).1
      ((succs current).foldl release (waits, queue)).2 := by
  obtain ⟨hwaits, hqueue⟩ := release_foldl hsuccs waits queue
  have hsplit : out ++ [current] ++ (queue ++ (succs current).filter fun b => waits b = 1)
      = (out ++ current :: queue) ++ (succs current).filter fun b => waits b = 1 := by simp
  rw [hqueue]
  refine ⟨fun b => ?_, ?_, fun b => ?_, h.admissible.concat ?_⟩
  · have hcount := h.count b
    rw [hwaits b, before_append, before_singleton]
    split <;> push_cast <;> omega
  · rw [hsplit]
    refine h.nodup.append (hsuccs.filter _) fun b hin hnew => ?_
    have hle := ((h.ready b).mp hin).2
    have hone : waits b = 1 := by simpa using (List.mem_filter.mp hnew).2
    omega
  · rw [hsplit, List.mem_append, h.ready b, List.mem_filter, hwaits b, decide_eq_true_eq]
    constructor
    · rintro (⟨hb, hle⟩ | ⟨hb, hone⟩)
      · exact ⟨hb, by split <;> omega⟩
      · rw [if_pos hb]
        exact ⟨hnodes b hb, by omega⟩
    · rintro ⟨hb, hle⟩
      by_cases hold : waits b ≤ 0
      · exact .inl ⟨hb, hold⟩
      · by_cases hsucc : b ∈ succs current
        · rw [if_pos hsucc] at hle
          exact .inr ⟨hsucc, by omega⟩
        · rw [if_neg hsucc] at hle
          omega
  · have hle := ((h.ready current).mp (List.mem_append_right _ List.mem_cons_self)).2
    have hcount := h.count current
    omega

theorem Peeled.length_le {out queue : List α} {waits : α → Int} (h : Peeled succs need nodes out waits queue) :
    out.length + queue.length ≤ nodes.length := by
  rw [← List.length_append]
  exact (h.nodup.subperm fun b hb => ((h.ready b).mp hb).1).length_le

/-- The queue runs empty before the steps do. -/
theorem Peeled.run (hsuccs : ∀ a, (succs a).Nodup) (hnodes : ∀ a, ∀ b ∈ succs a, b ∈ nodes) {fuel : Nat}
    {out queue : List α} {waits : α → Int} (h : Peeled succs need nodes out waits queue)
    (hfuel : nodes.length < fuel + out.length) :
    ∃ all waits', peel succs fuel waits queue out.length = some all.length ∧ Peeled succs need nodes all waits' [] := by
  induction fuel generalizing out queue waits with
  | zero =>
    have hle := h.length_le
    omega
  | succ fuel ih =>
    cases queue with
    | nil => exact ⟨out, waits, rfl, h⟩
    | cons current queue =>
      have hnext := ih (h.turn (hsuccs current) (hnodes current)) (by rw [List.length_append, List.length_singleton]; omega)
      rw [List.length_append, List.length_singleton] at hnext
      exact hnext

theorem peeled_start (hnodup : nodes.Nodup) :
    Peeled succs need nodes [] (fun b => need b) (nodes.filter fun b => (need b : Int) = 0) where
  count b := by simp [before]
  nodup := hnodup.filter _
  ready b := by
    rw [List.nil_append, List.mem_filter, decide_eq_true_eq]
    exact and_congr_right fun _ => by omega
  admissible earlier b hbegins := by
    have hlen := hbegins.length_le
    simp at hlen

theorem exists_peeled (hnodup : nodes.Nodup) (hsuccs : ∀ a, (succs a).Nodup) (hnodes : ∀ a, ∀ b ∈ succs a, b ∈ nodes) :
    ∃ all waits, peel succs (nodes.length + 1) (fun b => need b) (nodes.filter fun b => (need b : Int) = 0) 0
      = some all.length ∧ Peeled succs need nodes all waits [] :=
  (peeled_start hnodup).run hsuccs hnodes (by simp)

theorem Peeled.mem_iff {all : List α} {waits : α → Int} (h : Peeled succs need nodes all waits []) {b : α} :
    b ∈ all ↔ b ∈ nodes ∧ need b ≤ before succs all b := by
  have hready := h.ready b
  rw [List.append_nil, h.count b] at hready
  exact hready.trans (and_congr_right fun _ => by omega)

theorem Peeled.all_nodup {all : List α} {waits : α → Int} (h : Peeled succs need nodes all waits []) : all.Nodup := by
  simpa using h.nodup

/-- Every node of an admissible order leaves the queue. -/
theorem Peeled.of_admissible {all order : List α} {waits : α → Int} (h : Peeled succs need nodes all waits [])
    (hadm : Admissible succs need order) (hnodup : order.Nodup) (hsub : order ⊆ nodes) : order ⊆ all := by
  -- Along the order each node has left the queue before the next one is looked at.
  have hin : ∀ earlier, earlier <+: order → earlier ⊆ all := by
    intro earlier
    induction earlier using List.reverseRecOn with
    | nil => exact fun _ => List.nil_subset _
    | append_singleton earlier b ih =>
      intro hbegins
      have hearlier := ih ((List.prefix_append _ _).trans hbegins)
      have hneed := hadm earlier b hbegins
      have hnd : earlier.Nodup := (hnodup.sublist hbegins.sublist).sublist (List.sublist_append_left _ _)
      have hle : before succs earlier b ≤ before succs all b := before_mono hnd hearlier b
      have hb : b ∈ nodes := hsub (hbegins.subset (by simp))
      exact List.append_subset.mpr ⟨hearlier, by simpa using h.mem_iff.mpr ⟨hb, hneed.trans hle⟩⟩
  exact hin order (List.prefix_refl _)

/-- All nodes leave the queue exactly when some order of them is admissible. -/
theorem Peeled.length_eq_iff {all : List α} {waits : α → Int} (h : Peeled succs need nodes all waits [])
    (hnodup : nodes.Nodup) :
    all.length = nodes.length ↔ ∃ order : List α, order.Perm nodes ∧ Admissible succs need order := by
  have hsub : all ⊆ nodes := fun b hb => (h.mem_iff.mp hb).1
  constructor
  · intro hlen
    exact ⟨all, (h.all_nodup.subperm hsub).perm_of_length_le (Nat.le_of_eq hlen.symm), h.admissible⟩
  · rintro ⟨order, hperm, hadm⟩
    have hall := h.of_admissible hadm (hperm.nodup_iff.mpr hnodup) hperm.subset
    have hback := (hnodup.subperm fun b hb => hall (hperm.symm.subset hb)).length_le
    have hforth := (h.all_nodup.subperm hsub).length_le
    omega

end Peel

section Acyclic

variable {r : α → α → Prop} {nodes : List α}

omit [DecidableEq α] in
/-- Without a cycle, some node of a property has no predecessor with it. -/
theorem acyclic_minimal (hr : ∀ a, ¬ TransGen r a a) {P : α → Prop} {b : α} (hb : b ∈ nodes) (hP : P b) :
    ∃ c ∈ nodes, P c ∧ ∀ a ∈ nodes, r a c → ¬ P a := by
  let below : {a // a ∈ nodes} → {a // a ∈ nodes} → Prop := fun a b => TransGen r a b
  have : IsTrans _ below := ⟨fun _ _ _ hab hbc => TransGen.trans hab hbc⟩
  have : Std.Irrefl below := ⟨fun a => hr a⟩
  have : Finite {a // a ∈ nodes} := nodes.finite_toSet
  have hwf : WellFounded below := Finite.wellFounded_of_trans_of_irrefl below
  obtain ⟨c, hc, hmin⟩ := hwf.has_min {a | P a} ⟨⟨b, hb⟩, hP⟩
  exact ⟨c, c.2, hc, fun a ha hac hPa => hmin ⟨a, ha⟩ hPa (.single hac)⟩

omit [DecidableEq α] in
theorem chain_nodup (hr : ∀ a, ¬ TransGen r a a) {path : List α} (hpath : path.IsChain r) : path.Nodup := by
  have hpair : path.Pairwise (TransGen r) := (hpath.imp fun _ _ hab => TransGen.single hab).pairwise
  refine hpair.imp ?_
  rintro a b hab rfl
  exact hr a hab

variable {succs : α → List α} {need : α → Nat}

/-- A node comes after its predecessors, in an admissible order by all of them. -/
theorem Admissible.precedes {order : List α} (hadm : Admissible succs need order)
    (hneed : ∀ b ∈ order, before succs order b ≤ need b) {a b : α} (ha : a ∈ order) (hb : b ∈ order)
    (hab : b ∈ succs a) : order.idxOf a < order.idxOf b := by
  obtain ⟨earlier, later, heq, hnot⟩ := List.eq_append_cons_of_mem hb
  have hbegins : earlier ++ [b] <+: order := ⟨later, by rw [heq]; simp⟩
  have hle := (hneed b hb).trans (hadm earlier b hbegins)
  rw [heq, before_append] at hle
  have hnone : before succs (b :: later) b = 0 := by omega
  have hnotin : a ∉ b :: later := fun hin => by
    have := List.countP_eq_zero.mp hnone a hin
    simp [hab] at this
  have hearlier : a ∈ earlier := by
    rw [heq] at ha
    exact (List.mem_append.mp ha).resolve_right hnotin
  rw [heq, List.idxOf_append_of_mem hearlier, List.idxOf_append_of_notMem hnot, List.idxOf_cons_self]
  have hlt := List.idxOf_lt_length_of_mem hearlier
  omega

/-- Of nodes that need all their predecessors, all leave the queue exactly when none needs more than it has and no chain
of successors is a cycle. -/
theorem Peeled.acyclic_iff {all : List α} {waits : α → Int} (h : Peeled succs need nodes all waits [])
    (hnodup : nodes.Nodup) (hedges : ∀ a, ∀ b ∈ succs a, a ∈ nodes ∧ b ∈ nodes)
    (hneed : ∀ b ∈ nodes, before succs nodes b ≤ need b) :
    all.length = nodes.length ↔
      (∀ b ∈ nodes, need b = before succs nodes b) ∧ ∀ a, ¬ TransGen (fun a b => b ∈ succs a) a a := by
  constructor
  · intro hlen
    obtain ⟨order, hperm, hadm⟩ := (h.length_eq_iff hnodup).mp hlen
    have hord : order.Nodup := hperm.nodup_iff.mpr hnodup
    have hsame : ∀ b, before succs order b = before succs nodes b := fun b => hperm.countP_eq _
    have hneed' : ∀ b ∈ order, before succs order b ≤ need b := fun b hb => by
      rw [hsame b]
      exact hneed b (hperm.subset hb)
    refine ⟨fun b hb => Nat.le_antisymm ?_ (hneed b hb), fun a hcycle => ?_⟩
    · obtain ⟨earlier, later, heq, -⟩ := List.eq_append_cons_of_mem (hperm.symm.subset hb)
      have hle := hadm earlier b ⟨later, by rw [heq]; simp⟩
      have hmore : before succs earlier b ≤ before succs order b :=
        before_mono (hord.sublist (by rw [heq]; exact List.sublist_append_left _ _))
          (by rw [heq]; exact List.subset_append_left _ _) b
      rw [hsame b] at hmore
      omega
    · have hlt : ∀ b, TransGen (fun a b => b ∈ succs a) a b → order.idxOf a < order.idxOf b := by
        intro b hpath
        induction hpath with
        | single hab =>
          obtain ⟨ha, hb⟩ := hedges _ _ hab
          exact hadm.precedes hneed' (hperm.symm.subset ha) (hperm.symm.subset hb) hab
        | tail _ hbc ih =>
          obtain ⟨hb, hc⟩ := hedges _ _ hbc
          exact ih.trans (hadm.precedes hneed' (hperm.symm.subset hb) (hperm.symm.subset hc) hbc)
      exact Nat.lt_irrefl _ (hlt a hcycle)
  · rintro ⟨hexact, hacyclic⟩
    have hall : nodes ⊆ all := by
      intro b hb
      by_contra hnot
      obtain ⟨c, hc, hout, hmin⟩ := acyclic_minimal hacyclic (P := fun c => c ∉ all) hb hnot
      refine hout (h.mem_iff.mpr ⟨hc, ?_⟩)
      -- Every predecessor of `c` has left the queue, so `c` has none to wait for.
      have hpreds : (nodes.filter fun a => c ∈ succs a) ⊆ all := by
        intro a ha
        obtain ⟨ha, hac⟩ := List.mem_filter.mp ha
        exact not_not.mp (hmin a ha (by simpa using hac))
      have hle := ((hnodup.filter _).subperm hpreds).countP_le fun a => c ∈ succs a
      rw [List.countP_filter] at hle
      rw [hexact c hc]
      simpa [before] using hle
    have hback := (hnodup.subperm hall).length_le
    have hforth := (h.all_nodup.subperm fun b hb => (h.mem_iff.mp hb).1).length_le
    omega

omit [DecidableEq α] in
/-- The longest chains that end at a node, from the longest ones that end at its predecessors. -/
theorem isGreatest_chainLengths {a : α} {preds : List α} {height : α → Nat} (hpreds : ∀ p, r p a ↔ p ∈ preds)
    (hheight : ∀ p ∈ preds, IsGreatest (chainLengths r p) (height p)) :
    IsGreatest (chainLengths r a) (if preds = [] then 0 else 1 + (preds.map height).max?.getD 0) := by
  constructor
  · split
    next => exact ⟨[a], List.isChain_singleton a, rfl, rfl⟩
    next hne =>
      obtain ⟨m, hm⟩ := Option.isSome_iff_exists.mp (List.isSome_max?_of_ne_nil (mt (List.map_eq_nil_iff (f := height)).mp hne))
      obtain ⟨p, hp, hpm⟩ := List.mem_map.mp (List.max?_eq_some_iff.mp hm).1
      obtain ⟨path, hpath, hlast, hlen⟩ := (hheight p hp).1
      refine ⟨path ++ [a], hpath.append (List.isChain_singleton a) ?_, by simp, ?_⟩
      · intro x hx y hy
        rw [hlast] at hx
        cases hx
        cases hy
        exact (hpreds p).mpr hp
      · rw [List.length_append, hlen, hm, ← hpm, List.length_singleton, Option.getD_some]
        omega
  · rintro n ⟨path, hpath, hlast, hlen⟩
    rcases List.eq_nil_or_concat' path with hnil | ⟨init, last, heq⟩
    · rw [hnil] at hlast
      cases hlast
    · subst heq
      rw [List.getLast?_concat] at hlast
      cases hlast
      rcases List.eq_nil_or_concat' init with hnil | ⟨front, p, heq⟩
      · rw [hnil] at hlen
        have hn : n = 0 := by simpa using hlen.symm
        omega
      · subst heq
        obtain ⟨hfront, -, hlink⟩ := List.isChain_append.mp hpath
        have hrp : r p a := hlink p (by simp) a (by simp)
        have hp := (hpreds p).mp hrp
        have hbound : front.length ≤ height p := (hheight p hp).2 ⟨front ++ [p], hfront, by simp, by simp⟩
        have hne : preds ≠ [] := List.ne_nil_of_mem hp
        obtain ⟨m, hm⟩ := Option.isSome_iff_exists.mp (List.isSome_max?_of_ne_nil (mt (List.map_eq_nil_iff (f := height)).mp hne))
        have hle := (List.max?_eq_some_iff.mp hm).2 (height p) (List.mem_map_of_mem hp)
        rw [if_neg hne, hm, Option.getD_some]
        simp at hlen
        omega

omit [DecidableEq α] in
/-- Longest chains grow along the relation. -/
theorem chainLengths_lt {a b : α} {m n : Nat} (h : TransGen r a b) (hm : IsGreatest (chainLengths r a) m)
    (hn : IsGreatest (chainLengths r b) n) : m < n := by
  have hlonger : ∃ k ∈ chainLengths r b, m < k := by
    clear hn
    induction h with
    | single hab =>
      obtain ⟨path, hpath, hlast, hlen⟩ := hm.1
      refine ⟨m + 1, ⟨path ++ [_], hpath.append (List.isChain_singleton _) ?_, List.getLast?_concat, ?_⟩, Nat.lt_succ_self m⟩
      · intro x hx y hy
        rw [hlast] at hx
        cases hx
        cases hy
        exact hab
      · rw [List.length_append, hlen]
        rfl
    | tail _ hbc ih =>
      obtain ⟨k, ⟨path, hpath, hlast, hlen⟩, hmk⟩ := ih
      refine ⟨k + 1, ⟨path ++ [_], hpath.append (List.isChain_singleton _) ?_, List.getLast?_concat, ?_⟩, by omega⟩
      · intro x hx y hy
        rw [hlast] at hx
        cases hx
        cases hy
        exact hbc
      · rw [List.length_append, hlen]
        rfl
  obtain ⟨k, hk, hmk⟩ := hlonger
  exact hmk.trans_le (hn.2 hk)

end Acyclic

end GraphSearch

end FailureOrchestrator
