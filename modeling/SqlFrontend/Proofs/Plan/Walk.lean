import Mathlib.Algebra.Ring.Nat
import Mathlib.Data.List.Nodup
import SqlFrontend.CommandLine.Report

/-!
# The walk over a plan

A walk takes nodes off a stack of trees, and the report about a plan descends its tree. Both come by the
same nodes in the same order: each node before those below it, and the trees below it one after the
other. A walk pushes as many trees as a node has children, so that it is the number of nodes on the stack
that falls with every step, and not the number of trees.

Results:
* `PlanNode.preOrder_eq`: the nodes of a tree are its root, and then those of the trees below it.
* `PlanNode.walk_eq`: a walk lists the nodes of the trees on the stack, one tree after the other.
* `PlanNode.stackAfter`: the stack after a number of steps. `PlanNode.next?_stackAfter` says what it hands
  out next, `PlanNode.flatMap_stackAfter` what is still to come, and `PlanNode.apart_stackAfter` that no
  tree on it is within another.
* `PlanNode.listing`: the nodes of a tree with their places. `CommandLine.nodeLines_eq` says that a report
  has one line for each of them.
* `PlanNode.walk_exact`: all of this, for the walk from any tree.
-/

namespace SqlFrontend

namespace PlanNode

/-! ## The nodes of a tree -/

theorem preOrderAll_eq (trees : List PlanNode) : preOrderAll trees = trees.flatMap preOrder := by
  induction trees with
  | nil => rfl
  | cons tree rest ih => rw [preOrderAll, ih, List.flatMap_cons]

/-- The nodes of a tree are its root, and then those of the trees below it. -/
theorem preOrder_eq (node : PlanNode) : node.preOrder = node :: node.children.flatMap preOrder := by
  cases node
  rw [preOrder, preOrderAll_eq]

theorem sizeAll_eq (trees : List PlanNode) : sizeAll trees = (trees.map size).sum := by
  induction trees with
  | nil => rfl
  | cons tree rest ih => rw [sizeAll, ih, List.map_cons, List.sum_cons]

theorem size_le_of_mem {trees : List PlanNode} {tree : PlanNode} (h : tree ∈ trees) :
    tree.size ≤ sizeAll trees := by
  induction trees with
  | nil => cases h
  | cons first rest ih =>
    rw [sizeAll]
    rcases List.mem_cons.1 h with rfl | h
    · exact Nat.le_add_right _ _
    · exact Nat.le_add_left_of_le (ih h)

theorem size_lt_of_mem {node child : PlanNode} (h : child ∈ node.children) : child.size < node.size := by
  rw [size_eq node]
  exact Nat.lt_succ_of_le (size_le_of_mem h)

/-- Induction over a tree: what holds of a node if it holds of those right below it holds of all. -/
theorem induction {motive : PlanNode → Prop}
    (h : ∀ node : PlanNode, (∀ child ∈ node.children, motive child) → motive node) (node : PlanNode) :
    motive node :=
  h node fun child _ => induction h child
termination_by node.size
decreasing_by exact size_lt_of_mem ‹_›

theorem length_preOrder (node : PlanNode) : node.preOrder.length = node.size := by
  induction node using induction with
  | h node ih =>
    rw [preOrder_eq, List.length_cons, List.length_flatMap, size_eq, sizeAll_eq,
      List.map_congr_left ih]

/-! ## Walks -/

theorem walk_nil : walk [] = [] := by
  rw [walk]
  rfl

theorem walk_cons (node : PlanNode) (rest : List PlanNode) :
    walk (node :: rest) = node :: walk (node.children ++ rest) := by
  rw [walk]
  rfl

/-- A walk lists the nodes of the trees on the stack, one tree after the other. -/
theorem walk_eq (stack : List PlanNode) : walk stack = stack.flatMap preOrder := by
  match stack with
  | [] => rw [walk_nil, List.flatMap_nil]
  | node :: rest =>
    rw [walk_cons, walk_eq (node.children ++ rest), List.flatMap_append, List.flatMap_cons,
      preOrder_eq, List.cons_append]
termination_by sizeAll stack
decreasing_by
  simp only [sizeAll, sizeAll_append, size_eq]
  omega

theorem nodes_eq_preOrder (node : PlanNode) : node.nodes = node.preOrder := by
  rw [nodes, walk_eq, List.flatMap_singleton]

theorem nodes_eq_cons (node : PlanNode) : node.nodes = node :: node.children.flatMap nodes := by
  rw [funext nodes_eq_preOrder, preOrder_eq]

theorem length_nodes (node : PlanNode) :
    node.nodes.length = 1 + (node.children.map fun child => child.nodes.length).sum := by
  rw [nodes_eq_cons, List.length_cons, List.length_flatMap, Nat.add_comm]

/-! ## The stack of a walk -/

/-- The stack of a walk from a tree, after a number of steps. An empty stack stays empty. -/
def stackAfter (node : PlanNode) : ℕ → List PlanNode
  | 0 => [node]
  | steps + 1 => ((next? (node.stackAfter steps)).map Prod.snd).getD []

/-- What a step takes from the nodes that are still to come. -/
theorem flatMap_next? (stack : List PlanNode) :
    (((next? stack).map Prod.snd).getD []).flatMap preOrder = (stack.flatMap preOrder).tail := by
  match stack with
  | [] => rfl
  | node :: rest =>
    rw [List.flatMap_cons, preOrder_eq, next?]
    exact List.flatMap_append

/-- The nodes of the trees on the stack are those that are still to come. -/
theorem flatMap_stackAfter (node : PlanNode) (steps : ℕ) :
    (node.stackAfter steps).flatMap preOrder = node.nodes.drop steps := by
  induction steps with
  | zero => rw [stackAfter, List.flatMap_singleton, nodes_eq_preOrder, List.drop_zero]
  | succ steps ih => rw [stackAfter, flatMap_next?, ih, List.tail_drop]

/-- What comes off a stack is the first of the nodes that are still to come. -/
theorem map_fst_next? (stack : List PlanNode) :
    (next? stack).map Prod.fst = (stack.flatMap preOrder).head? := by
  match stack with
  | [] => rfl
  | node :: rest =>
    rw [List.flatMap_cons, preOrder_eq]
    rfl

theorem next?_stackAfter (node : PlanNode) (steps : ℕ) :
    (next? (node.stackAfter steps)).map Prod.fst = node.nodes[steps]? := by
  rw [map_fst_next?, flatMap_stackAfter, List.head?_drop]

/-! ## Places -/

/-- The tree at a place, which tells the child to descend to at each depth. -/
def at? (node : PlanNode) : List ℕ → Option PlanNode
  | [] => some node
  | i :: place => node.children[i]?.bind fun child => child.at? place

theorem at?_append (node : PlanNode) (place below : List ℕ) :
    node.at? (place ++ below) = (node.at? place).bind fun child => child.at? below := by
  induction place generalizing node with
  | nil => rfl
  | cons i place ih =>
    rw [List.cons_append, at?, at?, Option.bind_assoc]
    exact Option.bind_congr fun child _ => ih child

theorem at?_child {node child : PlanNode} {place : List ℕ} (h : node.at? place = some child) (i : ℕ) :
    node.at? (place ++ [i]) = child.children[i]? := by
  rw [at?_append, h, Option.bind_some, at?]
  exact Option.bind_fun_some _

/-- Neither of two places is within the other. -/
def Beside (a b : List ℕ) : Prop := ¬a <+: b ∧ ¬b <+: a

/-- What is beside a place is beside all places right below it. -/
theorem Beside.below {a b : List ℕ} (h : Beside a b) (i : ℕ) : Beside (a ++ [i]) b := by
  refine ⟨fun hb => h.1 ((List.prefix_append a [i]).trans hb), fun hb => ?_⟩
  rcases List.prefix_concat_iff.1 hb with rfl | hb
  · exact h.1 (List.prefix_append a [i])
  · exact h.2 hb

theorem beside_of_ne (a : List ℕ) {i j : ℕ} (h : i ≠ j) : Beside (a ++ [i]) (a ++ [j]) := by
  have hne {i j : ℕ} (h : i ≠ j) : ¬a ++ [i] <+: a ++ [j] := fun hp => by
    have heq := hp.eq_of_length (by rw [List.length_append, List.length_append]; rfl)
    exact h (List.singleton_inj.1 (List.append_cancel_left heq))
  exact ⟨hne h, hne h.symm⟩

/-- Trees at places of a tree, none of which is within another. -/
def Apart (root : PlanNode) (stack : List PlanNode) : Prop :=
  ∃ places : List (List ℕ), stack.map some = places.map root.at? ∧ places.Pairwise Beside

/-- A step leaves trees apart: the children that it pushes are beside one another, and within the tree
that it takes. -/
theorem Apart.next {root node : PlanNode} {rest : List PlanNode} (h : root.Apart (node :: rest)) :
    root.Apart (node.children ++ rest) := by
  obtain ⟨_ | ⟨place, places⟩, hat, hbeside⟩ := h
  · simp at hat
  rw [List.map_cons, List.map_cons, List.cons.injEq] at hat
  rw [List.pairwise_cons] at hbeside
  let below := (List.range node.children.length).map fun i => place ++ [i]
  have hchildren : node.children.map some = below.map root.at? := by
    have hget : below.map root.at? = (List.range node.children.length).map (node.children[·]?) := by
      rw [List.map_map]
      exact List.map_congr_left fun i _ => at?_child hat.1.symm i
    rw [hget]
    exact List.ext_getElem (by simp) fun i hi _ => by simp [List.getElem?_eq_getElem (by simpa using hi)]
  refine ⟨below ++ places, by rw [List.map_append, List.map_append, hchildren, hat.2], ?_⟩
  refine List.pairwise_append.2 ⟨?_, hbeside.2, fun a ha b hb => ?_⟩
  · exact List.pairwise_map.2 (List.nodup_range.imp fun hne => beside_of_ne place hne)
  · obtain ⟨i, -, rfl⟩ := List.mem_map.1 ha
    exact (hbeside.1 b hb).below i

/-- At every point of a walk, the stack holds trees none of which is within another. -/
theorem apart_stackAfter (node : PlanNode) (steps : ℕ) : node.Apart (node.stackAfter steps) := by
  induction steps with
  | zero => exact ⟨[[]], rfl, List.pairwise_singleton _ _⟩
  | succ steps ih =>
    rw [stackAfter]
    match hstack : node.stackAfter steps with
    | [] => exact ⟨[], rfl, List.Pairwise.nil⟩
    | next :: rest => exact Apart.next (hstack ▸ ih)

/-! ## Nodes with their places -/

mutual

/-- The nodes of a tree with their places in it, each before the ones below it. -/
def listing : PlanNode → List (List ℕ × PlanNode)
  | ⟨kind, operation, table, index, condition, cost, rows, children, extra⟩ =>
    ([], ⟨kind, operation, table, index, condition, cost, rows, children, extra⟩) ::
      listingAll 0 children

/-- The nodes of trees that are children of a node from the given one on, with their places below that
node. -/
def listingAll (first : ℕ) : List PlanNode → List (List ℕ × PlanNode)
  | [] => []
  | node :: rest =>
    (node.listing.map fun entry => (first :: entry.1, entry.2)) ++ listingAll (first + 1) rest

end

theorem listing_eq (node : PlanNode) : node.listing = ([], node) :: listingAll 0 node.children := by
  cases node
  rw [listing]

theorem map_snd_listing (node : PlanNode) : node.listing.map Prod.snd = node.nodes := by
  have hall (trees : List PlanNode) (h : ∀ tree ∈ trees, tree.listing.map Prod.snd = tree.nodes)
      (first : ℕ) : (listingAll first trees).map Prod.snd = trees.flatMap nodes := by
    induction trees generalizing first with
    | nil => rfl
    | cons tree rest ih =>
      rw [listingAll, List.map_append, List.map_map, List.flatMap_cons, ← h tree List.mem_cons_self,
        ih (fun other hother => h other (List.mem_cons_of_mem _ hother))]
      rfl
  induction node using induction with
  | h node ih => rw [listing_eq, List.map_cons, hall _ ih, ← nodes_eq_cons]

/-- What is listed of trees is listed of one of them, which its place tells first. -/
theorem mem_listingAll {trees : List PlanNode} {first : ℕ} {entry : List ℕ × PlanNode} :
    entry ∈ listingAll first trees ↔ ∃ (i : ℕ) (tree : PlanNode) (place : List ℕ),
      trees[i]? = some tree ∧ (place, entry.2) ∈ tree.listing ∧ entry.1 = (first + i) :: place := by
  induction trees generalizing first with
  | nil => simp [listingAll]
  | cons tree rest ih =>
    rw [listingAll, List.mem_append, List.mem_map, ih]
    constructor
    · rintro (⟨⟨place, node⟩, hlisted, rfl⟩ | ⟨i, other, place, hother, hlisted, hplace⟩)
      · exact ⟨0, tree, place, rfl, hlisted, rfl⟩
      · exact ⟨i + 1, other, place, hother, hlisted, by rw [hplace]; congr 1; omega⟩
    · rintro ⟨_ | i, other, place, hother, hlisted, hplace⟩
      · obtain rfl : tree = other := Option.some.inj hother
        exact .inl ⟨(place, entry.2), hlisted, Prod.ext hplace.symm rfl⟩
      · exact .inr ⟨i, other, place, hother, hlisted, by rw [hplace]; congr 1; omega⟩

/-- A tree is listed at a place if it is at that place. -/
theorem mem_listing {root node : PlanNode} {place : List ℕ} :
    (place, node) ∈ root.listing ↔ root.at? place = some node := by
  induction root using induction generalizing place with
  | h root ih =>
    rw [listing_eq, List.mem_cons, mem_listingAll]
    cases place with
    | nil => simp [at?, eq_comm]
    | cons i place =>
      rw [at?, Option.bind_eq_some_iff]
      constructor
      · rintro (h | ⟨j, child, below, hchild, hlisted, hplace⟩)
        · cases h
        · rw [Nat.zero_add, List.cons.injEq] at hplace
          obtain ⟨rfl, rfl⟩ := hplace
          exact ⟨child, hchild, (ih child (List.mem_of_getElem? hchild)).1 hlisted⟩
      · rintro ⟨child, hchild, hbelow⟩
        exact .inr ⟨i, child, place, hchild, (ih child (List.mem_of_getElem? hchild)).2 hbelow,
          by rw [Nat.zero_add]⟩

/-- Every place is listed once. -/
theorem nodup_listing (node : PlanNode) : (node.listing.map Prod.fst).Nodup := by
  have hall (trees : List PlanNode) (h : ∀ tree ∈ trees, (tree.listing.map Prod.fst).Nodup)
      (first : ℕ) : ((listingAll first trees).map Prod.fst).Nodup := by
    induction trees generalizing first with
    | nil => exact List.nodup_nil
    | cons tree rest ih =>
      have hplaces : (tree.listing.map fun entry => (first :: entry.1, entry.2)).map Prod.fst =
          (tree.listing.map Prod.fst).map (first :: ·) := by
        rw [List.map_map, List.map_map]
        rfl
      rw [listingAll, List.map_append, hplaces]
      refine List.Nodup.append ((h tree List.mem_cons_self).map (List.cons_injective))
        (ih (fun other hother => h other (List.mem_cons_of_mem _ hother)) _) fun place hplace hother => ?_
      -- The places in the first tree begin with its number, and those in the others with larger ones.
      obtain ⟨_, -, rfl⟩ := List.mem_map.1 hplace
      obtain ⟨entry, hentry, hfirst⟩ := List.mem_map.1 hother
      obtain ⟨i, _, _, -, -, hlater⟩ := mem_listingAll.1 hentry
      rw [hfirst, List.cons.injEq] at hlater
      omega
  induction node using induction with
  | h node ih =>
    rw [listing_eq, List.map_cons, List.nodup_cons]
    refine ⟨fun hroot => ?_, hall _ ih 0⟩
    obtain ⟨entry, hentry, hplace⟩ := List.mem_map.1 hroot
    obtain ⟨_, _, _, -, -, hlater⟩ := mem_listingAll.1 hentry
    rw [hplace] at hlater
    cases hlater

end PlanNode

/-! ## Reports -/

namespace CommandLine

theorem nodeLines_cons (depth : ℕ) (node : PlanNode) :
    nodeLines depth node = nodeLine depth node :: childLines (depth + 1) node.children := by
  cases node
  rw [nodeLines]

/-- A report has a line for each node of a tree, which is indented by the depth of the node. -/
theorem nodeLines_eq (depth : ℕ) (node : PlanNode) : nodeLines depth node =
    node.listing.map fun entry => nodeLine (depth + entry.1.length) entry.2 := by
  have hall (trees : List PlanNode)
      (h : ∀ tree ∈ trees, ∀ depth, nodeLines depth tree =
        tree.listing.map fun entry => nodeLine (depth + entry.1.length) entry.2)
      (depth first : ℕ) : childLines (depth + 1) trees =
        (PlanNode.listingAll first trees).map fun entry => nodeLine (depth + entry.1.length) entry.2 := by
    induction trees generalizing first with
    | nil => rfl
    | cons tree rest ih =>
      rw [childLines, PlanNode.listingAll, List.map_append, List.map_map,
        h tree List.mem_cons_self, ih (fun other hother => h other (List.mem_cons_of_mem _ hother))]
      congr 1
      exact List.map_congr_left fun entry _ =>
        congrArg (nodeLine · entry.2) (by rw [List.length_cons]; omega)
  induction node using PlanNode.induction generalizing depth with
  | h node ih =>
    rw [nodeLines_cons, PlanNode.listing_eq, List.map_cons, hall _ (fun tree htree => ih tree htree)]
    rfl

end CommandLine

/-! ## The walk from a tree -/

open CommandLine in
/-- The walk from a tree, and what is made of it.

The walk lists the tree itself, and then what the walks from its children list, so that there is one more
node than there are below the children. After any number of steps the next node is the one of that
number, the trees on the stack have the nodes that are still to come, and no tree on it is within
another; so the walk ends after the last node. In a plan with that tree, the nodes of a kind and the nodes
that read whole tables are those parts of the list, in its order. The report has a line for each node of
the list, in its order, which is indented by one more than the depth of the node, the length of its
place. -/
theorem PlanNode.walk_exact (node : PlanNode) :
    (node.nodes = node :: node.children.flatMap nodes ∧
      node.nodes.length = 1 + (node.children.map fun child => child.nodes.length).sum ∧
      node.size = node.nodes.length) ∧
    (∀ steps,
      (next? (node.stackAfter steps)).map Prod.fst = node.nodes[steps]? ∧
      (node.stackAfter steps).flatMap nodes = node.nodes.drop steps ∧
      ∃ places : List (List ℕ), (node.stackAfter steps).map some = places.map node.at? ∧
        places.Pairwise fun a b => ¬a <+: b ∧ ¬b <+: a) ∧
    (∀ plan : ExecutionPlan,
      (∀ kind, ExecutionPlan.find { plan with root := node } kind =
        node.nodes.filter fun other => decide (other.kind = kind)) ∧
      ExecutionPlan.fullScans { plan with root := node } =
        node.nodes.filter fun other => other.kind.isFullScan) ∧
    ∃ listing : List (List ℕ × PlanNode),
      listing.map Prod.snd = node.nodes ∧
      (∀ place other, (place, other) ∈ listing ↔ node.at? place = some other) ∧
      (listing.map Prod.fst).Nodup ∧
      nodeLines 1 node = listing.map fun entry => nodeLine (entry.1.length + 1) entry.2 := by
  have hnodes : (nodes : PlanNode → List PlanNode) = preOrder := funext nodes_eq_preOrder
  refine ⟨⟨node.nodes_eq_cons, node.length_nodes, ?_⟩, fun steps => ⟨?_, ?_, ?_⟩,
    fun plan => ⟨fun kind => ?_, rfl⟩, node.listing, node.map_snd_listing, fun _ _ => mem_listing,
    node.nodup_listing, ?_⟩
  · rw [nodes_eq_preOrder, length_preOrder]
  · exact node.next?_stackAfter steps
  · rw [hnodes]
    exact hnodes ▸ node.flatMap_stackAfter steps
  · exact node.apart_stackAfter steps
  · exact List.filter_congr fun other _ => by rw [beq_eq_decide]
  · rw [nodeLines_eq]
    exact List.map_congr_left fun entry _ => congrArg (nodeLine · entry.2) (Nat.add_comm _ _)

end SqlFrontend
