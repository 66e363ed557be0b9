import SqlFrontend.Dialect
import SqlFrontend.Document.Value
import SqlFrontend.Plan.NodeKind

/-!
# Execution plans

A plan is a tree of operations with the estimates of the database.

* `PlanNode.preOrder`, `PlanNode.size`: the nodes of a tree, each before the ones below it, and their
  number.
* `PlanNode.walk`: the same list, made by taking nodes off a stack of trees that are still to come.
* `ExecutionPlan.find`, `ExecutionPlan.fullScans`: the nodes of a kind, or of a family of kinds.

Section 6, *EXPLAIN output shape*, of the polysql specification.
-/

namespace SqlFrontend

/-- An operation of a plan, with the operations whose rows it uses. -/
structure PlanNode where
  kind : PlanNodeKind
  /-- The operation in the words of the database. -/
  operation : String
  table : Option String := none
  index : Option String := none
  condition : Option String := none
  cost : Option Binary64 := none
  rows : Option Nat := none
  children : List PlanNode := []
  /-- What else the database says, sorted by keys. -/
  extra : List Member := []

namespace PlanNode

instance : Inhabited PlanNode := ⟨{ kind := .seqScan, operation := "" }⟩

/-! ## The nodes of a tree -/

mutual

/-- The nodes of a tree, each before the ones below it. -/
def preOrder (node : PlanNode) : List PlanNode :=
  node :: match node with
    | ⟨_, _, _, _, _, _, _, children, _⟩ => preOrderAll children

/-- The nodes of several trees, one tree after the other. -/
def preOrderAll : List PlanNode → List PlanNode
  | [] => []
  | node :: rest => node.preOrder ++ preOrderAll rest

end

mutual

/-- How many nodes a tree has. -/
def size : PlanNode → Nat
  | ⟨_, _, _, _, _, _, _, children, _⟩ => sizeAll children + 1

/-- How many nodes several trees have. -/
def sizeAll : List PlanNode → Nat
  | [] => 0
  | node :: rest => node.size + sizeAll rest

end

theorem sizeAll_append (stack others : List PlanNode) :
    sizeAll (stack ++ others) = sizeAll stack + sizeAll others := by
  induction stack with
  | nil => simp [sizeAll]
  | cons node rest ih => simp [sizeAll, ih, Nat.add_assoc]

theorem size_eq (node : PlanNode) : node.size = sizeAll node.children + 1 := by
  cases node
  simp [size]

/-! ## Walking -/

/-- Takes the next node off a stack of trees. The trees below it come next. -/
def next? : List PlanNode → Option (PlanNode × List PlanNode)
  | [] => none
  | node :: rest => some (node, node.children ++ rest)

/-- Takes nodes off a stack of trees until it is empty. -/
def walk (stack : List PlanNode) : List PlanNode :=
  match _h : next? stack with
  | none => []
  | some (node, rest) => node :: walk rest
termination_by sizeAll stack
decreasing_by
  match stack, _h with
  | node :: rest, h =>
    simp only [next?, Option.some.injEq, Prod.mk.injEq] at h
    obtain ⟨rfl, rfl⟩ := h
    simp only [sizeAll, sizeAll_append, size_eq]
    omega

/-- The nodes of a tree, from a walk that starts with it. -/
def nodes (node : PlanNode) : List PlanNode := walk [node]

end PlanNode

/-! ## Plans -/

/-- The plan of a query. -/
structure ExecutionPlan where
  query : String
  dialect : Dialect
  root : PlanNode
  totalCost : Binary64
  estimatedRows : Nat
  actualRows : Option Nat := none
  /-- How long the query ran, in milliseconds. -/
  executionTime : Option Binary64 := none
  warnings : List String := []
  /-- What else the database counted, sorted by keys. -/
  statistics : Option (List Member) := none

namespace ExecutionPlan

/-- The plan with the estimates of its root. Missing estimates are zero. -/
def ofRoot (query : String) (dialect : Dialect) (root : PlanNode) : ExecutionPlan :=
  { query, dialect, root, totalCost := root.cost.getD default
    estimatedRows := root.rows.getD 0 }

/-- The nodes of a plan, each before the ones below it. -/
def nodes (plan : ExecutionPlan) : List PlanNode := plan.root.nodes

/-- The nodes of a kind, in order. -/
def find (plan : ExecutionPlan) (kind : PlanNodeKind) : List PlanNode :=
  plan.nodes.filter fun node => node.kind == kind

/-- The nodes that read all rows of a table, in order. -/
def fullScans (plan : ExecutionPlan) : List PlanNode :=
  plan.nodes.filter fun node => node.kind.isFullScan

end ExecutionPlan

end SqlFrontend
