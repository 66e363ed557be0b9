import SqlFrontend.Document.Writer
import SqlFrontend.Plan.Basic

/-!
# Writing plans

* `ExecutionPlan.toDocument`, `PlanNode.toDocument`: a plan and a node as objects. Absent fields are
  left out, and so are empty extras.
* `ExecutionPlan.toJson`: the text of a plan.

Section 6, *EXPLAIN output shape*, of the polysql specification.
-/

namespace SqlFrontend

/-- A member for a value that may be absent. -/
def Member.ofOption {α : Type} (key : String) (write : α → Document) (value : Option α) :
    List Member :=
  match value with
  | some value => [⟨key, write value⟩]
  | none => []

/-- A natural number as a value. -/
def Document.natural (n : Nat) : Document := .integer n

namespace PlanNode

mutual

/-- A node as an object. -/
def toDocument : PlanNode → Document
  | ⟨kind, operation, table, index, condition, cost, rows, children, extra⟩ =>
    .object <|
      [⟨"node_type", .string kind.name⟩, ⟨"operation", .string operation⟩] ++
      Member.ofOption "table" .string table ++ Member.ofOption "index" .string index ++
      Member.ofOption "condition" .string condition ++ Member.ofOption "cost" .float cost ++
      Member.ofOption "rows" .natural rows ++ [⟨"children", .array (toDocuments children)⟩] ++
      if extra.isEmpty then [] else [⟨"extra", .object extra⟩]

/-- Nodes as objects. -/
def toDocuments : List PlanNode → List Document
  | [] => []
  | node :: rest => node.toDocument :: toDocuments rest

end

end PlanNode

namespace ExecutionPlan

/-- A plan as an object. -/
def toDocument (plan : ExecutionPlan) : Document :=
  .object <|
    [⟨"query", .string plan.query⟩, ⟨"dialect", .string plan.dialect.name⟩,
      ⟨"root_node", plan.root.toDocument⟩, ⟨"total_cost", .float plan.totalCost⟩,
      ⟨"estimated_rows", .natural plan.estimatedRows⟩] ++
    Member.ofOption "actual_rows" .natural plan.actualRows ++
    Member.ofOption "execution_time" .float plan.executionTime ++
    [⟨"warnings", .array (plan.warnings.map .string)⟩] ++
    Member.ofOption "statistics" .object plan.statistics

/-- The text of a plan in the format JSON. -/
def toJson (plan : ExecutionPlan) : String := plan.toDocument.write

end ExecutionPlan

end SqlFrontend
