import SqlFrontend.Proofs.Plan.Record

/-!
# Plans are read from the values of their fields

Nodes are read at even depths: a node and the array of the nodes below it are two containers. At an even
depth there is room for an array and an object in a node, so every default can be read.

Results:
* `Written.nodeDefault?`, `Written.planDefault?`: the values that say the same as no value.
* `Written.node?_eq`, `Written.plan?_eq`: a node and a plan are read from the values that a record gives,
  whether these are written or defaults.
-/

namespace SqlFrontend.Document.Written

variable {w : Written} {value? : String → Option Written}

/-! ## Nodes -/

/-- The value of a field of a node that says the same as none. -/
def nodeDefault? (name : String) : Option Written :=
  if name ∈ ["table", "index", "condition", "cost", "rows"] then some .null
  else if name = "children" then some (.array [])
  else if name = "extra" then some (.object [])
  else none

/-- The node with the given values of its fields, in which at most `depth + 1` containers are nested. -/
def nodeOf? (depth : ℕ) (value? : String → Option Written) : Option PlanNode := do
  let kind ← (value? "node_type").bind (choice? (depth + 1) PlanNodeKind.ofName?)
  let operation ← (value? "operation").bind text?
  let table ← (value? "table").bind (absentOr? text?)
  let index ← (value? "index").bind (absentOr? text?)
  let condition ← (value? "condition").bind (absentOr? text?)
  let cost ← (value? "cost").bind (absentOr? binary64?)
  let rows ← (value? "rows").bind (absentOr? natural?)
  let children ← (value? "children").bind (node?.nodes? (depth + 1))
  let extra ← (value? "extra").bind (freeObject? (depth + 1))
  return { kind, operation, table, index, condition, cost, rows, children, extra }

theorem node?_eq (h : Gives nodeFields nodeDefault? w value?) (depth : ℕ) :
    node? (depth + 2) w = nodeOf? depth value? := by
  obtain ⟨fields, hfields, hvalue⟩ := h
  have hchildren : optional? (node?.nodes? (depth + 1)) fields "children" [] =
      (value? "children").bind (node?.nodes? (depth + 1)) :=
    optional?_eq rfl rfl (hvalue _ (by decide))
  have hextra : optional? (freeObject? (depth + 1)) fields "extra" [] =
      (value? "extra").bind (freeObject? (depth + 1)) :=
    optional?_eq rfl rfl (hvalue _ (by decide))
  rw [node?, hfields, nodeOf?]
  simp only [Option.bind_eq_bind, Option.bind_some]
  rw [required?_eq rfl (hvalue "node_type" (by decide)),
    required?_eq rfl (hvalue "operation" (by decide)), absentOr?_eq rfl (hvalue "table" (by decide)),
    absentOr?_eq rfl (hvalue "index" (by decide)), absentOr?_eq rfl (hvalue "condition" (by decide)),
    absentOr?_eq rfl (hvalue "cost" (by decide)), absentOr?_eq rfl (hvalue "rows" (by decide)),
    hchildren, hextra]

theorem nodeOf?_eq_some {depth : ℕ} {node : PlanNode} : nodeOf? depth value? = some node ↔
    (value? "node_type").bind (choice? (depth + 1) PlanNodeKind.ofName?) = some node.kind ∧
      (value? "operation").bind text? = some node.operation ∧
      (value? "table").bind (absentOr? text?) = some node.table ∧
      (value? "index").bind (absentOr? text?) = some node.index ∧
      (value? "condition").bind (absentOr? text?) = some node.condition ∧
      (value? "cost").bind (absentOr? binary64?) = some node.cost ∧
      (value? "rows").bind (absentOr? natural?) = some node.rows ∧
      (value? "children").bind (node?.nodes? (depth + 1)) = some node.children ∧
      (value? "extra").bind (freeObject? (depth + 1)) = some node.extra := by
  rw [nodeOf?]
  simp only [Option.bind_eq_bind]
  constructor
  · intro h
    obtain ⟨kind, hkind, h⟩ := Option.bind_eq_some_iff.1 h
    obtain ⟨operation, hoperation, h⟩ := Option.bind_eq_some_iff.1 h
    obtain ⟨table, htable, h⟩ := Option.bind_eq_some_iff.1 h
    obtain ⟨index, hindex, h⟩ := Option.bind_eq_some_iff.1 h
    obtain ⟨condition, hcondition, h⟩ := Option.bind_eq_some_iff.1 h
    obtain ⟨cost, hcost, h⟩ := Option.bind_eq_some_iff.1 h
    obtain ⟨rows, hrows, h⟩ := Option.bind_eq_some_iff.1 h
    obtain ⟨children, hchildren, h⟩ := Option.bind_eq_some_iff.1 h
    obtain ⟨extra, hextra, h⟩ := Option.bind_eq_some_iff.1 h
    cases h
    exact ⟨hkind, hoperation, htable, hindex, hcondition, hcost, hrows, hchildren, hextra⟩
  · rintro ⟨hkind, hoperation, htable, hindex, hcondition, hcost, hrows, hchildren, hextra⟩
    rw [hkind, hoperation, htable, hindex, hcondition, hcost, hrows, hchildren, hextra]
    cases node
    rfl

/-- A value whose fields are read gives values for them. -/
theorem exists_gives {names : List String} {default? : String → Option Written} {α : Type}
    {read : List FieldValue → Option α} {x : α} (h : (w.fields? names).bind read = some x) :
    ∃ value?, Gives names default? w value? := by
  obtain ⟨fields, hfields, -⟩ := Option.bind_eq_some_iff.1 h
  exact ⟨fun name => (field? fields name).or (default? name), fields, hfields, fun _ _ => rfl⟩

/-! ## Plans -/

/-- The value of a field of a plan that says the same as none. -/
def planDefault? (name : String) : Option Written :=
  if name ∈ ["actual_rows", "execution_time", "statistics"] then some .null
  else if name = "warnings" then some (.array [])
  else none

/-- The plan with the given values of its fields, in which at most `depth + 1` containers are nested. -/
def planOf? (depth : ℕ) (value? : String → Option Written) : Option ExecutionPlan := do
  let query ← (value? "query").bind text?
  let dialect ← (value? "dialect").bind (choice? depth dialectOfName?)
  let root ← (value? "root_node").bind (node? depth)
  let totalCost ← (value? "total_cost").bind binary64?
  let estimatedRows ← (value? "estimated_rows").bind natural?
  let actualRows ← (value? "actual_rows").bind (absentOr? natural?)
  let executionTime ← (value? "execution_time").bind (absentOr? binary64?)
  let warnings ← (value? "warnings").bind (items? depth fun _ => text?)
  let statistics ← (value? "statistics").bind (absentOr? (freeObject? depth))
  return { query, dialect, root, totalCost, estimatedRows, actualRows, executionTime, warnings,
           statistics }

theorem planOf?_eq_some {depth : ℕ} {plan : ExecutionPlan} : planOf? depth value? = some plan ↔
    (value? "query").bind text? = some plan.query ∧
      (value? "dialect").bind (choice? depth dialectOfName?) = some plan.dialect ∧
      (value? "root_node").bind (node? depth) = some plan.root ∧
      (value? "total_cost").bind binary64? = some plan.totalCost ∧
      (value? "estimated_rows").bind natural? = some plan.estimatedRows ∧
      (value? "actual_rows").bind (absentOr? natural?) = some plan.actualRows ∧
      (value? "execution_time").bind (absentOr? binary64?) = some plan.executionTime ∧
      (value? "warnings").bind (items? depth fun _ => text?) = some plan.warnings ∧
      (value? "statistics").bind (absentOr? (freeObject? depth)) = some plan.statistics := by
  rw [planOf?]
  simp only [Option.bind_eq_bind]
  constructor
  · intro h
    obtain ⟨query, hquery, h⟩ := Option.bind_eq_some_iff.1 h
    obtain ⟨dialect, hdialect, h⟩ := Option.bind_eq_some_iff.1 h
    obtain ⟨root, hroot, h⟩ := Option.bind_eq_some_iff.1 h
    obtain ⟨totalCost, htotalCost, h⟩ := Option.bind_eq_some_iff.1 h
    obtain ⟨estimatedRows, hestimatedRows, h⟩ := Option.bind_eq_some_iff.1 h
    obtain ⟨actualRows, hactualRows, h⟩ := Option.bind_eq_some_iff.1 h
    obtain ⟨executionTime, hexecutionTime, h⟩ := Option.bind_eq_some_iff.1 h
    obtain ⟨warnings, hwarnings, h⟩ := Option.bind_eq_some_iff.1 h
    obtain ⟨statistics, hstatistics, h⟩ := Option.bind_eq_some_iff.1 h
    cases h
    exact ⟨hquery, hdialect, hroot, htotalCost, hestimatedRows, hactualRows, hexecutionTime, hwarnings,
      hstatistics⟩
  · rintro ⟨hquery, hdialect, hroot, htotalCost, hestimatedRows, hactualRows, hexecutionTime, hwarnings,
      hstatistics⟩
    rw [hquery, hdialect, hroot, htotalCost, hestimatedRows, hactualRows, hexecutionTime, hwarnings,
      hstatistics]
    rfl

theorem plan?_eq (h : Gives planFields planDefault? w value?) (depth : ℕ) :
    plan? (depth + 1) w = planOf? (depth + 1) value? := by
  obtain ⟨fields, hfields, hvalue⟩ := h
  have hwarnings : optional? (items? (depth + 1) fun _ => text?) fields "warnings" [] =
      (value? "warnings").bind (items? (depth + 1) fun _ => text?) :=
    optional?_eq rfl rfl (hvalue _ (by decide))
  rw [plan?, hfields, planOf?]
  simp only [Option.bind_eq_bind, Option.bind_some]
  rw [required?_eq rfl (hvalue "query" (by decide)), required?_eq rfl (hvalue "dialect" (by decide)),
    required?_eq rfl (hvalue "root_node" (by decide)),
    required?_eq rfl (hvalue "total_cost" (by decide)),
    required?_eq rfl (hvalue "estimated_rows" (by decide)),
    absentOr?_eq rfl (hvalue "actual_rows" (by decide)),
    absentOr?_eq rfl (hvalue "execution_time" (by decide)), hwarnings,
    absentOr?_eq rfl (hvalue "statistics" (by decide))]

end SqlFrontend.Document.Written

namespace SqlFrontend.ExecutionPlan

open Document.Written

theorem decode_json_eq_ok {text : String} {plan : ExecutionPlan} : decode text .json = .ok plan ↔
    ∃ w, ofText? text = some w ∧ plan? (nestingLimit - 1) w = some plan := by
  have hjson : ofJson? text = some plan ↔
      ∃ w, ofText? text = some w ∧ plan? (nestingLimit - 1) w = some plan := Option.bind_eq_some_iff
  rw [← hjson, decode]
  cases ofJson? text with
  | none => simp
  | some other => simp

end SqlFrontend.ExecutionPlan
