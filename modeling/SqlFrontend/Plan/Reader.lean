import SqlFrontend.Document.Written
import SqlFrontend.Plan.Basic
import SqlFrontend.Plan.Format

/-!
# Reading plans

A plan is a record, and so is each of its nodes. A record is an object with the names of its fields as
keys, in any order, or an array of the fields in their order, of which the last ones may be missing.
Other keys of an object are ignored, whatever their values are; a field must not be given twice.

* `Written.fields?`: the fields that are given of a record.
* `Written.node?`, `Written.plan?`: a node and a plan.
* `ExecutionPlan.ofText?`: the plan in a text.

Section 6, *EXPLAIN output shape*, of the polysql specification.
-/

namespace SqlFrontend

namespace Document.Written

/-! ## Records -/

/-- The value of a field of an object. -/
structure FieldValue where
  name : String
  value : Written

/-- The value that is given for a field, if one is. -/
def field? (fields : List FieldValue) (name : String) : Option Written :=
  (fields.find? fun field => field.name == name).map FieldValue.value

/-- The members of an object that are fields, added to others. No field may be given twice. -/
def memberFields? (names : List String) (fields : List FieldValue) :
    List WrittenMember → Option (List FieldValue)
  | [] => some fields
  | ⟨none, _⟩ :: _ => none
  | ⟨some key, value⟩ :: rest =>
    if !names.contains key then memberFields? names fields rest
    else if (field? fields key).isSome then none
    else memberFields? names (⟨key, value⟩ :: fields) rest

/-- The items of an array as fields. -/
def itemFields? : List String → List Written → Option (List FieldValue)
  | _, [] => some []
  | [], _ :: _ => none
  | name :: names, item :: rest => (itemFields? names rest).map (⟨name, item⟩ :: ·)

/-- The fields of a record that are given. -/
def fields? (names : List String) : Written → Option (List FieldValue)
  | array items => itemFields? names items
  | object members => memberFields? names [] members
  | _ => none

/-- A field that has to be given. -/
def required? {α : Type} (read : Written → Option α) (fields : List FieldValue) (name : String) :
    Option α := do
  read (← field? fields name)

/-- A field that may be missing, with the value it has then. -/
def optional? {α : Type} (read : Written → Option α) (fields : List FieldValue) (name : String)
    (missing : α) : Option α :=
  match field? fields name with
  | some value => read value
  | none => some missing

/-! ## Simple values -/

/-- A value that may be absent. -/
def absentOr? {α : Type} (read : Written → Option α) : Written → Option (Option α)
  | null => some none
  | value => (read value).map some

/-- A string. -/
def text? : Written → Option String
  | string text => text
  | _ => none

/-- A natural number of 64 bits. -/
def natural? : Written → Option Nat
  | number n =>
    match n.integer? with
    | some value => if 0 ≤ value then some value.toNat else none
    | none => none
  | _ => none

/-- A number of the format binary64. -/
def binary64? : Written → Option Binary64
  | number n =>
    match n.integer? with
    | some value => some (.ofInt value)
    | none => n.fraction?
  | _ => none

/-- One of several names: a string, or an object with the name as its key and nothing as its value. -/
def choice? {α : Type} (depth : Nat) (ofName? : String → Option α) : Written → Option α
  | string text => text.bind ofName?
  | object [⟨some key, null⟩] => if depth = 0 then none else ofName? key
  | _ => none

/-- An array. -/
def items? {α : Type} (depth : Nat) (read : Nat → Written → Option α) : Written → Option (List α)
  | array items => if depth = 0 then none else items.mapM (read (depth - 1))
  | _ => none

/-- An object without fixed fields, sorted by keys. -/
def freeObject? (depth : Nat) : Written → Option (List Member)
  | object members =>
    if depth = 0 then none else (members? (depth - 1) members).map Member.sorted
  | _ => none

/-! ## Plans -/

/-- The fields of a node, in their order. -/
def nodeFields : List String :=
  ["node_type", "operation", "table", "index", "condition", "cost", "rows", "children", "extra"]

/-- A node, in which at most `depth` containers are nested. -/
def node? : Nat → Written → Option PlanNode
  | 0, _ => none
  | depth + 1, written => do
    let fields ← written.fields? nodeFields
    let kind ← required? (choice? depth PlanNodeKind.ofName?) fields "node_type"
    let operation ← required? text? fields "operation"
    let table ← optional? (absentOr? text?) fields "table" none
    let index ← optional? (absentOr? text?) fields "index" none
    let condition ← optional? (absentOr? text?) fields "condition" none
    let cost ← optional? (absentOr? binary64?) fields "cost" none
    let rows ← optional? (absentOr? natural?) fields "rows" none
    let children ← optional? (nodes? depth) fields "children" []
    let extra ← optional? (freeObject? depth) fields "extra" []
    return { kind, operation, table, index, condition, cost, rows, children, extra }
where
  /-- The nodes in an array. -/
  nodes? : Nat → Written → Option (List PlanNode)
    | 0, _ => none
    | depth + 1, written =>
      match written with
      | array items => items.mapM (node? depth)
      | _ => none

/-- The fields of a plan, in their order. -/
def planFields : List String :=
  ["query", "dialect", "root_node", "total_cost", "estimated_rows", "actual_rows",
    "execution_time", "warnings", "statistics"]

/-- The dialect of exactly the given name. -/
def dialectOfName? (name : String) : Option Dialect := Dialect.all.find? fun d => d.name == name

/-- A plan, in which at most `depth + 1` containers are nested. -/
def plan? (depth : Nat) (written : Written) : Option ExecutionPlan := do
  let fields ← written.fields? planFields
  let query ← required? text? fields "query"
  let dialect ← required? (choice? depth dialectOfName?) fields "dialect"
  let root ← required? (node? depth) fields "root_node"
  let totalCost ← required? binary64? fields "total_cost"
  let estimatedRows ← required? natural? fields "estimated_rows"
  let actualRows ← optional? (absentOr? natural?) fields "actual_rows" none
  let executionTime ← optional? (absentOr? binary64?) fields "execution_time" none
  let warnings ← optional? (items? depth fun _ => text?) fields "warnings" []
  let statistics ← optional? (absentOr? (freeObject? depth)) fields "statistics" none
  return { query, dialect, root, totalCost, estimatedRows, actualRows, executionTime, warnings,
           statistics }

end Document.Written

namespace ExecutionPlan

/-- How many containers may be nested in a document. -/
def nestingLimit : Nat := 127

/-- The plan in a text of the format JSON. -/
def ofJson? (text : String) : Option ExecutionPlan :=
  (Document.Written.ofText? text).bind (Document.Written.plan? (nestingLimit - 1))

/-- The plan in a text of the given format, or why there is none. -/
def decode (text : String) : PlanFormat → Except PlanError ExecutionPlan
  | .json =>
    match ofJson? text with
    | some plan => .ok plan
    | none => .error .malformed
  | format => .error (.unsupported format)

end ExecutionPlan

end SqlFrontend
