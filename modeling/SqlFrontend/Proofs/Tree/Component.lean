import SqlFrontend.Tree.Statement

/-!
# The components of trees

A statement is made of values of some forty types. `Component` puts them into one type, so that what is
said of every depth of a statement is said once.

* `Component.fields`: the components that a component holds in its own fields, in the order of the
  fields. Texts, numbers and flags are no components.
* `Component.at?`: the component at a place. A place tells, from the outside in, which field to go to.
* `Component.below_fields`, `Component.induction`: the fields are smaller, so that what holds of a component
  if it holds of its fields holds of all.
* `Component.Throughout`: what holds of all components at every depth.
-/

namespace SqlFrontend

/-- A value that a statement is made of, and that may hold other such values. -/
inductive Component where
  | statement (s : Statement)
  | query (q : Query)
  | select (node : Select)
  | commonTable (table : CommonTable)
  | top (top : Top)
  | table (t : TableRef)
  | join (join : Join)
  | sortItem (item : SortItem)
  | expr (e : Expr)
  | column (ref : ColumnRef)
  | binary (node : Binary)
  | call (call : Call)
  | candidates (values : Candidates)
  | branch (branch : Branch)
  | window (window : Window)
  | frame (frame : WindowFrame)
  | frameBound (bound : FrameBound)
  | dataType (type : DataType)
  | assignment (assignment : Assignment)
  | insert (node : Insert)
  | insertSource (source : InsertSource)
  | update (node : Update)
  | delete (node : Delete)
  | columnDefinition (column : ColumnDefinition)
  | constraint (constraint : TableConstraint)
  | constraintKind (kind : ConstraintKind)
  | createTable (node : CreateTable)
  | createIndex (node : CreateIndex)
  | createView (node : CreateView)
  | drop (node : Drop)
  | alterAction (action : AlterAction)
  | trigger (node : Trigger)
  | triggerBody (body : TriggerBody)
  | routine (node : Routine)
  | parameter (parameter : Parameter)
  | declaration (declaration : Declaration)
  | scalars (node : VariableDeclaration)
  | cursor (node : CursorDeclaration)
  | block (block : Block)
  | handler (handler : ExceptionHandler)
  | alternative (alternative : Alternative)
  | range (range : ForRange)
  | fetch (node : Fetch)
  | direction (direction : FetchDirection)
  | raise (node : Raise)
  | throwing (node : Throw)
  | signal (node : Signal)

namespace Component

variable {c d : Component}

/-! ## The fields of a component -/

/-- The components in the fields of an expression. -/
def ofExpr : Expr → List Component
  | .literal _ | .star _ => []
  | .column ref => [column ref]
  | .binary node => [binary node]
  | .unary _ operand => [expr operand]
  | .call node => [call node]
  | .window node spec => [call node, window spec]
  | .aliased e _ => [expr e]
  | .among e _ values => [expr e, candidates values]
  | .hasRows _ q => [query q]
  | .subquery q => [query q]
  | .choice input branches otherwise =>
    input.toList.map expr ++ branches.map branch ++ otherwise.toList.map expr
  | .between e _ low high => [expr e, expr low, expr high]
  | .cast e type => [expr e, dataType type]

/-- The components in the fields of a statement. -/
def ofStatement : Statement → List Component
  | .query q => [query q]
  | .insert node => [insert node]
  | .update node => [update node]
  | .delete node => [delete node]
  | .createTable node => [createTable node]
  | .createIndex node => [createIndex node]
  | .createView node => [createView node]
  | .createProcedure node => [routine node]
  | .createFunction node returns => [routine node, dataType returns]
  | .createTrigger node => [trigger node]
  | .drop node => [drop node]
  | .alterTable _ action => [alterAction action]
  | .declare d => [declaration d]
  | .block node => [block node]
  | .conditional condition body elseIfs otherwise =>
    expr condition :: (body.map statement ++ elseIfs.map alternative ++
      (otherwise.getD []).map statement)
  | .whileLoop _ condition body => expr condition :: body.map statement
  | .loop _ body => body.map statement
  | .forLoop _ _ _ r body => range r :: body.map statement
  | .repeatLoop _ body condition => body.map statement ++ [expr condition]
  | .choice input branches otherwise =>
    input.toList.map expr ++ branches.map alternative ++ (otherwise.getD []).map statement
  | .returnValue value => value.toList.map expr
  | .assign assignments => assignments.map assignment
  | .openCursor _ q => q.toList.map query
  | .fetch node => [fetch node]
  | .leave _ condition | .iterate _ condition => condition.toList.map expr
  | .tryCatch body catching => body.map statement ++ catching.map statement
  | .raise node => [raise node]
  | .throwing error => error.toList.map throwing
  | .signal node => [signal node]
  | .call _ args => args.map expr
  | .explain _ s => [statement s]
  | .setOption .. | .closeCursor _ | .deallocate _ | .beginTransaction _ | .commit ..
  | .rollback _ | .savepoint _ | .releaseSavepoint _ => []

/-- The components in the fields of a component, in the order of the fields. The right operand of a set
operator is a query that is a single selection. -/
def fields : Component → List Component
  | statement s => ofStatement s
  | query (.select node) => [select node]
  | query (.setOperation left _ _ right) => [query left, query (.select right)]
  | query (.withTables _ tables body) => tables.map commonTable ++ [query body]
  | select node =>
    node.top.toList.map top ++ node.columns.map expr ++ node.tables.map table ++
      node.joins.map join ++ node.condition.toList.map expr ++ node.groupBy.map expr ++
      node.having.toList.map expr ++ node.orderBy.map sortItem ++ node.limit.toList.map expr ++
      node.offset.toList.map expr ++ node.fetch.toList.map expr
  | commonTable node => [query node.query]
  | top node => [expr node.quantity]
  | table (.table ..) => []
  | table (.derived q _) => [query q]
  | join node => table node.table :: node.condition.toList.map expr
  | sortItem item => [expr item.expr]
  | expr e => ofExpr e
  | column _ => []
  | binary node => [expr node.left, expr node.right]
  | call node => node.args.map expr
  | candidates (.list values) => values.map expr
  | candidates (.query q) => [query q]
  | branch node => [expr node.condition, expr node.result]
  | window node =>
    node.partitionBy.map expr ++ node.orderBy.map sortItem ++ node.frame.toList.map frame
  | frame node => frameBound node.start :: node.stop.toList.map frameBound
  | frameBound (.offset count _) => [expr count]
  | frameBound (.unbounded _) | frameBound .currentRow => []
  | dataType _ => []
  | assignment node => [expr node.value]
  | insert node => [insertSource node.source]
  | insertSource (.values rows) => rows.flatMap fun row => row.map expr
  | insertSource (.query q) => [query q]
  | insertSource .defaultValues => []
  | update node =>
    table node.table :: (node.assignments.map assignment ++ node.tables.map table ++
      node.condition.toList.map expr)
  | delete node => table node.table :: node.condition.toList.map expr
  | columnDefinition node =>
    dataType node.type :: (node.initial.toList.map expr ++ node.check.toList.map expr)
  | constraint node => [constraintKind node.kind]
  | constraintKind (.check condition) => [expr condition]
  | constraintKind _ => []
  | createTable node => node.columns.map columnDefinition ++ node.constraints.map constraint
  | createIndex node => node.columns.map sortItem ++ node.condition.toList.map expr
  | createView node => [query node.query]
  | drop _ => []
  | alterAction (.addColumn node) | alterAction (.modifyColumn node)
  | alterAction (.changeColumn _ node) => [columnDefinition node]
  | alterAction (.addConstraint node) => [constraint node]
  | alterAction (.alterColumnType _ type) => [dataType type]
  | alterAction _ => []
  | trigger node => node.condition.toList.map expr ++ [triggerBody node.body]
  | triggerBody (.block node) => [block node]
  | triggerBody (.statement s) => [statement s]
  | triggerBody (.call _ args) => args.map expr
  | routine node => node.parameters.map parameter ++ [block node.body]
  | parameter node => dataType node.type :: node.initial.toList.map expr
  | declaration (.scalars node) => [scalars node]
  | declaration (.cursor node) => [cursor node]
  | declaration (.handler _ _ body) => [statement body]
  | scalars node => dataType node.type :: node.initial.toList.map expr
  | cursor node => [query node.query]
  | block node =>
    node.declarations.map declaration ++ node.body.map statement ++
      (node.handlers.getD []).map handler
  | handler node => node.body.map statement
  | alternative node => expr node.condition :: node.body.map statement
  | range (.numeric start stop step) => expr start :: expr stop :: step.toList.map expr
  | range (.query q) => [query q]
  | fetch node => node.direction.toList.map direction
  | direction (.absolute row) => [expr row]
  | direction (.relative count) => [expr count]
  | direction _ => []
  | raise node =>
    node.message.toList.map expr ++ node.arguments.map expr ++ node.options.map assignment
  | throwing node => [expr node.errorNumber, expr node.message, expr node.state]
  | signal node => node.properties.map assignment

/-! ## Induction -/

/-- Every listed component is smaller than a bound. -/
def Below (n : Nat) (listed : List Component) : Prop := ∀ d ∈ listed, sizeOf d < n

variable {n : Nat} {listed others : List Component}

theorem below_nil : Below n [] := List.forall_mem_nil _

theorem below_cons : Below n (d :: listed) ↔ sizeOf d < n ∧ Below n listed := List.forall_mem_cons

theorem below_append : Below n (listed ++ others) ↔ Below n listed ∧ Below n others :=
  List.forall_mem_append

section

variable {α : Type} [SizeOf α] {make : α → Component}

theorem below_list {values : List α} (hmake : ∀ value, sizeOf (make value) = 1 + sizeOf value)
    (hn : sizeOf values < n) : Below n (values.map make) := by
  intro d h
  obtain ⟨value, hvalue, rfl⟩ := List.mem_map.1 h
  have := List.sizeOf_lt_of_mem hvalue
  rw [hmake value]
  omega

theorem below_option {value : Option α} (hmake : ∀ value, sizeOf (make value) = 1 + sizeOf value)
    (hn : sizeOf value < n) : Below n (value.toList.map make) := by
  cases value with
  | none => exact below_nil
  | some value => exact below_cons.2 ⟨hmake value ▸ hn, below_nil⟩

theorem below_optionList {values : Option (List α)}
    (hmake : ∀ value, sizeOf (make value) = 1 + sizeOf value) (hn : sizeOf values < n) :
    Below n ((values.getD []).map make) := by
  cases values with
  | none => exact below_nil
  | some values => exact below_list hmake (Nat.lt_of_le_of_lt (Nat.le_add_left ..) hn)

theorem below_flatMap {rows : List (List α)} (hmake : ∀ value, sizeOf (make value) = 1 + sizeOf value)
    (hn : sizeOf rows < n) : Below n (rows.flatMap fun row => row.map make) := by
  intro d h
  obtain ⟨row, hrow, hd⟩ := List.mem_flatMap.1 h
  have := List.sizeOf_lt_of_mem hrow
  exact below_list hmake (by omega) d hd

end

/-- The fields of a component are smaller than the component. -/
theorem below_fields (c : Component) : Below (sizeOf c) c.fields := by
  cases c <;> rename_i value <;> cases value
  all_goals simp [fields, ofStatement, ofExpr, below_nil, below_cons, below_append]
  all_goals and_intros
  all_goals first
    | omega
    | exact below_list (fun _ => rfl) (by omega)
    | exact below_option (fun _ => rfl) (by omega)
    | exact below_optionList (fun _ => rfl) (by omega)
    | exact below_flatMap (fun _ => rfl) (by omega)

/-- What holds of a component if it holds of its fields holds of every component. -/
theorem induction {P : Component → Prop} (h : ∀ c, (∀ d ∈ c.fields, P d) → P c) (c : Component) :
    P c :=
  h c fun d hd =>
    have := below_fields c d hd
    induction h d
termination_by sizeOf c

/-! ## Places -/

/-- The component at a place, which tells from the outside in which field to go to. -/
def at? : Component → List Nat → Option Component
  | c, [] => some c
  | c, i :: place => c.fields[i]?.bind fun d => d.at? place

/-- Every component at every depth has a property. -/
def Throughout (P : Component → Prop) (c : Component) : Prop :=
  ∀ place d, c.at? place = some d → P d

theorem throughout_iff {P : Component → Prop} :
    c.Throughout P ↔ P c ∧ ∀ d ∈ c.fields, d.Throughout P := by
  constructor
  · intro h
    refine ⟨h [] c rfl, fun d hd place e he => ?_⟩
    obtain ⟨i, hi⟩ := List.mem_iff_getElem?.1 hd
    exact h (i :: place) e (by rw [at?, hi]; exact he)
  · rintro ⟨hc, hfields⟩ (_ | ⟨i, place⟩) e he
    · exact Option.some.inj he ▸ hc
    · obtain ⟨d, hd, he⟩ := Option.bind_eq_some_iff.1 he
      exact hfields d (List.mem_of_getElem? hd) place e he

end Component

end SqlFrontend
