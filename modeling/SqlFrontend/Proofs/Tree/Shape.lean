import SqlFrontend.Tree.Statement

/-!
# The shape of trees

The types of the tree leave room for nodes that stand for nothing: a choice without branches, a list of
no columns, a join without a condition. This module lists the nodes of a statement at every depth and
says which of them are well shaped.

* `Statement.parts`: all nodes in a statement. An expression that is an item of a selection is listed
  as a `Part.column`, every other one as a `Part.expr`.
* `Part.Shaped`: what holds of a single node.
* `Shapely`: what holds of all nodes of a list; `shapely_cons`, `shapely_append` and the lemmas about
  `partsAll` reduce it to the nodes' children.
* `Statement.WellFormed`: every node in a statement is well shaped.

That a view, a cursor, a common table and the like hold a query, and not just any statement, is part of
the types: `Query` has no other constructors than a selection, a set operation and a query with common
tables.
-/

namespace SqlFrontend

/-! ## Nodes -/

/-- A node of a tree that has a shape of its own. -/
inductive Part where
  | statement (s : Statement)
  | declaration (d : Declaration)
  | block (b : Block)
  | exceptionHandler (h : ExceptionHandler)
  | query (q : Query)
  | select (s : Select)
  | table (t : TableRef)
  | join (j : Join)
  | frameBound (b : FrameBound)
  | expr (e : Expr)
  /-- An item of a selection. -/
  | column (e : Expr)

/-! ## Expressions and queries -/

mutual

/-- The nodes of an expression, which is listed itself as `listed` says. -/
def Expr.partsAs (listed : Expr → Part) (e : Expr) : List Part :=
  listed e :: match e with
    | .literal _ | .column _ | .star _ => []
    | .binary node => node.parts
    | .unary _ operand => operand.partsAs .expr
    | .call call => call.parts
    | .window call spec => call.parts ++ spec.parts
    | .aliased expr _ => expr.partsAs .expr
    | .among expr _ values => expr.partsAs .expr ++ values.parts
    | .hasRows _ query => query.parts
    | .subquery query => query.parts
    | .choice input branches otherwise =>
      Expr.partsOption input ++ Branch.partsAll branches ++ Expr.partsOption otherwise
    | .between expr _ low high =>
      expr.partsAs .expr ++ low.partsAs .expr ++ high.partsAs .expr
    | .cast expr _ => expr.partsAs .expr

/-- The nodes of several expressions. -/
def Expr.partsAll (listed : Expr → Part) : List Expr → List Part
  | [] => []
  | expr :: rest => expr.partsAs listed ++ Expr.partsAll listed rest

/-- The nodes of an expression, if there is one. -/
def Expr.partsOption : Option Expr → List Part
  | none => []
  | some expr => expr.partsAs .expr

/-- The nodes of the operands. -/
def Binary.parts : Binary → List Part
  | ⟨left, _, right⟩ => left.partsAs .expr ++ right.partsAs .expr

/-- The nodes of the arguments. -/
def Call.parts : Call → List Part
  | ⟨_, args, _⟩ => Expr.partsAll .expr args

/-- The nodes of the candidates. -/
def Candidates.parts : Candidates → List Part
  | .list values => Expr.partsAll .expr values
  | .query query => query.parts

/-- The nodes of the branches. -/
def Branch.partsAll : List Branch → List Part
  | [] => []
  | ⟨condition, result⟩ :: rest =>
    condition.partsAs .expr ++ result.partsAs .expr ++ Branch.partsAll rest

/-- The nodes of the items of an order. -/
def SortItem.partsAll : List SortItem → List Part
  | [] => []
  | ⟨expr, _, _⟩ :: rest => expr.partsAs .expr ++ SortItem.partsAll rest

/-- The nodes of one end of a frame. -/
def FrameBound.parts (b : FrameBound) : List Part :=
  .frameBound b :: match b with
    | .offset count _ => count.partsAs .expr
    | .unbounded _ | .currentRow => []

/-- The nodes of a frame, if there is one. -/
def WindowFrame.partsOption : Option WindowFrame → List Part
  | none => []
  | some ⟨_, start, some stop⟩ => start.parts ++ stop.parts
  | some ⟨_, start, none⟩ => start.parts

/-- The nodes of a window. -/
def Window.parts : Window → List Part
  | ⟨partitionBy, orderBy, frame⟩ =>
    Expr.partsAll .expr partitionBy ++ SortItem.partsAll orderBy ++ WindowFrame.partsOption frame

/-- The nodes of a table. -/
def TableRef.parts (t : TableRef) : List Part :=
  .table t :: match t with
    | .table .. => []
    | .derived query _ => query.parts

/-- The nodes of several tables. -/
def TableRef.partsAll : List TableRef → List Part
  | [] => []
  | table :: rest => table.parts ++ TableRef.partsAll rest

/-- The nodes of a join. -/
def Join.parts (j : Join) : List Part :=
  .join j :: match j with
    | ⟨_, table, condition, _⟩ => table.parts ++ Expr.partsOption condition

/-- The nodes of several joins. -/
def Join.partsAll : List Join → List Part
  | [] => []
  | join :: rest => join.parts ++ Join.partsAll rest

/-- The nodes of a limit before the columns, if there is one. -/
def Top.partsOption : Option Top → List Part
  | none => []
  | some ⟨quantity, _, _⟩ => quantity.partsAs .expr

/-- The nodes of a selection. -/
def Select.parts (s : Select) : List Part :=
  .select s :: match s with
    | ⟨_, top, columns, _, tables, joins, condition, groupBy, having, orderBy, limit, offset,
        fetch⟩ =>
      Top.partsOption top ++ Expr.partsAll .column columns ++ TableRef.partsAll tables ++
        Join.partsAll joins ++ Expr.partsOption condition ++ Expr.partsAll .expr groupBy ++
        Expr.partsOption having ++ SortItem.partsAll orderBy ++ Expr.partsOption limit ++
        Expr.partsOption offset ++ Expr.partsOption fetch

/-- The nodes of the common tables. -/
def CommonTable.partsAll : List CommonTable → List Part
  | [] => []
  | ⟨_, _, query⟩ :: rest => query.parts ++ CommonTable.partsAll rest

/-- The nodes of a query. -/
def Query.parts (q : Query) : List Part :=
  .query q :: match q with
    | .select node => node.parts
    | .setOperation left _ _ right => left.parts ++ right.parts
    | .withTables _ tables body => CommonTable.partsAll tables ++ body.parts

end

/-- The nodes of an expression. -/
abbrev Expr.parts (e : Expr) : List Part := e.partsAs .expr

/-! ## Parts without statements -/

/-- The nodes of the values of assignments. -/
def Assignment.partsAll (assignments : List Assignment) : List Part :=
  assignments.flatMap fun a => a.value.parts

/-- The nodes of the source of rows. -/
def InsertSource.parts : InsertSource → List Part
  | .values rows => rows.flatMap (Expr.partsAll .expr)
  | .query q => q.parts
  | .defaultValues => []

/-- The nodes of the expressions of a column. -/
def ColumnDefinition.parts (c : ColumnDefinition) : List Part :=
  Expr.partsOption c.initial ++ Expr.partsOption c.check

/-- The nodes of the expression of a constraint. -/
def TableConstraint.parts (c : TableConstraint) : List Part :=
  match c.kind with
  | .check condition => condition.parts
  | _ => []

/-- The nodes of the expressions of a change. -/
def AlterAction.parts : AlterAction → List Part
  | .addColumn column | .modifyColumn column | .changeColumn _ column => column.parts
  | .addConstraint constraint => constraint.parts
  | _ => []

/-- The nodes of a range. -/
def ForRange.parts : ForRange → List Part
  | .numeric start stop step => start.parts ++ stop.parts ++ Expr.partsOption step
  | .query q => q.parts

/-- The nodes of a direction. -/
def FetchDirection.parts : FetchDirection → List Part
  | .absolute row => row.parts
  | .relative count => count.parts
  | _ => []

/-- The nodes of the defaults of parameters. -/
def Parameter.partsAll (parameters : List Parameter) : List Part :=
  parameters.flatMap fun p => Expr.partsOption p.initial

/-! ## Statements -/

mutual

/-- The nodes of a statement. -/
def Statement.parts (s : Statement) : List Part :=
  .statement s :: match s with
  | .query q => q.parts
  | .insert node => node.source.parts
  | .update node =>
    node.table.parts ++ Assignment.partsAll node.assignments ++ TableRef.partsAll node.tables ++
      Expr.partsOption node.condition
  | .delete node => node.table.parts ++ Expr.partsOption node.condition
  | .createTable node =>
    node.columns.flatMap ColumnDefinition.parts ++ node.constraints.flatMap TableConstraint.parts
  | .createIndex node => SortItem.partsAll node.columns ++ Expr.partsOption node.condition
  | .createView node => node.query.parts
  | .createProcedure ⟨_, _, parameters, _, body⟩ => Parameter.partsAll parameters ++ body.parts
  | .createFunction ⟨_, _, parameters, _, body⟩ _ => Parameter.partsAll parameters ++ body.parts
  | .createTrigger ⟨_, _, _, _, _, _, condition, body⟩ =>
    Expr.partsOption condition ++ body.parts
  | .alterTable _ action => action.parts
  | .declare declaration => declaration.parts
  | .block node => node.parts
  | .conditional condition body elseIfs otherwise =>
    condition.parts ++ Statement.partsAll body ++ Alternative.partsAll elseIfs ++
      Statement.partsOption otherwise
  | .whileLoop _ condition body => condition.parts ++ Statement.partsAll body
  | .loop _ body => Statement.partsAll body
  | .forLoop _ _ _ range body => range.parts ++ Statement.partsAll body
  | .repeatLoop _ body condition => Statement.partsAll body ++ condition.parts
  | .choice input branches otherwise =>
    Expr.partsOption input ++ Alternative.partsAll branches ++ Statement.partsOption otherwise
  | .returnValue value => Expr.partsOption value
  | .assign assignments => Assignment.partsAll assignments
  | .openCursor _ query => (query.map Query.parts).getD []
  | .fetch node => (node.direction.map FetchDirection.parts).getD []
  | .leave _ condition | .iterate _ condition => Expr.partsOption condition
  | .tryCatch body handler => Statement.partsAll body ++ Statement.partsAll handler
  | .raise node =>
    Expr.partsOption node.message ++ Expr.partsAll .expr node.arguments ++
      Assignment.partsAll node.options
  | .throwing (some node) => node.errorNumber.parts ++ node.message.parts ++ node.state.parts
  | .signal node => Assignment.partsAll node.properties
  | .call _ args => Expr.partsAll .expr args
  | .explain _ statement => statement.parts
  | .drop _ | .setOption .. | .closeCursor _ | .deallocate _ | .throwing none
  | .beginTransaction _ | .commit .. | .rollback _ | .savepoint _ | .releaseSavepoint _ => []

/-- The nodes of several statements. -/
def Statement.partsAll : List Statement → List Part
  | [] => []
  | statement :: rest => statement.parts ++ Statement.partsAll rest

/-- The nodes of the statements that are run if no condition holds. -/
def Statement.partsOption : Option (List Statement) → List Part
  | none => []
  | some body => Statement.partsAll body

/-- The nodes of statements under conditions. -/
def Alternative.partsAll : List Alternative → List Part
  | [] => []
  | ⟨condition, body⟩ :: rest =>
    condition.parts ++ Statement.partsAll body ++ Alternative.partsAll rest

/-- The nodes of a block. -/
def Block.parts (b : Block) : List Part :=
  .block b :: match b with
    | ⟨_, declarations, body, handlers, _⟩ =>
      Declaration.partsAll declarations ++ Statement.partsAll body ++
        ExceptionHandler.partsSection handlers

/-- The nodes of an exception section, if there is one. -/
def ExceptionHandler.partsSection : Option (List ExceptionHandler) → List Part
  | none => []
  | some handlers => ExceptionHandler.partsAll handlers

/-- The nodes of an exception handler. -/
def ExceptionHandler.parts (h : ExceptionHandler) : List Part :=
  .exceptionHandler h :: match h with
    | ⟨_, body⟩ => Statement.partsAll body

/-- The nodes of the handlers. -/
def ExceptionHandler.partsAll : List ExceptionHandler → List Part
  | [] => []
  | handler :: rest => handler.parts ++ ExceptionHandler.partsAll rest

/-- The nodes of a declaration. -/
def Declaration.parts (d : Declaration) : List Part :=
  .declaration d :: match d with
    | .scalars node => Expr.partsOption node.initial
    | .cursor node => node.query.parts
    | .handler _ _ body => body.parts

/-- The nodes of the declarations. -/
def Declaration.partsAll : List Declaration → List Part
  | [] => []
  | declaration :: rest => declaration.parts ++ Declaration.partsAll rest

/-- The nodes of what a trigger does. -/
def TriggerBody.parts : TriggerBody → List Part
  | .block node => node.parts
  | .statement s => s.parts
  | .call _ args => Expr.partsAll .expr args

end

attribute [simp] Expr.partsAs Binary.parts Call.parts Candidates.parts FrameBound.parts Window.parts
  TableRef.parts Join.parts Select.parts Query.parts InsertSource.parts ColumnDefinition.parts
  TableConstraint.parts AlterAction.parts ForRange.parts FetchDirection.parts Statement.parts
  Block.parts ExceptionHandler.parts Declaration.parts TriggerBody.parts

/-! ## Shapes -/

/-- Decides whether a query is a selection or several, combined by set operators. -/
def Query.isSelections : Query → Bool
  | .select _ | .setOperation .. => true
  | .withTables .. => false

@[simp] theorem Query.isSelections_select (node : Select) : (Query.select node).isSelections := rfl

@[simp] theorem Query.isSelections_setOperation (left : Query) (op : SetOperator) (all : Bool)
    (right : Select) : (Query.setOperation left op all right).isSelections := rfl

/-- Decides whether an expression is one under another name. -/
@[simp] def Expr.isAliased : Expr → Bool
  | .aliased .. => true
  | _ => false

/-- A choice has branches, a list to look through is not empty, and a query inside an expression starts
with no common tables. -/
@[simp] def Expr.Shaped : Expr → Prop
  | .choice _ branches _ => branches ≠ []
  | .among _ _ (.list values) => values ≠ []
  | .among _ _ (.query q) | .hasRows _ q | .subquery q => q.isSelections
  | _ => True

/-- Common tables are there where they are announced, and they do not stand inside a set operation. -/
@[simp] def Query.Shaped : Query → Prop
  | .withTables _ tables _ => tables ≠ []
  | .setOperation left .. => left.isSelections
  | .select _ => True

/-- The schema that a table is named in. -/
@[simp] def TableRef.schema? : TableRef → Option String
  | .table name _ _ => name.schema
  | .derived .. => none

/-- The name of a table. -/
@[simp] def TableRef.name : TableRef → String
  | .table name _ _ => name.name
  | .derived _ asName => asName

/-- The other name of a table. -/
@[simp] def TableRef.asName? : TableRef → Option String
  | .table _ asName _ => asName
  | .derived _ asName => some asName

/-- The hints for the use of a table. -/
@[simp] def TableRef.hints : TableRef → List String
  | .table _ _ hints => hints
  | .derived .. => []

/-- The result of a query has its other name only, and the query starts with no common tables. -/
def TableRef.Shaped (t : TableRef) : Prop :=
  match t with
  | .table .. => True
  | .derived query _ =>
    query.isSelections ∧ t.schema? = none ∧ t.asName? = some t.name ∧ t.hints = []

/-- A crossing join has no condition, and every other one either a condition or shared columns. -/
def Join.Shaped (j : Join) : Prop :=
  if j.kind = .cross then j.condition = none ∧ j.sharedColumns = []
  else j.condition.isSome ∧ j.sharedColumns = [] ∨ j.condition = none ∧ j.sharedColumns ≠ []

/-- The direction that one end of a frame is given in. -/
@[simp] def FrameBound.direction? : FrameBound → Option FrameDirection
  | .unbounded direction => some direction
  | .currentRow => none
  | .offset _ direction => some direction

/-- Only the current row is given without a direction. -/
def FrameBound.Shaped (b : FrameBound) : Prop := b.direction? = none ↔ b = .currentRow

/-- Rows have values, a change assigns something, and what a statement is about is named. -/
@[simp] def Statement.Shaped : Statement → Prop
  | .insert ⟨_, _, .values rows⟩ => rows ≠ [] ∧ ∀ row ∈ rows, row ≠ []
  | .update node => node.assignments ≠ []
  | .assign assignments => assignments ≠ []
  | .drop node => node.names ≠ []
  | .createIndex node => node.columns ≠ []
  | .createTrigger node => node.events ≠ []
  | .choice _ branches _ => branches ≠ []
  | _ => True

/-- What holds of a node, whatever is below it. An expression under another name is an item of a
selection. -/
@[simp] def Part.Shaped : Part → Prop
  | .statement s => s.Shaped
  | .declaration (.handler _ conditions _) => conditions ≠ []
  | .declaration _ => True
  | .block b => b.handlers ≠ some []
  | .exceptionHandler h => h.conditions ≠ []
  | .query q => q.Shaped
  | .select s => s.columns ≠ []
  | .table t => t.Shaped
  | .join j => j.Shaped
  | .frameBound b => b.Shaped
  | .expr e => e.isAliased = false ∧ e.Shaped
  | .column e => e.Shaped

/-- Every node of a list has its shape. -/
def Shapely (parts : List Part) : Prop := ∀ part ∈ parts, part.Shaped

/-- Every node in a statement has its shape, at any depth. -/
def Statement.WellFormed (s : Statement) : Prop := Shapely s.parts

/-! ## Lists of nodes -/

@[simp] theorem shapely_nil : Shapely [] := nofun

@[simp] theorem shapely_cons {part : Part} {parts : List Part} :
    Shapely (part :: parts) ↔ part.Shaped ∧ Shapely parts := List.forall_mem_cons

@[simp] theorem shapely_append {parts parts' : List Part} :
    Shapely (parts ++ parts') ↔ Shapely parts ∧ Shapely parts' := List.forall_mem_append

@[simp] theorem shapely_flatMap {α : Type} {f : α → List Part} {items : List α} :
    Shapely (items.flatMap f) ↔ ∀ item ∈ items, Shapely (f item) := by
  simp only [Shapely, List.mem_flatMap]
  exact ⟨fun h item hi part hp => h part ⟨item, hi, hp⟩, fun h part ⟨item, hi, hp⟩ => h item hi part hp⟩

@[simp] theorem Expr.shapely_partsAll {listed : Expr → Part} {items : List Expr} :
    Shapely (Expr.partsAll listed items) ↔ ∀ e ∈ items, Shapely (e.partsAs listed) := by
  induction items with
  | nil => simp [Expr.partsAll]
  | cons e items ih => simp [Expr.partsAll, ih]

@[simp] theorem Expr.shapely_partsOption {item : Option Expr} :
    Shapely (Expr.partsOption item) ↔ ∀ e ∈ item, Shapely e.parts := by
  cases item <;> simp [Expr.partsOption]

/-- What is well shaped anywhere is so as an item of a selection. -/
theorem Expr.shapely_column {e : Expr} (h : Shapely e.parts) : Shapely (e.partsAs .column) := by
  rw [Expr.parts, Expr.partsAs.eq_def, shapely_cons] at h
  rw [Expr.partsAs.eq_def, shapely_cons]
  exact ⟨h.1.2, h.2⟩

@[simp] theorem Branch.shapely_partsAll {items : List Branch} :
    Shapely (Branch.partsAll items) ↔
      ∀ b ∈ items, Shapely b.condition.parts ∧ Shapely b.result.parts := by
  induction items with
  | nil => simp [Branch.partsAll]
  | cons b items ih =>
    obtain ⟨condition, result⟩ := b
    simp [Branch.partsAll, ih, and_assoc]

@[simp] theorem SortItem.shapely_partsAll {items : List SortItem} :
    Shapely (SortItem.partsAll items) ↔ ∀ item ∈ items, Shapely item.expr.parts := by
  induction items with
  | nil => simp [SortItem.partsAll]
  | cons item items ih =>
    obtain ⟨expr, direction, nulls⟩ := item
    simp [SortItem.partsAll, ih]

@[simp] theorem WindowFrame.shapely_partsOption {frame : Option WindowFrame} :
    Shapely (WindowFrame.partsOption frame) ↔
      ∀ f ∈ frame, Shapely f.start.parts ∧ ∀ stop ∈ f.stop, Shapely stop.parts := by
  rcases frame with _ | ⟨unit, start, _ | stop⟩ <;> simp [WindowFrame.partsOption]

@[simp] theorem TableRef.shapely_partsAll {items : List TableRef} :
    Shapely (TableRef.partsAll items) ↔ ∀ t ∈ items, Shapely t.parts := by
  induction items with
  | nil => simp [TableRef.partsAll]
  | cons t items ih => simp [TableRef.partsAll, ih]

@[simp] theorem Join.shapely_partsAll {items : List Join} :
    Shapely (Join.partsAll items) ↔ ∀ j ∈ items, Shapely j.parts := by
  induction items with
  | nil => simp [Join.partsAll]
  | cons j items ih => simp [Join.partsAll, ih]

@[simp] theorem Top.shapely_partsOption {top : Option Top} :
    Shapely (Top.partsOption top) ↔ ∀ t ∈ top, Shapely t.quantity.parts := by
  rcases top with _ | ⟨quantity, percent, withTies⟩ <;> simp [Top.partsOption]

@[simp] theorem CommonTable.shapely_partsAll {items : List CommonTable} :
    Shapely (CommonTable.partsAll items) ↔ ∀ t ∈ items, Shapely t.query.parts := by
  induction items with
  | nil => simp [CommonTable.partsAll]
  | cons t items ih =>
    obtain ⟨name, columns, query⟩ := t
    simp [CommonTable.partsAll, ih]

@[simp] theorem Assignment.shapely_partsAll {items : List Assignment} :
    Shapely (Assignment.partsAll items) ↔ ∀ a ∈ items, Shapely a.value.parts := shapely_flatMap

@[simp] theorem Parameter.shapely_partsAll {items : List Parameter} :
    Shapely (Parameter.partsAll items) ↔ ∀ p ∈ items, ∀ e ∈ p.initial, Shapely e.parts := by
  simp [Parameter.partsAll]

@[simp] theorem Statement.shapely_partsAll {items : List Statement} :
    Shapely (Statement.partsAll items) ↔ ∀ s ∈ items, s.WellFormed := by
  induction items with
  | nil => simp [Statement.partsAll]
  | cons s items ih => simp [Statement.partsAll, Statement.WellFormed, ih]

@[simp] theorem Statement.shapely_partsOption {body : Option (List Statement)} :
    Shapely (Statement.partsOption body) ↔ ∀ b ∈ body, ∀ s ∈ b, s.WellFormed := by
  cases body <;> simp [Statement.partsOption]

@[simp] theorem Alternative.shapely_partsAll {items : List Alternative} :
    Shapely (Alternative.partsAll items) ↔
      ∀ a ∈ items, Shapely a.condition.parts ∧ ∀ s ∈ a.body, s.WellFormed := by
  induction items with
  | nil => simp [Alternative.partsAll]
  | cons a items ih =>
    obtain ⟨condition, body⟩ := a
    simp [Alternative.partsAll, ih, and_assoc]

@[simp] theorem ExceptionHandler.shapely_partsAll {items : List ExceptionHandler} :
    Shapely (ExceptionHandler.partsAll items) ↔ ∀ h ∈ items, Shapely h.parts := by
  induction items with
  | nil => simp [ExceptionHandler.partsAll]
  | cons h items ih => simp [ExceptionHandler.partsAll, ih]

@[simp] theorem ExceptionHandler.shapely_partsSection {handlers : Option (List ExceptionHandler)} :
    Shapely (ExceptionHandler.partsSection handlers) ↔ ∀ hs ∈ handlers, ∀ h ∈ hs, Shapely h.parts := by
  cases handlers <;> simp [ExceptionHandler.partsSection]

@[simp] theorem Declaration.shapely_partsAll {items : List Declaration} :
    Shapely (Declaration.partsAll items) ↔ ∀ d ∈ items, Shapely d.parts := by
  induction items with
  | nil => simp [Declaration.partsAll]
  | cons d items ih => simp [Declaration.partsAll, ih]

end SqlFrontend
