import SqlFrontend.Tree.Walk

/-!
# The texts in a tree

A tree holds texts: names, strings, labels, options. A function on texts is carried to a whole tree,
and leaves the shape of the tree alone.

* `Textual.mapTexts`: a function on texts, applied to every text in a value.
* `Expr.mapTexts`, `Query.mapTexts`, `Statement.mapTexts`: the same for the nodes of a tree.
* `Statement.tags_mapTexts`: the kinds of the nodes on a walk do not depend on the texts.
-/

namespace SqlFrontend

/-- Values that hold texts. -/
class Textual (α : Type) where
  /-- Applies a function to every text in a value. -/
  mapTexts : (String → String) → α → α

export Textual (mapTexts)

/-! ## Values without nodes -/

instance : Textual String := ⟨fun f => f⟩

instance : Textual Bool := ⟨fun _ => id⟩

instance {α : Type} [Textual α] : Textual (Option α) := ⟨fun f => Option.map (mapTexts f)⟩

instance {α : Type} [Textual α] : Textual (List α) := ⟨fun f => List.map (mapTexts f)⟩

instance {α β : Type} [Textual α] [Textual β] : Textual (α × β) :=
  ⟨fun f => Prod.map (mapTexts f) (mapTexts f)⟩

instance {α β : Type} [Textual α] [Textual β] : Textual (α ⊕ β) :=
  ⟨fun f => Sum.map (mapTexts f) (mapTexts f)⟩

section

variable (f : String → String)

/-- Applies a function to every text in a literal, which is one only if the literal is a string. -/
def Literal.mapTexts : Literal → Literal
  | .string value => .string (f value)
  | value => value

def DataType.mapTexts (t : DataType) : DataType := { t with name := f t.name }

def ObjectName.mapTexts (n : ObjectName) : ObjectName := ⟨n.schema.map f, f n.name⟩

def ColumnRef.mapTexts (c : ColumnRef) : ColumnRef := ⟨c.table.map f, f c.column⟩

/-- The names of options are texts, too. -/
def Options.mapTexts (o : Options) : Options := ⟨o.entries.map (Prod.map f f)⟩

/-! ## Expressions and queries -/

mutual

def Expr.mapTexts : Expr → Expr
  | .literal value => .literal (value.mapTexts f)
  | .column ref => .column (ref.mapTexts f)
  | .star table => .star (table.map f)
  | .binary node => .binary node.mapTexts
  | .unary op operand => .unary op operand.mapTexts
  | .call call => .call call.mapTexts
  | .window call spec => .window call.mapTexts spec.mapTexts
  | .aliased expr asName => .aliased expr.mapTexts (f asName)
  | .among expr negated values => .among expr.mapTexts negated values.mapTexts
  | .hasRows negated query => .hasRows negated query.mapTexts
  | .subquery query => .subquery query.mapTexts
  | .choice input branches otherwise =>
    .choice (Expr.mapTextsOption input) (Branch.mapTextsAll branches) (Expr.mapTextsOption otherwise)
  | .between expr negated low high => .between expr.mapTexts negated low.mapTexts high.mapTexts
  | .cast expr type => .cast expr.mapTexts (type.mapTexts f)

def Expr.mapTextsAll : List Expr → List Expr
  | [] => []
  | expr :: rest => expr.mapTexts :: Expr.mapTextsAll rest

def Expr.mapTextsOption : Option Expr → Option Expr
  | none => none
  | some expr => some expr.mapTexts

def Binary.mapTexts : Binary → Binary
  | ⟨left, op, right⟩ => ⟨left.mapTexts, op, right.mapTexts⟩

def Call.mapTexts : Call → Call
  | ⟨name, args, distinct⟩ => ⟨f name, Expr.mapTextsAll args, distinct⟩

def Candidates.mapTexts : Candidates → Candidates
  | .list values => .list (Expr.mapTextsAll values)
  | .query query => .query query.mapTexts

def Branch.mapTexts : Branch → Branch
  | ⟨condition, result⟩ => ⟨condition.mapTexts, result.mapTexts⟩

def Branch.mapTextsAll : List Branch → List Branch
  | [] => []
  | branch :: rest => branch.mapTexts :: Branch.mapTextsAll rest

def SortItem.mapTexts : SortItem → SortItem
  | ⟨expr, direction, nulls⟩ => ⟨expr.mapTexts, direction, nulls⟩

def SortItem.mapTextsAll : List SortItem → List SortItem
  | [] => []
  | item :: rest => item.mapTexts :: SortItem.mapTextsAll rest

def FrameBound.mapTexts : FrameBound → FrameBound
  | .unbounded direction => .unbounded direction
  | .currentRow => .currentRow
  | .offset count direction => .offset count.mapTexts direction

def FrameBound.mapTextsOption : Option FrameBound → Option FrameBound
  | none => none
  | some bound => some bound.mapTexts

def WindowFrame.mapTexts : WindowFrame → WindowFrame
  | ⟨unit, start, stop⟩ => ⟨unit, start.mapTexts, FrameBound.mapTextsOption stop⟩

def WindowFrame.mapTextsOption : Option WindowFrame → Option WindowFrame
  | none => none
  | some frame => some frame.mapTexts

def Window.mapTexts : Window → Window
  | ⟨partitionBy, orderBy, frame⟩ =>
    ⟨Expr.mapTextsAll partitionBy, SortItem.mapTextsAll orderBy, WindowFrame.mapTextsOption frame⟩

def TableRef.mapTexts : TableRef → TableRef
  | .table name asName hints => .table (name.mapTexts f) (asName.map f) (hints.map f)
  | .derived query asName => .derived query.mapTexts (f asName)

def TableRef.mapTextsAll : List TableRef → List TableRef
  | [] => []
  | table :: rest => table.mapTexts :: TableRef.mapTextsAll rest

def Join.mapTexts : Join → Join
  | ⟨kind, table, condition, sharedColumns⟩ =>
    ⟨kind, table.mapTexts, Expr.mapTextsOption condition, sharedColumns.map f⟩

def Join.mapTextsAll : List Join → List Join
  | [] => []
  | join :: rest => join.mapTexts :: Join.mapTextsAll rest

def Top.mapTexts : Top → Top
  | ⟨quantity, percent, withTies⟩ => ⟨quantity.mapTexts, percent, withTies⟩

def Top.mapTextsOption : Option Top → Option Top
  | none => none
  | some top => some top.mapTexts

def Select.mapTexts : Select → Select
  | ⟨distinct, top, columns, into, tables, joins, condition, groupBy, having, orderBy, limit, offset,
      fetch⟩ =>
    ⟨distinct, Top.mapTextsOption top, Expr.mapTextsAll columns, into.map f,
      TableRef.mapTextsAll tables, Join.mapTextsAll joins, Expr.mapTextsOption condition,
      Expr.mapTextsAll groupBy, Expr.mapTextsOption having, SortItem.mapTextsAll orderBy,
      Expr.mapTextsOption limit, Expr.mapTextsOption offset, Expr.mapTextsOption fetch⟩

def CommonTable.mapTexts : CommonTable → CommonTable
  | ⟨name, columns, query⟩ => ⟨f name, columns.map f, query.mapTexts⟩

def CommonTable.mapTextsAll : List CommonTable → List CommonTable
  | [] => []
  | table :: rest => table.mapTexts :: CommonTable.mapTextsAll rest

def Query.mapTexts : Query → Query
  | .select node => .select node.mapTexts
  | .setOperation left op all right => .setOperation left.mapTexts op all right.mapTexts
  | .withTables recursive tables body =>
    .withTables recursive (CommonTable.mapTextsAll tables) body.mapTexts

end

end

/-! ## Lists of nodes -/

section

variable (f : String → String)

@[simp] theorem Expr.mapTextsAll_eq (xs : List Expr) :
    Expr.mapTextsAll f xs = xs.map (Expr.mapTexts f) := by
  induction xs with
  | nil => rfl
  | cons x xs ih => rw [Expr.mapTextsAll, ih, List.map_cons]

@[simp] theorem Branch.mapTextsAll_eq (xs : List Branch) :
    Branch.mapTextsAll f xs = xs.map (Branch.mapTexts f) := by
  induction xs with
  | nil => rfl
  | cons x xs ih => rw [Branch.mapTextsAll, ih, List.map_cons]

@[simp] theorem SortItem.mapTextsAll_eq (xs : List SortItem) :
    SortItem.mapTextsAll f xs = xs.map (SortItem.mapTexts f) := by
  induction xs with
  | nil => rfl
  | cons x xs ih => rw [SortItem.mapTextsAll, ih, List.map_cons]

@[simp] theorem TableRef.mapTextsAll_eq (xs : List TableRef) :
    TableRef.mapTextsAll f xs = xs.map (TableRef.mapTexts f) := by
  induction xs with
  | nil => rfl
  | cons x xs ih => rw [TableRef.mapTextsAll, ih, List.map_cons]

@[simp] theorem Join.mapTextsAll_eq (xs : List Join) :
    Join.mapTextsAll f xs = xs.map (Join.mapTexts f) := by
  induction xs with
  | nil => rfl
  | cons x xs ih => rw [Join.mapTextsAll, ih, List.map_cons]

@[simp] theorem CommonTable.mapTextsAll_eq (xs : List CommonTable) :
    CommonTable.mapTextsAll f xs = xs.map (CommonTable.mapTexts f) := by
  induction xs with
  | nil => rfl
  | cons x xs ih => rw [CommonTable.mapTextsAll, ih, List.map_cons]

@[simp] theorem Expr.mapTextsOption_eq (x : Option Expr) :
    Expr.mapTextsOption f x = x.map (Expr.mapTexts f) := by
  cases x <;> rfl

@[simp] theorem FrameBound.mapTextsOption_eq (x : Option FrameBound) :
    FrameBound.mapTextsOption f x = x.map (FrameBound.mapTexts f) := by
  cases x <;> rfl

@[simp] theorem WindowFrame.mapTextsOption_eq (x : Option WindowFrame) :
    WindowFrame.mapTextsOption f x = x.map (WindowFrame.mapTexts f) := by
  cases x <;> rfl

@[simp] theorem Top.mapTextsOption_eq (x : Option Top) :
    Top.mapTextsOption f x = x.map (Top.mapTexts f) := by
  cases x <;> rfl

end

instance : Textual Literal := ⟨Literal.mapTexts⟩

instance : Textual DataType := ⟨DataType.mapTexts⟩

instance : Textual ObjectName := ⟨ObjectName.mapTexts⟩

instance : Textual ColumnRef := ⟨ColumnRef.mapTexts⟩

instance : Textual Options := ⟨Options.mapTexts⟩

instance : Textual Expr := ⟨Expr.mapTexts⟩

instance : Textual Binary := ⟨Binary.mapTexts⟩

instance : Textual Call := ⟨Call.mapTexts⟩

instance : Textual Candidates := ⟨Candidates.mapTexts⟩

instance : Textual Branch := ⟨Branch.mapTexts⟩

instance : Textual SortItem := ⟨SortItem.mapTexts⟩

instance : Textual FrameBound := ⟨FrameBound.mapTexts⟩

instance : Textual WindowFrame := ⟨WindowFrame.mapTexts⟩

instance : Textual Window := ⟨Window.mapTexts⟩

instance : Textual TableRef := ⟨TableRef.mapTexts⟩

instance : Textual Join := ⟨Join.mapTexts⟩

instance : Textual Top := ⟨Top.mapTexts⟩

instance : Textual Select := ⟨Select.mapTexts⟩

instance : Textual CommonTable := ⟨CommonTable.mapTexts⟩

instance : Textual Query := ⟨Query.mapTexts⟩

attribute [simp] Expr.mapTexts Binary.mapTexts Call.mapTexts Candidates.mapTexts Branch.mapTexts
  SortItem.mapTexts FrameBound.mapTexts WindowFrame.mapTexts Window.mapTexts TableRef.mapTexts Join.mapTexts
  Top.mapTexts Select.mapTexts CommonTable.mapTexts Query.mapTexts

/-! ## Parts without statements -/

section

variable (f : String → String)

def Assignment.mapTexts (a : Assignment) : Assignment := ⟨f a.target, a.value.mapTexts f⟩

instance : Textual Assignment := ⟨Assignment.mapTexts⟩

def InsertSource.mapTexts : InsertSource → InsertSource
  | .values rows => .values (Textual.mapTexts f rows)
  | .query q => .query (q.mapTexts f)
  | .defaultValues => .defaultValues

instance : Textual InsertSource := ⟨InsertSource.mapTexts⟩

def ForeignKey.mapTexts (k : ForeignKey) : ForeignKey :=
  { k with table := k.table.mapTexts f, columns := k.columns.map f }

instance : Textual ForeignKey := ⟨ForeignKey.mapTexts⟩

def ColumnDefinition.mapTexts (c : ColumnDefinition) : ColumnDefinition :=
  { c with
    name := f c.name
    type := c.type.mapTexts f
    initial := c.initial.map (Expr.mapTexts f)
    foreignKey := c.foreignKey.map (ForeignKey.mapTexts f)
    check := c.check.map (Expr.mapTexts f)
    collation := c.collation.map f
    constraintName := c.constraintName.map f }

instance : Textual ColumnDefinition := ⟨ColumnDefinition.mapTexts⟩

def ConstraintKind.mapTexts : ConstraintKind → ConstraintKind
  | .primaryKey columns => .primaryKey (columns.map f)
  | .unique columns => .unique (columns.map f)
  | .foreignKey columns target => .foreignKey (columns.map f) (target.mapTexts f)
  | .check condition => .check (condition.mapTexts f)
  | .index columns => .index (columns.map f)

instance : Textual ConstraintKind := ⟨ConstraintKind.mapTexts⟩

def TableConstraint.mapTexts (c : TableConstraint) : TableConstraint :=
  ⟨c.name.map f, c.kind.mapTexts f⟩

instance : Textual TableConstraint := ⟨TableConstraint.mapTexts⟩

def TriggerEvent.mapTexts : TriggerEvent → TriggerEvent
  | .update columns => .update (columns.map f)
  | event => event

instance : Textual TriggerEvent := ⟨TriggerEvent.mapTexts⟩

def AlterAction.mapTexts : AlterAction → AlterAction
  | .addColumn column => .addColumn (column.mapTexts f)
  | .addConstraint constraint => .addConstraint (constraint.mapTexts f)
  | .dropColumn name ifExists => .dropColumn (f name) ifExists
  | .dropConstraint name => .dropConstraint (f name)
  | .modifyColumn column => .modifyColumn (column.mapTexts f)
  | .changeColumn oldName column => .changeColumn (f oldName) (column.mapTexts f)
  | .alterColumnType name type => .alterColumnType (f name) (type.mapTexts f)
  | .renameTable name => .renameTable (name.mapTexts f)
  | .renameColumn oldName newName => .renameColumn (f oldName) (f newName)

instance : Textual AlterAction := ⟨AlterAction.mapTexts⟩

def HandlerCondition.mapTexts : HandlerCondition → HandlerCondition
  | .sqlState code => .sqlState (f code)
  | .named name => .named (f name)
  | condition => condition

instance : Textual HandlerCondition := ⟨HandlerCondition.mapTexts⟩

def ForRange.mapTexts : ForRange → ForRange
  | .numeric start stop step =>
    .numeric (start.mapTexts f) (stop.mapTexts f) (step.map (Expr.mapTexts f))
  | .query q => .query (q.mapTexts f)

instance : Textual ForRange := ⟨ForRange.mapTexts⟩

def FetchDirection.mapTexts : FetchDirection → FetchDirection
  | .absolute row => .absolute (row.mapTexts f)
  | .relative count => .relative (count.mapTexts f)
  | direction => direction

instance : Textual FetchDirection := ⟨FetchDirection.mapTexts⟩

def Parameter.mapTexts (p : Parameter) : Parameter :=
  { p with
    name := p.name.map f
    type := p.type.mapTexts f
    initial := p.initial.map (Expr.mapTexts f) }

instance : Textual Parameter := ⟨Parameter.mapTexts⟩

def VariableDeclaration.mapTexts (d : VariableDeclaration) : VariableDeclaration :=
  { d with
    names := d.names.map f
    type := d.type.mapTexts f
    initial := d.initial.map (Expr.mapTexts f) }

def CursorDeclaration.mapTexts (d : CursorDeclaration) : CursorDeclaration :=
  ⟨f d.name, d.options.map f, d.query.mapTexts f⟩

instance : Textual VariableDeclaration := ⟨VariableDeclaration.mapTexts⟩

instance : Textual CursorDeclaration := ⟨CursorDeclaration.mapTexts⟩

def RoutineOptions.mapTexts (o : RoutineOptions) : RoutineOptions :=
  { o with language := o.language.map f, comment := o.comment.map f }

def ExplainOptions.mapTexts (o : ExplainOptions) : ExplainOptions :=
  { o with format := o.format.map f, options := o.options.mapTexts f }

def Insert.mapTexts (node : Insert) : Insert :=
  ⟨node.table.mapTexts f, node.columns.map f, node.source.mapTexts f⟩

def Update.mapTexts (node : Update) : Update :=
  ⟨node.table.mapTexts f, node.assignments.map (Assignment.mapTexts f),
    node.tables.map (TableRef.mapTexts f), node.condition.map (Expr.mapTexts f)⟩

def Delete.mapTexts (node : Delete) : Delete :=
  ⟨node.table.mapTexts f, node.condition.map (Expr.mapTexts f)⟩

def CreateTable.mapTexts (node : CreateTable) : CreateTable :=
  { node with
    name := node.name.mapTexts f
    columns := node.columns.map (ColumnDefinition.mapTexts f)
    constraints := node.constraints.map (TableConstraint.mapTexts f)
    options := node.options.mapTexts f }

def CreateIndex.mapTexts (node : CreateIndex) : CreateIndex :=
  { node with
    name := f node.name
    table := node.table.mapTexts f
    method := node.method.map f
    columns := node.columns.map (SortItem.mapTexts f)
    included := node.included.map f
    condition := node.condition.map (Expr.mapTexts f) }

def CreateView.mapTexts (node : CreateView) : CreateView :=
  { node with
    name := node.name.mapTexts f
    columns := node.columns.map f
    query := node.query.mapTexts f
    options := node.options.mapTexts f }

def Drop.mapTexts (node : Drop) : Drop :=
  { node with
    names := node.names.map (ObjectName.mapTexts f)
    onTable := node.onTable.map (ObjectName.mapTexts f) }

def Fetch.mapTexts (node : Fetch) : Fetch :=
  ⟨node.direction.map (FetchDirection.mapTexts f), f node.cursor, node.into.map f⟩

def Raise.mapTexts (node : Raise) : Raise :=
  { node with
    message := node.message.map (Expr.mapTexts f)
    arguments := node.arguments.map (Expr.mapTexts f)
    condition := node.condition.map f
    options := node.options.map (Assignment.mapTexts f) }

def Throw.mapTexts (node : Throw) : Throw :=
  ⟨node.errorNumber.mapTexts f, node.message.mapTexts f, node.state.mapTexts f⟩

def Signal.mapTexts (node : Signal) : Signal :=
  { node with
    sqlState := node.sqlState.map f
    condition := node.condition.map f
    properties := node.properties.map (Assignment.mapTexts f) }

def BeginTransaction.mapTexts (node : BeginTransaction) : BeginTransaction :=
  { node with modes := node.modes.map f, name := node.name.map f }

def Rollback.mapTexts (node : Rollback) : Rollback :=
  ⟨node.work, node.name.map f, node.savepoint.map f⟩

end

instance : Textual Insert := ⟨Insert.mapTexts⟩

instance : Textual Update := ⟨Update.mapTexts⟩

instance : Textual Delete := ⟨Delete.mapTexts⟩

instance : Textual CreateTable := ⟨CreateTable.mapTexts⟩

instance : Textual CreateIndex := ⟨CreateIndex.mapTexts⟩

instance : Textual CreateView := ⟨CreateView.mapTexts⟩

instance : Textual Drop := ⟨Drop.mapTexts⟩

instance : Textual Fetch := ⟨Fetch.mapTexts⟩

instance : Textual Raise := ⟨Raise.mapTexts⟩

instance : Textual Throw := ⟨Throw.mapTexts⟩

instance : Textual Signal := ⟨Signal.mapTexts⟩

instance : Textual BeginTransaction := ⟨BeginTransaction.mapTexts⟩

instance : Textual Rollback := ⟨Rollback.mapTexts⟩

/-! ## Statements -/

section

variable (f : String → String)

mutual

def Statement.mapTexts : Statement → Statement
  | .query q => .query (q.mapTexts f)
  | .insert node => .insert (node.mapTexts f)
  | .update node => .update (node.mapTexts f)
  | .delete node => .delete (node.mapTexts f)
  | .createTable node => .createTable (node.mapTexts f)
  | .createIndex node => .createIndex (node.mapTexts f)
  | .createView node => .createView (node.mapTexts f)
  | .createProcedure node => .createProcedure node.mapTexts
  | .createFunction node returns => .createFunction node.mapTexts (returns.mapTexts f)
  | .createTrigger node => .createTrigger node.mapTexts
  | .drop node => .drop (node.mapTexts f)
  | .alterTable name action => .alterTable (name.mapTexts f) (action.mapTexts f)
  | .declare declaration => .declare declaration.mapTexts
  | .block node => .block node.mapTexts
  | .conditional condition body elseIfs otherwise =>
    .conditional (condition.mapTexts f) (Statement.mapTextsAll body)
      (Alternative.mapTextsAll elseIfs) (Statement.mapTextsOption otherwise)
  | .whileLoop label condition body =>
    .whileLoop (label.map f) (condition.mapTexts f) (Statement.mapTextsAll body)
  | .loop label body => .loop (label.map f) (Statement.mapTextsAll body)
  | .forLoop label counter reverse range body =>
    .forLoop (label.map f) (f counter) reverse (range.mapTexts f) (Statement.mapTextsAll body)
  | .repeatLoop label body condition =>
    .repeatLoop (label.map f) (Statement.mapTextsAll body) (condition.mapTexts f)
  | .choice input branches otherwise =>
    .choice (input.map (Expr.mapTexts f)) (Alternative.mapTextsAll branches)
      (Statement.mapTextsOption otherwise)
  | .returnValue value => .returnValue (value.map (Expr.mapTexts f))
  | .assign assignments => .assign (assignments.map (Assignment.mapTexts f))
  | .setOption name value => .setOption (f name) (f value)
  | .openCursor cursor query => .openCursor (f cursor) (query.map (Query.mapTexts f))
  | .fetch node => .fetch (node.mapTexts f)
  | .closeCursor cursor => .closeCursor (f cursor)
  | .deallocate cursor => .deallocate (f cursor)
  | .leave label condition => .leave (label.map f) (condition.map (Expr.mapTexts f))
  | .iterate label condition => .iterate (label.map f) (condition.map (Expr.mapTexts f))
  | .tryCatch body handler =>
    .tryCatch (Statement.mapTextsAll body) (Statement.mapTextsAll handler)
  | .raise node => .raise (node.mapTexts f)
  | .throwing error => .throwing (error.map (Throw.mapTexts f))
  | .signal node => .signal (node.mapTexts f)
  | .call name args => .call (name.mapTexts f) (args.map (Expr.mapTexts f))
  | .beginTransaction node => .beginTransaction (node.mapTexts f)
  | .commit work name => .commit work (name.map f)
  | .rollback node => .rollback (node.mapTexts f)
  | .savepoint name => .savepoint (f name)
  | .releaseSavepoint name => .releaseSavepoint (f name)
  | .explain options statement => .explain (options.mapTexts f) statement.mapTexts

def Statement.mapTextsAll : List Statement → List Statement
  | [] => []
  | statement :: rest => statement.mapTexts :: Statement.mapTextsAll rest

def Statement.mapTextsOption : Option (List Statement) → Option (List Statement)
  | none => none
  | some body => some (Statement.mapTextsAll body)

def Alternative.mapTexts : Alternative → Alternative
  | ⟨condition, body⟩ => ⟨condition.mapTexts f, Statement.mapTextsAll body⟩

def Alternative.mapTextsAll : List Alternative → List Alternative
  | [] => []
  | alternative :: rest => alternative.mapTexts :: Alternative.mapTextsAll rest

def Block.mapTexts : Block → Block
  | ⟨label, declarations, body, handlers, endLabel⟩ =>
    ⟨label.map f, Declaration.mapTextsAll declarations, Statement.mapTextsAll body,
      ExceptionHandler.mapTextsSection handlers, endLabel.map f⟩

def ExceptionHandler.mapTexts : ExceptionHandler → ExceptionHandler
  | ⟨conditions, body⟩ => ⟨conditions.map f, Statement.mapTextsAll body⟩

def ExceptionHandler.mapTextsAll : List ExceptionHandler → List ExceptionHandler
  | [] => []
  | handler :: rest => handler.mapTexts :: ExceptionHandler.mapTextsAll rest

def ExceptionHandler.mapTextsSection :
    Option (List ExceptionHandler) → Option (List ExceptionHandler)
  | none => none
  | some handlers => some (ExceptionHandler.mapTextsAll handlers)

def Declaration.mapTexts : Declaration → Declaration
  | .scalars node => .scalars (node.mapTexts f)
  | .cursor node => .cursor (node.mapTexts f)
  | .handler action conditions body =>
    .handler action (conditions.map (HandlerCondition.mapTexts f)) body.mapTexts

def Declaration.mapTextsAll : List Declaration → List Declaration
  | [] => []
  | declaration :: rest => declaration.mapTexts :: Declaration.mapTextsAll rest

def TriggerBody.mapTexts : TriggerBody → TriggerBody
  | .block node => .block node.mapTexts
  | .statement statement => .statement statement.mapTexts
  | .call name args => .call (f name) (args.map (Expr.mapTexts f))

def Trigger.mapTexts : Trigger → Trigger
  | ⟨orReplace, name, timing, events, table, forEachRow, condition, body⟩ =>
    ⟨orReplace, name.mapTexts f, timing, events.map (TriggerEvent.mapTexts f), table.mapTexts f,
      forEachRow, condition.map (Expr.mapTexts f), body.mapTexts⟩

def Routine.mapTexts : Routine → Routine
  | ⟨orReplace, name, parameters, options, body⟩ =>
    ⟨orReplace, name.mapTexts f, parameters.map (Parameter.mapTexts f), options.mapTexts f,
      body.mapTexts⟩

end

@[simp] theorem Statement.mapTextsAll_eq (xs : List Statement) :
    Statement.mapTextsAll f xs = xs.map (Statement.mapTexts f) := by
  induction xs with
  | nil => rfl
  | cons x xs ih => rw [Statement.mapTextsAll, ih, List.map_cons]

@[simp] theorem Alternative.mapTextsAll_eq (xs : List Alternative) :
    Alternative.mapTextsAll f xs = xs.map (Alternative.mapTexts f) := by
  induction xs with
  | nil => rfl
  | cons x xs ih => rw [Alternative.mapTextsAll, ih, List.map_cons]

@[simp] theorem ExceptionHandler.mapTextsAll_eq (xs : List ExceptionHandler) :
    ExceptionHandler.mapTextsAll f xs = xs.map (ExceptionHandler.mapTexts f) := by
  induction xs with
  | nil => rfl
  | cons x xs ih => rw [ExceptionHandler.mapTextsAll, ih, List.map_cons]

@[simp] theorem Declaration.mapTextsAll_eq (xs : List Declaration) :
    Declaration.mapTextsAll f xs = xs.map (Declaration.mapTexts f) := by
  induction xs with
  | nil => rfl
  | cons x xs ih => rw [Declaration.mapTextsAll, ih, List.map_cons]

@[simp] theorem Statement.mapTextsOption_eq (body : Option (List Statement)) :
    Statement.mapTextsOption f body = body.map (List.map (Statement.mapTexts f)) := by
  cases body with
  | none => rfl
  | some body => rw [Statement.mapTextsOption, Statement.mapTextsAll_eq, Option.map_some]

@[simp] theorem ExceptionHandler.mapTextsSection_eq (handlers : Option (List ExceptionHandler)) :
    ExceptionHandler.mapTextsSection f handlers =
      handlers.map (List.map (ExceptionHandler.mapTexts f)) := by
  cases handlers with
  | none => rfl
  | some handlers =>
    rw [ExceptionHandler.mapTextsSection, ExceptionHandler.mapTextsAll_eq, Option.map_some]

end

attribute [simp] Statement.mapTexts Alternative.mapTexts Block.mapTexts ExceptionHandler.mapTexts
  Declaration.mapTexts TriggerBody.mapTexts Trigger.mapTexts Routine.mapTexts

instance : Textual RoutineOptions := ⟨RoutineOptions.mapTexts⟩

instance : Textual ExplainOptions := ⟨ExplainOptions.mapTexts⟩

instance : Textual Statement := ⟨Statement.mapTexts⟩

instance : Textual Alternative := ⟨Alternative.mapTexts⟩

instance : Textual Block := ⟨Block.mapTexts⟩

instance : Textual ExceptionHandler := ⟨ExceptionHandler.mapTexts⟩

instance : Textual Declaration := ⟨Declaration.mapTexts⟩

instance : Textual TriggerBody := ⟨TriggerBody.mapTexts⟩

instance : Textual Trigger := ⟨Trigger.mapTexts⟩

instance : Textual Routine := ⟨Routine.mapTexts⟩

/-! ## What texts do not change -/

section

variable (f : String → String)

mutual

theorem Expr.tags_mapTexts (e : Expr) :
    (e.mapTexts f).walk.map Node.tag = e.walk.map Node.tag := by
  cases e with
  | literal value => cases value <;> rfl
  | column ref => rfl
  | star table => rfl
  | binary node => simp [Expr.walk, Node.tag, Expr.tag, Binary.tags_mapTexts node]
  | unary op operand => simp [Expr.walk, Node.tag, Expr.tag, Expr.tags_mapTexts operand]
  | call call => simp [Expr.walk, Node.tag, Expr.tag, Call.tags_mapTexts call]
  | window call spec =>
    simp [Expr.walk, Node.tag, Expr.tag, Call.tags_mapTexts call, Window.tags_mapTexts spec]
  | aliased expr asName => simp [Expr.walk, Node.tag, Expr.tag, Expr.tags_mapTexts expr]
  | among expr negated values =>
    simp [Expr.walk, Node.tag, Expr.tag, Expr.tags_mapTexts expr, Candidates.tags_mapTexts values]
  | hasRows negated query => simp [Expr.walk, Node.tag, Expr.tag, Query.tags_mapTexts query]
  | subquery query => simp [Expr.walk, Node.tag, Expr.tag, Query.tags_mapTexts query]
  | choice input branches otherwise =>
    simp [Expr.walk, Node.tag, Expr.tag, Expr.tags_mapTextsOption input,
      Branch.tags_mapTextsAll branches, Expr.tags_mapTextsOption otherwise]
  | between expr negated low high =>
    simp [Expr.walk, Node.tag, Expr.tag, Expr.tags_mapTexts expr, Expr.tags_mapTexts low,
      Expr.tags_mapTexts high]
  | cast expr type => simp [Expr.walk, Node.tag, Expr.tag, Expr.tags_mapTexts expr]

theorem Expr.tags_mapTextsAll (es : List Expr) :
    (Expr.walkAll (es.map (Expr.mapTexts f))).map Node.tag = (Expr.walkAll es).map Node.tag := by
  cases es with
  | nil => rfl
  | cons e es => simp [Expr.walkAll, Expr.tags_mapTexts e, Expr.tags_mapTextsAll es]

theorem Expr.tags_mapTextsOption (e : Option Expr) :
    (Expr.walkOption (e.map (Expr.mapTexts f))).map Node.tag =
      (Expr.walkOption e).map Node.tag := by
  cases e with
  | none => rfl
  | some e => simp [Expr.walkOption, Expr.tags_mapTexts e]

theorem Binary.tags_mapTexts (node : Binary) :
    (node.mapTexts f).walk.map Node.tag = node.walk.map Node.tag := by
  obtain ⟨left, op, right⟩ := node
  simp [Binary.walk, Expr.tags_mapTexts left, Expr.tags_mapTexts right]

theorem Call.tags_mapTexts (call : Call) :
    (call.mapTexts f).walk.map Node.tag = call.walk.map Node.tag := by
  obtain ⟨name, args, distinct⟩ := call
  simp [Call.walk, Expr.tags_mapTextsAll args]

theorem Candidates.tags_mapTexts (values : Candidates) :
    (values.mapTexts f).walk.map Node.tag = values.walk.map Node.tag := by
  cases values with
  | list values => simp [Candidates.walk, Expr.tags_mapTextsAll values]
  | query query => simp [Candidates.walk, Query.tags_mapTexts query]

theorem Branch.tags_mapTextsAll (branches : List Branch) :
    (Branch.walkAll (branches.map (Branch.mapTexts f))).map Node.tag =
      (Branch.walkAll branches).map Node.tag := by
  cases branches with
  | nil => rfl
  | cons branch branches =>
    obtain ⟨condition, result⟩ := branch
    simp [Branch.walkAll, Expr.tags_mapTexts condition, Expr.tags_mapTexts result,
      Branch.tags_mapTextsAll branches]

theorem SortItem.tags_mapTextsAll (items : List SortItem) :
    (SortItem.walkAll (items.map (SortItem.mapTexts f))).map Node.tag =
      (SortItem.walkAll items).map Node.tag := by
  cases items with
  | nil => rfl
  | cons item items =>
    obtain ⟨expr, direction, nulls⟩ := item
    simp [SortItem.walkAll, Expr.tags_mapTexts expr, SortItem.tags_mapTextsAll items]

theorem FrameBound.tags_mapTexts (bound : FrameBound) :
    (bound.mapTexts f).walk.map Node.tag = bound.walk.map Node.tag := by
  cases bound with
  | unbounded direction => rfl
  | currentRow => rfl
  | offset count direction => simp [FrameBound.walk, Expr.tags_mapTexts count]

theorem WindowFrame.tags_mapTextsOption (frame : Option WindowFrame) :
    (WindowFrame.walkOption (frame.map (WindowFrame.mapTexts f))).map Node.tag =
      (WindowFrame.walkOption frame).map Node.tag := by
  match frame with
  | none => rfl
  | some ⟨unit, start, none⟩ => simp [WindowFrame.walkOption, FrameBound.tags_mapTexts start]
  | some ⟨unit, start, some stop⟩ =>
    simp [WindowFrame.walkOption, FrameBound.tags_mapTexts start, FrameBound.tags_mapTexts stop]

theorem Window.tags_mapTexts (spec : Window) :
    (spec.mapTexts f).walk.map Node.tag = spec.walk.map Node.tag := by
  obtain ⟨partitionBy, orderBy, frame⟩ := spec
  simp [Window.walk, Expr.tags_mapTextsAll partitionBy, SortItem.tags_mapTextsAll orderBy,
    WindowFrame.tags_mapTextsOption frame]

theorem TableRef.tags_mapTexts (table : TableRef) :
    (table.mapTexts f).walk.map Node.tag = table.walk.map Node.tag := by
  cases table with
  | table name asName hints => rfl
  | derived query asName => simp [TableRef.walk, Node.tag, Query.tags_mapTexts query]

theorem TableRef.tags_mapTextsAll (tables : List TableRef) :
    (TableRef.walkAll (tables.map (TableRef.mapTexts f))).map Node.tag =
      (TableRef.walkAll tables).map Node.tag := by
  cases tables with
  | nil => rfl
  | cons table tables =>
    simp [TableRef.walkAll, TableRef.tags_mapTexts table, TableRef.tags_mapTextsAll tables]

theorem Join.tags_mapTextsAll (joins : List Join) :
    (Join.walkAll (joins.map (Join.mapTexts f))).map Node.tag =
      (Join.walkAll joins).map Node.tag := by
  cases joins with
  | nil => rfl
  | cons join joins =>
    obtain ⟨kind, table, condition, sharedColumns⟩ := join
    simp [Join.walkAll, TableRef.tags_mapTexts table, Expr.tags_mapTextsOption condition,
      Join.tags_mapTextsAll joins]

theorem Top.tags_mapTextsOption (top : Option Top) :
    (Top.walkOption (top.map (Top.mapTexts f))).map Node.tag =
      (Top.walkOption top).map Node.tag := by
  match top with
  | none => rfl
  | some ⟨quantity, percent, withTies⟩ => simp [Top.walkOption, Expr.tags_mapTexts quantity]

theorem Select.tags_mapTexts (node : Select) :
    (node.mapTexts f).walk.map Node.tag = node.walk.map Node.tag := by
  obtain ⟨distinct, top, columns, into, tables, joins, condition, groupBy, having, orderBy, limit,
    offset, fetch⟩ := node
  simp [Select.walk, Top.tags_mapTextsOption top, Expr.tags_mapTextsAll columns,
    TableRef.tags_mapTextsAll tables, Join.tags_mapTextsAll joins,
    Expr.tags_mapTextsOption condition, Expr.tags_mapTextsAll groupBy,
    Expr.tags_mapTextsOption having, SortItem.tags_mapTextsAll orderBy,
    Expr.tags_mapTextsOption limit, Expr.tags_mapTextsOption offset,
    Expr.tags_mapTextsOption fetch]

theorem CommonTable.tags_mapTextsAll (tables : List CommonTable) :
    (CommonTable.walkAll (tables.map (CommonTable.mapTexts f))).map Node.tag =
      (CommonTable.walkAll tables).map Node.tag := by
  cases tables with
  | nil => rfl
  | cons table tables =>
    obtain ⟨name, columns, query⟩ := table
    simp [CommonTable.walkAll, Query.tags_mapTexts query, CommonTable.tags_mapTextsAll tables]

theorem Query.tags_mapTexts (query : Query) :
    (query.mapTexts f).walk.map Node.tag = query.walk.map Node.tag := by
  cases query with
  | select node =>
    simp [Query.walk, Node.tag, Statement.tag, Query.tag, Select.tags_mapTexts node]
  | setOperation left op all right =>
    simp [Query.walk, Node.tag, Statement.tag, Query.tag, Query.tags_mapTexts left,
      Select.tags_mapTexts right]
  | withTables recursive tables body =>
    simp [Query.walk, Node.tag, Statement.tag, Query.tag, CommonTable.tags_mapTextsAll tables,
      Query.tags_mapTexts body]

end

theorem Assignment.tags_mapTextsAll (assignments : List Assignment) :
    (Assignment.walkAll (assignments.map (Assignment.mapTexts f))).map Node.tag =
      (Assignment.walkAll assignments).map Node.tag := by
  simp [Assignment.walkAll, Assignment.mapTexts, List.flatMap_map, List.map_flatMap,
    Expr.tags_mapTexts]

theorem InsertSource.tags_mapTexts (source : InsertSource) :
    (source.mapTexts f).walk.map Node.tag = source.walk.map Node.tag := by
  cases source with
  | values rows =>
    simp [InsertSource.walk, InsertSource.mapTexts, Textual.mapTexts, List.flatMap_map, List.map_flatMap,
      Expr.tags_mapTextsAll]
  | query q => exact Query.tags_mapTexts f q
  | defaultValues => rfl

theorem ColumnDefinition.tags_mapTexts (column : ColumnDefinition) :
    (column.mapTexts f).walk.map Node.tag = column.walk.map Node.tag := by
  simp [ColumnDefinition.walk, ColumnDefinition.mapTexts, Expr.tags_mapTextsOption]

theorem TableConstraint.tags_mapTexts (constraint : TableConstraint) :
    (constraint.mapTexts f).walk.map Node.tag = constraint.walk.map Node.tag := by
  obtain ⟨name, kind⟩ := constraint
  cases kind with
  | check condition => exact Expr.tags_mapTexts f condition
  | _ => rfl

theorem AlterAction.tags_mapTexts (action : AlterAction) :
    (action.mapTexts f).walk.map Node.tag = action.walk.map Node.tag := by
  cases action with
  | addColumn column => exact column.tags_mapTexts f
  | modifyColumn column => exact column.tags_mapTexts f
  | changeColumn oldName column => exact column.tags_mapTexts f
  | addConstraint constraint => exact constraint.tags_mapTexts f
  | _ => rfl

theorem ForRange.tags_mapTexts (range : ForRange) :
    (range.mapTexts f).walk.map Node.tag = range.walk.map Node.tag := by
  cases range with
  | numeric start stop step =>
    simp [ForRange.walk, ForRange.mapTexts, Expr.tags_mapTexts, Expr.tags_mapTextsOption]
  | query q => exact Query.tags_mapTexts f q

theorem FetchDirection.tags_mapTexts (direction : FetchDirection) :
    (direction.mapTexts f).walk.map Node.tag = direction.walk.map Node.tag := by
  cases direction with
  | absolute row => exact Expr.tags_mapTexts f row
  | relative count => exact Expr.tags_mapTexts f count
  | _ => rfl

theorem Parameter.tags_mapTextsAll (parameters : List Parameter) :
    (Parameter.walkAll (parameters.map (Parameter.mapTexts f))).map Node.tag =
      (Parameter.walkAll parameters).map Node.tag := by
  simp [Parameter.walkAll, Parameter.mapTexts, List.flatMap_map, List.map_flatMap,
    Expr.tags_mapTextsOption]

mutual

theorem Statement.tags_mapTexts (s : Statement) : (s.mapTexts f).tags = s.tags := by
  unfold Statement.tags
  cases s with
  | query q => simp [Statement.walk, Statement.heading, Query.tags_mapTexts]
  | insert node =>
    simp [Statement.walk, Statement.heading, Node.tag, Statement.tag, Insert.mapTexts,
      InsertSource.tags_mapTexts]
  | update node =>
    simp [Statement.walk, Statement.heading, Node.tag, Statement.tag, Update.mapTexts,
      TableRef.tags_mapTexts, Assignment.tags_mapTextsAll, TableRef.tags_mapTextsAll, Expr.tags_mapTextsOption]
  | delete node =>
    simp [Statement.walk, Statement.heading, Node.tag, Statement.tag, Delete.mapTexts,
      TableRef.tags_mapTexts, Expr.tags_mapTextsOption]
  | createTable node =>
    simp [Statement.walk, Statement.heading, Node.tag, Statement.tag, CreateTable.mapTexts,
      List.flatMap_map, List.map_flatMap, ColumnDefinition.tags_mapTexts, TableConstraint.tags_mapTexts]
  | createIndex node =>
    simp [Statement.walk, Statement.heading, Node.tag, Statement.tag, CreateIndex.mapTexts,
      SortItem.tags_mapTextsAll, Expr.tags_mapTextsOption]
  | createView node =>
    simp [Statement.walk, Statement.heading, Node.tag, Statement.tag, CreateView.mapTexts,
      Query.tags_mapTexts]
  | createProcedure node =>
    obtain ⟨orReplace, name, parameters, options, body⟩ := node
    simp [Statement.walk, Statement.heading, Node.tag, Statement.tag, Parameter.tags_mapTextsAll,
      Block.tags_mapTexts body]
  | createFunction node returns =>
    obtain ⟨orReplace, name, parameters, options, body⟩ := node
    simp [Statement.walk, Statement.heading, Node.tag, Statement.tag, Parameter.tags_mapTextsAll,
      Block.tags_mapTexts body]
  | createTrigger node =>
    obtain ⟨orReplace, name, timing, events, table, forEachRow, condition, body⟩ := node
    simp [Statement.walk, Statement.heading, Node.tag, Statement.tag, Expr.tags_mapTextsOption,
      TriggerBody.tags_mapTexts body]
  | alterTable name action =>
    simp [Statement.walk, Statement.heading, Node.tag, Statement.tag, AlterAction.tags_mapTexts]
  | declare declaration =>
    simp [Statement.walk, Statement.heading, Node.tag, Statement.tag,
      Declaration.tag_mapTexts, Declaration.tags_mapTexts declaration]
  | block node =>
    simp [Statement.walk, Statement.heading, Node.tag, Statement.tag, Block.tags_mapTexts node]
  | conditional condition body elseIfs otherwise =>
    simp [Statement.walk, Statement.heading, Node.tag, Statement.tag, Expr.tags_mapTexts,
      Statement.tags_mapTextsAll body, Alternative.tags_mapTextsAll elseIfs,
      Statement.tags_mapTextsOption otherwise]
  | whileLoop label condition body =>
    simp [Statement.walk, Statement.heading, Node.tag, Statement.tag, Expr.tags_mapTexts,
      Statement.tags_mapTextsAll body]
  | loop label body =>
    simp [Statement.walk, Statement.heading, Node.tag, Statement.tag,
      Statement.tags_mapTextsAll body]
  | forLoop label counter reverse range body =>
    simp [Statement.walk, Statement.heading, Node.tag, Statement.tag, ForRange.tags_mapTexts,
      Statement.tags_mapTextsAll body]
  | repeatLoop label body condition =>
    simp [Statement.walk, Statement.heading, Node.tag, Statement.tag, Expr.tags_mapTexts,
      Statement.tags_mapTextsAll body]
  | choice input branches otherwise =>
    simp [Statement.walk, Statement.heading, Node.tag, Statement.tag, Expr.tags_mapTextsOption,
      Alternative.tags_mapTextsAll branches, Statement.tags_mapTextsOption otherwise]
  | returnValue value =>
    simp [Statement.walk, Statement.heading, Node.tag, Statement.tag, Expr.tags_mapTextsOption]
  | assign assignments =>
    simp [Statement.walk, Statement.heading, Node.tag, Statement.tag, Assignment.tags_mapTextsAll]
  | openCursor cursor query =>
    cases query <;>
      simp [Statement.walk, Statement.heading, Node.tag, Statement.tag, Query.tags_mapTexts]
  | fetch node =>
    obtain ⟨direction, cursor, into⟩ := node
    cases direction <;>
      simp [Statement.walk, Statement.heading, Node.tag, Statement.tag, Fetch.mapTexts,
        FetchDirection.tags_mapTexts]
  | leave label condition =>
    simp [Statement.walk, Statement.heading, Node.tag, Statement.tag, Expr.tags_mapTextsOption]
  | iterate label condition =>
    simp [Statement.walk, Statement.heading, Node.tag, Statement.tag, Expr.tags_mapTextsOption]
  | tryCatch body handler =>
    simp [Statement.walk, Statement.heading, Node.tag, Statement.tag,
      Statement.tags_mapTextsAll body, Statement.tags_mapTextsAll handler]
  | raise node =>
    simp [Statement.walk, Statement.heading, Node.tag, Statement.tag, Raise.mapTexts, Expr.tags_mapTextsOption,
      Expr.tags_mapTextsAll, Assignment.tags_mapTextsAll]
  | throwing error =>
    cases error <;>
      simp [Statement.walk, Statement.heading, Node.tag, Statement.tag, Throw.mapTexts,
        Expr.tags_mapTexts]
  | signal node =>
    simp [Statement.walk, Statement.heading, Node.tag, Statement.tag, Signal.mapTexts, Assignment.tags_mapTextsAll]
  | call name args =>
    simp [Statement.walk, Statement.heading, Node.tag, Statement.tag, Expr.tags_mapTextsAll]
  | explain options statement =>
    have hstatement := Statement.tags_mapTexts statement
    unfold Statement.tags at hstatement
    simp [Statement.walk, Statement.heading, Node.tag, Statement.tag, hstatement]
  | _ => rfl

theorem Statement.tags_mapTextsAll (body : List Statement) :
    (Statement.walkAll (body.map (Statement.mapTexts f))).map Node.tag =
      (Statement.walkAll body).map Node.tag := by
  cases body with
  | nil => rfl
  | cons s body =>
    have hstatement := Statement.tags_mapTexts s
    unfold Statement.tags at hstatement
    simp [Statement.walkAll, hstatement, Statement.tags_mapTextsAll body]

theorem Statement.tags_mapTextsOption (body : Option (List Statement)) :
    (Statement.walkOption (body.map (List.map (Statement.mapTexts f)))).map Node.tag =
      (Statement.walkOption body).map Node.tag := by
  cases body with
  | none => rfl
  | some body => simp [Statement.walkOption, Statement.tags_mapTextsAll body]

theorem Alternative.tags_mapTextsAll (alternatives : List Alternative) :
    (Alternative.walkAll (alternatives.map (Alternative.mapTexts f))).map Node.tag =
      (Alternative.walkAll alternatives).map Node.tag := by
  cases alternatives with
  | nil => rfl
  | cons alternative alternatives =>
    obtain ⟨condition, body⟩ := alternative
    simp [Alternative.walkAll, Expr.tags_mapTexts, Statement.tags_mapTextsAll body,
      Alternative.tags_mapTextsAll alternatives]

theorem Block.tags_mapTexts (block : Block) :
    (block.mapTexts f).walk.map Node.tag = block.walk.map Node.tag := by
  obtain ⟨label, declarations, body, handlers, endLabel⟩ := block
  simp [Block.walk, Declaration.tags_mapTextsAll declarations, Statement.tags_mapTextsAll body,
    ExceptionHandler.tags_mapTextsSection handlers]

theorem ExceptionHandler.tags_mapTextsSection (handlers : Option (List ExceptionHandler)) :
    (ExceptionHandler.walkSection
      (handlers.map (List.map (ExceptionHandler.mapTexts f)))).map Node.tag =
      (ExceptionHandler.walkSection handlers).map Node.tag := by
  cases handlers with
  | none => rfl
  | some handlers =>
    simp [ExceptionHandler.walkSection, ExceptionHandler.tags_mapTextsAll handlers]

theorem ExceptionHandler.tags_mapTextsAll (handlers : List ExceptionHandler) :
    (ExceptionHandler.walkAll (handlers.map (ExceptionHandler.mapTexts f))).map Node.tag =
      (ExceptionHandler.walkAll handlers).map Node.tag := by
  cases handlers with
  | nil => rfl
  | cons handler handlers =>
    obtain ⟨conditions, body⟩ := handler
    simp [ExceptionHandler.walkAll, Statement.tags_mapTextsAll body,
      ExceptionHandler.tags_mapTextsAll handlers]

theorem Declaration.tags_mapTexts (declaration : Declaration) :
    (declaration.mapTexts f).walk.map Node.tag = declaration.walk.map Node.tag := by
  cases declaration with
  | scalars node => simp [Declaration.walk, VariableDeclaration.mapTexts, Expr.tags_mapTextsOption]
  | cursor node => simp [Declaration.walk, CursorDeclaration.mapTexts, Query.tags_mapTexts]
  | handler action conditions body =>
    have hbody := Statement.tags_mapTexts body
    unfold Statement.tags at hbody
    simp [Declaration.walk, hbody]

theorem Declaration.tags_mapTextsAll (declarations : List Declaration) :
    (Declaration.walkAll (declarations.map (Declaration.mapTexts f))).map Node.tag =
      (Declaration.walkAll declarations).map Node.tag := by
  cases declarations with
  | nil => rfl
  | cons declaration declarations =>
    simp [Declaration.walkAll, Declaration.tags_mapTexts declaration,
      Declaration.tags_mapTextsAll declarations]

theorem TriggerBody.tags_mapTexts (body : TriggerBody) :
    (body.mapTexts f).walk.map Node.tag = body.walk.map Node.tag := by
  cases body with
  | block node => simp [TriggerBody.walk, Block.tags_mapTexts node]
  | statement s =>
    have hstatement := Statement.tags_mapTexts s
    unfold Statement.tags at hstatement
    simp [TriggerBody.walk, hstatement]
  | call name args => simp [TriggerBody.walk, Expr.tags_mapTextsAll]

theorem Declaration.tag_mapTexts (declaration : Declaration) :
    (declaration.mapTexts f).tag = declaration.tag := by
  cases declaration <;> simp [Declaration.tag]

end

end

end SqlFrontend
