import SqlFrontend.Summary.Statement

/-!
# Walks over statements

A walk lists the statements, expressions and tables in a statement, each before the ones it contains,
and those in the order in which they are read. A query inside an expression or a table counts as a
statement.

* `Statement.walk`, `Query.walk`, `Expr.walk`, `TableRef.walk`: the walk from a node.
* `Statement.tags`: the kinds of the nodes on the walk from a statement.

Section 4.4, *Traversal*, of the polysql specification.
-/

namespace SqlFrontend

/-- What a walk comes by. -/
inductive Node where
  | statement (s : Statement)
  | expr (e : Expr)
  | table (t : TableRef)

/-- The kind of a node, as a word. -/
def Node.tag : Node → String
  | .statement s => s.tag
  | .expr e => e.tag
  | .table _ => "TableReference"

/-! ## Expressions and queries -/

mutual

/-- The walk from an expression. -/
def Expr.walk (e : Expr) : List Node :=
  .expr e :: match e with
    | .literal _ | .column _ | .star _ => []
    | .binary node => node.walk
    | .unary _ operand => operand.walk
    | .call call => call.walk
    | .window call spec => call.walk ++ spec.walk
    | .aliased expr _ => expr.walk
    | .among expr _ values => expr.walk ++ values.walk
    | .hasRows _ query => query.walk
    | .subquery query => query.walk
    | .choice input branches otherwise =>
      Expr.walkOption input ++ Branch.walkAll branches ++ Expr.walkOption otherwise
    | .between expr _ low high => expr.walk ++ low.walk ++ high.walk
    | .cast expr _ => expr.walk

/-- The walk from each expression in turn. -/
def Expr.walkAll : List Expr → List Node
  | [] => []
  | expr :: rest => expr.walk ++ Expr.walkAll rest

/-- The walk from an expression, if there is one. -/
def Expr.walkOption : Option Expr → List Node
  | none => []
  | some expr => expr.walk

/-- The walk over the operands. -/
def Binary.walk : Binary → List Node
  | ⟨left, _, right⟩ => left.walk ++ right.walk

/-- The walk over the arguments. -/
def Call.walk : Call → List Node
  | ⟨_, args, _⟩ => Expr.walkAll args

/-- The walk over the candidates. -/
def Candidates.walk : Candidates → List Node
  | .list values => Expr.walkAll values
  | .query query => query.walk

/-- The walk over the branches. -/
def Branch.walkAll : List Branch → List Node
  | [] => []
  | ⟨condition, result⟩ :: rest => condition.walk ++ result.walk ++ Branch.walkAll rest

/-- The walk over the items of an order. -/
def SortItem.walkAll : List SortItem → List Node
  | [] => []
  | ⟨expr, _, _⟩ :: rest => expr.walk ++ SortItem.walkAll rest

/-- The walk over the count of a frame's end. -/
def FrameBound.walk : FrameBound → List Node
  | .offset count _ => count.walk
  | .unbounded _ | .currentRow => []

/-- The walk over a frame, if there is one. -/
def WindowFrame.walkOption : Option WindowFrame → List Node
  | none => []
  | some ⟨_, start, some stop⟩ => start.walk ++ stop.walk
  | some ⟨_, start, none⟩ => start.walk

/-- The walk over a window. -/
def Window.walk : Window → List Node
  | ⟨partitionBy, orderBy, frame⟩ =>
    Expr.walkAll partitionBy ++ SortItem.walkAll orderBy ++ WindowFrame.walkOption frame

/-- The walk from a table. -/
def TableRef.walk (t : TableRef) : List Node :=
  .table t :: match t with
    | .table .. => []
    | .derived query _ => query.walk

/-- The walk from each table in turn. -/
def TableRef.walkAll : List TableRef → List Node
  | [] => []
  | table :: rest => table.walk ++ TableRef.walkAll rest

/-- The walk over the joins. -/
def Join.walkAll : List Join → List Node
  | [] => []
  | ⟨_, table, condition, _⟩ :: rest =>
    table.walk ++ Expr.walkOption condition ++ Join.walkAll rest

/-- The walk over a limit before the columns, if there is one. -/
def Top.walkOption : Option Top → List Node
  | none => []
  | some ⟨quantity, _, _⟩ => quantity.walk

/-- The walk over the parts of a selection. -/
def Select.walk : Select → List Node
  | ⟨_, top, columns, _, tables, joins, condition, groupBy, having, orderBy, limit, offset, fetch⟩ =>
    Top.walkOption top ++ Expr.walkAll columns ++ TableRef.walkAll tables ++ Join.walkAll joins ++
      Expr.walkOption condition ++ Expr.walkAll groupBy ++ Expr.walkOption having ++
      SortItem.walkAll orderBy ++ Expr.walkOption limit ++ Expr.walkOption offset ++
      Expr.walkOption fetch

/-- The walk over the named queries. -/
def CommonTable.walkAll : List CommonTable → List Node
  | [] => []
  | ⟨_, _, query⟩ :: rest => query.walk ++ CommonTable.walkAll rest

/-- The walk from a query. The operands of a set operator are queries themselves. -/
def Query.walk (q : Query) : List Node :=
  .statement (.query q) :: match q with
    | .select node => node.walk
    | .setOperation left _ _ right =>
      left.walk ++ .statement (.query (.select right)) :: right.walk
    | .withTables _ tables body => CommonTable.walkAll tables ++ body.walk

end

/-! ## Parts without statements -/

/-- The walk over the values of assignments. -/
def Assignment.walkAll (assignments : List Assignment) : List Node :=
  assignments.flatMap fun a => a.value.walk

/-- The walk over the source of rows. -/
def InsertSource.walk : InsertSource → List Node
  | .values rows => rows.flatMap Expr.walkAll
  | .query q => q.walk
  | .defaultValues => []

/-- The walk over the expressions of a column. -/
def ColumnDefinition.walk (c : ColumnDefinition) : List Node :=
  Expr.walkOption c.initial ++ Expr.walkOption c.check

/-- The walk over the expression of a constraint. -/
def TableConstraint.walk (c : TableConstraint) : List Node :=
  match c.kind with
  | .check condition => condition.walk
  | _ => []

/-- The walk over the expressions of a change. -/
def AlterAction.walk : AlterAction → List Node
  | .addColumn column | .modifyColumn column | .changeColumn _ column => column.walk
  | .addConstraint constraint => constraint.walk
  | _ => []

/-- The walk over a range. -/
def ForRange.walk : ForRange → List Node
  | .numeric start stop step => start.walk ++ stop.walk ++ Expr.walkOption step
  | .query q => q.walk

/-- The walk over a direction. -/
def FetchDirection.walk : FetchDirection → List Node
  | .absolute row => row.walk
  | .relative count => count.walk
  | _ => []

/-- The walk over the defaults of parameters. -/
def Parameter.walkAll (parameters : List Parameter) : List Node :=
  parameters.flatMap fun p => Expr.walkOption p.initial

/-! ## Statements -/

/-- The statement itself, unless it is a query, whose walk begins with it. -/
def Statement.heading : Statement → List Node
  | .query _ => []
  | s => [.statement s]

mutual

/-- The walk from a statement. -/
def Statement.walk (s : Statement) : List Node :=
  s.heading ++ match s with
  | .query q => q.walk
  | .insert node => node.source.walk
  | .update node =>
    node.table.walk ++ Assignment.walkAll node.assignments ++ TableRef.walkAll node.tables ++
      Expr.walkOption node.condition
  | .delete node => node.table.walk ++ Expr.walkOption node.condition
  | .createTable node =>
    node.columns.flatMap ColumnDefinition.walk ++ node.constraints.flatMap TableConstraint.walk
  | .createIndex node => SortItem.walkAll node.columns ++ Expr.walkOption node.condition
  | .createView node => node.query.walk
  | .createProcedure ⟨_, _, parameters, _, body⟩ => Parameter.walkAll parameters ++ body.walk
  | .createFunction ⟨_, _, parameters, _, body⟩ _ => Parameter.walkAll parameters ++ body.walk
  | .createTrigger ⟨_, _, _, _, _, _, condition, body⟩ =>
    Expr.walkOption condition ++ body.walk
  | .alterTable _ action => action.walk
  | .declare declaration => declaration.walk
  | .block node => node.walk
  | .conditional condition body elseIfs otherwise =>
    condition.walk ++ Statement.walkAll body ++ Alternative.walkAll elseIfs ++
      Statement.walkOption otherwise
  | .whileLoop _ condition body => condition.walk ++ Statement.walkAll body
  | .loop _ body => Statement.walkAll body
  | .forLoop _ _ _ range body => range.walk ++ Statement.walkAll body
  | .repeatLoop _ body condition => Statement.walkAll body ++ condition.walk
  | .choice input branches otherwise =>
    Expr.walkOption input ++ Alternative.walkAll branches ++ Statement.walkOption otherwise
  | .returnValue value => Expr.walkOption value
  | .assign assignments => Assignment.walkAll assignments
  | .openCursor _ query => (query.map Query.walk).getD []
  | .fetch node => (node.direction.map FetchDirection.walk).getD []
  | .leave _ condition | .iterate _ condition => Expr.walkOption condition
  | .tryCatch body handler => Statement.walkAll body ++ Statement.walkAll handler
  | .raise node =>
    Expr.walkOption node.message ++ Expr.walkAll node.arguments ++ Assignment.walkAll node.options
  | .throwing (some node) => node.errorNumber.walk ++ node.message.walk ++ node.state.walk
  | .signal node => Assignment.walkAll node.properties
  | .call _ args => Expr.walkAll args
  | .explain _ statement => statement.walk
  | .drop _ | .setOption .. | .closeCursor _ | .deallocate _ | .throwing none
  | .beginTransaction _ | .commit .. | .rollback _ | .savepoint _ | .releaseSavepoint _ => []

/-- The walk from each statement in turn. -/
def Statement.walkAll : List Statement → List Node
  | [] => []
  | statement :: rest => statement.walk ++ Statement.walkAll rest

/-- The walk from the statements that are run if no condition holds. -/
def Statement.walkOption : Option (List Statement) → List Node
  | none => []
  | some body => Statement.walkAll body

/-- The walk over statements under conditions. -/
def Alternative.walkAll : List Alternative → List Node
  | [] => []
  | ⟨condition, body⟩ :: rest =>
    condition.walk ++ Statement.walkAll body ++ Alternative.walkAll rest

/-- The walk over a block. -/
def Block.walk : Block → List Node
  | ⟨_, declarations, body, handlers, _⟩ =>
    Declaration.walkAll declarations ++ Statement.walkAll body ++
      ExceptionHandler.walkSection handlers

/-- The walk over an exception section, if there is one. -/
def ExceptionHandler.walkSection : Option (List ExceptionHandler) → List Node
  | none => []
  | some handlers => ExceptionHandler.walkAll handlers

/-- The walk over the handlers. -/
def ExceptionHandler.walkAll : List ExceptionHandler → List Node
  | [] => []
  | ⟨_, body⟩ :: rest => Statement.walkAll body ++ ExceptionHandler.walkAll rest

/-- The walk over a declaration. -/
def Declaration.walk : Declaration → List Node
  | .scalars node => Expr.walkOption node.initial
  | .cursor node => node.query.walk
  | .handler _ _ body => body.walk

/-- The walk over the declarations. -/
def Declaration.walkAll : List Declaration → List Node
  | [] => []
  | declaration :: rest => declaration.walk ++ Declaration.walkAll rest

/-- The walk over what a trigger does. -/
def TriggerBody.walk : TriggerBody → List Node
  | .block node => node.walk
  | .statement s => s.walk
  | .call _ args => Expr.walkAll args

end

/-- The kinds of the nodes in a statement, in the order of the walk. -/
def Statement.tags (s : Statement) : List String := s.walk.map Node.tag

end SqlFrontend
