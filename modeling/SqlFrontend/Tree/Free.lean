import SqlFrontend.Tree.Statement

/-!
# Free trees

A tree that is read has a query wherever the grammar asks for one, and parts that are written together come
together. A tree that is put together in another way need not: wherever a statement may stand, any statement
may, a thrown error may lack its message, and a table may have a name, hints and a query at once. Free trees
are all of these. They are of one type, which is indexed by what they are trees of.

* `Free.Tree`: the trees of a kind. `Free.Statement`, `Free.Expr`, `Free.TableRef`: those that are walked by.
* `Free.walk`: the walk from a tree: over its parts from left to right, each statement, expression and
  table before its own parts.
* `Free.tags`: the kinds of the nodes on the walk from a statement.
* `Statement.free`, `Expr.free`, `TableRef.free`: the free tree of one that is read.

Section 4.4, *Traversal*, of the polysql specification.
-/

namespace SqlFrontend.Free

/-! ## Trees -/

/-- What a tree is a tree of. -/
inductive Kind where
  | statement | expr | table
  | select | top | join | sortItem | commonTable
  | call | candidates | branch | window | frame | frameBound
  | assignment | insertSource
  | column | constraint | constraintKind | alterAction
  | parameter | triggerBody
  | block | declaration | handler | alternative | range | direction
  | list (kind : Kind)
  | option (kind : Kind)

/-- The kinds of ends of a window frame. -/
inductive BoundKind where
  | unbounded | currentRow | offset
  deriving DecidableEq, Repr

/-- The trees of a kind. -/
inductive Tree : Kind → Type where
  -- sequences, and parts that may be absent
  | nil {k : Kind} : Tree (.list k)
  | cons {k : Kind} (head : Tree k) (tail : Tree (.list k)) : Tree (.list k)
  | none {k : Kind} : Tree (.option k)
  | some {k : Kind} (value : Tree k) : Tree (.option k)
  -- expressions
  | literal (value : Literal) : Tree .expr
  | column (ref : ColumnRef) : Tree .expr
  | star (table : Option String) : Tree .expr
  | binary (left : Tree .expr) (op : BinaryOperator) (right : Tree .expr) : Tree .expr
  | unary (op : UnaryOperator) (operand : Tree .expr) : Tree .expr
  | function (call : Tree .call) : Tree .expr
  | windowed (call : Tree .call) (spec : Tree .window) : Tree .expr
  | aliased (expr : Tree .expr) (asName : String) : Tree .expr
  | among (expr : Tree .expr) (negated : Bool) (values : Tree .candidates) : Tree .expr
  | hasRows (negated : Bool) (query : Tree .statement) : Tree .expr
  | subquery (query : Tree .statement) : Tree .expr
  | choice (input : Tree (.option .expr)) (branches : Tree (.list .branch))
      (otherwise : Tree (.option .expr)) : Tree .expr
  | between (expr : Tree .expr) (negated : Bool) (low high : Tree .expr) : Tree .expr
  | cast (expr : Tree .expr) (type : DataType) : Tree .expr
  -- parts of expressions
  | call (name : String) (args : Tree (.list .expr)) (distinct : Bool) : Tree .call
  | candidateList (values : Tree (.list .expr)) : Tree .candidates
  | candidateQuery (query : Tree .statement) : Tree .candidates
  | branch (condition result : Tree .expr) : Tree .branch
  | window (partitionBy : Tree (.list .expr)) (orderBy : Tree (.list .sortItem))
      (frame : Tree (.option .frame)) : Tree .window
  | frame (unit : FrameUnit) (start : Tree .frameBound) (stop : Tree (.option .frameBound)) : Tree .frame
  | frameBound (bound : BoundKind) (direction : Option FrameDirection) (offset : Tree (.option .expr)) :
      Tree .frameBound
  -- tables and queries
  | table (schema : Option String) (name : String) (asName : Option String)
      (subquery : Tree (.option .statement)) (hints : List String) : Tree .table
  | join (kind : JoinKind) (table : Tree .table) (condition : Tree (.option .expr))
      (sharedColumns : List String) : Tree .join
  | sortItem (expr : Tree .expr) (direction : SortDirection) (nulls : Option NullOrder) : Tree .sortItem
  | top (quantity : Tree .expr) (percent withTies : Bool) : Tree .top
  | select (distinct : Bool) (top : Tree (.option .top)) (columns : Tree (.list .expr)) (into : List String)
      (tables : Tree (.list .table)) (joins : Tree (.list .join)) (condition : Tree (.option .expr))
      (groupBy : Tree (.list .expr)) (having : Tree (.option .expr)) (orderBy : Tree (.list .sortItem))
      (limit offset fetch : Tree (.option .expr)) : Tree .select
  | commonTable (name : String) (columns : List String) (query : Tree .statement) : Tree .commonTable
  -- parts of the statements that change rows or define tables
  | assignment (target : String) (value : Tree .expr) : Tree .assignment
  | sourceRows (rows : Tree (.list (.list .expr))) : Tree .insertSource
  | sourceQuery (query : Tree .statement) : Tree .insertSource
  | sourceDefaults : Tree .insertSource
  | columnDefinition (name : String) (type : DataType) (nullable : Option Bool) (primaryKey unique : Bool)
      (autoNumber : Option AutoNumber) (initial : Tree (.option .expr)) (foreignKey : Option ForeignKey)
      (check : Tree (.option .expr)) (collation constraintName : Option String) : Tree .column
  | constraint (name : Option String) (kind : Tree .constraintKind) : Tree .constraint
  | primaryKey (columns : List String) : Tree .constraintKind
  | unique (columns : List String) : Tree .constraintKind
  | foreignKey (columns : List String) (target : ForeignKey) : Tree .constraintKind
  | check (condition : Tree .expr) : Tree .constraintKind
  | index (columns : List String) : Tree .constraintKind
  | addColumn (column : Tree .column) : Tree .alterAction
  | addConstraint (constraint : Tree .constraint) : Tree .alterAction
  | dropColumn (name : String) (ifExists : Bool) : Tree .alterAction
  | dropConstraint (name : String) : Tree .alterAction
  | modifyColumn (column : Tree .column) : Tree .alterAction
  | changeColumn (oldName : String) (column : Tree .column) : Tree .alterAction
  | alterColumnType (name : String) (type : DataType) : Tree .alterAction
  | renameTable (name : ObjectName) : Tree .alterAction
  | renameColumn (oldName newName : String) : Tree .alterAction
  -- parts of routines and of the statements that hold others
  | parameter (mode : Option ParameterMode) (variadic : Bool) (name : Option String) (type : DataType)
      (initial : Tree (.option .expr)) : Tree .parameter
  | triggerBlock (block : Tree .block) : Tree .triggerBody
  | triggerStatement (statement : Tree .statement) : Tree .triggerBody
  | triggerCall (name : String) (args : Tree (.list .expr)) : Tree .triggerBody
  | block (label : Option String) (declarations : Tree (.list .declaration)) (body : Tree (.list .statement))
      (handlers : Tree (.option (.list .handler))) (endLabel : Option String) : Tree .block
  | handler (conditions : List String) (body : Tree (.list .statement)) : Tree .handler
  | scalars (names : List String) (type : DataType) (initial : Tree (.option .expr))
      (constant notNull : Bool) : Tree .declaration
  | cursor (name : String) (options : List String) (query : Tree .statement) : Tree .declaration
  | conditionHandler (action : HandlerAction) (conditions : List HandlerCondition)
      (body : Tree .statement) : Tree .declaration
  | alternative (condition : Tree .expr) (body : Tree (.list .statement)) : Tree .alternative
  | numericRange (start stop : Tree .expr) (step : Tree (.option .expr)) : Tree .range
  | queryRange (query : Tree .statement) : Tree .range
  | next : Tree .direction
  | prior : Tree .direction
  | first : Tree .direction
  | last : Tree .direction
  | absolute (row : Tree .expr) : Tree .direction
  | relative (count : Tree .expr) : Tree .direction
  -- statements
  | selection (node : Tree .select) : Tree .statement
  | insert (table : ObjectName) (columns : List String) (source : Tree .insertSource) : Tree .statement
  | update (table : Tree .table) (assignments : Tree (.list .assignment)) (tables : Tree (.list .table))
      (condition : Tree (.option .expr)) : Tree .statement
  | delete (table : Tree .table) (condition : Tree (.option .expr)) : Tree .statement
  | withTables (recursive : Bool) (tables : Tree (.list .commonTable)) (body : Tree .statement) :
      Tree .statement
  | setOperation (left : Tree .statement) (op : SetOperator) (all : Bool) (right : Tree .statement) :
      Tree .statement
  | createTable (ifNotExists temporary : Bool) (name : ObjectName) (columns : Tree (.list .column))
      (constraints : Tree (.list .constraint)) (options : Options) : Tree .statement
  | createIndex (unique : Bool) (clustered : Option Bool) (ifNotExists : Bool) (name : String)
      (table : ObjectName) (method : Option String) (columns : Tree (.list .sortItem))
      (included : List String) (condition : Tree (.option .expr)) : Tree .statement
  | createView (orReplace materialized ifNotExists : Bool) (name : ObjectName) (columns : List String)
      (query : Tree .statement) (withCheckOption : Bool) (options : Options) : Tree .statement
  | createProcedure (orReplace : Bool) (name : ObjectName) (parameters : Tree (.list .parameter))
      (options : RoutineOptions) (body : Tree .block) : Tree .statement
  | createFunction (orReplace : Bool) (name : ObjectName) (parameters : Tree (.list .parameter))
      (returns : DataType) (options : RoutineOptions) (body : Tree .block) : Tree .statement
  | createTrigger (orReplace : Bool) (name : ObjectName) (timing : TriggerTiming)
      (events : List TriggerEvent) (table : ObjectName) (forEachRow : Bool)
      (condition : Tree (.option .expr)) (body : Tree .triggerBody) : Tree .statement
  | drop (node : Drop) : Tree .statement
  | alterTable (name : ObjectName) (action : Tree .alterAction) : Tree .statement
  | declare (declaration : Tree .declaration) : Tree .statement
  | blockStatement (block : Tree .block) : Tree .statement
  | conditional (condition : Tree .expr) (body : Tree (.list .statement))
      (elseIfs : Tree (.list .alternative)) (otherwise : Tree (.option (.list .statement))) :
      Tree .statement
  | whileLoop (label : Option String) (condition : Tree .expr) (body : Tree (.list .statement)) :
      Tree .statement
  | loop (label : Option String) (body : Tree (.list .statement)) : Tree .statement
  | forLoop (label : Option String) (counter : String) (reverse : Bool) (range : Tree .range)
      (body : Tree (.list .statement)) : Tree .statement
  | repeatLoop (label : Option String) (body : Tree (.list .statement)) (condition : Tree .expr) :
      Tree .statement
  | caseStatement (input : Tree (.option .expr)) (branches : Tree (.list .alternative))
      (otherwise : Tree (.option (.list .statement))) : Tree .statement
  | returnValue (value : Tree (.option .expr)) : Tree .statement
  | assign (assignments : Tree (.list .assignment)) : Tree .statement
  | setOption (name value : String) : Tree .statement
  | openCursor (cursor : String) (query : Tree (.option .statement)) : Tree .statement
  | fetch (direction : Tree (.option .direction)) (cursor : String) (into : List String) : Tree .statement
  | closeCursor (cursor : String) : Tree .statement
  | deallocate (cursor : String) : Tree .statement
  | leave (label : Option String) (condition : Tree (.option .expr)) : Tree .statement
  | iterate (label : Option String) (condition : Tree (.option .expr)) : Tree .statement
  | tryCatch (body handler : Tree (.list .statement)) : Tree .statement
  | raise (isCall : Bool) (level : Option RaiseLevel) (message : Tree (.option .expr))
      (arguments : Tree (.list .expr)) (condition : Option String) (options : Tree (.list .assignment)) :
      Tree .statement
  | throwing (errorNumber message state : Tree (.option .expr)) : Tree .statement
  | signal (again : Bool) (sqlState condition : Option String) (properties : Tree (.list .assignment)) :
      Tree .statement
  | callStatement (name : ObjectName) (args : Tree (.list .expr)) : Tree .statement
  | beginTransaction (node : BeginTransaction) : Tree .statement
  | commit (work : Bool) (name : Option String) : Tree .statement
  | rollback (node : Rollback) : Tree .statement
  | savepoint (name : String) : Tree .statement
  | releaseSavepoint (name : String) : Tree .statement
  | explain (options : ExplainOptions) (statement : Tree .statement) : Tree .statement

/-- A statement of any shape. -/
abbrev Statement := Tree .statement

/-- An expression of any shape. -/
abbrev Expr := Tree .expr

/-- A table of any shape. -/
abbrev TableRef := Tree .table

/-! ## Kinds of nodes -/

/-- The kind of an expression, as a word. -/
def exprTag : Expr → String
  | .literal _ => "Literal"
  | .column _ => "ColumnReference"
  | .star _ => "StarExpression"
  | .binary .. => "BinaryExpression"
  | .unary .. => "UnaryExpression"
  | .function _ => "FunctionCall"
  | .windowed .. => "WindowFunction"
  | .aliased .. => "AliasedExpression"
  | .among .. => "InExpression"
  | .hasRows .. => "ExistsExpression"
  | .subquery _ => "SubqueryExpression"
  | .choice .. => "CaseExpression"
  | .between .. => "BetweenExpression"
  | .cast .. => "CastExpression"

/-- The kind of a declaration, as a word. -/
def declarationTag : Tree .declaration → String
  | .scalars .. => "VariableDeclaration"
  | .cursor .. => "CursorDeclaration"
  | .conditionHandler .. => "HandlerDeclaration"

/-- The kind of a statement, as a word. -/
def statementTag : Statement → String
  | .selection _ => "SelectStatement"
  | .insert .. => "InsertStatement"
  | .update .. => "UpdateStatement"
  | .delete .. => "DeleteStatement"
  | .withTables .. => "WithStatement"
  | .setOperation .. => "SetOperation"
  | .createTable .. => "CreateTableStatement"
  | .createIndex .. => "CreateIndexStatement"
  | .createView .. => "CreateViewStatement"
  | .createProcedure .. => "CreateProcedureStatement"
  | .createFunction .. => "CreateFunctionStatement"
  | .createTrigger .. => "CreateTriggerStatement"
  | .drop _ => "DropStatement"
  | .alterTable .. => "AlterTableStatement"
  | .declare declaration => declarationTag declaration
  | .blockStatement _ => "BlockStatement"
  | .conditional .. => "IfStatement"
  | .whileLoop .. => "WhileStatement"
  | .loop .. => "LoopStatement"
  | .forLoop .. => "ForStatement"
  | .repeatLoop .. => "RepeatStatement"
  | .caseStatement .. => "CaseStatement"
  | .returnValue _ => "ReturnStatement"
  | .assign _ => "AssignmentStatement"
  | .setOption .. => "SetOptionStatement"
  | .openCursor .. => "OpenStatement"
  | .fetch .. => "FetchStatement"
  | .closeCursor _ => "CloseStatement"
  | .deallocate _ => "DeallocateStatement"
  | .leave .. => "ExitStatement"
  | .iterate .. => "ContinueStatement"
  | .tryCatch .. => "TryStatement"
  | .raise .. => "RaiseStatement"
  | .throwing .. => "ThrowStatement"
  | .signal .. => "SignalStatement"
  | .callStatement .. => "CallStatement"
  | .beginTransaction _ => "BeginTransactionStatement"
  | .commit .. => "CommitStatement"
  | .rollback _ => "RollbackStatement"
  | .savepoint _ => "SavepointStatement"
  | .releaseSavepoint _ => "ReleaseSavepointStatement"
  | .explain .. => "ExplainStatement"

/-- What a walk comes by. -/
inductive Node where
  | statement (s : Statement)
  | expr (e : Expr)
  | table (t : TableRef)

/-- The kind of a node, as a word. -/
def Node.tag : Node → String
  | .statement s => statementTag s
  | .expr e => exprTag e
  | .table _ => "TableReference"

/-! ## Walks -/

/-- What a walk comes by at a tree itself. -/
def node? : {k : Kind} → Tree k → Option Node
  | .statement, s => Option.some (.statement s)
  | .expr, e => Option.some (.expr e)
  | .table, t => Option.some (.table t)
  | _, _ => Option.none

/-- The walk from a tree: it comes by the tree itself, and then by what it finds in the parts of it. -/
def walk {k : Kind} (t : Tree k) : List Node :=
  (node? t).toList ++ match t with
  | .nil | .none => []
  | .cons head tail => walk head ++ walk tail
  | .some value => walk value
  -- expressions
  | .literal _ | .column _ | .star _ => []
  | .binary left _ right => walk left ++ walk right
  | .unary _ operand => walk operand
  | .function call => walk call
  | .windowed call spec => walk call ++ walk spec
  | .aliased expr _ => walk expr
  | .among expr _ values => walk expr ++ walk values
  | .hasRows _ query => walk query
  | .subquery query => walk query
  | .choice input branches otherwise => walk input ++ walk branches ++ walk otherwise
  | .between expr _ low high => walk expr ++ walk low ++ walk high
  | .cast expr _ => walk expr
  -- parts of expressions
  | .call _ args _ => walk args
  | .candidateList values => walk values
  | .candidateQuery query => walk query
  | .branch condition result => walk condition ++ walk result
  | .window partitionBy orderBy frame => walk partitionBy ++ walk orderBy ++ walk frame
  | .frame _ start stop => walk start ++ walk stop
  | .frameBound _ _ offset => walk offset
  -- tables and queries
  | .table _ _ _ subquery _ => walk subquery
  | .join _ table condition _ => walk table ++ walk condition
  | .sortItem expr _ _ => walk expr
  | .top quantity _ _ => walk quantity
  | .select _ top columns _ tables joins condition groupBy having orderBy limit offset fetch =>
    walk top ++ walk columns ++ walk tables ++ walk joins ++ walk condition ++ walk groupBy ++
      walk having ++ walk orderBy ++ walk limit ++ walk offset ++ walk fetch
  | .commonTable _ _ query => walk query
  -- parts of the statements that change rows or define tables
  | .assignment _ value => walk value
  | .sourceRows rows => walk rows
  | .sourceQuery query => walk query
  | .sourceDefaults => []
  | .columnDefinition _ _ _ _ _ _ initial _ check _ _ => walk initial ++ walk check
  | .constraint _ kind => walk kind
  | .check condition => walk condition
  | .primaryKey _ | .unique _ | .foreignKey .. | .index _ => []
  | .addColumn column | .modifyColumn column | .changeColumn _ column => walk column
  | .addConstraint constraint => walk constraint
  | .dropColumn .. | .dropConstraint _ | .alterColumnType .. | .renameTable _ | .renameColumn .. => []
  -- parts of routines and of the statements that hold others
  | .parameter _ _ _ _ initial => walk initial
  | .triggerBlock block => walk block
  | .triggerStatement statement => walk statement
  | .triggerCall _ args => walk args
  | .block _ declarations body handlers _ => walk declarations ++ walk body ++ walk handlers
  | .handler _ body => walk body
  | .scalars _ _ initial _ _ => walk initial
  | .cursor _ _ query => walk query
  | .conditionHandler _ _ body => walk body
  | .alternative condition body => walk condition ++ walk body
  | .numericRange start stop step => walk start ++ walk stop ++ walk step
  | .queryRange query => walk query
  | .next | .prior | .first | .last => []
  | .absolute row => walk row
  | .relative count => walk count
  -- statements
  | .selection node => walk node
  | .insert _ _ source => walk source
  | .update table assignments tables condition =>
    walk table ++ walk assignments ++ walk tables ++ walk condition
  | .delete table condition => walk table ++ walk condition
  | .withTables _ tables body => walk tables ++ walk body
  | .setOperation left _ _ right => walk left ++ walk right
  | .createTable _ _ _ columns constraints _ => walk columns ++ walk constraints
  | .createIndex _ _ _ _ _ _ columns _ condition => walk columns ++ walk condition
  | .createView _ _ _ _ _ query _ _ => walk query
  | .createProcedure _ _ parameters _ body => walk parameters ++ walk body
  | .createFunction _ _ parameters _ _ body => walk parameters ++ walk body
  | .createTrigger _ _ _ _ _ _ condition body => walk condition ++ walk body
  | .alterTable _ action => walk action
  | .declare declaration => walk declaration
  | .blockStatement block => walk block
  | .conditional condition body elseIfs otherwise =>
    walk condition ++ walk body ++ walk elseIfs ++ walk otherwise
  | .whileLoop _ condition body => walk condition ++ walk body
  | .loop _ body => walk body
  | .forLoop _ _ _ range body => walk range ++ walk body
  | .repeatLoop _ body condition => walk body ++ walk condition
  | .caseStatement input branches otherwise => walk input ++ walk branches ++ walk otherwise
  | .returnValue value => walk value
  | .assign assignments => walk assignments
  | .openCursor _ query => walk query
  | .fetch direction _ _ => walk direction
  | .leave _ condition | .iterate _ condition => walk condition
  | .tryCatch body handler => walk body ++ walk handler
  | .raise _ _ message arguments _ options => walk message ++ walk arguments ++ walk options
  | .throwing errorNumber message state => walk errorNumber ++ walk message ++ walk state
  | .signal _ _ _ properties => walk properties
  | .callStatement _ args => walk args
  | .explain _ statement => walk statement
  | .drop _ | .setOption .. | .closeCursor _ | .deallocate _ | .beginTransaction _ | .commit .. | .rollback _
  | .savepoint _ | .releaseSavepoint _ => []

/-- The kinds of the nodes in a statement, in the order of the walk. -/
def tags (s : Statement) : List String := (walk s).map Node.tag

/-- The sequence of the trees in a list. -/
def sequence {k : Kind} : List (Tree k) → Tree (.list k)
  | [] => .nil
  | tree :: rest => .cons tree (sequence rest)

/-- A tree that may be absent. -/
def optional {k : Kind} : Option (Tree k) → Tree (.option k)
  | none => .none
  | some tree => .some tree

end SqlFrontend.Free

namespace SqlFrontend

/-! ## Trees that are read -/

mutual

/-- An expression as a free tree. -/
def Expr.free : Expr → Free.Expr
  | .literal value => .literal value
  | .column ref => .column ref
  | .star table => .star table
  | .binary ⟨left, op, right⟩ => .binary left.free op right.free
  | .unary op operand => .unary op operand.free
  | .call call => .function call.free
  | .window call spec => .windowed call.free spec.free
  | .aliased expr asName => .aliased expr.free asName
  | .among expr negated values => .among expr.free negated values.free
  | .hasRows negated query => .hasRows negated query.free
  | .subquery query => .subquery query.free
  | .choice input branches otherwise =>
    .choice (Expr.freeOption input) (Branch.freeAll branches) (Expr.freeOption otherwise)
  | .between expr negated low high => .between expr.free negated low.free high.free
  | .cast expr type => .cast expr.free type

/-- Expressions as a free tree. -/
def Expr.freeAll : List Expr → Free.Tree (.list .expr)
  | [] => .nil
  | expr :: rest => .cons expr.free (Expr.freeAll rest)

/-- An expression that may be absent, as a free tree. -/
def Expr.freeOption : Option Expr → Free.Tree (.option .expr)
  | none => .none
  | some expr => .some expr.free

/-- A call as a free tree. -/
def Call.free : Call → Free.Tree .call
  | ⟨name, args, distinct⟩ => .call name (Expr.freeAll args) distinct

/-- Candidates as a free tree. -/
def Candidates.free : Candidates → Free.Tree .candidates
  | .list values => .candidateList (Expr.freeAll values)
  | .query query => .candidateQuery query.free

/-- Branches as a free tree. -/
def Branch.freeAll : List Branch → Free.Tree (.list .branch)
  | [] => .nil
  | ⟨condition, result⟩ :: rest => .cons (.branch condition.free result.free) (Branch.freeAll rest)

/-- The items of an order as a free tree. -/
def SortItem.freeAll : List SortItem → Free.Tree (.list .sortItem)
  | [] => .nil
  | ⟨expr, direction, nulls⟩ :: rest => .cons (.sortItem expr.free direction nulls) (SortItem.freeAll rest)

/-- An end of a frame as a free tree. -/
def FrameBound.free : FrameBound → Free.Tree .frameBound
  | .unbounded direction => .frameBound .unbounded (some direction) .none
  | .currentRow => .frameBound .currentRow none .none
  | .offset count direction => .frameBound .offset (some direction) (.some count.free)

/-- A frame that may be absent, as a free tree. -/
def WindowFrame.freeOption : Option WindowFrame → Free.Tree (.option .frame)
  | none => .none
  | some ⟨unit, start, none⟩ => .some (.frame unit start.free .none)
  | some ⟨unit, start, some stop⟩ => .some (.frame unit start.free (.some stop.free))

/-- A window as a free tree. -/
def Window.free : Window → Free.Tree .window
  | ⟨partitionBy, orderBy, frame⟩ =>
    .window (Expr.freeAll partitionBy) (SortItem.freeAll orderBy) (WindowFrame.freeOption frame)

/-- A table as a free tree. The rows of a query go by their other name alone. -/
def TableRef.free : TableRef → Free.TableRef
  | .table ⟨schema, name⟩ asName hints => .table schema name asName .none hints
  | .derived query asName => .table none asName (some asName) (.some query.free) []

/-- Tables as a free tree. -/
def TableRef.freeAll : List TableRef → Free.Tree (.list .table)
  | [] => .nil
  | table :: rest => .cons table.free (TableRef.freeAll rest)

/-- Joins as a free tree. -/
def Join.freeAll : List Join → Free.Tree (.list .join)
  | [] => .nil
  | ⟨kind, table, condition, sharedColumns⟩ :: rest =>
    .cons (.join kind table.free (Expr.freeOption condition) sharedColumns) (Join.freeAll rest)

/-- A limit that may be absent, as a free tree. -/
def Top.freeOption : Option Top → Free.Tree (.option .top)
  | none => .none
  | some ⟨quantity, percent, withTies⟩ => .some (.top quantity.free percent withTies)

/-- A selection as a free tree. -/
def Select.free : Select → Free.Tree .select
  | ⟨distinct, top, columns, into, tables, joins, condition, groupBy, having, orderBy, limit, offset,
      fetch⟩ =>
    .select distinct (Top.freeOption top) (Expr.freeAll columns) into (TableRef.freeAll tables)
      (Join.freeAll joins) (Expr.freeOption condition) (Expr.freeAll groupBy) (Expr.freeOption having)
      (SortItem.freeAll orderBy) (Expr.freeOption limit) (Expr.freeOption offset) (Expr.freeOption fetch)

/-- Named queries as a free tree. -/
def CommonTable.freeAll : List CommonTable → Free.Tree (.list .commonTable)
  | [] => .nil
  | ⟨name, columns, query⟩ :: rest =>
    .cons (.commonTable name columns query.free) (CommonTable.freeAll rest)

/-- A query as a free tree, which is that of a statement. -/
def Query.free : Query → Free.Statement
  | .select node => .selection node.free
  | .setOperation left op all right => .setOperation left.free op all (.selection right.free)
  | .withTables recursive tables body => .withTables recursive (CommonTable.freeAll tables) body.free

end

/-- An assignment as a free tree. -/
def Assignment.free (a : Assignment) : Free.Tree .assignment := .assignment a.target a.value.free

/-- Assignments as a free tree. -/
def Assignment.freeAll (assignments : List Assignment) : Free.Tree (.list .assignment) :=
  Free.sequence (assignments.map Assignment.free)

/-- The source of rows as a free tree. -/
def InsertSource.free : InsertSource → Free.Tree .insertSource
  | .values rows => .sourceRows (Free.sequence (rows.map Expr.freeAll))
  | .query q => .sourceQuery q.free
  | .defaultValues => .sourceDefaults

/-- The definition of a column as a free tree. -/
def ColumnDefinition.free (c : ColumnDefinition) : Free.Tree .column :=
  .columnDefinition c.name c.type c.nullable c.primaryKey c.unique c.autoNumber (Expr.freeOption c.initial)
    c.foreignKey (Expr.freeOption c.check) c.collation c.constraintName

/-- The kind of a constraint as a free tree. -/
def ConstraintKind.free : ConstraintKind → Free.Tree .constraintKind
  | .primaryKey columns => .primaryKey columns
  | .unique columns => .unique columns
  | .foreignKey columns target => .foreignKey columns target
  | .check condition => .check condition.free
  | .index columns => .index columns

/-- A constraint as a free tree. -/
def TableConstraint.free (c : TableConstraint) : Free.Tree .constraint := .constraint c.name c.kind.free

/-- A change of a table as a free tree. -/
def AlterAction.free : AlterAction → Free.Tree .alterAction
  | .addColumn column => .addColumn column.free
  | .addConstraint constraint => .addConstraint constraint.free
  | .dropColumn name ifExists => .dropColumn name ifExists
  | .dropConstraint name => .dropConstraint name
  | .modifyColumn column => .modifyColumn column.free
  | .changeColumn oldName column => .changeColumn oldName column.free
  | .alterColumnType name type => .alterColumnType name type
  | .renameTable name => .renameTable name
  | .renameColumn oldName newName => .renameColumn oldName newName

/-- A range as a free tree. -/
def ForRange.free : ForRange → Free.Tree .range
  | .numeric start stop step => .numericRange start.free stop.free (Expr.freeOption step)
  | .query q => .queryRange q.free

/-- A direction as a free tree. -/
def FetchDirection.free : FetchDirection → Free.Tree .direction
  | .next => .next
  | .prior => .prior
  | .first => .first
  | .last => .last
  | .absolute row => .absolute row.free
  | .relative count => .relative count.free

/-- A parameter as a free tree. -/
def Parameter.free (p : Parameter) : Free.Tree .parameter :=
  .parameter p.mode p.variadic p.name p.type (Expr.freeOption p.initial)

mutual

/-- A statement as a free tree. -/
def Statement.free : Statement → Free.Statement
  | .query query => query.free
  | .insert node => .insert node.table node.columns node.source.free
  | .update node =>
    .update node.table.free (Assignment.freeAll node.assignments) (TableRef.freeAll node.tables)
      (Expr.freeOption node.condition)
  | .delete node => .delete node.table.free (Expr.freeOption node.condition)
  | .createTable node =>
    .createTable node.ifNotExists node.temporary node.name
      (Free.sequence (node.columns.map ColumnDefinition.free))
      (Free.sequence (node.constraints.map TableConstraint.free)) node.options
  | .createIndex node =>
    .createIndex node.unique node.clustered node.ifNotExists node.name node.table node.method
      (SortItem.freeAll node.columns) node.included (Expr.freeOption node.condition)
  | .createView node =>
    .createView node.orReplace node.materialized node.ifNotExists node.name node.columns node.query.free
      node.withCheckOption node.options
  | .createProcedure ⟨orReplace, name, parameters, options, body⟩ =>
    .createProcedure orReplace name (Free.sequence (parameters.map Parameter.free)) options body.free
  | .createFunction ⟨orReplace, name, parameters, options, body⟩ returns =>
    .createFunction orReplace name (Free.sequence (parameters.map Parameter.free)) returns options body.free
  | .createTrigger ⟨orReplace, name, timing, events, table, forEachRow, condition, body⟩ =>
    .createTrigger orReplace name timing events table forEachRow (Expr.freeOption condition) body.free
  | .drop node => .drop node
  | .alterTable name action => .alterTable name action.free
  | .declare declaration => .declare declaration.free
  | .block node => .blockStatement node.free
  | .conditional condition body elseIfs otherwise =>
    .conditional condition.free (Statement.freeAll body) (Alternative.freeAll elseIfs)
      (Statement.freeOption otherwise)
  | .whileLoop label condition body => .whileLoop label condition.free (Statement.freeAll body)
  | .loop label body => .loop label (Statement.freeAll body)
  | .forLoop label counter reverse range body =>
    .forLoop label counter reverse range.free (Statement.freeAll body)
  | .repeatLoop label body condition => .repeatLoop label (Statement.freeAll body) condition.free
  | .choice input branches otherwise =>
    .caseStatement (Expr.freeOption input) (Alternative.freeAll branches) (Statement.freeOption otherwise)
  | .returnValue value => .returnValue (Expr.freeOption value)
  | .assign assignments => .assign (Assignment.freeAll assignments)
  | .setOption name value => .setOption name value
  | .openCursor cursor query => .openCursor cursor (Free.optional (query.map Query.free))
  | .fetch node => .fetch (Free.optional (node.direction.map FetchDirection.free)) node.cursor node.into
  | .closeCursor cursor => .closeCursor cursor
  | .deallocate cursor => .deallocate cursor
  | .leave label condition => .leave label (Expr.freeOption condition)
  | .iterate label condition => .iterate label (Expr.freeOption condition)
  | .tryCatch body handler => .tryCatch (Statement.freeAll body) (Statement.freeAll handler)
  | .raise node =>
    .raise node.isCall node.level (Expr.freeOption node.message) (Expr.freeAll node.arguments)
      node.condition (Assignment.freeAll node.options)
  | .throwing none => .throwing .none .none .none
  | .throwing (some node) =>
    .throwing (.some node.errorNumber.free) (.some node.message.free) (.some node.state.free)
  | .signal node => .signal node.again node.sqlState node.condition (Assignment.freeAll node.properties)
  | .call name args => .callStatement name (Expr.freeAll args)
  | .beginTransaction node => .beginTransaction node
  | .commit work name => .commit work name
  | .rollback node => .rollback node
  | .savepoint name => .savepoint name
  | .releaseSavepoint name => .releaseSavepoint name
  | .explain options statement => .explain options statement.free

/-- Statements as a free tree. -/
def Statement.freeAll : List Statement → Free.Tree (.list .statement)
  | [] => .nil
  | statement :: rest => .cons statement.free (Statement.freeAll rest)

/-- Statements that may be absent, as a free tree. -/
def Statement.freeOption : Option (List Statement) → Free.Tree (.option (.list .statement))
  | none => .none
  | some body => .some (Statement.freeAll body)

/-- Statements under conditions as a free tree. -/
def Alternative.freeAll : List Alternative → Free.Tree (.list .alternative)
  | [] => .nil
  | ⟨condition, body⟩ :: rest =>
    .cons (.alternative condition.free (Statement.freeAll body)) (Alternative.freeAll rest)

/-- A block as a free tree. -/
def Block.free : Block → Free.Tree .block
  | ⟨label, declarations, body, none, endLabel⟩ =>
    .block label (Declaration.freeAll declarations) (Statement.freeAll body) .none endLabel
  | ⟨label, declarations, body, some handlers, endLabel⟩ =>
    .block label (Declaration.freeAll declarations) (Statement.freeAll body)
      (.some (ExceptionHandler.freeAll handlers)) endLabel

/-- Handlers as a free tree. -/
def ExceptionHandler.freeAll : List ExceptionHandler → Free.Tree (.list .handler)
  | [] => .nil
  | ⟨conditions, body⟩ :: rest =>
    .cons (.handler conditions (Statement.freeAll body)) (ExceptionHandler.freeAll rest)

/-- A declaration as a free tree. -/
def Declaration.free : Declaration → Free.Tree .declaration
  | .scalars node =>
    .scalars node.names node.type (Expr.freeOption node.initial) node.constant node.notNull
  | .cursor node => .cursor node.name node.options node.query.free
  | .handler action conditions body => .conditionHandler action conditions body.free

/-- Declarations as a free tree. -/
def Declaration.freeAll : List Declaration → Free.Tree (.list .declaration)
  | [] => .nil
  | declaration :: rest => .cons declaration.free (Declaration.freeAll rest)

/-- What a trigger does, as a free tree. -/
def TriggerBody.free : TriggerBody → Free.Tree .triggerBody
  | .block node => .triggerBlock node.free
  | .statement statement => .triggerStatement statement.free
  | .call name args => .triggerCall name (Expr.freeAll args)

end

end SqlFrontend
