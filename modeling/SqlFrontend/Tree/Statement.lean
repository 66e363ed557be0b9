import SqlFrontend.Tree.Definition
import SqlFrontend.Tree.Routine

/-!
# Statements

The closed set of statements. Statements that hold other statements — blocks, control flow, handlers,
routines and triggers — are defined together with `Statement`.

Section 3, *AST: Statements*, of the polysql specification.
-/

namespace SqlFrontend

/-! ## Parts without statements -/

/-- The declaration of variables. -/
structure VariableDeclaration where
  names : List String
  type : DataType
  initial : Option Expr
  constant : Bool
  notNull : Bool

/-- The declaration of a cursor. -/
structure CursorDeclaration where
  name : String
  options : List String
  query : Query

/-- What a handler does when it is done. -/
inductive HandlerAction where
  | continueBlock | exitBlock | undo
  deriving DecidableEq, Repr

/-- The action as it is written. -/
def HandlerAction.text : HandlerAction → String
  | .continueBlock => "CONTINUE"
  | .exitBlock => "EXIT"
  | .undo => "UNDO"

/-- A condition that a handler handles. -/
inductive HandlerCondition where
  | sqlException
  | sqlWarning
  | notFound
  | sqlState (code : String)
  | errorCode (code : Int)
  | named (name : String)
  deriving DecidableEq, Repr

/-- What a counting loop runs over. -/
inductive ForRange where
  | numeric (start stop : Expr) (step : Option Expr)
  | query (query : Query)

/-- Which row a cursor moves to. -/
inductive FetchDirection where
  | next | prior | first | last
  | absolute (row : Expr)
  | relative (count : Expr)

/-- A row read from a cursor. -/
structure Fetch where
  direction : Option FetchDirection
  cursor : String
  into : List String

/-- How severe a raised message is. -/
inductive RaiseLevel where
  | debug | log | info | notice | warning | exception
  deriving DecidableEq, Repr

namespace RaiseLevel

/-- Every level once. -/
def all : List RaiseLevel := [.debug, .log, .info, .notice, .warning, .exception]

/-- The level as it is written. -/
def text : RaiseLevel → String
  | .debug => "DEBUG"
  | .log => "LOG"
  | .info => "INFO"
  | .notice => "NOTICE"
  | .warning => "WARNING"
  | .exception => "EXCEPTION"

/-- The level that a word names, in any case of its letters. -/
def ofWord? (word : String) : Option RaiseLevel :=
  all.find? fun level => level.text == Text.upper word

end RaiseLevel

/-- A message or an error that is raised. -/
structure Raise where
  /-- Whether this is a call with everything in parentheses. -/
  isCall : Bool
  level : Option RaiseLevel
  message : Option Expr
  arguments : List Expr
  condition : Option String
  options : List Assignment

/-- The number, the message and the state of a thrown error. -/
structure Throw where
  errorNumber : Expr
  message : Expr
  state : Expr

/-- A condition that is signalled, or signalled again. -/
structure Signal where
  again : Bool
  sqlState : Option String
  condition : Option String
  properties : List Assignment

/-- The begin of a transaction. -/
structure BeginTransaction where
  /-- Whether it is spelt with START. -/
  start : Bool := false
  modes : List String := []
  name : Option String := none
  deriving DecidableEq, Repr

/-- The undoing of a transaction, or of its part behind a savepoint. -/
structure Rollback where
  work : Bool
  name : Option String
  savepoint : Option String
  deriving DecidableEq, Repr

/-- A request to explain a statement. -/
structure ExplainOptions where
  analyze : Bool := false
  verbose : Bool := false
  extended : Bool := false
  format : Option String := none
  options : Options := {}
  queryPlan : Bool := false
  deriving DecidableEq, Repr

/-! ## Statements and the parts that hold them -/

mutual

/-- A statement. -/
inductive Statement where
  | query (query : Query)
  | insert (node : Insert)
  | update (node : Update)
  | delete (node : Delete)
  | createTable (node : CreateTable)
  | createIndex (node : CreateIndex)
  | createView (node : CreateView)
  | createProcedure (node : Routine)
  | createFunction (node : Routine) (returns : DataType)
  | createTrigger (node : Trigger)
  | drop (node : Drop)
  | alterTable (name : ObjectName) (action : AlterAction)
  | declare (declaration : Declaration)
  | block (block : Block)
  | conditional (condition : Expr) (body : List Statement) (elseIfs : List Alternative)
      (otherwise : Option (List Statement))
  | whileLoop (label : Option String) (condition : Expr) (body : List Statement)
  | loop (label : Option String) (body : List Statement)
  | forLoop (label : Option String) (counter : String) (reverse : Bool) (range : ForRange)
      (body : List Statement)
  | repeatLoop (label : Option String) (body : List Statement) (condition : Expr)
  | choice (input : Option Expr) (branches : List Alternative)
      (otherwise : Option (List Statement))
  | returnValue (value : Option Expr)
  | assign (assignments : List Assignment)
  | setOption (name value : String)
  | openCursor (cursor : String) (query : Option Query)
  | fetch (node : Fetch)
  | closeCursor (cursor : String)
  | deallocate (cursor : String)
  | leave (label : Option String) (condition : Option Expr)
  | iterate (label : Option String) (condition : Option Expr)
  | tryCatch (body handler : List Statement)
  | raise (node : Raise)
  /-- A thrown error; without one, the error at hand is thrown again. -/
  | throwing (error : Option Throw)
  | signal (node : Signal)
  | call (name : ObjectName) (args : List Expr)
  | beginTransaction (node : BeginTransaction)
  | commit (work : Bool) (name : Option String)
  | rollback (node : Rollback)
  | savepoint (name : String)
  | releaseSavepoint (name : String)
  | explain (options : ExplainOptions) (statement : Statement)

/-- Statements under a condition. -/
structure Alternative where
  condition : Expr
  body : List Statement

/-- A block of statements. -/
structure Block where
  label : Option String
  declarations : List Declaration
  body : List Statement
  /-- The exception section, where there is one. -/
  handlers : Option (List ExceptionHandler)
  endLabel : Option String

/-- Statements for exceptions. -/
structure ExceptionHandler where
  conditions : List String
  body : List Statement

/-- A declaration. -/
inductive Declaration where
  | scalars (node : VariableDeclaration)
  | cursor (node : CursorDeclaration)
  | handler (action : HandlerAction) (conditions : List HandlerCondition) (body : Statement)

/-- What a trigger does. -/
inductive TriggerBody where
  | block (block : Block)
  | statement (statement : Statement)
  | call (name : String) (args : List Expr)

/-- The definition of a trigger. -/
structure Trigger where
  orReplace : Bool
  name : ObjectName
  timing : TriggerTiming
  events : List TriggerEvent
  table : ObjectName
  forEachRow : Bool
  condition : Option Expr
  body : TriggerBody

/-- The definition of a procedure or a function. -/
structure Routine where
  orReplace : Bool
  name : ObjectName
  parameters : List Parameter
  options : RoutineOptions
  body : Block

end

/-- A block of statements alone. -/
def Block.ofBody (body : List Statement) : Block := ⟨none, [], body, none, none⟩

/-- Decides whether a handler handles every exception. -/
def ExceptionHandler.isCatchAll (handler : ExceptionHandler) : Bool :=
  handler.conditions.any fun name =>
    Text.sameWord name "OTHERS" || Text.sameWord name "SQLEXCEPTION"

/-- The kind of a declaration, as a word. -/
def Declaration.tag : Declaration → String
  | .scalars _ => "VariableDeclaration"
  | .cursor _ => "CursorDeclaration"
  | .handler .. => "HandlerDeclaration"

namespace Statement

/-- The kind of a statement, as a word. -/
def tag : Statement → String
  | query q => q.tag
  | insert _ => "InsertStatement"
  | update _ => "UpdateStatement"
  | delete _ => "DeleteStatement"
  | createTable _ => "CreateTableStatement"
  | createIndex _ => "CreateIndexStatement"
  | createView _ => "CreateViewStatement"
  | createProcedure _ => "CreateProcedureStatement"
  | createFunction .. => "CreateFunctionStatement"
  | createTrigger _ => "CreateTriggerStatement"
  | drop _ => "DropStatement"
  | alterTable .. => "AlterTableStatement"
  | declare declaration => declaration.tag
  | block _ => "BlockStatement"
  | conditional .. => "IfStatement"
  | whileLoop .. => "WhileStatement"
  | loop .. => "LoopStatement"
  | forLoop .. => "ForStatement"
  | repeatLoop .. => "RepeatStatement"
  | choice .. => "CaseStatement"
  | returnValue _ => "ReturnStatement"
  | assign _ => "AssignmentStatement"
  | setOption .. => "SetOptionStatement"
  | openCursor .. => "OpenStatement"
  | fetch _ => "FetchStatement"
  | closeCursor _ => "CloseStatement"
  | deallocate _ => "DeallocateStatement"
  | leave .. => "ExitStatement"
  | iterate .. => "ContinueStatement"
  | tryCatch .. => "TryStatement"
  | raise _ => "RaiseStatement"
  | throwing _ => "ThrowStatement"
  | signal _ => "SignalStatement"
  | call .. => "CallStatement"
  | beginTransaction _ => "BeginTransactionStatement"
  | commit .. => "CommitStatement"
  | rollback _ => "RollbackStatement"
  | savepoint _ => "SavepointStatement"
  | releaseSavepoint _ => "ReleaseSavepointStatement"
  | explain .. => "ExplainStatement"

/-- The query of a statement that is one. -/
def query? : Statement → Option Query
  | query q => some q
  | _ => none

/-- Decides whether a statement is a query. -/
def isQuery (s : Statement) : Bool := s.query?.isSome

/-- The selection of a statement that is a single one. -/
def select? : Statement → Option Select
  | query (.select node) => some node
  | _ => none

end Statement

end SqlFrontend
