import SqlFrontend.Tree.Options
import SqlFrontend.Tree.Query

/-!
# Data definition and manipulation

The statements that change rows, and the parts of the statements that define, change and drop tables,
indexes and views. None of them holds another statement.

Section 3, *AST: Statements*, of the polysql specification: *Query* and *DDL*.
-/

namespace SqlFrontend

/-! ## Rows -/

/-- A value for a column or a variable. -/
structure Assignment where
  /-- The column or variable, possibly qualified. -/
  target : String
  value : Expr

/-- Where the rows of an insertion come from. -/
inductive InsertSource where
  | values (rows : List (List Expr))
  | query (query : Query)
  | defaultValues

/-- An insertion of rows. -/
structure Insert where
  table : ObjectName
  /-- The columns that are given; none named means all. -/
  columns : List String
  source : InsertSource

/-- A change of rows. -/
structure Update where
  table : TableRef
  assignments : List Assignment
  tables : List TableRef
  condition : Option Expr

/-- A deletion of rows. -/
structure Delete where
  table : TableRef
  condition : Option Expr

/-! ## Tables -/

/-- What happens to a row when the row it refers to changes. -/
inductive ReferentialAction where
  | cascade | restrict | setNull | setDefault | noAction
  deriving DecidableEq, Repr

/-- The action as it is written. -/
def ReferentialAction.text : ReferentialAction → String
  | .cascade => "CASCADE"
  | .restrict => "RESTRICT"
  | .setNull => "SET NULL"
  | .setDefault => "SET DEFAULT"
  | .noAction => "NO ACTION"

/-- A reference to rows of another table. -/
structure ForeignKey where
  table : ObjectName
  columns : List String
  onDelete : Option ReferentialAction
  onUpdate : Option ReferentialAction
  deriving DecidableEq, Repr

/-- How a column numbers its rows. -/
inductive AutoNumber where
  | autoIncrement
  | autoincrement
  | identity (seed increment : Option Int)
  | generated (always : Bool)
  deriving DecidableEq, Repr

/-- The definition of a column. -/
structure ColumnDefinition where
  name : String
  type : DataType
  /-- Whether the column may hold absent values, where that is said. -/
  nullable : Option Bool := none
  primaryKey : Bool := false
  unique : Bool := false
  autoNumber : Option AutoNumber := none
  initial : Option Expr := none
  foreignKey : Option ForeignKey := none
  check : Option Expr := none
  collation : Option String := none
  constraintName : Option String := none

/-- The kinds of constraints on a table. -/
inductive ConstraintKind where
  | primaryKey (columns : List String)
  | unique (columns : List String)
  | foreignKey (columns : List String) (target : ForeignKey)
  | check (condition : Expr)
  | index (columns : List String)

/-- A constraint on a table. -/
structure TableConstraint where
  name : Option String
  kind : ConstraintKind

/-- The definition of a table. -/
structure CreateTable where
  ifNotExists : Bool
  temporary : Bool
  name : ObjectName
  columns : List ColumnDefinition
  constraints : List TableConstraint
  options : Options

/-! ## Indexes and views -/

/-- The definition of an index. -/
structure CreateIndex where
  unique : Bool
  clustered : Option Bool
  ifNotExists : Bool
  name : String
  table : ObjectName
  method : Option String
  columns : List SortItem
  included : List String
  condition : Option Expr

/-- The definition of a view. -/
structure CreateView where
  orReplace : Bool
  materialized : Bool
  ifNotExists : Bool
  name : ObjectName
  columns : List String
  query : Query
  withCheckOption : Bool
  /-- The storage options, with the level of the check option and whether rows are stored. -/
  options : Options

/-! ## Triggers -/

/-- When a trigger fires. -/
inductive TriggerTiming where
  | before | after | insteadOf
  deriving DecidableEq, Repr

/-- The time as it is written. -/
def TriggerTiming.text : TriggerTiming → String
  | .before => "BEFORE"
  | .after => "AFTER"
  | .insteadOf => "INSTEAD OF"

/-- What fires a trigger. -/
inductive TriggerEvent where
  | insert
  /-- A change of rows, of the columns named or of any. -/
  | update (columns : List String)
  | delete
  deriving DecidableEq, Repr

/-! ## Changes of definitions -/

/-- The kinds of objects that can be dropped. -/
inductive ObjectKind where
  | table | database | index | view | materializedView | trigger | procedure | function | schema
  deriving DecidableEq, Repr

/-- The kind as it is written. -/
def ObjectKind.text : ObjectKind → String
  | .table => "TABLE"
  | .database => "DATABASE"
  | .index => "INDEX"
  | .view => "VIEW"
  | .materializedView => "MATERIALIZED VIEW"
  | .trigger => "TRIGGER"
  | .procedure => "PROCEDURE"
  | .function => "FUNCTION"
  | .schema => "SCHEMA"

/-- The removal of objects. -/
structure Drop where
  kind : ObjectKind
  ifExists : Bool
  names : List ObjectName
  onTable : Option ObjectName
  cascade : Bool
  restrict : Bool
  deriving DecidableEq, Repr

/-- A change of a table. -/
inductive AlterAction where
  | addColumn (column : ColumnDefinition)
  | addConstraint (constraint : TableConstraint)
  | dropColumn (name : String) (ifExists : Bool)
  | dropConstraint (name : String)
  | modifyColumn (column : ColumnDefinition)
  | changeColumn (oldName : String) (column : ColumnDefinition)
  | alterColumnType (name : String) (type : DataType)
  | renameTable (name : ObjectName)
  | renameColumn (oldName newName : String)

end SqlFrontend
