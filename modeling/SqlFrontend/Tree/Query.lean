import SqlFrontend.Tree.DataType
import SqlFrontend.Tree.Literal
import SqlFrontend.Tree.Name

/-!
# Expressions and queries

Expressions and queries hold each other: an expression may hold a query in parentheses, and a query
is made of expressions. Every node owns its parts.

* `Expr`: expressions.
* `Select`, `TableRef`, `Join`, `Query`: queries. Selections are combined by set operators from left
  to right, so the right operand of a set operator is a single selection.

A node that needs no parts has a default (`Expr.null`, `Binary.fresh`, `Select.fresh`, …), with every
part absent.

Section 3 of the polysql specification: *AST: Expressions*, and *Query* and *With/Set* among the
statements.
-/

namespace SqlFrontend

/-! ## Operators and other words -/

/-- The operators between two operands. They all bind equally. -/
inductive BinaryOperator where
  | eq | notEq | lt | gt | ltEq | gtEq
  | and | or
  | plus | minus | multiply | divide | modulo
  | concat | like | notLike
  | is | isNot
  deriving DecidableEq, Repr

/-- The operator as it is written. -/
def BinaryOperator.text : BinaryOperator → String
  | .eq => "="
  | .notEq => "!="
  | .lt => "<"
  | .gt => ">"
  | .ltEq => "<="
  | .gtEq => ">="
  | .and => "AND"
  | .or => "OR"
  | .plus => "+"
  | .minus => "-"
  | .multiply => "*"
  | .divide => "/"
  | .modulo => "%"
  | .concat => "||"
  | .like => "LIKE"
  | .notLike => "NOT LIKE"
  | .is => "IS"
  | .isNot => "IS NOT"

/-- The operators before an operand. -/
inductive UnaryOperator where
  | not | minus | plus
  deriving DecidableEq, Repr

/-- What the rows of a window frame are counted by. -/
inductive FrameUnit where
  | rows | range
  deriving DecidableEq, Repr

/-- The unit as it is written. -/
def FrameUnit.text : FrameUnit → String
  | .rows => "ROWS"
  | .range => "RANGE"

/-- On which side of the current row a frame ends. -/
inductive FrameDirection where
  | preceding | following
  deriving DecidableEq, Repr

/-- The direction as it is written. -/
def FrameDirection.text : FrameDirection → String
  | .preceding => "PRECEDING"
  | .following => "FOLLOWING"

/-- The direction of an order. -/
inductive SortDirection where
  | ascending | descending
  deriving DecidableEq, Repr

/-- The direction as it is written. -/
def SortDirection.text : SortDirection → String
  | .ascending => "ASC"
  | .descending => "DESC"

/-- Where an order puts the absent values. -/
inductive NullOrder where
  | first | last
  deriving DecidableEq, Repr

/-- The place of absent values as it is written. -/
def NullOrder.text : NullOrder → String
  | .first => "NULLS FIRST"
  | .last => "NULLS LAST"

/-- The kinds of joins. -/
inductive JoinKind where
  | inner | left | right | full | cross
  deriving DecidableEq, Repr

/-- The kind of a join as it is written. -/
def JoinKind.text : JoinKind → String
  | .inner => "INNER JOIN"
  | .left => "LEFT JOIN"
  | .right => "RIGHT JOIN"
  | .full => "FULL JOIN"
  | .cross => "CROSS JOIN"

/-- The operators that combine the rows of two queries. -/
inductive SetOperator where
  | union | intersect | except
  deriving DecidableEq, Repr

/-- The operator as it is written. -/
def SetOperator.text : SetOperator → String
  | .union => "UNION"
  | .intersect => "INTERSECT"
  | .except => "EXCEPT"

/-! ## Nodes -/

/-- A column, possibly of a named table. -/
structure ColumnRef where
  /-- The table or its alias, with its schema where one is named. -/
  table : Option String
  column : String
  deriving DecidableEq, Repr

mutual

/-- An expression. -/
inductive Expr where
  | literal (value : Literal)
  | column (ref : ColumnRef)
  /-- All columns, of one table or of all. -/
  | star (table : Option String)
  | binary (node : Binary)
  | unary (op : UnaryOperator) (operand : Expr)
  | call (call : Call)
  /-- A call over a window. -/
  | window (call : Call) (spec : Window)
  | aliased (expr : Expr) (asName : String)
  /-- A test for membership. -/
  | among (expr : Expr) (negated : Bool) (values : Candidates)
  /-- A test whether a query has rows. -/
  | hasRows (negated : Bool) (query : Query)
  | subquery (query : Query)
  /-- A choice by conditions, or by comparison with an input. -/
  | choice (input : Option Expr) (branches : List Branch) (otherwise : Option Expr)
  | between (expr : Expr) (negated : Bool) (low high : Expr)
  | cast (expr : Expr) (type : DataType)

/-- An operator with its two operands. -/
structure Binary where
  left : Expr
  op : BinaryOperator
  right : Expr

/-- A call of a function. -/
structure Call where
  /-- The function, possibly qualified. -/
  name : String
  args : List Expr
  distinct : Bool

/-- What a membership test looks through. -/
inductive Candidates where
  | list (values : List Expr)
  | query (query : Query)

/-- One branch of a choice. -/
structure Branch where
  /-- The condition, or the value that the input is compared with. -/
  condition : Expr
  result : Expr

/-- An item of an order. -/
structure SortItem where
  expr : Expr
  direction : SortDirection
  nulls : Option NullOrder

/-- One end of a window frame. -/
inductive FrameBound where
  | unbounded (direction : FrameDirection)
  | currentRow
  | offset (count : Expr) (direction : FrameDirection)

/-- The rows around the current one that a window function sees. -/
structure WindowFrame where
  unit : FrameUnit
  start : FrameBound
  stop : Option FrameBound

/-- The window of a window function. -/
structure Window where
  partitionBy : List Expr
  orderBy : List SortItem
  frame : Option WindowFrame

/-- A table that a statement reads or changes. -/
inductive TableRef where
  /-- A named table, with hints for its use. -/
  | table (name : ObjectName) (asName : Option String) (hints : List String)
  /-- The rows of a query, under a name. -/
  | derived (query : Query) (asName : String)

/-- A table that is joined to the ones before it. -/
structure Join where
  kind : JoinKind
  table : TableRef
  condition : Option Expr
  /-- The columns that both sides share, in place of a condition. -/
  sharedColumns : List String

/-- A limit on the number of rows, before the columns. -/
structure Top where
  quantity : Expr
  percent : Bool
  withTies : Bool

/-- A selection of rows. -/
structure Select where
  distinct : Bool
  top : Option Top
  columns : List Expr
  /-- Where the rows are put: variables, or a new table. -/
  into : List String
  tables : List TableRef
  joins : List Join
  condition : Option Expr
  groupBy : List Expr
  having : Option Expr
  orderBy : List SortItem
  limit : Option Expr
  offset : Option Expr
  fetch : Option Expr

/-- A query that others can refer to by name. -/
structure CommonTable where
  name : String
  columns : List String
  query : Query

/-- A query. -/
inductive Query where
  | select (node : Select)
  | setOperation (left : Query) (op : SetOperator) (all : Bool) (right : Select)
  | withTables (recursive : Bool) (tables : List CommonTable) (body : Query)

end

/-! ## Defaults -/

instance : Inhabited Expr := ⟨.literal .null⟩

instance : Inhabited Query := ⟨.select ⟨false, none, [], [], [], [], none, [], none, [], none, none,
  none⟩⟩

/-- A column without table and name. -/
def ColumnRef.fresh : ColumnRef := ⟨none, ""⟩

/-- An operator without operands. -/
def Binary.fresh : Binary := ⟨default, .eq, default⟩

/-- A join without a table. -/
def Join.fresh : Join := ⟨.inner, .table default none [], none, []⟩

/-- A selection of nothing. -/
def Select.fresh : Select :=
  ⟨false, none, [], [], [], [], none, [], none, [], none, none, none⟩

/-- A window over all rows. -/
def Window.fresh : Window := ⟨[], [], none⟩

/-! ## Names -/

/-- Decides whether a table is the result of a query. -/
def TableRef.isDerived : TableRef → Bool
  | .table .. => false
  | .derived .. => true

/-- The name by which the rest of a statement refers to a table. -/
def TableRef.visibleName : TableRef → String
  | .table name asName _ => asName.getD name.name
  | .derived _ asName => asName

/-- The kind of an expression, as a word. -/
def Expr.tag : Expr → String
  | .literal _ => "Literal"
  | .column _ => "ColumnReference"
  | .star _ => "StarExpression"
  | .binary _ => "BinaryExpression"
  | .unary .. => "UnaryExpression"
  | .call _ => "FunctionCall"
  | .window .. => "WindowFunction"
  | .aliased .. => "AliasedExpression"
  | .among .. => "InExpression"
  | .hasRows .. => "ExistsExpression"
  | .subquery _ => "SubqueryExpression"
  | .choice .. => "CaseExpression"
  | .between .. => "BetweenExpression"
  | .cast .. => "CastExpression"

/-- The kind of a query, as a word. -/
def Query.tag : Query → String
  | .select _ => "SelectStatement"
  | .setOperation .. => "SetOperation"
  | .withTables .. => "WithStatement"

end SqlFrontend
