import SqlFrontend.Tree.Query

/-!
# Summaries of expressions and queries

A summary is one line that reads like the source of a node. Since all operators bind equally and group
from left to right, an operator on the right of another is put into parentheses, and one on the left
is not.

* `Expr.summary`, `Query.summary`, `TableRef.summary`, `SortItem.summary`.

Section 6, *AST surface*, of the polysql specification.
-/

namespace SqlFrontend

/-- Writes the items with commas between them. -/
def commaSeparated (items : List String) : String := Text.separated ", " items

/-- Writes the items with commas between them and in parentheses, behind `before`; no items at all
write nothing. -/
def parenthesized (before : String) (items : List String) : String :=
  if items.isEmpty then "" else before ++ "(" ++ commaSeparated items ++ ")"

/-- Writes the items with commas between them behind `before`; no items at all write nothing. -/
def listed (before : String) (items : List String) : String :=
  if items.isEmpty then "" else before ++ commaSeparated items

/-- Writes a word if it applies. -/
def wordIf (applies : Bool) (word : String) : String := if applies then word else ""

/-- The column as it is written. -/
def ColumnRef.summary (c : ColumnRef) : String := qualified c.table c.column

/-- Decides whether an expression is an operator with two operands. -/
def Expr.isBinary : Expr → Bool
  | .binary _ => true
  | _ => false

mutual

/-- The expression as one line. -/
def Expr.summary : Expr → String
  | .literal value => value.summary
  | .column ref => ref.summary
  | .star (some table) => s!"{table}.*"
  | .star none => "*"
  | .binary node => node.summary
  | .unary .not operand => "NOT " ++ operand.summary
  | .unary .minus operand => "-" ++ operand.summary
  | .unary .plus operand => "+" ++ operand.summary
  | .call call => call.summary
  | .window call spec => call.summary ++ " " ++ spec.summary
  | .aliased expr asName => expr.summary ++ " AS " ++ asName
  | .among expr negated values =>
    expr.summary ++ " " ++ wordIf negated "NOT " ++ "IN " ++ values.summary
  | .hasRows negated query => wordIf negated "NOT " ++ "EXISTS (" ++ query.summary ++ ")"
  | .subquery query => "(" ++ query.summary ++ ")"
  | .choice input branches otherwise =>
    "CASE" ++ Expr.clause " " "" input ++ Branch.summaries branches ++
      Expr.clause " ELSE " "" otherwise ++ " END"
  | .between expr negated low high =>
    expr.summary ++ " " ++ wordIf negated "NOT " ++ "BETWEEN " ++ low.summary ++ " AND " ++
      high.summary
  | .cast expr type => "CAST(" ++ expr.summary ++ " AS " ++ type.summary ++ ")"

/-- The expressions as one line each. -/
def Expr.summaries : List Expr → List String
  | [] => []
  | expr :: rest => expr.summary :: Expr.summaries rest

/-- An optional expression between two words. -/
def Expr.clause (before after : String) : Option Expr → String
  | none => ""
  | some expr => before ++ expr.summary ++ after

/-- The operator with its operands as one line. -/
def Binary.summary : Binary → String
  | ⟨left, op, right⟩ =>
    left.summary ++ " " ++ op.text ++ " " ++
      (if right.isBinary then "(" ++ right.summary ++ ")" else right.summary)

/-- The call as one line. -/
def Call.summary : Call → String
  | ⟨name, args, distinct⟩ =>
    name ++ "(" ++ wordIf distinct "DISTINCT " ++ commaSeparated (Expr.summaries args) ++ ")"

/-- The candidates in parentheses. -/
def Candidates.summary : Candidates → String
  | .list values => "(" ++ commaSeparated (Expr.summaries values) ++ ")"
  | .query query => "(" ++ query.summary ++ ")"

/-- The branches one after the other, each behind a blank. -/
def Branch.summaries : List Branch → String
  | [] => ""
  | ⟨condition, result⟩ :: rest =>
    " WHEN " ++ condition.summary ++ " THEN " ++ result.summary ++ Branch.summaries rest

/-- The item of an order as one line; the direction is always written. -/
def SortItem.summary : SortItem → String
  | ⟨expr, direction, nulls⟩ =>
    expr.summary ++ " " ++ direction.text ++ (nulls.map fun n => " " ++ n.text).getD ""

/-- The items of an order as one line each. -/
def SortItem.summaries : List SortItem → List String
  | [] => []
  | item :: rest => item.summary :: SortItem.summaries rest

/-- The end of a frame as one line. -/
def FrameBound.summary : FrameBound → String
  | .unbounded direction => "UNBOUNDED " ++ direction.text
  | .currentRow => "CURRENT ROW"
  | .offset count direction => count.summary ++ " " ++ direction.text

/-- The frame as one line. -/
def WindowFrame.summary : WindowFrame → String
  | ⟨unit, start, some stop⟩ =>
    unit.text ++ " BETWEEN " ++ start.summary ++ " AND " ++ stop.summary
  | ⟨unit, start, none⟩ => unit.text ++ " " ++ start.summary

/-- An optional frame as a list of at most one line. -/
def WindowFrame.optionSummary : Option WindowFrame → List String
  | none => []
  | some frame => [frame.summary]

/-- The window as one line. -/
def Window.summary : Window → String
  | ⟨partitionBy, orderBy, frame⟩ =>
    let parts := [listed "PARTITION BY " (Expr.summaries partitionBy),
      listed "ORDER BY " (SortItem.summaries orderBy)].filter (· ≠ "")
    "OVER (" ++ Text.separated " " (parts ++ WindowFrame.optionSummary frame) ++ ")"

/-- The table as one line. -/
def TableRef.summary : TableRef → String
  | .table name asName hints =>
    name.summary ++ (asName.map (" AS " ++ ·)).getD "" ++ parenthesized " WITH " hints
  | .derived query asName => "(" ++ query.summary ++ ") AS " ++ asName

/-- The tables as one line each. -/
def TableRef.summaries : List TableRef → List String
  | [] => []
  | table :: rest => table.summary :: TableRef.summaries rest

/-- The join as one line. -/
def Join.summary : Join → String
  | ⟨kind, table, condition, sharedColumns⟩ =>
    kind.text ++ " " ++ table.summary ++ Expr.clause " ON " "" condition ++
      parenthesized " USING " sharedColumns

/-- The joins one after the other, each behind a blank. -/
def Join.summaries : List Join → String
  | [] => ""
  | join :: rest => " " ++ join.summary ++ Join.summaries rest

/-- The limit before the columns, with a blank behind it. -/
def Top.summary : Top → String
  | ⟨quantity, percent, withTies⟩ =>
    "TOP " ++ quantity.summary ++ " " ++ wordIf percent "PERCENT " ++ wordIf withTies "WITH TIES "

/-- An optional limit before the columns. -/
def Top.optionSummary : Option Top → String
  | none => ""
  | some top => top.summary

/-- The selection as one line. -/
def Select.summary : Select → String
  | ⟨distinct, top, columns, into, tables, joins, condition, groupBy, having, orderBy, limit, offset,
      fetch⟩ =>
    "SELECT " ++ wordIf distinct "DISTINCT " ++ Top.optionSummary top ++
      commaSeparated (Expr.summaries columns) ++ listed " INTO " into ++
      listed " FROM " (TableRef.summaries tables) ++ Join.summaries joins ++
      Expr.clause " WHERE " "" condition ++ listed " GROUP BY " (Expr.summaries groupBy) ++
      Expr.clause " HAVING " "" having ++ listed " ORDER BY " (SortItem.summaries orderBy) ++
      Expr.clause " LIMIT " "" limit ++ Expr.clause " OFFSET " "" offset ++
      Expr.clause " FETCH NEXT " " ROWS ONLY" fetch

/-- The named query as one line. -/
def CommonTable.summary : CommonTable → String
  | ⟨name, columns, query⟩ =>
    name ++ parenthesized "" columns ++ " AS (" ++ query.summary ++ ")"

/-- The named queries as one line each. -/
def CommonTable.summaries : List CommonTable → List String
  | [] => []
  | table :: rest => table.summary :: CommonTable.summaries rest

/-- The query as one line. -/
def Query.summary : Query → String
  | .select node => node.summary
  | .setOperation left op all right =>
    left.summary ++ " " ++ op.text ++ wordIf all " ALL" ++ " " ++ right.summary
  | .withTables recursive tables body =>
    "WITH " ++ wordIf recursive "RECURSIVE " ++ commaSeparated (CommonTable.summaries tables) ++
      " " ++ body.summary

end

end SqlFrontend
