import SqlFrontend.Summary.Query
import SqlFrontend.Tree.Definition
import SqlFrontend.Tree.Routine

/-!
# Summaries of data definition and manipulation

One line for each statement that holds no other, and for the parts of definitions. The clauses of a
column are written in one fixed order, whatever the order of the source was.

* `CreateView.summary`: the storage options are written before the query, and the check option and
  the data option behind it.

Section 6, *AST surface*, of the polysql specification.
-/

namespace SqlFrontend

/-! ## Rows -/

/-- The assignment as one line. -/
def Assignment.summary (a : Assignment) : String := a.target ++ " = " ++ a.value.summary

/-- The assignments with commas between them. -/
def Assignment.summaries (assignments : List Assignment) : List String :=
  assignments.map Assignment.summary

/-- The source of rows, behind a blank. -/
def InsertSource.summary : InsertSource → String
  | .values rows =>
    " VALUES " ++ commaSeparated (rows.map fun row =>
      "(" ++ commaSeparated (Expr.summaries row) ++ ")")
  | .query q => " " ++ q.summary
  | .defaultValues => " DEFAULT VALUES"

/-- The insertion as one line. -/
def Insert.summary (i : Insert) : String :=
  "INSERT INTO " ++ i.table.summary ++ parenthesized " " i.columns ++ i.source.summary

/-- The change of rows as one line. -/
def Update.summary (u : Update) : String :=
  "UPDATE " ++ u.table.summary ++ " SET " ++ commaSeparated (Assignment.summaries u.assignments) ++
    listed " FROM " (TableRef.summaries u.tables) ++ Expr.clause " WHERE " "" u.condition

/-- The deletion as one line. -/
def Delete.summary (d : Delete) : String :=
  "DELETE FROM " ++ d.table.summary ++ Expr.clause " WHERE " "" d.condition

/-! ## Tables -/

/-- The reference as one line. -/
def ForeignKey.summary (k : ForeignKey) : String :=
  "REFERENCES " ++ k.table.summary ++ parenthesized "" k.columns ++
    (k.onDelete.map fun action => " ON DELETE " ++ action.text).getD "" ++
    (k.onUpdate.map fun action => " ON UPDATE " ++ action.text).getD ""

/-- The numbering of a column as it is written. An increment that is not given is one. -/
def AutoNumber.summary : AutoNumber → String
  | .autoIncrement => "AUTO_INCREMENT"
  | .autoincrement => "AUTOINCREMENT"
  | .identity (some seed) increment => s!"IDENTITY({seed}, {increment.getD 1})"
  | .identity none _ => "IDENTITY"
  | .generated true => "GENERATED ALWAYS AS IDENTITY"
  | .generated false => "GENERATED BY DEFAULT AS IDENTITY"

/-- The column as one line. -/
def ColumnDefinition.summary (c : ColumnDefinition) : String :=
  c.name ++ " " ++ c.type.summary ++ (c.constraintName.map (" CONSTRAINT " ++ ·)).getD "" ++
    (match c.nullable with
      | some false => " NOT NULL"
      | some true => " NULL"
      | none => "") ++
    wordIf c.primaryKey " PRIMARY KEY" ++ wordIf c.unique " UNIQUE" ++
    (c.autoNumber.map fun n => " " ++ n.summary).getD "" ++ Expr.clause " DEFAULT " "" c.initial ++
    Expr.clause " CHECK (" ")" c.check ++ (c.collation.map (" COLLATE " ++ ·)).getD "" ++
    (c.foreignKey.map fun k => " " ++ k.summary).getD ""

/-- The constraint without its name. -/
def ConstraintKind.summary : ConstraintKind → String
  | .primaryKey columns => "PRIMARY KEY (" ++ commaSeparated columns ++ ")"
  | .unique columns => "UNIQUE (" ++ commaSeparated columns ++ ")"
  | .foreignKey columns target =>
    "FOREIGN KEY (" ++ commaSeparated columns ++ ") " ++ target.summary
  | .check condition => "CHECK (" ++ condition.summary ++ ")"
  | .index columns => "INDEX (" ++ commaSeparated columns ++ ")"

/-- The constraint as one line. -/
def TableConstraint.summary (c : TableConstraint) : String :=
  (c.name.map fun name => "CONSTRAINT " ++ name ++ " ").getD "" ++ c.kind.summary

/-- The definition of a table as one line: columns first, then constraints. -/
def CreateTable.summary (t : CreateTable) : String :=
  "CREATE " ++ wordIf t.temporary "TEMPORARY " ++ "TABLE " ++
    wordIf t.ifNotExists "IF NOT EXISTS " ++ t.name.summary ++ " (" ++
    commaSeparated (t.columns.map ColumnDefinition.summary ++
      t.constraints.map TableConstraint.summary) ++ ")" ++
    String.join (t.options.entries.map fun (key, value) => s!" {key}={value}")

/-! ## Indexes and views -/

/-- The definition of an index as one line. -/
def CreateIndex.summary (i : CreateIndex) : String :=
  "CREATE " ++ wordIf i.unique "UNIQUE " ++ "INDEX " ++ i.name ++ " ON " ++ i.table.summary ++
    " (" ++ commaSeparated (SortItem.summaries i.columns) ++ ")" ++
    parenthesized " INCLUDE " i.included ++ Expr.clause " WHERE " "" i.condition

/-- Decides whether an option of a view is written before its query. -/
def CreateView.isStorageOption (v : CreateView) (key : String) : Bool :=
  if key = "CHECK_OPTION" then !v.withCheckOption else key ≠ "DATA"

/-- An option of a view as it is written; the value true goes without saying. -/
def CreateView.optionSummary (key value : String) : String :=
  if value = "TRUE" then key else s!"{key}={value}"

/-- The clauses behind the query of a view. -/
def CreateView.trailer (v : CreateView) : String :=
  (if v.withCheckOption then
    " WITH " ++ ((v.options.get? "CHECK_OPTION").map (· ++ " ")).getD "" ++ "CHECK OPTION"
  else "") ++
  (match v.options.get? "DATA" with
    | some "FALSE" => " WITH NO DATA"
    | some _ => " WITH DATA"
    | none => "")

/-- The definition of a view as one line. -/
def CreateView.summary (v : CreateView) : String :=
  let storage := (v.options.entries.filter fun entry => v.isStorageOption entry.1).map
    fun entry => CreateView.optionSummary entry.1 entry.2
  "CREATE " ++ wordIf v.orReplace "OR REPLACE " ++ wordIf v.materialized "MATERIALIZED " ++
    "VIEW " ++ wordIf v.ifNotExists "IF NOT EXISTS " ++ v.name.summary ++
    parenthesized " " v.columns ++ parenthesized " WITH " storage ++ " AS " ++ v.query.summary ++
    v.trailer

/-- The event as it is written. -/
def TriggerEvent.summary : TriggerEvent → String
  | .insert => "INSERT"
  | .update [] => "UPDATE"
  | .update columns => "UPDATE OF " ++ commaSeparated columns
  | .delete => "DELETE"

/-! ## Changes of definitions -/

/-- The removal as one line. -/
def Drop.summary (d : Drop) : String :=
  "DROP " ++ d.kind.text ++ " " ++ wordIf d.ifExists "IF EXISTS " ++
    commaSeparated (d.names.map ObjectName.summary) ++
    (d.onTable.map fun table => " ON " ++ table.summary).getD "" ++ wordIf d.cascade " CASCADE" ++
    wordIf d.restrict " RESTRICT"

/-- The change as one line. -/
def AlterAction.summary : AlterAction → String
  | .addColumn column => "ADD COLUMN " ++ column.summary
  | .addConstraint constraint => "ADD " ++ constraint.summary
  | .dropColumn name ifExists => "DROP COLUMN " ++ wordIf ifExists "IF EXISTS " ++ name
  | .dropConstraint name => "DROP CONSTRAINT " ++ name
  | .modifyColumn column => "MODIFY COLUMN " ++ column.summary
  | .changeColumn oldName column => "CHANGE COLUMN " ++ oldName ++ " " ++ column.summary
  | .alterColumnType name type => "ALTER COLUMN " ++ name ++ " TYPE " ++ type.summary
  | .renameTable name => "RENAME TO " ++ name.summary
  | .renameColumn oldName newName => "RENAME COLUMN " ++ oldName ++ " TO " ++ newName

/-! ## Headers of routines -/

/-- The parameter as one line. -/
def Parameter.summary (p : Parameter) : String :=
  (p.mode.map fun mode => mode.text ++ " ").getD "" ++ wordIf p.variadic "VARIADIC " ++
    (p.name.map (· ++ " ")).getD "" ++ p.type.summary ++ Expr.clause " DEFAULT " "" p.initial

/-- The characteristics in their fixed order, each behind a blank. -/
def RoutineOptions.summary (o : RoutineOptions) : String :=
  (o.language.map (" LANGUAGE " ++ ·)).getD "" ++
    (match o.security with
      | some .definer => " SECURITY DEFINER"
      | some .invoker => " SECURITY INVOKER"
      | none => "") ++
    (match o.deterministic with
      | some true => " DETERMINISTIC"
      | some false => " NOT DETERMINISTIC"
      | none => "") ++
    (o.dataAccess.map fun access => " " ++ access.text).getD "" ++
    (o.volatility.map fun volatility => " " ++ volatility.text).getD "" ++
    (o.comment.map fun comment => " COMMENT '" ++ comment ++ "'").getD ""

end SqlFrontend
