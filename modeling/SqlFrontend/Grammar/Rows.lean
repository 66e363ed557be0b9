import SqlFrontend.Grammar.Query
import SqlFrontend.Tree.Definition

/-!
# Changes of rows

* `insert`, `update`, `delete`: the three statements that change rows.
* `assignments`: values for columns or variables.

Section 4.3, *Dispatch*, of the polysql specification.
-/

namespace SqlFrontend.Grammar

open Production

variable (nested : Nested)

/-- Values for columns or variables, at least one. -/
def assignments : Production (List Assignment) := list do
  let target ← qualifiedName
  unless ← consume .colonAssign do
    expect .assign
  return ⟨target, ← nested.expression⟩

/-- Where the rows of an insertion come from. -/
def insertSource : Production InsertSource := do
  if ← consumeKeyword .VALUES then .values <$> list (inParens (list nested.expression))
  else if ← consumeKeyword .DEFAULT then
    expectKeyword .VALUES
    return .defaultValues
  else if (← checkKeyword .SELECT) || (← checkKeyword .WITH) then .query <$> nested.query
  else expected "VALUES, SELECT or DEFAULT VALUES"

/-- An insertion of rows. -/
def insert : Production Insert := do
  expectKeyword .INSERT
  skipKeyword .INTO
  let table ← objectName
  let columns ← columnNames?
  return ⟨table, columns, ← insertSource nested⟩

/-- A change of rows. -/
def update : Production Update := do
  expectKeyword .UPDATE
  let table ← tableRef nested
  expectKeyword .SET
  let assignments ← assignments nested
  let tables ← behind .FROM (list (tableRef nested))
  let condition ← behind .WHERE nested.expression
  return ⟨table, assignments, tables.getD [], condition⟩

/-- A deletion of rows. -/
def delete : Production Delete := do
  expectKeyword .DELETE
  skipKeyword .FROM
  let table ← tableRef nested
  return ⟨table, ← behind .WHERE nested.expression⟩

end SqlFrontend.Grammar
