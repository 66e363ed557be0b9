import SqlFrontend.Grammar.Expression
import SqlFrontend.Tree.Definition

/-!
# Definitions of tables

* `createTable`, `alterTable`: a table is defined or changed.
* `columnDefinition`, `tableConstraint`: what a table is made of.

Section 4.3 of the polysql specification: *DDL: CREATE TABLE* and *DROP and ALTER TABLE*.
-/

namespace SqlFrontend.Grammar

open Production

/-! ## References -/

/-- What happens to a row when the row it refers to changes. -/
def referentialAction : Production ReferentialAction := do
  if ← consumeKeyword .CASCADE then return .cascade
  else if ← consumeKeyword .RESTRICT then return .restrict
  else if ← consumeKeyword .SET then
    if ← consumeKeyword .NULL then return .setNull
    else
      expectKeyword .DEFAULT
      return .setDefault
  else if ← consumeKeyword .NO then
    expectKeyword .ACTION
    return .noAction
  else expected "CASCADE, RESTRICT, SET NULL, SET DEFAULT or NO ACTION"

/-- A reference to rows of another table. The last action given for an event counts. -/
def foreignKey : Production ForeignKey := do
  expectKeyword .REFERENCES
  let table ← objectName
  let columns ← columnNames?
  loop (fun (key : ForeignKey) => do
    if ← checkKeywords .ON .DELETE then
      advance
      advance
      return .more { key with onDelete := some (← referentialAction) }
    else if ← checkKeywords .ON .UPDATE then
      advance
      advance
      return .more { key with onUpdate := some (← referentialAction) }
    else return .done key) ⟨table, columns, none, none⟩

/-! ## Columns -/

/-- Goes past a word about the storage of an index. -/
def skipClustering : Production Unit := do
  unless ← consumeKeyword .CLUSTERED do
    skipKeyword .NONCLUSTERED

/-- The first number of a numbered column and the distance of the numbers, behind the word for it. -/
def identity : Production AutoNumber := do
  if ← check .leftParen then
    inParens do
      let seed ← integer
      let increment ← if ← consume .comma then some <$> integer else pure none
      return .identity (some seed) increment
  else return .identity none none

/-- How a generated column is numbered, behind the word for it. Details in parentheses are skipped. -/
def generated : Production AutoNumber := do
  let always ← consumeKeyword .ALWAYS
  unless always do
    expectKeyword .BY
    expectKeyword .DEFAULT
  expectKeyword .AS
  expectKeyword .IDENTITY
  if ← check .leftParen then
    skipParens
  return .generated always

variable (nested : Nested)

/-- The next property of a column, or nothing if none stands here. -/
def columnProperty? (column : ColumnDefinition) : Production (Option ColumnDefinition) := do
  match ← kind with
  | .keyword .CONSTRAINT => advance; return some { column with constraintName := some (← name) }
  | .keyword .NOT => advance; expectKeyword .NULL; return some { column with nullable := some false }
  | .keyword .NULL => advance; return some { column with nullable := some true }
  | .keyword .PRIMARY =>
    advance
    expectKeyword .KEY
    skipClustering
    return some { column with primaryKey := true }
  | .keyword .UNIQUE => advance; skipKeyword .KEY; return some { column with unique := true }
  | .keyword .AUTO_INCREMENT =>
    advance
    return some { column with autoNumber := some .autoIncrement }
  | .keyword .AUTOINCREMENT =>
    advance
    return some { column with autoNumber := some .autoincrement }
  | .keyword .IDENTITY => advance; return some { column with autoNumber := some (← identity) }
  | .keyword .GENERATED => advance; return some { column with autoNumber := some (← generated) }
  | .keyword .DEFAULT => advance; return some { column with initial := some (← nested.expression) }
  | .keyword .REFERENCES => return some { column with foreignKey := some (← foreignKey) }
  | .keyword .CHECK =>
    advance
    return some { column with check := some (← inParens nested.expression) }
  | .keyword .COLLATE => advance; return some { column with collation := some (← name) }
  | .keyword .COMMENT =>
    if ← checkPeek .string then
      advance
      advance
      return some column
    else return none
  | _ => return none

/-- The definition of a column. Where a property is given twice, the last one counts. -/
def columnDefinition : Production ColumnDefinition := do
  let name ← name
  let type ← dataType
  loop (fun column => do
    match ← columnProperty? nested column with
    | some column => return .more column
    | none => return .done column) { name, type }

/-! ## Constraints -/

/-- Decides whether a constraint on a table starts here. -/
def atTableConstraint : Production Bool := do
  match ← kind with
  | .keyword .PRIMARY | .keyword .FOREIGN | .keyword .UNIQUE | .keyword .CONSTRAINT
  | .keyword .CHECK | .keyword .INDEX => return true
  | _ => return false

/-- Goes past the name of an index, which is not kept. -/
def skipIndexName : Production Unit := do
  if ← atName then
    advance

/-- What a constraint asks for. -/
def constraintKind : Production ConstraintKind := do
  match ← kind with
  | .keyword .PRIMARY => advance; expectKeyword .KEY; skipClustering; .primaryKey <$> columnNames
  | .keyword .UNIQUE =>
    advance
    skipKeyword .KEY
    skipClustering
    skipIndexName
    .unique <$> columnNames
  | .keyword .FOREIGN =>
    advance
    expectKeyword .KEY
    let columns ← columnNames
    return .foreignKey columns (← foreignKey)
  | .keyword .CHECK => advance; .check <$> inParens nested.expression
  | .keyword .INDEX => advance; skipIndexName; .index <$> columnNames
  | _ => expected "PRIMARY KEY, FOREIGN KEY, UNIQUE or CHECK"

/-- A constraint on a table. -/
def tableConstraint : Production TableConstraint := do
  let name ← behind .CONSTRAINT name
  return ⟨name, ← constraintKind nested⟩

/-! ## Tables -/

/-- The value of an option of a table, which may be missing. -/
def tableOptionValue : Production String := do
  if ← consume .assign then optionValue
  else if (← atTerminator) || (← check .comma) then return "TRUE"
  else optionValue

/-- The options behind the columns of a table, up to the first token that names none. -/
def tableOptions : Production Options :=
  loop (fun (options : Options) => do
    if ← atTerminator then return .done options
    else if ← consumeKeyword .ON then return .more (options.insert "ON" (← optionValue))
    else
      skipKeyword .DEFAULT
      if ← atName then
        let key := Text.upper (← takeLiteral)
        let options := options.insert key (← tableOptionValue)
        discard (consume .comma)
        return .more options
      else return .done options) {}

/-- A column or a constraint of a table. -/
def tableItem : Production (ColumnDefinition ⊕ TableConstraint) := do
  if ← atTableConstraint then .inr <$> tableConstraint nested else .inl <$> columnDefinition nested

/-- The definition of a table, from the word for it on. -/
def createTable (temporary : Bool) : Production CreateTable := do
  expectKeyword .TABLE
  let ifNotExists ← ifNotExists
  let name ← objectName
  if ← checkKeyword .AS then
    fail .tableFromQuery (← span)
  let items ← inParens (list (tableItem nested))
  let options ← tableOptions
  return {
    ifNotExists, temporary, name, options
    columns := items.filterMap Sum.getLeft?
    constraints := items.filterMap Sum.getRight? }

/-! ## Changes -/

/-- What is added to a table. -/
def addAction : Production AlterAction := do
  if ← atTableConstraint then .addConstraint <$> tableConstraint nested
  else
    skipKeyword .COLUMN
    .addColumn <$> columnDefinition nested

/-- What is taken from a table. -/
def dropAction : Production AlterAction := do
  if ← consumeKeyword .CONSTRAINT then .dropConstraint <$> name
  else
    skipKeyword .COLUMN
    let ifExists ← ifExists
    return .dropColumn (← name) ifExists

/-- A new type for a column. Whether it may hold absent values can be said again and is not kept. -/
def alterColumnAction : Production AlterAction := do
  skipKeyword .COLUMN
  let column ← name
  if ← consumeKeyword .SET then
    expectKeyword .DATA
  skipKeyword .TYPE
  let type ← dataType
  if ← consumeKeyword .NOT then
    expectKeyword .NULL
  else
    skipKeyword .NULL
  return .alterColumnType column type

/-- A new name for a column or for the table. -/
def renameAction : Production AlterAction := do
  if ← consumeKeyword .COLUMN then
    let oldName ← name
    expectKeyword .TO
    return .renameColumn oldName (← name)
  else
    unless ← consumeKeyword .TO do
      skipKeyword .AS
    .renameTable <$> objectName

/-- What is changed of a table. -/
def alterAction : Production AlterAction := do
  match ← kind with
  | .keyword .ADD => advance; addAction nested
  | .keyword .DROP => advance; dropAction
  | .keyword .MODIFY => advance; skipKeyword .COLUMN; .modifyColumn <$> columnDefinition nested
  | .keyword .CHANGE =>
    advance
    skipKeyword .COLUMN
    let oldName ← name
    return .changeColumn oldName (← columnDefinition nested)
  | .keyword .ALTER => advance; alterColumnAction
  | .keyword .RENAME => advance; renameAction
  | _ => expected "ADD, DROP, MODIFY, CHANGE, ALTER or RENAME"

/-- A change of a table. -/
def alterTable : Production (ObjectName × AlterAction) := do
  expectKeyword .ALTER
  expectKeyword .TABLE
  let name ← objectName
  return (name, ← alterAction nested)

end SqlFrontend.Grammar
