import SqlFrontend.Grammar.Query
import SqlFrontend.Tree.Definition

/-!
# Definitions of indexes and views

* `createIndex`, `createView`: an index or a view is defined.
* `drop`: objects are removed.

Section 4.3 of the polysql specification: *DDL: CREATE VIEW*, *Other CREATE statements* and *DROP and
ALTER TABLE*.
-/

namespace SqlFrontend.Grammar

open Production

variable (nested : Nested)

/-! ## Indexes -/

/-- The definition of an index, from the word for it on. The method stands before or behind the
columns. -/
def createIndex (unique : Bool) (clustered : Option Bool) : Production CreateIndex := do
  expectKeyword .INDEX
  let ifNotExists ← ifNotExists
  let indexName ← qualifiedName
  expectKeyword .ON
  let table ← objectName
  let method ← behind .USING name
  let columns ← inParens (sortItems nested)
  let method ← if method.isSome then pure method else behind .USING name
  let included ← behind .INCLUDE columnNames
  let condition ← behind .WHERE nested.expression
  return {
    unique, clustered, ifNotExists, table, method, columns, condition
    name := indexName, included := included.getD [] }

/-! ## Views -/

/-- An option of a view in parentheses, with its value. -/
def viewOption : Production (String × String) := do
  let key := Text.upper (← name)
  return (key, ← if ← consume .assign then optionValue else pure "TRUE")

/-- The options of a view, behind the word before them: in parentheses with values, or without. -/
def viewOptions : Production Options := do
  let entries ←
    if ← check .leftParen then inParens (list viewOption)
    else list do return (Text.upper (← name), "TRUE")
  return entries.foldl (fun options (key, value) => options.insert key value) {}

/-- Goes past the word that says through which views changes are checked. -/
def checkScope (options : Options) : Production Options := do
  if ← consumeKeyword .CASCADED then return options.insert "CHECK_OPTION" "CASCADED"
  else if ← consumeKeyword .LOCAL then return options.insert "CHECK_OPTION" "LOCAL"
  else return options

/-- What stands behind the query of a view: whether changes through it are checked, or whether it
holds rows at once. -/
def viewEnding (options : Options) : Production (Bool × Options) := do
  let options ← checkScope options
  if ← consumeKeyword .CHECK then
    expectKeyword .OPTION
    return (true, options)
  else if ← consumeKeyword .NO then
    expectKeyword .DATA
    return (false, options.insert "DATA" "FALSE")
  else if ← consumeKeyword .DATA then return (false, options.insert "DATA" "TRUE")
  else expected "CHECK OPTION or DATA"

/-- The definition of a view, from the word for it on. -/
def createView (orReplace materialized : Bool) : Production CreateView := do
  expectKeyword .VIEW
  let ifNotExists ← ifNotExists
  let name ← objectName
  let columns ← columnNames?
  let options := (← behind .WITH viewOptions).getD {}
  expectKeyword .AS
  let query ← nested.query
  let ending ← behind .WITH (viewEnding options)
  let (withCheckOption, options) := ending.getD (false, options)
  return { orReplace, materialized, ifNotExists, name, columns, query, withCheckOption, options }

/-! ## Removal -/

/-- The kind of the objects to remove. -/
def objectKind : Production ObjectKind := do
  match ← kind with
  | .keyword .TABLE => advance; return .table
  | .keyword .DATABASE => advance; return .database
  | .keyword .INDEX => advance; return .index
  | .keyword .VIEW => advance; return .view
  | .keyword .TRIGGER => advance; return .trigger
  | .keyword .PROCEDURE => advance; return .procedure
  | .keyword .FUNCTION => advance; return .function
  | .keyword .SCHEMA => advance; return .schema
  | .keyword .MATERIALIZED =>
    require .materializedView (← span)
    advance
    expectKeyword .VIEW
    return .materializedView
  | _ => if ← consumeWord "PROC" then return .procedure else expected "object type"

/-- The name of an object to remove. Types of parameters may follow and are skipped. -/
def droppedName : Production ObjectName := do
  let name ← objectName
  if ← check .leftParen then
    skipParens
  return name

/-- The removal of objects. -/
def drop : Production Drop := do
  expectKeyword .DROP
  let kind ← objectKind
  let ifExists ← ifExists
  let names ← list droppedName
  let onTable ← if kind = .index ∨ kind = .trigger then behind .ON objectName else pure none
  let cascade ← consumeKeyword .CASCADE
  let restrict ← if cascade then pure false else consumeKeyword .RESTRICT
  return { kind, ifExists, names, onTable, cascade, restrict }

end SqlFrontend.Grammar
