import SqlFrontend.Grammar.Expression

/-!
# Queries

* `selection`: one selection, whose node goes back to its pool if it cannot be read.
* `selections`: selections combined by set operators, from left to right.
* `query`: a query of any kind; `withTables`: one that names others first.
* `tableRef`: a table that a statement reads or changes.

Section 4.3 of the polysql specification: *SELECT grammar*, *Select list*, *Table reference* and *Set
operations*.
-/

namespace SqlFrontend.Grammar

open Production

/-! ## Tables -/

/-- A name for the item before it, with or without a word between them. -/
def asName? : Production (Option String) := do
  if ← consumeKeyword .AS then some <$> name else trailingName?

/-- The hints for the use of a table. -/
def tableHints : Production (List String) := do
  if (← checkKeyword .WITH) && (← checkPeek .leftParen) then
    advance
    inParens (list (Text.upper <$> name))
  else return []

variable (nested : Nested)

/-- A named table, or a query in parentheses under a name. -/
def tableRef : Production TableRef := do
  if ← check .leftParen then
    let place ← span
    let query ← inParens nested.selections
    match ← asName? with
    | some asName => return .derived query asName
    | none => fail .derivedTableWithoutAlias place
  else
    let table ← objectName
    let asName ← asName?
    return .table table asName (← tableHints)

/-! ## Joins -/

/-- Decides whether a join starts here. -/
def atJoin : Production Bool := do
  match ← kind with
  | .keyword .JOIN | .keyword .INNER | .keyword .LEFT | .keyword .RIGHT | .keyword .FULL
  | .keyword .CROSS => return true
  | _ => return false

/-- The words that start a join. -/
def joinKind : Production JoinKind := do
  match ← kind with
  | .keyword .JOIN => advance; return .inner
  | .keyword .INNER => advance; expectKeyword .JOIN; return .inner
  | .keyword .LEFT => advance; skipKeyword .OUTER; expectKeyword .JOIN; return .left
  | .keyword .RIGHT => advance; skipKeyword .OUTER; expectKeyword .JOIN; return .right
  | .keyword .FULL => advance; skipKeyword .OUTER; expectKeyword .JOIN; return .full
  | .keyword .CROSS => advance; expectKeyword .JOIN; return .cross
  | _ => expected "JOIN"

/-- Reads a join into a node. All joins but the crossing one have a condition or shared columns. -/
def joinInto (node : Join) : Production Join := do
  let kind ← joinKind
  let table ← tableRef nested
  let node := { node with kind, table }
  if kind = .cross then return node
  else if ← consumeKeyword .ON then
    return { node with condition := some (← nested.expression) }
  else if ← consumeKeyword .USING then return { node with sharedColumns := ← columnNames }
  else expected "ON or USING"

/-- A join, whose node goes back to its pool if it cannot be read. -/
def join : Production Join := do
  let node ← acquireJoin
  onFailure (joinInto nested node) fun pools => { pools with join := pools.join.release node }

/-! ## Selections -/

/-- The limit before the columns, behind its first word. -/
def topLimit : Production Top := do
  let quantity ← if ← check .leftParen then inParens nested.expression else nested.primary
  let percent ← consumeKeyword .PERCENT
  let withTies ← consumeKeywords .WITH .TIES
  return ⟨quantity, percent, withTies⟩

/-- The limit before the columns, where the dialect has it. -/
def top? : Production (Option Top) := do
  if ← checkKeyword .TOP then
    require .top (← span)
    advance
    some <$> topLimit nested
  else return none

/-- A column of a selection, with its name if it has one. -/
def selectColumn : Production Expr := do
  let expr ← nested.expression
  match ← asName? with
  | some asName => return .aliased expr asName
  | none => return expr

/-- Goes past the word that says that equal rows count once, or its opposite. -/
def distinctRows : Production Bool := do
  if ← consumeKeyword .DISTINCT then return true
  else
    skipKeyword .ALL
    return false

/-- The tables of a selection and the joins behind them. -/
def tablesAndJoins : Production (List TableRef × List Join) := do
  let tables ← list (tableRef nested)
  let joins ← many do
    if ← atJoin then some <$> join nested else return none
  return (tables, joins)

/-- A count of rows, or two with a comma between them, of which the first is an offset. -/
def limitAndOffset : Production (Expr × Option Expr) := do
  let first ← nested.expression
  if ← consume .comma then return (← nested.expression, some first) else return (first, none)

/-- The number of rows to skip. -/
def offsetRows : Production Expr := do
  let count ← nested.expression
  unless ← consumeKeyword .ROWS do
    skipKeyword .ROW
  return count

/-- The number of rows to fetch, if it is given here. -/
def fetchRows? : Production (Option Expr) := do
  if (← checkKeywords .FETCH .FIRST) || (← checkKeywords .FETCH .NEXT) then
    advance
    advance
    let count ← nested.expression
    unless ← consumeKeyword .ROWS do
      expectKeyword .ROW
    expectKeyword .ONLY
    return some count
  else return none

/-- Expressions behind two keywords, if the first one stands here. -/
def behindBy {α : Type} (word : Keyword) (items : Production α) : Production (Option α) :=
  behind word do
    expectKeyword .BY
    items

/-- Reads a selection into a node. Clauses that are missing leave their part of the node alone. -/
def selectInto (node : Select) : Production Select := do
  expectKeyword .SELECT
  let distinct ← distinctRows
  let top ← top? nested
  let columns ← list (selectColumn nested)
  let into ← behind .INTO (list qualifiedName)
  let sources ← behind .FROM (tablesAndJoins nested)
  let condition ← behind .WHERE nested.expression
  let groupBy ← behindBy .GROUP (list nested.expression)
  let having ← behind .HAVING nested.expression
  let orderBy ← behindBy .ORDER (sortItems nested)
  let limits ← behind .LIMIT (limitAndOffset nested)
  let offset ← behind .OFFSET (offsetRows nested)
  let fetch ← fetchRows? nested
  return { node with
    distinct
    top := top <|> node.top
    columns
    into := into.getD node.into
    tables := node.tables ++ (sources.map Prod.fst).getD []
    joins := node.joins ++ (sources.map Prod.snd).getD []
    condition := condition <|> node.condition
    groupBy := groupBy.getD node.groupBy
    having := having <|> node.having
    orderBy := orderBy.getD node.orderBy
    limit := limits.map Prod.fst <|> node.limit
    offset := offset <|> (limits.bind Prod.snd) <|> node.offset
    fetch := fetch <|> node.fetch }

/-- A selection, whose node goes back to its pool if it cannot be read. -/
def selection : Production Select := do
  let node ← acquireSelect
  onFailure (selectInto nested node) fun pools =>
    { pools with select := pools.select.release node }

/-- The set operator that stands here, if there is one. -/
def setOperator? : Production (Option SetOperator) := do
  match ← kind with
  | .keyword .UNION => return some .union
  | .keyword .INTERSECT => return some .intersect
  | .keyword .EXCEPT => return some .except
  | _ => return none

/-- Selections, combined by set operators from left to right. -/
def selections : Production Query := do
  let first ← selection nested
  loop (fun left => do
    match ← setOperator? with
    | some op =>
      advance
      let all ← consumeKeyword .ALL
      unless all do
        skipKeyword .DISTINCT
      return .more (.setOperation left op all (← selection nested))
    | none => return .done left) (.select first)

/-! ## Named queries -/

/-- A query that others can refer to by name. -/
def commonTable : Production CommonTable := do
  let name ← name
  let columns ← columnNames?
  expectKeyword .AS
  return ⟨name, columns, ← inParens nested.query⟩

/-- A query that names others first. Any statement is read behind the names, but only a query may stand
there. -/
def withTables : Production Query := do
  expectKeyword .WITH
  let recursive ← consumeKeyword .RECURSIVE
  let tables ← list (commonTable nested)
  let place ← span
  let body ← nested.statement
  match body.query? with
  | some q => return .withTables recursive tables q
  | none => fail .withoutQuery place

/-- A query of any kind. -/
def query : Production Query := do
  if ← checkKeyword .WITH then withTables nested
  else if ← checkKeyword .SELECT then selections nested
  else expected "SELECT"

end SqlFrontend.Grammar
