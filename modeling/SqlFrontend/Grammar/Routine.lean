import SqlFrontend.Grammar.Control

/-!
# Routines

* `createProcedure`, `createFunction`: a routine is defined.
* `parameters`, `routineOptions`: what is declared before its body.
* `routineBody`: its body. A quoted body is a source of its own, read by a parser of its own.

Section 4.3 of the polysql specification: *Stored routines* and *Stored routine additions*.
-/

namespace SqlFrontend.Grammar

open Production

variable (nested : Nested)

/-! ## Parameters -/

/-- The direction of a parameter, where it is given first. -/
def parameterMode : Production (Option ParameterMode) := do
  match ← kind with
  | .keyword .IN => advance; return some .input
  | .keyword .OUT => advance; return some .output
  | .keyword .INOUT => advance; return some .inputOutput
  | _ => return none

/-- Goes past the word for a parameter that takes any number of values. -/
def variadic : Production Bool := do
  if ← checkKeyword .VARIADIC then
    require .variadic (← span)
    advance
    return true
  else return false

/-- The name of a parameter. It is present if a type follows it. -/
def parameterName? : Production (Option String) := do
  if (← atName) && (← peekIsName) then some <$> name else return none

/-- Goes past the words behind a parameter, and says whether they make it an output. -/
def parameterIsOutput : Production Bool := do
  if ← consumeWord "OUTPUT" then return true
  else if ← consumeKeyword .OUT then return true
  else
    skipWord "READONLY"
    return false

/-- A parameter of a routine. -/
def parameter : Production Parameter := do
  let mode ← parameterMode
  let variadic ← variadic
  let name ← parameterName?
  let type ← dataType
  let initial ← initialValue nested [.keyword .DEFAULT, .assign]
  let mode := if ← parameterIsOutput then some .output else mode
  return { mode, variadic, name, type, initial }

/-- The parameters of a routine, with or without parentheses. Without them the first has to be a
variable. -/
def parameters : Production (List Parameter) := do
  if ← check .leftParen then
    inParens do
      if ← check .rightParen then return [] else list (parameter nested)
  else
    let token ← current
    if token.kind = .identifier ∧ token.literal.startsWith "@" then list (parameter nested)
    else return []

/-- The type of the values of a function. The columns of a table type are skipped. -/
def returnType : Production DataType := do
  if (← current).literal.startsWith "@" && (← peekKeyword .TABLE) then
    advance
  if ← consumeKeyword .TABLE then
    if ← check .leftParen then
      skipParens
    return .ofName "TABLE"
  else dataType

/-! ## Characteristics -/

/-- The language of a body. The procedural language of PostgreSQL is not available everywhere. -/
def language : Production String := do
  let place ← span
  let language := Text.upper (← name)
  if language = "PLPGSQL" then
    require .plpgsql place
  return language

/-- Whose rights a routine runs with. -/
def securityMode : Production SecurityMode := do
  if ← consumeKeyword .DEFINER then return .definer
  else
    expectKeyword .INVOKER
    return .invoker

/-- The next characteristic of a routine, or nothing if none stands here. -/
def routineOption? (options : RoutineOptions) : Production (Option RoutineOptions) := do
  match ← kind, ← peekKind with
  | .keyword .LANGUAGE, _ => advance; return some { options with language := some (← language) }
  | .keyword .SQL, .keyword .SECURITY => advance; return some options
  | .keyword .SECURITY, _ =>
    advance
    return some { options with security := some (← securityMode) }
  | .keyword .DETERMINISTIC, _ => advance; return some { options with deterministic := some true }
  | .keyword .NOT, .keyword .DETERMINISTIC =>
    advance
    advance
    return some { options with deterministic := some false }
  | .keyword .CONTAINS, _ =>
    advance
    expectKeyword .SQL
    return some { options with dataAccess := some .containsSql }
  | .keyword .NO, .keyword .SQL =>
    advance
    advance
    return some { options with dataAccess := some .noSql }
  | .keyword .READS, _ =>
    advance
    expectKeyword .SQL
    expectKeyword .DATA
    return some { options with dataAccess := some .readsSqlData }
  | .keyword .MODIFIES, _ =>
    advance
    expectKeyword .SQL
    expectKeyword .DATA
    return some { options with dataAccess := some .modifiesSqlData }
  | .keyword .COMMENT, .string =>
    advance
    return some { options with comment := some (← takeLiteral) }
  | .keyword .IMMUTABLE, _ => advance; return some { options with volatility := some .immutable }
  | .keyword .STABLE, _ => advance; return some { options with volatility := some .stable }
  | .keyword .VOLATILE, _ => advance; return some { options with volatility := some .volatile }
  | .keyword .WITH, _ =>
    if (← dialect) = .sqlServer && (← peekIsName) then
      advance
      discard (list name)
      return some options
    else return none
  | _, _ => return none

/-- The characteristics of a routine, added to others. Of two for the same thing the last counts. -/
def routineOptions (options : RoutineOptions) : Production RoutineOptions :=
  loop (fun options => do
    match ← routineOption? options with
    | some options => return .more options
    | none => return .done options) options

/-! ## Bodies -/

/-- Decides whether a block starts here, and not a transaction. -/
def atBlockStart : Production Bool := do
  match ← kind, ← peekKind with
  | .keyword .BEGIN, .keyword .TRY | .keyword .BEGIN, .keyword .TRAN
  | .keyword .BEGIN, .keyword .TRANSACTION | .keyword .BEGIN, .keyword .WORK => return false
  | .keyword .BEGIN, _ => return true
  | .keyword .DECLARE, _ => return (← dialect) = .postgreSql
  | .lt, .lt => return true
  | _, _ => return false

/-- A block with a label in angle brackets, or without a label. -/
def labelledBlock : Production Block := do
  let label ← if ← check .lt then some <$> angleLabel else pure none
  block nested label

/-- The whole text of a quoted body: a block, or statements. -/
def quotedText : Production Block := do
  let body ← if ← atBlockStart then labelledBlock nested else .ofBody <$> statements nested []
  skipSemicolons
  if (← get).atEnd then return body else expected "end of routine body"

/-- Fails with the first of several errors and defers the others, all at one place. -/
def failAt {α : Type} (place : Span) (first : ParseError) (others : List ParseError) :
    Production α := do
  modify fun p => p.defer (others.map fun e => { e with span := place })
  fail first.cause place

/-- Takes the pools over from the parser of a quoted body, and is cancelled if that was. -/
def leaveQuoted (place : Span) (inner : Parser) : Production Unit := do
  modify fun p => { p with pools := inner.pools }
  if inner.cancelled then
    modify Parser.cancel
    fail .cancelled place

/-- What comes of a quoted body whose text was read. It is in order only if no error was met on the
way. -/
def quotedOutcome (place : Span) : EStateM.Result ParseError Parser Block → Production Block
  | .ok body inner => do
    leaveQuoted place inner
    match inner.errors.toList with
    | [] => return body
    | first :: others => failAt place first others
  | .error e inner => do
    leaveQuoted place inner
    match inner.errors.toList with
    | [] => failAt place e []
    | first :: others => failAt place first (others ++ [e])

/-- A quoted body. Its text is read by a parser of its own, with the same pools. -/
def quotedBody : Production Block := do
  let place ← span
  let text ← takeLiteral
  quotedOutcome place (quotedText nested ((← get).nested text))

/-- The body of a routine. In PostgreSQL it may be a string; a text in dollar quotes is one
everywhere. In SQL Server it is the rest of the batch, elsewhere a single statement. -/
def routineBody : Production Block := do
  unless ← consumeKeyword .AS do
    skipKeyword .IS
  let dialect ← dialect
  if ← check .dollarQuote then quotedBody nested
  else if dialect = .postgreSql && (← check .string) then quotedBody nested
  else if ← atBlockStart then inRoutine (labelledBlock nested)
  else if dialect = .sqlServer then .ofBody <$> inRoutine (statements nested [])
  else
    let statement ← inRoutine nested.statement
    return .ofBody [statement]

/-! ## Definitions -/

/-- The rest of the definition of a routine, behind its parameters and its type. Characteristics stand
before the body and behind it. -/
def routineEnd (orReplace : Bool) (name : ObjectName) (parameters : List Parameter) :
    Production Routine := do
  let options ← routineOptions {}
  let body ← routineBody nested
  let options ← routineOptions options
  return { orReplace, name, parameters, options, body }

/-- The definition of a procedure, from the word for it on. -/
def createProcedure (orReplace : Bool) : Production Statement := do
  unless ← consumeKeyword .PROCEDURE do
    expectWord "PROC"
  let name ← objectName
  let parameters ← parameters nested
  return .createProcedure (← routineEnd nested orReplace name parameters)

/-- The definition of a function, from the word for it on. -/
def createFunction (orReplace : Bool) : Production Statement := do
  expectKeyword .FUNCTION
  let name ← objectName
  let parameters ← parameters nested
  unless ← consumeKeyword .RETURNS do
    fail .functionWithoutReturns (← span)
  let returns ← returnType
  return .createFunction (← routineEnd nested orReplace name parameters) returns

end SqlFrontend.Grammar
