import SqlFrontend.Grammar.Rows
import SqlFrontend.Tree.Statement

/-!
# Simple commands

Statements that hold no others: settings and assignments, calls, cursors, and errors.

Section 4.3, *Stored routine additions*, of the polysql specification: *Assignment and session
options*, *Errors and exceptions*, *Cursors* and *Calls*.
-/

namespace SqlFrontend.Grammar

open Production

variable (nested : Nested)

/-! ## Settings -/

/-- Decides whether an option is set here, and not a variable. -/
def atOptionName : Production Bool := do
  match ← peekKind with
  | .assign | .colonAssign | .dot => return false
  | _ => atName

/-- A setting of an option, or an assignment to variables. -/
def set : Production Statement := do
  expectKeyword .SET
  if ← consumeKeyword .TRANSACTION then return .setOption "TRANSACTION" (← optionWords)
  else if ← atOptionName then
    let option := Text.upper (← takeLiteral)
    skipKeyword .TO
    return .setOption option (← optionWords)
  else .assign <$> assignments nested

/-! ## Calls -/

/-- Decides whether a variable is named here. -/
def atVariable : Production Bool := return (← current).literal.startsWith "@"

/-- The text of a dynamic statement, with or without parentheses. -/
def dynamicArguments : Production (List Expr) := do
  if ← check .leftParen then inParens (list nested.expression)
  else List.singleton <$> nested.expression

/-- Decides whether a dynamic statement follows. -/
def atDynamicText : Production Bool := do
  if ← check .string then return true
  else if ← check .leftParen then return !(← checkPeek .rightParen)
  else return false

/-- The arguments of a call in parentheses. -/
def parenArguments : Production (List Expr) := inParens do
  if ← check .rightParen then return [] else list nested.expression

/-- An argument of a call without parentheses. That it is an output is not kept. -/
def bareArgument : Production Expr := do
  let value ← nested.expression
  skipWord "OUTPUT"
  return value

/-- A call of a routine by name. Only some words for a call allow arguments without parentheses. -/
def namedCall (bareArguments : Bool) : Production Statement := do
  if (← atVariable) && (← checkPeek .assign) then
    advance
    advance
  let routine ← objectName
  if ← check .leftParen then return .call routine (← parenArguments nested)
  else if bareArguments && (← atExpressionStart) then
    return .call routine (← list (bareArgument nested))
  else return .call routine []

/-- A call of a routine, or of a dynamic statement. -/
def call : Production Statement := do
  let plain ← checkKeyword .CALL
  advance
  if !plain && (← atDynamicText) then
    return .call { name := "EXECUTE" } (← dynamicArguments nested)
  else namedCall nested !plain

/-! ## Cursors -/

/-- The opening of a cursor. -/
def openCursor : Production Statement := do
  expectKeyword .OPEN
  let cursor ← qualifiedName
  return .openCursor cursor (← behind .FOR nested.query)

/-- The row that a cursor moves to, where that is said. -/
def fetchDirection : Production (Option FetchDirection) := do
  match ← kind with
  | .keyword .NEXT => advance; return some .next
  | .keyword .PRIOR => advance; return some .prior
  | .keyword .FIRST => advance; return some .first
  | .keyword .LAST => advance; return some .last
  | .keyword .ABSOLUTE => advance; return some (.absolute (← nested.primary))
  | .keyword .RELATIVE => advance; return some (.relative (← nested.primary))
  | _ => return none

/-- The reading of a row from a cursor. -/
def fetch : Production Statement := do
  expectKeyword .FETCH
  let direction ← fetchDirection nested
  unless ← consumeKeyword .FROM do
    skipKeyword .IN
  let cursor ← qualifiedName
  let into ← behind .INTO (list qualifiedName)
  return .fetch ⟨direction, cursor, into.getD []⟩

/-- The closing of a cursor. -/
def closeCursor : Production Statement := do
  expectKeyword .CLOSE
  .closeCursor <$> qualifiedName

/-- The removal of a cursor or of a prepared statement. -/
def deallocate : Production Statement := do
  expectKeyword .DEALLOCATE
  skipWord "PREPARE"
  .deallocate <$> qualifiedName

/-! ## Errors -/

/-- The arguments of a message. -/
def messageArguments : Production (List Expr) := many do
  if ← consume .comma then some <$> nested.expression else return none

/-- How severe a raised message is, where that is said. -/
def raiseLevel : Production (Option RaiseLevel) := do
  match ← kind with
  | .identifier | .keyword .EXCEPTION =>
    match RaiseLevel.ofWord? (← current).literal with
    | some level => advance; return some level
    | none => return none
  | _ => return none

/-- What is raised: a message with its arguments, a condition, or nothing. -/
def raiseSubject : Production (Option Expr × List Expr × Option String) := do
  if ← check .string then
    let message := Expr.literal (.string (← takeLiteral))
    return (some message, ← messageArguments nested, none)
  else if ← consumeKeyword .SQLSTATE then return (none, [], some (sqlStateText (← sqlState)))
  else if ← atName then return (none, [], some (← name))
  else return (none, [], none)

/-- A setting that is switched on. -/
def switchedOn : Production Assignment := return ⟨Text.upper (← name), .literal (.boolean true)⟩

/-- A raised message in the form of a call, behind the word for it. -/
def raiseCall : Production Raise := do
  let (message, arguments) ← inParens do
    return (← nested.expression, ← messageArguments nested)
  let options ← behind .WITH (list switchedOn)
  return {
    isCall := true, level := none, message := some message, arguments, condition := none
    options := options.getD [] }

/-- A message or an error that is raised. -/
def raise : Production Statement := do
  if ← consumeKeyword .RAISERROR then .raise <$> raiseCall nested
  else
    expectKeyword .RAISE
    let level ← raiseLevel
    let (message, arguments, condition) ← raiseSubject nested
    let options ← behind .USING (assignments nested)
    return .raise {
      isCall := false, level, message, arguments, condition, options := options.getD [] }

/-- A thrown error: its number, its message and its state, or the error at hand. -/
def throwStatement : Production Statement := do
  expectKeyword .THROW
  if ← atExpressionStart then
    let errorNumber ← nested.expression
    expect .comma
    let message ← nested.expression
    expect .comma
    return .throwing (some ⟨errorNumber, message, ← nested.expression⟩)
  else return .throwing none

/-- The condition that is signalled, by its code or by its name. -/
def signalledCondition : Production (Option String × Option String) := do
  if ← consumeKeyword .SQLSTATE then return (some (← sqlState), none)
  else if ← atName then return (none, some (← name))
  else return (none, none)

/-- A condition that is signalled. -/
def signal : Production Statement := do
  let again ← checkKeyword .RESIGNAL
  advance
  let (code, condition) ← signalledCondition
  let properties ← behind .SET (assignments nested)
  return .signal ⟨again, code, condition, properties.getD []⟩

end SqlFrontend.Grammar
