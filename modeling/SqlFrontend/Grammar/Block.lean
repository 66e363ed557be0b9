import SqlFrontend.Grammar.Query
import SqlFrontend.Tree.Statement

/-!
# Blocks

* `statements`: a list of statements, up to a word that ends it.
* `declaration`: a variable, a cursor or a handler is declared.
* `block`: declarations, statements and an exception section between words.

Section 4.3 of the polysql specification: *Declarations* and *Body statements*.
-/

namespace SqlFrontend.Grammar

open Production

variable (nested : Nested)

/-! ## Lists of statements -/

/-- Decides whether a list of statements ends here: at the end of the text, of a batch, or at one of
the words that end it. -/
def atListEnd (terminators : List Keyword) : Production Bool := do
  let p ← get
  return p.atEnd || p.atBatchSeparator ||
    terminators.any fun word => p.current.kind == .keyword word

/-- Statements, with or without semicolons between them, up to a word that ends the list. -/
def statements (terminators : List Keyword) : Production (List Statement) :=
  loop (fun (before : List Statement) => do
    skipSemicolons
    if ← atListEnd terminators then return .done before.reverse
    else
      match ← recovering nested.statement with
      | some statement => return .more (statement :: before)
      | none => return .more before) []

/-- Statements of a list that is closed by `END`. -/
def statementsToEnd : Production (List Statement) := statements nested [.END]

/-! ## Declarations -/

/-- A word that selects how a cursor behaves, or nothing if its query comes next. -/
def cursorOption? : Production (Option String) := do
  if (← checkKeyword .FOR) || (← checkKeyword .IS) then return none
  else if ← atName then return some (Text.upper (← takeLiteral))
  else expected "FOR"

/-- A cursor of the given name, behind the word for it. -/
def cursorDeclaration (name : String) : Production CursorDeclaration := do
  let options ← many cursorOption?
  advance
  return ⟨name, options, ← nested.query⟩

/-- Whether a variable always holds a value. -/
def notNull : Production Bool := consumeKeywords .NOT .NULL

/-- The value that a variable or a parameter begins with, behind one of the tokens for it. -/
def initialValue (tokens : List TokenKind) : Production (Option Expr) := do
  if ← consumeAny tokens then some <$> nested.expression else return none

/-- The type of a variable. The columns of a table type are skipped. -/
def variableType : Production DataType := do
  if ← consumeKeyword .TABLE then
    skipParens
    return .ofName "TABLE"
  else dataType

/-- Variables, the first of them of the given name. Only one type is read for each declaration. -/
def variableDeclaration (first : String) : Production VariableDeclaration := do
  let others ← many do
    if ← consume .comma then some <$> name else return none
  skipKeyword .AS
  let constant ← consumeKeyword .CONSTANT
  let type ← variableType
  let notNull ← notNull
  let initial ← initialValue nested [.keyword .DEFAULT, .assign, .colonAssign]
  if (← dialect) = .sqlServer then
    if ← check .comma then
      fail .severalTypedVariables (← span)
  return { names := first :: others, type, initial, constant, notNull }

/-- What a handler does when it is done, where a handler is declared here. -/
def handlerAction? : Production (Option HandlerAction) := do
  if ← peekKeyword .HANDLER then
    match ← kind with
    | .keyword .CONTINUE => return some .continueBlock
    | .keyword .EXIT => return some .exitBlock
    | .keyword .UNDO => return some .undo
    | _ => return none
  else return none

/-- A condition that a handler handles. -/
def handlerCondition : Production HandlerCondition := do
  match ← kind with
  | .keyword .SQLEXCEPTION => advance; return .sqlException
  | .keyword .SQLWARNING => advance; return .sqlWarning
  | .keyword .NOT => advance; expectKeyword .FOUND; return .notFound
  | .keyword .SQLSTATE => advance; .sqlState <$> sqlState
  | .number => .errorCode <$> integer
  | _ => .named <$> name

/-- A handler with the given action, from the word for the action on. -/
def handlerDeclaration (action : HandlerAction) : Production Declaration := do
  advance
  expectKeyword .HANDLER
  expectKeyword .FOR
  let conditions ← list handlerCondition
  let body ← if ← checkKeyword .BEGIN then .block <$> nested.block else nested.statement
  return .handler action conditions body

/-- A declaration, behind the word for it. -/
def declaration : Production Declaration := do
  match ← handlerAction? with
  | some action => handlerDeclaration nested action
  | none =>
    let name ← name
    if ← consumeKeyword .CURSOR then .cursor <$> cursorDeclaration nested name
    else .scalars <$> variableDeclaration nested name

/-- A declaration in the section before a block. -/
def sectionDeclaration : Production Declaration := do
  let name ← name
  let result ←
    if ← consumeKeyword .CURSOR then
      unless ← consumeKeyword .FOR do
        expectKeyword .IS
      pure (Declaration.cursor ⟨name, [], ← nested.query⟩)
    else
      let constant ← consumeKeyword .CONSTANT
      let type ← dataType
      let notNull ← notNull
      let initial ← initialValue nested [.colonAssign, .assign, .keyword .DEFAULT]
      pure (Declaration.scalars { names := [name], type, initial, constant, notNull })
  expect .semicolon
  return result

/-! ## Blocks -/

/-- The section of declarations before a block, if there is one. -/
def declarationSection : Production (List Declaration) := do
  if ← consumeKeyword .DECLARE then
    many do
      if (← checkKeyword .BEGIN) || (← get).atEnd then return none
      else some <$> sectionDeclaration nested
  else return []

/-- The declarations at the beginning of a block. -/
def innerDeclarations : Production (List Declaration) := many do
  skipSemicolons
  behind .DECLARE (declaration nested)

/-- The name of an exception. A keyword is spelt in its canonical way. -/
def exceptionName : Production String := do
  match ← kind with
  | .keyword .SQLSTATE => advance; sqlStateText <$> string
  | .keyword word =>
    if word.isReserved then name
    else
      advance
      return word.spelling
  | _ => name

/-- Statements for one or more exceptions. -/
def exceptionHandler? : Production (Option ExceptionHandler) := behind .WHEN do
  let first ← exceptionName
  let others ← many (behind .OR exceptionName)
  expectKeyword .THEN
  return ⟨first :: others, ← statements nested [.WHEN, .END]⟩

/-- The exception section of a block, behind the word for it. -/
def exceptionHandlers : Production (List ExceptionHandler) := do
  let handlers ← many (exceptionHandler? nested)
  if handlers.isEmpty then expected "WHEN" else return handlers

/-- A block under a label or without one. -/
def block (label : Option String) : Production Block := do
  let outer ← declarationSection nested
  expectKeyword .BEGIN
  let inner ← innerDeclarations nested
  let body ← statements nested [.END, .EXCEPTION]
  let handlers ← behind .EXCEPTION (exceptionHandlers nested)
  expectKeyword .END
  let endLabel ← trailingName?
  return { label, declarations := outer ++ inner, body, handlers, endLabel }

end SqlFrontend.Grammar
