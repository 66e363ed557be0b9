import SqlFrontend.Grammar.Command
import SqlFrontend.Grammar.Explain
import SqlFrontend.Grammar.Table
import SqlFrontend.Grammar.Transaction
import SqlFrontend.Grammar.Trigger
import SqlFrontend.Grammar.View

/-!
# Statements

* `statement`: any statement, chosen by its first token or by a label before it.
* `Nested.below`: the readings of nested constructs in a text that is shorter than a bound. Every
  construct starts behind the first token of the one that holds it, and the text of a quoted body is
  shorter than the statement around it, so the circle of productions is a descent.
* `parse`: any statement, with all that is nested in it.

Section 4.3, *Dispatch*, of the polysql specification.
-/

namespace SqlFrontend.Grammar

open Production

variable (nested : Nested)

/-! ## Definitions -/

/-- Goes past the words that say that an object is replaced where it exists. -/
def orReplace : Production Bool := do
  if (← checkKeywords .OR .REPLACE) || (← checkKeywords .OR .ALTER) then
    advance
    advance
    return true
  else return false

/-- How the rows of an index are stored, where that is said. -/
def clustering : Production (Option Bool) := do
  if ← consumeKeyword .CLUSTERED then return some true
  else if ← consumeKeyword .NONCLUSTERED then return some false
  else return none

/-- The definition of an object. -/
def create : Production Statement := do
  expectKeyword .CREATE
  let orReplace ← orReplace
  let temporary ← consumeAny [.keyword .TEMPORARY, .keyword .TEMP]
  let unique ← consumeKeyword .UNIQUE
  let clustered ← clustering
  match ← kind with
  | .keyword .TABLE => .createTable <$> createTable nested temporary
  | .keyword .INDEX => .createIndex <$> createIndex nested unique clustered
  | .keyword .VIEW => .createView <$> createView nested orReplace false
  | .keyword .MATERIALIZED =>
    require .materializedView (← span)
    advance
    .createView <$> createView nested orReplace true
  | .keyword .PROCEDURE => createProcedure nested orReplace
  | .keyword .FUNCTION => createFunction nested orReplace
  | .keyword .TRIGGER => .createTrigger <$> createTrigger nested orReplace
  | _ =>
    if ← checkWord "PROC" then createProcedure nested orReplace
    else expected "TABLE, INDEX, VIEW, PROCEDURE, FUNCTION or TRIGGER"

/-! ## Begin -/

/-- Decides whether the word `BEGIN` that stands here begins a transaction by what follows it. -/
def transactionFollows : Production Bool := do
  match ← peekKind with
  | .keyword .WORK | .keyword .TRANSACTION | .keyword .TRAN | .keyword .DEFERRED
  | .keyword .IMMEDIATE | .keyword .EXCLUSIVE | .semicolon | .eof => return true
  | _ => return (← get).isBatchSeparator (← get).peek

/-- What begins with `BEGIN`: a statement that catches errors, a block or a transaction. Blocks stand
in the bodies of routines, and in SQL Server anywhere. -/
def begin : Production Statement := do
  if ← peekKeyword .TRY then tryCatch nested
  else if ← transactionFollows then .beginTransaction <$> beginTransaction
  else if (← get).routineDepth > 0 ∨ (← dialect) = .sqlServer then .block <$> block nested none
  else .beginTransaction <$> beginTransaction

/-! ## Dispatch -/

/-- The statement that starts with a keyword. -/
def keywordStatement : Keyword → Production Statement
  | .SELECT => .query <$> selections nested
  | .WITH => .query <$> withTables nested
  | .INSERT => .insert <$> insert nested
  | .UPDATE => .update <$> update nested
  | .DELETE => .delete <$> delete nested
  | .CREATE => create nested
  | .DROP => .drop <$> drop
  | .ALTER => do
    let (table, action) ← alterTable nested
    return .alterTable table action
  | .BEGIN => begin nested
  | .START => .beginTransaction <$> startTransaction
  | .COMMIT => commit
  | .ROLLBACK => rollback
  | .SAVEPOINT | .SAVE => savepoint
  | .RELEASE => releaseSavepoint
  | .EXPLAIN => explain nested
  | .DECLARE => do
    expectKeyword .DECLARE
    .declare <$> declaration nested
  | .IF => conditional nested
  | .WHILE => whileLoop nested none
  | .LOOP => plainLoop nested none
  | .REPEAT => repeatLoop nested none
  | .FOR => forLoop nested none
  | .CASE => choiceStatement nested
  | .RETURN => returnStatement nested
  | .SET => set nested
  | .OPEN => openCursor nested
  | .FETCH => fetch nested
  | .CLOSE => closeCursor
  | .DEALLOCATE => deallocate
  | .EXIT | .LEAVE | .BREAK => leave nested
  | .CONTINUE | .ITERATE => iterate nested
  | .RAISE | .RAISERROR => raise nested
  | .THROW => throwStatement nested
  | .SIGNAL | .RESIGNAL => signal nested
  | .CALL | .EXEC | .EXECUTE => call nested
  | _ => expected "statement"

/-- Decides whether a name stands here that is assigned to. A name in quotes is not. -/
def atAssignment : Production Bool := do
  match ← kind with
  | .identifier | .keyword _ => checkPeek .colonAssign
  | _ => return false

/-- A statement that starts with a name or with a label in angle brackets. -/
def namedStatement : Production Statement := do
  if (← atName) && (← checkPeek .colon) then
    let label ← name
    advance
    labelled nested label
  else if ← atAssignment then .assign <$> assignments nested
  else if (← check .lt) && (← checkPeek .lt) then labelled nested (← angleLabel)
  else expected "statement"

/-- Any statement. -/
def statement : Production Statement := do
  match ← kind with
  | .keyword word =>
    if word.isReserved then keywordStatement nested word else namedStatement nested
  | _ => namedStatement nested

/-! ## Closing the circle -/

/-- Runs a production if less text is left than a bound. -/
def within {α : Type} (bound : Nat) (production : (left : Nat) → left < bound → Production α) :
    Production α := fun p =>
  if h : p.remaining < bound then production p.remaining h p
  else .error (p.expectedError "shorter text") p

/-- The readings of nested constructs, in a text that is shorter than a bound. -/
def Nested.below (bound : Nat) : Nested :=
  { expression := within bound fun left _ => Grammar.expression (below left)
    primary := within bound fun left _ => Grammar.primary (below left)
    selections := within bound fun left _ => Grammar.selections (below left)
    query := within bound fun left _ => Grammar.query (below left)
    statement := within bound fun left _ => Grammar.statement (below left)
    block := within bound fun left _ => Grammar.block (below left) none }
termination_by bound

/-- Any statement, with all that is nested in it. -/
def parse : Production Statement := fun p => statement (Nested.below p.remaining) p

end SqlFrontend.Grammar
