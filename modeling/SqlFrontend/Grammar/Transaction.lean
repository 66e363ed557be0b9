import SqlFrontend.Grammar.Names
import SqlFrontend.Tree.Statement

/-!
# Transactions

* `beginTransaction`, `startTransaction`: the begin of a transaction, in its two spellings.
* `commit`, `rollback`, `savepoint`, `releaseSavepoint`: its ends, and its savepoints.

Section 4.3, *Transactions*, of the polysql specification.
-/

namespace SqlFrontend.Grammar

open Production

/-! ## Begin -/

/-- A word of a mode, if the mode goes on. -/
def modeWord? : Production (Option String) := do
  if (← atTerminator) || (← check .comma) then return none else some <$> optionValue

/-- A mode of a transaction, in capitals, if one stands here. -/
def mode? : Production (Option String) := do
  if ← atTerminator then return none
  else
    let words ← many modeWord?
    if words.isEmpty then expected "transaction mode"
    else
      discard (consume .comma)
      return some (Text.upper (Text.separated " " words))

/-- The modes of a transaction, up to the end of the statement. -/
def transactionModes : Production (List String) := many mode?

/-- The name of a transaction, if one stands here. -/
def transactionName? : Production (Option String) := do
  if (← get).atBatchSeparator || (← checkKeyword .TO) then return none
  else if (← atName) || (← check .string) then some <$> takeLiteral
  else return none

/-- When a transaction takes its locks, where that is said. -/
def lockingMode : Production (List String) := do
  match ← kind with
  | .keyword .DEFERRED | .keyword .IMMEDIATE | .keyword .EXCLUSIVE => return [← optionValue]
  | _ => return []

/-- Goes past a word for a transaction. -/
def skipTransactionWord : Production Unit :=
  discard (consumeAny [.keyword .WORK, .keyword .TRANSACTION, .keyword .TRAN])

/-- The begin of a transaction. SQL Server names transactions, the others give them modes. -/
def beginTransaction : Production BeginTransaction := do
  expectKeyword .BEGIN
  let locking ← lockingMode
  skipTransactionWord
  if (← dialect) = .sqlServer then return { modes := locking, name := ← transactionName? }
  else return { modes := locking ++ (← transactionModes) }

/-- The begin of a transaction, in its other spelling. -/
def startTransaction : Production BeginTransaction := do
  expectKeyword .START
  expectKeyword .TRANSACTION
  return { start := true, modes := ← transactionModes }

/-! ## End -/

/-- Goes past a word for a transaction, and says whether it was `WORK`. -/
def consumeWork : Production Bool := do
  let work ← checkKeyword .WORK
  skipTransactionWord
  return work

/-- Goes past the words about a transaction that follows at once. -/
def skipChain : Production Unit := do
  if ← consumeKeyword .AND then
    skipKeyword .NO
    expectWord "CHAIN"

/-- The end of a transaction, which keeps its changes. -/
def commit : Production Statement := do
  expectKeyword .COMMIT
  let work ← consumeWork
  let name ← transactionName?
  skipChain
  return .commit work name

/-- The end of a transaction, which undoes its changes, or those behind a savepoint. -/
def rollback : Production Statement := do
  expectKeyword .ROLLBACK
  let work ← consumeWork
  let name ← transactionName?
  let savepoint ← behind .TO do
    skipKeyword .SAVEPOINT
    Production.name
  skipChain
  return .rollback ⟨work, name, savepoint⟩

/-- A place that a transaction can return to. -/
def savepoint : Production Statement := do
  if ← consumeKeyword .SAVE then
    unless ← consumeKeyword .TRANSACTION do
      expectKeyword .TRAN
  else
    expectKeyword .SAVEPOINT
  .savepoint <$> name

/-- The removal of such a place. -/
def releaseSavepoint : Production Statement := do
  expectKeyword .RELEASE
  skipKeyword .SAVEPOINT
  .releaseSavepoint <$> name

end SqlFrontend.Grammar
