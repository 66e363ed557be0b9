import SqlFrontend.Grammar.Routine

/-!
# Triggers

* `createTrigger`: a trigger is defined, with its table before its events or behind them.

Section 4.3, *Other CREATE statements*, of the polysql specification.
-/

namespace SqlFrontend.Grammar

open Production

/-! ## Events -/

/-- A trigger that fires in place of a change. Not every dialect has one. -/
def insteadOf : Production TriggerTiming := do
  require .insteadOf (← span)
  expectKeyword .INSTEAD
  expectKeyword .OF
  return .insteadOf

/-- When a trigger fires, given behind its table. -/
def batchTiming : Production TriggerTiming := do
  match ← kind with
  | .keyword .FOR | .keyword .AFTER => advance; return .after
  | .keyword .INSTEAD => insteadOf
  | _ => expected "FOR, AFTER or INSTEAD OF"

/-- When a trigger fires, given before its table. -/
def timing : Production TriggerTiming := do
  match ← kind with
  | .keyword .BEFORE => advance; return .before
  | .keyword .AFTER => advance; return .after
  | .keyword .INSTEAD => insteadOf
  | _ => expected "BEFORE, AFTER or INSTEAD OF"

/-- The columns whose change fires a trigger. A comma before another event ends them. -/
def changedColumns : Production (List String) := do
  let first ← name
  let others ← many do
    if (← check .comma) && (← peekIsName) then
      advance
      some <$> name
    else return none
  return first :: others

/-- An event that fires a trigger. -/
def triggerEvent : Production TriggerEvent := do
  match ← kind with
  | .keyword .INSERT => advance; return .insert
  | .keyword .DELETE => advance; return .delete
  | .keyword .UPDATE =>
    advance
    let columns ← behind .OF changedColumns
    return .update (columns.getD [])
  | _ => expected "INSERT, UPDATE or DELETE"

/-- The events that fire a trigger. -/
def triggerEvents : Production (List TriggerEvent) := do
  let first ← triggerEvent
  let others ← many do
    if ← consumeAny [.keyword .OR, .comma] then some <$> triggerEvent else return none
  return first :: others

variable (nested : Nested)

/-! ## Bodies -/

/-- The call of a function that a trigger makes, behind the word for it. -/
def triggerCall : Production TriggerBody := do
  unless ← consumeKeyword .FUNCTION do
    expectKeyword .PROCEDURE
  let function ← qualifiedName
  let args ← inParens do
    if ← check .rightParen then return [] else list nested.expression
  return .call function args

/-- What a trigger does: a call, a block or a single statement. -/
def triggerBody : Production TriggerBody := do
  if ← consumeKeyword .EXECUTE then triggerCall nested
  else if ← checkKeyword .BEGIN then .block <$> inRoutine (block nested none)
  else .statement <$> inRoutine nested.statement

/-- What a trigger does, where it goes on to the end of the batch. -/
def batchTriggerBody : Production TriggerBody := do
  if (← checkKeyword .BEGIN) && !(← peekKeyword .TRY) then
    .block <$> inRoutine (block nested none)
  else
    let body ← inRoutine (statements nested [])
    return .block (.ofBody body)

/-! ## Definitions -/

/-- Goes past the words that say how often a trigger fires, and says whether it fires for each row. -/
def forEachRow : Production Bool := do
  if ← consumeKeyword .FOR then
    skipKeyword .EACH
    if ← consumeKeyword .ROW then return true
    else
      expectKeyword .STATEMENT
      return false
  else return false

/-- The rest of a trigger whose table is named first, behind the word before the table. -/
def batchTrigger (orReplace : Bool) (name : ObjectName) : Production Trigger := do
  let table ← objectName
  let timing ← batchTiming
  let events ← triggerEvents
  expectKeyword .AS
  let body ← batchTriggerBody nested
  return { orReplace, name, timing, events, table, forEachRow := false, condition := none, body }

/-- The rest of a trigger whose table is named behind the events. -/
def rowTrigger (orReplace : Bool) (name : ObjectName) : Production Trigger := do
  let timing ← timing
  let events ← triggerEvents
  expectKeyword .ON
  let table ← objectName
  let forEachRow ← forEachRow
  let condition ← whenCondition nested
  let body ← triggerBody nested
  return { orReplace, name, timing, events, table, forEachRow, condition, body }

/-- The definition of a trigger, from the word for it on. -/
def createTrigger (orReplace : Bool) : Production Trigger := do
  expectKeyword .TRIGGER
  let name ← objectName
  if ← consumeKeyword .ON then batchTrigger nested orReplace name
  else rowTrigger nested orReplace name

end SqlFrontend.Grammar
