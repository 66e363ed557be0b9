import SqlFrontend.Grammar.Block

/-!
# Control flow

Conditions, loops and choices between statements, and the statements that leave them. Each construct
is read in the form with closing words and, where a dialect has it, in the form that governs a single
statement.

Section 4.3, *Stored routine additions*, of the polysql specification: *Control flow*.
-/

namespace SqlFrontend.Grammar

open Production

variable (nested : Nested)

/-! ## Conditions -/

/-- The words behind the statements of a branch. -/
def branchEnd : List Keyword := [.ELSEIF, .ELSIF, .ELSE, .END, .ENDIF]

/-- A further condition with its statements, if one stands here. -/
def elseIf? : Production (Option Alternative) := do
  if ← consumeAny [.keyword .ELSEIF, .keyword .ELSIF] then
    let condition ← nested.expression
    expectKeyword .THEN
    return some ⟨condition, ← statements nested branchEnd⟩
  else return none

/-- The branches of a condition and the words that close it. -/
def closedConditional (condition : Expr) : Production Statement := do
  let body ← statements nested branchEnd
  let elseIfs ← many (elseIf? nested)
  let otherwise ← behind .ELSE (statements nested [.END, .ENDIF])
  unless ← consumeKeyword .ENDIF do
    expectKeyword .END
    expectKeyword .IF
  return .conditional condition body elseIfs otherwise

/-- A single statement under a condition, and perhaps another one otherwise. -/
def openConditional (condition : Expr) : Production Statement := do
  let body ← nested.statement
  if (← check .semicolon) && (← peekKeyword .ELSE) then
    advance
  let otherwise ← behind .ELSE nested.statement
  return .conditional condition [body] [] (otherwise.map ([·]))

/-- Statements under a condition. -/
def conditional : Production Statement := do
  expectKeyword .IF
  let condition ← nested.expression
  if ← consumeKeyword .THEN then closedConditional nested condition
  else openConditional nested condition

/-! ## Loops -/

/-- The words that close a loop. A label behind them has to be the one before the loop. -/
def loopEnd (word : Keyword) (label : Option String) : Production Unit := do
  expectKeyword .END
  expectKeyword word
  let place ← span
  match label, ← trailingName? with
  | some label, some endLabel =>
    unless Text.sameWord label endLabel do
      fail (.labelMismatch endLabel label) place
  | _, _ => return

/-- The statements of a loop and the words that close it. -/
def loopBody (word : Keyword) (label : Option String) : Production (List Statement) := do
  let body ← statementsToEnd nested
  loopEnd word label
  return body

/-- The statements behind the condition of a loop: up to closing words, or a single one. -/
def whileBody (label : Option String) : Production (List Statement) := do
  if ← consumeKeyword .DO then loopBody nested .WHILE label
  else if ← consumeKeyword .LOOP then loopBody nested .LOOP label
  else List.singleton <$> nested.statement

/-- A loop with a condition before it. -/
def whileLoop (label : Option String) : Production Statement := do
  expectKeyword .WHILE
  let condition ← nested.expression
  return .whileLoop label condition (← whileBody nested label)

/-- A loop without a condition. -/
def plainLoop (label : Option String) : Production Statement := do
  expectKeyword .LOOP
  return .loop label (← loopBody nested .LOOP label)

/-- A loop with a condition behind it. -/
def repeatLoop (label : Option String) : Production Statement := do
  expectKeyword .REPEAT
  let body ← statements nested [.UNTIL]
  expectKeyword .UNTIL
  let condition ← nested.expression
  loopEnd .REPEAT label
  return .repeatLoop label body condition

/-- What a counting loop runs over: the rows of a query, or numbers between two limits. -/
def forRange : Production ForRange := do
  if (← checkKeyword .SELECT) || (← checkKeyword .WITH) then .query <$> nested.query
  else if (← check .leftParen) && (← peekKeyword .SELECT) then .query <$> inParens nested.query
  else
    let start ← nested.expression
    expect .dotDot
    let stop ← nested.expression
    return .numeric start stop (← behind .BY nested.expression)

/-- A counting loop. -/
def forLoop (label : Option String) : Production Statement := do
  expectKeyword .FOR
  let counter ← name
  expectKeyword .IN
  let reverse ← consumeKeyword .REVERSE
  let range ← forRange nested
  expectKeyword .LOOP
  return .forLoop label counter reverse range (← loopBody nested .LOOP label)

/-! ## Choices -/

/-- A branch of a choice, if one stands here. -/
def choiceBranch? : Production (Option Alternative) := behind .WHEN do
  let condition ← nested.expression
  expectKeyword .THEN
  return ⟨condition, ← statements nested [.WHEN, .ELSE, .END]⟩

/-- A choice between lists of statements. -/
def choiceStatement : Production Statement := do
  let place ← span
  expectKeyword .CASE
  let input ← if ← checkKeyword .WHEN then pure none else some <$> nested.expression
  let branches ← many (choiceBranch? nested)
  if branches.isEmpty then
    fail .caseStatementWithoutBranch place
  let otherwise ← behind .ELSE (statementsToEnd nested)
  expectKeyword .END
  expectKeyword .CASE
  return .choice input branches otherwise

/-- Statements, and what is done about an error in them. -/
def tryCatch : Production Statement := do
  expectKeyword .BEGIN
  expectKeyword .TRY
  let body ← statementsToEnd nested
  expectKeyword .END
  expectKeyword .TRY
  skipSemicolons
  expectKeyword .BEGIN
  expectKeyword .CATCH
  let handler ← statementsToEnd nested
  expectKeyword .END
  expectKeyword .CATCH
  return .tryCatch body handler

/-! ## Leaving -/

/-- The condition under which a loop is left. -/
def whenCondition : Production (Option Expr) := behind .WHEN nested.expression

/-- The leaving of a loop or a block. One of the words for it takes no label. -/
def leave : Production Statement := do
  let takesLabel := !(← checkKeyword .BREAK)
  advance
  let label ← if takesLabel then trailingName? else pure none
  return .leave label (← whenCondition nested)

/-- The next round of a loop. -/
def iterate : Production Statement := do
  advance
  let label ← trailingName?
  return .iterate label (← whenCondition nested)

/-- The end of a routine, perhaps with a value or a query. -/
def returnStatement : Production Statement := do
  expectKeyword .RETURN
  if ← checkKeywords .QUERY .SELECT then
    advance
    return .returnValue (some (.subquery (← nested.selections)))
  else
    if (← checkKeyword .NEXT) && !(← checkPeek .semicolon) then
      advance
    if ← atExpressionStart then return .returnValue (some (← nested.expression))
    else return .returnValue none

/-! ## Labels -/

/-- A label in angle brackets. -/
def angleLabel : Production String := do
  expect .lt
  expect .lt
  let label ← name
  expect .gt
  expect .gt
  return label

/-- The statement behind a label. -/
def labelled (label : String) : Production Statement := do
  match ← kind with
  | .keyword .BEGIN | .keyword .DECLARE => .block <$> block nested (some label)
  | .keyword .LOOP => plainLoop nested (some label)
  | .keyword .WHILE => whileLoop nested (some label)
  | .keyword .REPEAT => repeatLoop nested (some label)
  | .keyword .FOR => forLoop nested (some label)
  | _ => expected "BEGIN, LOOP, WHILE, REPEAT or FOR"

end SqlFrontend.Grammar
