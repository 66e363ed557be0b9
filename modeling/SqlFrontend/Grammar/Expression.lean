import SqlFrontend.Grammar.Nested
import SqlFrontend.Grammar.Types

/-!
# Expressions

Every operator between two operands binds equally, and operators group from left to right: the right
operand of an operator is a single primary expression. Only parentheses group otherwise. A negation
with `NOT` takes all that follows as its operand.

* `operator?`: the operator that the next tokens spell.
* `primary`: an operand.
* `expression`: an operand and the operators behind it.

Section 4.3 of the polysql specification: *Expression sub-language*, *Window function recognition*,
*Frame parsing* and *CASE expressions*.
-/

namespace SqlFrontend.Grammar

open Production

/-! ## Operators -/

/-- What can follow an operand. -/
inductive Operator where
  | binary (op : BinaryOperator)
  | among (negated : Bool)
  | between (negated : Bool)
  /-- A test for a truth value; a negation may follow. -/
  | truth
  | cast
  deriving DecidableEq, Repr

/-- The operator with two operands that a single token spells. -/
def binaryOperator? : TokenKind → Option BinaryOperator
  | .assign | .eq => some .eq
  | .notEq => some .notEq
  | .lt => some .lt
  | .gt => some .gt
  | .ltEq => some .ltEq
  | .gtEq => some .gtEq
  | .plus => some .plus
  | .minus => some .minus
  | .star => some .multiply
  | .slash => some .divide
  | .percent => some .modulo
  | .concat => some .concat
  | .keyword .AND => some .and
  | .keyword .OR => some .or
  | .keyword .LIKE => some .like
  | _ => none

/-- The operator that starts with a token, given the next one, and how many tokens spell it. -/
def operator? (current next : TokenKind) : Option (Operator × Nat) :=
  match current with
  | .keyword .IN => some (.among false, 1)
  | .keyword .BETWEEN => some (.between false, 1)
  | .keyword .IS => some (.truth, 1)
  | .doubleColon => some (.cast, 1)
  | .keyword .NOT =>
    match next with
    | .keyword .LIKE => some (.binary .notLike, 2)
    | .keyword .IN => some (.among true, 2)
    | .keyword .BETWEEN => some (.between true, 2)
    | _ => none
  | kind => (binaryOperator? kind).map fun op => (.binary op, 1)

/-- Goes past a number of tokens. -/
def advanceBy : Nat → Production Unit
  | 0 => return
  | n + 1 => do
    advance
    advanceBy n

variable (nested : Nested)

/-- The right operand of an operator, whose node goes back to its pool if that is missing. -/
def binaryOperand (left : Expr) (op : BinaryOperator) : Production Expr := do
  let node ← acquireBinary
  let right ← onFailure nested.primary fun pools =>
    { pools with binary := pools.binary.release { node with left, op } }
  return .binary { node with left, op, right }

/-- What a membership test looks through: a query or a list in parentheses. -/
def candidates : Production Candidates := inParens do
  if ← checkKeyword .SELECT then .query <$> nested.selections
  else .list <$> list nested.expression

/-- What follows an operator, with the operand before it. -/
def applyOperator (left : Expr) : Operator → Production Expr
  | .binary op => binaryOperand nested left op
  | .truth => do
    let negated ← consumeKeyword .NOT
    binaryOperand nested left (if negated then .isNot else .is)
  | .among negated => return .among left negated (← candidates nested)
  | .between negated => do
    let low ← nested.primary
    expectKeyword .AND
    let high ← nested.primary
    return .between left negated low high
  | .cast => return .cast left (← dataType)

/-! ## Calls -/

/-- The items of an order. -/
def sortItems : Production (List SortItem) := list do
  let expr ← nested.expression
  let direction ← if ← consumeKeyword .DESC then pure SortDirection.descending
    else do
      skipKeyword .ASC
      pure SortDirection.ascending
  let nulls ← behind .NULLS do
    if ← consumeKeyword .FIRST then return NullOrder.first
    else
      expectKeyword .LAST
      return NullOrder.last
  return ⟨expr, direction, nulls⟩

/-- On which side of the current row a frame ends. -/
def frameDirection : Production FrameDirection := do
  if ← consumeKeyword .PRECEDING then return .preceding
  else if ← consumeKeyword .FOLLOWING then return .following
  else expected "PRECEDING or FOLLOWING"

/-- One end of a window frame. -/
def frameBound : Production FrameBound := do
  if ← consumeKeyword .UNBOUNDED then return .unbounded (← frameDirection)
  else if ← consumeKeyword .CURRENT then
    expectKeyword .ROW
    return .currentRow
  else
    let count ← nested.primary
    return .offset count (← frameDirection)

/-- A window frame, by rows or by range. -/
def windowFrame : Production WindowFrame := do
  let unit ← if ← consumeKeyword .ROWS then pure FrameUnit.rows
    else do
      expectKeyword .RANGE
      pure FrameUnit.range
  if ← consumeKeyword .BETWEEN then
    let start ← frameBound nested
    expectKeyword .AND
    return ⟨unit, start, some (← frameBound nested)⟩
  else return ⟨unit, ← frameBound nested, none⟩

/-- The window of a call. -/
def window : Production Window := do
  expectKeyword .OVER
  inParens do
    let partitionBy ← behind .PARTITION do
      expectKeyword .BY
      list nested.expression
    let orderBy ← behind .ORDER do
      expectKeyword .BY
      sortItems nested
    let frame ← if (← checkKeyword .ROWS) || (← checkKeyword .RANGE) then
        some <$> windowFrame nested
      else pure none
    return ⟨partitionBy.getD [], orderBy.getD [], frame⟩

/-- The arguments of a call, and whether equal ones count once. -/
def callArguments : Production (Bool × List Expr) := inParens do
  if ← check .rightParen then return (false, [])
  else
    let distinct ← consumeKeyword .DISTINCT
    unless distinct do
      skipKeyword .ALL
    return (distinct, ← list nested.expression)

/-- A call of the function of the given name, over a window if one follows. -/
def functionCall (name : String) : Production Expr := do
  let (distinct, args) ← callArguments nested
  let call : Call := { name, args, distinct }
  if ← checkKeyword .OVER then return .window call (← window nested) else return .call call

/-- What starts with a name: a column, all columns of a table, or a call. -/
def nameExpression : Production Expr := do
  let first ← takeLiteral
  loop (fun (qualifier, name) => do
    if ← consume .dot then
      if ← consume .star then return .done (.star (some (qualified qualifier name)))
      else return .more (some (qualified qualifier name), ← Production.name)
    else if ← check .leftParen then
      return .done (← functionCall nested (qualified qualifier name))
    else
      let node ← acquireColumn
      return .done (.column { node with table := qualifier, column := name })) (none, first)

/-! ## Operands -/

/-- A number. -/
def number : Production Expr := do
  let place ← span
  let text ← takeLiteral
  match Literal.ofNumeral? text with
  | some value => return .literal value
  | none => fail (.invalidNumeral text) place

/-- A query or an expression in parentheses. -/
def grouped : Production Expr := inParens do
  if ← checkKeyword .SELECT then .subquery <$> nested.selections else nested.expression

/-- A test whether a query has rows. -/
def rowTest (negated : Bool) : Production Expr := do
  expectKeyword .EXISTS
  return .hasRows negated (← inParens nested.selections)

/-- A conversion that is written as a call. -/
def castCall : Production Expr := do
  expectKeyword .CAST
  inParens do
    let expr ← nested.expression
    expectKeyword .AS
    return .cast expr (← dataType)

/-- A choice between expressions. -/
def choice : Production Expr := do
  expectKeyword .CASE
  let input ← if ← checkKeyword .WHEN then pure none else some <$> nested.expression
  let branches ← many <| behind .WHEN do
    let condition ← nested.expression
    expectKeyword .THEN
    return Branch.mk condition (← nested.expression)
  if branches.isEmpty then
    if (← get).cancelled then expected "WHEN"
    else fail .caseExpressionWithoutBranch (← span)
  else
    let otherwise ← behind .ELSE nested.expression
    expectKeyword .END
    return .choice input branches otherwise

/-- An operand: a constant, a name, a call, or an expression that starts with its operator. -/
def primary : Production Expr := do
  match ← kind with
  | .number => number
  | .string | .dollarQuote => return .literal (.string (← takeLiteral))
  | .star => advance; return .star none
  | .leftParen => grouped nested
  | .minus => advance; return .unary .minus (← nested.primary)
  | .plus => advance; return .unary .plus (← nested.primary)
  | .keyword .NULL => advance; return .literal .null
  | .keyword .TRUE => advance; return .literal (.boolean true)
  | .keyword .FALSE => advance; return .literal (.boolean false)
  | .keyword .CASE => choice nested
  | .keyword .EXISTS => rowTest nested false
  | .keyword .NOT =>
    if ← peekKeyword .EXISTS then
      advance
      rowTest nested true
    else
      advance
      return .unary .not (← nested.expression)
  | .keyword .CAST => castCall nested
  | .keyword .LEFT | .keyword .RIGHT | .keyword .IF =>
    if ← checkPeek .leftParen then nameExpression nested else expected "expression"
  | _ => if ← atName then nameExpression nested else expected "expression"

/-- An operand and all operators that follow, grouped from left to right. -/
def expression : Production Expr := do
  let first ← primary nested
  loop (fun left => do
    match operator? (← kind) (← peekKind) with
    | some (op, width) =>
      advanceBy width
      return .more (← applyOperator nested left op)
    | none => return .done left) first

/-- Decides whether an expression can start here. The word that ends a batch starts none. -/
def atExpressionStart : Production Bool := do
  match ← kind with
  | .number | .string | .dollarQuote | .leftParen | .minus | .plus => return true
  | .keyword .NULL | .keyword .TRUE | .keyword .FALSE | .keyword .CASE | .keyword .EXISTS
  | .keyword .NOT | .keyword .CAST => return true
  | .keyword .LEFT | .keyword .RIGHT | .keyword .IF => checkPeek .leftParen
  | _ => return (← atName) && !(← get).atBatchSeparator

end SqlFrontend.Grammar
