import SqlFrontend.Parsing.Production

/-!
# Nested constructs

Productions refer to each other in circles: an expression may hold an expression, a query or both, and
a statement may hold statements. A production is therefore written for given readings of the constructs
that may be nested in it, and the circles are closed once, in `SqlFrontend.Grammar.Statement`.

Section 4.3, *Dispatch*, of the polysql specification.
-/

namespace SqlFrontend.Grammar

/-- The readings of the constructs that other constructs hold. -/
structure Nested where
  /-- An expression, with all operators that follow. -/
  expression : Production Expr
  /-- An operand of an operator. -/
  primary : Production Expr
  /-- Selections, combined by set operators. -/
  selections : Production Query
  /-- A query of any kind. -/
  query : Production Query
  statement : Production Statement
  /-- A block without a label. -/
  block : Production Block

end SqlFrontend.Grammar
