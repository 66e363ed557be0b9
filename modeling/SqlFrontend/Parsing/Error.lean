import SqlFrontend.Dialect
import SqlFrontend.Lexing.Token

/-!
# Parse errors

An error is a cause and a place. Everything that is said about an error follows from its cause.

* `ParseCause.kind`, `ParseCause.message`: the category of a cause and its wording. A token that was
  not expected is a lexical error if it is illegal, and then the lexer's words are the message.
* `ParseError.describe`: the message with the place.

Section 7 of the polysql specification, and *Error reporting* in section 4.3.
-/

namespace SqlFrontend

/-- The categories of parse errors. -/
inductive ParseErrorKind where
  /-- Text that is no token. -/
  | lexical
  /-- A token that does not fit. -/
  | grammatical
  /-- A rule that no single token breaks. -/
  | structural
  /-- The time that was allowed is over. -/
  | cancelled
  /-- A construct that is known but not read. -/
  | unsupported
  deriving DecidableEq, Repr

/-- The name of a category. -/
def ParseErrorKind.name : ParseErrorKind → String
  | .lexical => "lexical"
  | .grammatical => "syntax"
  | .structural => "structural"
  | .cancelled => "cancelled"
  | .unsupported => "unsupported"

/-- What is wrong with a source. -/
inductive ParseCause where
  | unexpected (expected : String) (found : Token)
  | invalidNumeral (text : String)
  | invalidInteger (text : String)
  | invalidTypeModifier (text : String)
  | caseExpressionWithoutBranch
  | caseStatementWithoutBranch
  | withoutQuery
  | derivedTableWithoutAlias
  | functionWithoutReturns
  | labelMismatch (endLabel label : String)
  | featureUnavailable (feature : Feature) (dialect : Dialect)
  | tableFromQuery
  | severalTypedVariables
  | cancelled
  deriving DecidableEq, Repr

namespace ParseCause

/-- The category of a cause. -/
def kind : ParseCause → ParseErrorKind
  | unexpected _ found => if found.kind = .illegal then .lexical else .grammatical
  | tableFromQuery | severalTypedVariables => .unsupported
  | cancelled => .cancelled
  | _ => .structural

/-- The wording of a cause. -/
def message : ParseCause → String
  | unexpected expected found =>
    if found.kind = .illegal then found.literal
    else "expected " ++ expected ++ ", got " ++ found.describe
  | invalidNumeral text => "invalid numeric literal " ++ text
  | invalidInteger text => "invalid integer " ++ text
  | invalidTypeModifier text => "invalid type modifier " ++ text
  | caseExpressionWithoutBranch => "CASE expression requires at least one WHEN clause"
  | caseStatementWithoutBranch => "CASE statement requires at least one WHEN clause"
  | withoutQuery => "WITH must be followed by a query"
  | derivedTableWithoutAlias => "derived table requires an alias"
  | functionWithoutReturns => "FUNCTION requires a RETURNS clause"
  | labelMismatch endLabel label => s!"end label {endLabel} does not match {label}"
  | featureUnavailable feature dialect =>
    s!"feature {feature.tag} not supported in dialect {dialect.name}"
  | tableFromQuery => "not yet implemented: CREATE TABLE ... AS SELECT"
  | severalTypedVariables => "not yet implemented: DECLARE with several typed variables"
  | cancelled => "parsing cancelled"

/-- What was expected in place of a token. -/
def expected? : ParseCause → Option String
  | unexpected expected _ => some expected
  | _ => none

/-- What was found in place of an expected token. -/
def found? : ParseCause → Option String
  | unexpected _ found => some found.describe
  | _ => none

end ParseCause

/-- A cause and its place. -/
structure ParseError where
  cause : ParseCause
  span : Span
  deriving DecidableEq, Repr

namespace ParseError

/-- The error for a token that does not fit, at the token. -/
def unexpected (expected : String) (found : Token) : ParseError :=
  ⟨.unexpected expected found, found.span⟩

/-- Decides whether an error says that time is over. -/
def isCancelled (e : ParseError) : Bool := e.cause == .cancelled

/-- The message with the place. -/
def describe (e : ParseError) : String := s!"{e.cause.message} at {e.span.describe}"

end ParseError

end SqlFrontend
