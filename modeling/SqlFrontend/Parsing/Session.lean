import SqlFrontend.Grammar.Statement
import SqlFrontend.Metrics

/-!
# Reading a source statement by statement

A statement that is not understood is an error, and the reading goes on behind it. Every error that is
met stays in the parser's record, in order.

* `Parser.statement`: the next statement, or the error in it.
* `Parser.next?`: the same, or nothing at the end of the text.
* `Parser.results`: what the rest of the text gives, errors included.
* `Parser.statements`: the statements of the rest of the text, up to the first error.
* `Parser.metrics`: what the reading cost so far.
* `parseSql`: the statements of a source.

Section 6, *Principal operations*, of the polysql specification.
-/

namespace SqlFrontend

namespace Parser

/-- Reads a statement, which has to stand here. Behind an error, the rest of the statement is
skipped. -/
def statement (p : Parser) : Except ParseError Statement × Parser :=
  match Grammar.parse { p with deferred := #[] }.skipSeparators with
  | .ok s p => (.ok s, p.skipSemicolons)
  | .error e p =>
    let p := p.record e
    (.error e, if p.cancelled then p else p.synchronize)

/-- Reads a statement, if text is left behind what separates statements. -/
def next? (p : Parser) : Option (Except ParseError Statement) × Parser :=
  let p := p.skipSeparators
  if p.atEnd then (none, p)
  else
    let (result, p) := p.statement
    (some result, p)

/-- Reads the rest of the text, and goes on behind errors. -/
def results (p : Parser) : List (Except ParseError Statement) × Parser :=
  match p.next? with
  | (none, p') => ([], p')
  | (some result, p') =>
    if p'.remaining < p.remaining then
      let (others, last) := p'.results
      (result :: others, last)
    else ([result], p')
termination_by p.remaining

/-- Reads the rest of the text, and stops behind the first error. -/
def statements (p : Parser) : Except ParseError (List Statement) × Parser :=
  match p.next? with
  | (none, p') => (.ok [], p')
  | (some (.error e), p') => (.error e, p')
  | (some (.ok s), p') =>
    if p'.remaining < p.remaining then
      let (others, last) := p'.statements
      (others.map (s :: ·), last)
    else (.ok [s], p')
termination_by p.remaining

/-- The errors met so far, as they are shown. -/
def errorMessages (p : Parser) : List String := p.errors.toList.map ParseError.describe

/-- What the reading cost so far, where it took the given time. -/
def metrics (p : Parser) (nanoseconds : Nat) : Metrics :=
  .ofRun nanoseconds p.tokenCount p.errors.size

end Parser

/-- The statements of a source, or the first error in it. -/
def parseSql (source : String) (dialect : Dialect) : Except ParseError (List Statement) :=
  (Parser.ofSource source dialect false {}).statements.1

end SqlFrontend
