import SqlFrontend.Lexing.Lexer
import SqlFrontend.Parsing.Error
import SqlFrontend.Tree.Pool

/-!
# Parsers

A parser is a place in the tokens of a source, with one token to look ahead, and the record of what
has happened so far: the errors in their order, the number of tokens used up, the pools that nodes are
taken from.

* `Parser.ofSource`, `Parser.nested`: a parser at the beginning of a source.
* `Parser.advance`: past the current token. When the time allowed is over, it cancels instead.
* `Parser.remaining`: a measure of the text that is left, zero at its end.
* `Parser.record`, `Parser.defer`: the two ways of an error into the record.

Sections 4.3, *Construction* and *Recovery*, and 5, *Cancellation*, of the polysql specification.
-/

namespace SqlFrontend

/-- The state of the reading of a source. -/
structure Parser where
  lexer : Lexer
  current : Token
  peek : Token
  /-- Whether the time allowed is over. -/
  expired : Bool
  /-- Whether the reading was stopped because of that. -/
  cancelled : Bool
  errors : Array ParseError
  /-- Errors that are recorded behind the next one. -/
  deferred : Array ParseError
  /-- Whether lists of statements go on behind an error. -/
  recovering : Bool
  /-- Tokens used up; the end of the text counts once. -/
  tokenCount : Nat
  endCounted : Bool
  /-- How many bodies of routines are being read. -/
  routineDepth : Nat
  pools : Pools

namespace Parser

/-- The dialect that the source is read under. -/
def dialect (p : Parser) : Dialect := p.lexer.dialect

/-- Reads what follows under another dialect. The tokens at hand stay as they are. -/
def setDialect (p : Parser) (dialect : Dialect) : Parser :=
  { p with lexer := p.lexer.setDialect dialect }

/-- Decides whether the text is used up. -/
def atEnd (p : Parser) : Bool := p.current.isEof

/-- A measure of the text from the current token on. It is zero at the end only, and falls from each
token to the next. -/
def remaining (p : Parser) : Nat :=
  if p.atEnd then 0 else p.lexer.source.utf8ByteSize + 1 - p.current.span.start

/-- Counts the current token, unless it is the end of the text and was counted before. -/
def countCurrent (p : Parser) : Parser :=
  if p.atEnd then
    if p.endCounted then p else { p with tokenCount := p.tokenCount + 1, endCounted := true }
  else { p with tokenCount := p.tokenCount + 1 }

/-- A parser at the first token of a source. -/
def ofSource (source : String) (dialect : Dialect) (expired : Bool) (pools : Pools) : Parser :=
  let (current, lexer) := (Lexer.ofSource source dialect).next
  let (peek, lexer) := lexer.next
  let p : Parser :=
    { lexer, current, peek, expired, pools, cancelled := false, errors := #[], deferred := #[],
      recovering := false, tokenCount := 0, endCounted := false, routineDepth := 0 }
  p.countCurrent

/-- A parser for a body that is quoted in the source of `p`. It goes on behind errors. -/
def nested (p : Parser) (body : String) : Parser :=
  { ofSource body p.dialect p.expired p.pools with recovering := true, routineDepth := 1 }

/-- Stops the reading at the current token, which becomes the end of the text. -/
def cancel (p : Parser) : Parser :=
  if p.cancelled then p
  else
    let finish : Token := ⟨.eof, "", p.current.span⟩
    { p with
      cancelled := true
      errors := p.errors.push ⟨.cancelled, p.current.span⟩
      current := finish
      peek := finish }

/-- Goes on to the next token. Once cancelled, a parser stays where it is. -/
def advance (p : Parser) : Parser :=
  if p.cancelled then p
  else if p.expired then p.cancel
  else
    let (next, lexer) := p.lexer.next
    { p with lexer, current := p.peek, peek := next }.countCurrent

/-- The error that says what was expected in place of the current token. -/
def expectedError (p : Parser) (expected : String) : ParseError :=
  if p.cancelled then ⟨.cancelled, p.current.span⟩ else .unexpected expected p.current

/-- Records an error, and the deferred ones behind it. Cancellation was recorded when it happened. -/
def record (p : Parser) (error : ParseError) : Parser :=
  if error.isCancelled then p
  else { p with errors := p.errors.push error ++ p.deferred, deferred := #[] }

/-- Keeps errors until the next one is recorded. -/
def defer (p : Parser) (errors : List ParseError) : Parser :=
  { p with deferred := p.deferred ++ errors.toArray }

/-- Decides whether a token is the word that ends a batch. -/
def isBatchSeparator (p : Parser) (token : Token) : Bool :=
  match p.dialect.batchSeparator? with
  | some word => token.isWord word
  | none => false

/-- Decides whether the parser stands before the word that ends a batch. -/
def atBatchSeparator (p : Parser) : Bool := p.isBatchSeparator p.current

/-- Decides whether the parser stands before the end of a statement. -/
def atTerminator (p : Parser) : Bool :=
  p.current.kind == .semicolon || p.atEnd || p.atBatchSeparator

/-- Decides whether a name stands here that ends a construct and does not label the next one. -/
def atTrailingName (p : Parser) : Bool :=
  p.current.isIdentifier && !p.atBatchSeparator && p.peek.kind != .colon &&
    p.peek.kind != .colonAssign

/-- Goes on while a condition holds and text is used up. -/
def skipWhile (p : Parser) (condition : Parser → Bool) : Parser :=
  if condition p then
    if p.advance.remaining < p.remaining then p.advance.skipWhile condition else p.advance
  else p
termination_by p.remaining

/-- Skips the semicolons that stand here. -/
def skipSemicolons (p : Parser) : Parser := p.skipWhile fun p => p.current.kind == .semicolon

/-- Skips what separates statements. -/
def skipSeparators (p : Parser) : Parser :=
  p.skipWhile fun p => !p.cancelled && (p.current.kind == .semicolon || p.atBatchSeparator)

/-- Skips the rest of a statement that is not understood, and what separates it from the next. -/
def synchronize (p : Parser) : Parser := (p.skipWhile fun p => !p.atTerminator).skipSeparators

end Parser

end SqlFrontend
