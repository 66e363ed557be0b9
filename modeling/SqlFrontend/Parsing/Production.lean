import SqlFrontend.Parsing.Parser

/-!
# Productions

A production reads a construct from a parser: it either gives a value or fails with an error, and in
both cases leaves the parser behind what it has read. Nothing is ever read twice.

* `check`, `consume`, `expect` and their variants: the current token.
* `Production.loop`, `many`, `list`: repetition. A loop goes on only after a round that used up text,
  so every loop ends.
* `recovering`: the reading goes on behind an error.

Section 4.3 of the polysql specification.
-/

namespace SqlFrontend

/-- The reading of a construct. -/
abbrev Production := EStateM ParseError Parser

namespace Production

/-! ## The current token -/

/-- Goes on to the next token. -/
def advance : Production Unit := modify Parser.advance

/-- The current token. -/
def current : Production Token := return (← get).current

/-- The kind of the current token. -/
def kind : Production TokenKind := return (← get).current.kind

/-- The kind of the token behind the current one. -/
def peekKind : Production TokenKind := return (← get).peek.kind

/-- The span of the current token. -/
def span : Production Span := return (← get).current.span

/-- The dialect. -/
def dialect : Production Dialect := return (← get).dialect

/-- Fails, and says what was expected in place of the current token. -/
def expected {α : Type} (what : String) : Production α := do
  throw ((← get).expectedError what)

/-- Fails for a cause at a place. -/
def fail {α : Type} (cause : ParseCause) (place : Span) : Production α :=
  throw ⟨cause, place⟩

/-- Fails unless the dialect accepts a construct. -/
def require (feature : Feature) (place : Span) : Production Unit := do
  let d ← dialect
  unless d.supports feature do
    fail (.featureUnavailable feature d) place

/-- Decides whether the current token is of a kind. -/
def check (k : TokenKind) : Production Bool := return (← kind) == k

/-- Decides whether the token behind the current one is of a kind. -/
def checkPeek (k : TokenKind) : Production Bool := return (← peekKind) == k

/-- Decides whether the current token is a keyword. -/
def checkKeyword (word : Keyword) : Production Bool := check (.keyword word)

/-- Decides whether the token behind the current one is a keyword. -/
def peekKeyword (word : Keyword) : Production Bool := checkPeek (.keyword word)

/-- Decides whether the next two tokens are keywords. -/
def checkKeywords (first second : Keyword) : Production Bool := do
  if ← checkKeyword first then peekKeyword second else return false

/-- Decides whether the current token is a word, in any case. -/
def checkWord (word : String) : Production Bool := return (← current).isWord word

/-- Decides whether the current token can stand for a name. -/
def atName : Production Bool := return (← current).isName

/-- Decides whether the token behind the current one can stand for a name. -/
def peekIsName : Production Bool := return (← get).peek.isName

/-- Decides whether the parser stands before the end of a statement. -/
def atTerminator : Production Bool := return (← get).atTerminator

/-- Goes past the current token if it passes a test, and says whether it did. -/
def consumeIf (test : Production Bool) : Production Bool := do
  if ← test then
    advance
    return true
  else return false

/-- Goes past a token of a kind, if it stands here. -/
def consume (k : TokenKind) : Production Bool := consumeIf (check k)

/-- Goes past a keyword, if it stands here. -/
def consumeKeyword (word : Keyword) : Production Bool := consumeIf (checkKeyword word)

/-- Goes past a word, if it stands here. -/
def consumeWord (word : String) : Production Bool := consumeIf (checkWord word)

/-- Goes past a token of one of several kinds, if one stands here. -/
def consumeAny (kinds : List TokenKind) : Production Bool :=
  consumeIf do return kinds.contains (← kind)

/-- Goes past two keywords, if both stand here. -/
def consumeKeywords (first second : Keyword) : Production Bool := do
  if ← checkKeywords first second then
    advance
    advance
    return true
  else return false

/-- Goes past a keyword that may be missing. -/
def skipKeyword (word : Keyword) : Production Unit := discard (consumeKeyword word)

/-- Goes past a word that may be missing. -/
def skipWord (word : String) : Production Unit := discard (consumeWord word)

/-- Goes past a token of a kind, which has to stand here. -/
def expect (k : TokenKind) : Production Unit := do
  unless ← consume k do
    expected k.describe

/-- Goes past a keyword, which has to stand here. -/
def expectKeyword (word : Keyword) : Production Unit := do
  unless ← consumeKeyword word do
    expected word.spelling

/-- Goes past a word, which has to stand here. -/
def expectWord (word : String) : Production Unit := do
  unless ← consumeWord word do
    expected word

/-- The literal of the current token, which is used up. -/
def takeLiteral : Production String := do
  let token ← current
  advance
  return token.literal

/-- A name, which has to stand here. -/
def name : Production String := do
  if ← atName then takeLiteral else expected "identifier"

/-- A name that ends a construct, if one stands here. -/
def trailingName? : Production (Option String) := do
  if (← get).atTrailingName then return some (← takeLiteral) else return none

/-- Skips the semicolons that stand here. -/
def skipSemicolons : Production Unit := modify Parser.skipSemicolons

/-! ## Repetition -/

/-- What a round of a loop decides. -/
inductive Step (σ α : Type) where
  | more (state : σ)
  | done (value : α)

/-- Runs rounds until one is done. A round that is not done has to use up text. -/
def loop {σ α : Type} (round : σ → Production (Step σ α)) (state : σ) (p : Parser) :
    EStateM.Result ParseError Parser α :=
  match round state p with
  | .ok (.done value) p' => .ok value p'
  | .ok (.more state') p' =>
    if p'.remaining < p.remaining then loop round state' p'
    else .error (p'.expectedError "more input") p'
  | .error e p' => .error e p'
termination_by p.remaining

/-- Collects what a production gives until it gives nothing. -/
def many {α : Type} (item? : Production (Option α)) : Production (List α) :=
  loop (fun items => do
    match ← item? with
    | some item => return .more (item :: items)
    | none => return .done items.reverse) []

/-- Collects items with commas between them, at least one. -/
def list {α : Type} (item : Production α) : Production (List α) := do
  let first ← item
  let rest ← many do
    if ← consume .comma then some <$> item else return none
  return first :: rest

/-- Runs a production behind a keyword, if the keyword stands here. -/
def behind {α : Type} (word : Keyword) (item : Production α) : Production (Option α) := do
  if ← consumeKeyword word then some <$> item else return none

/-- Runs a production between parentheses. -/
def inParens {α : Type} (item : Production α) : Production α := do
  expect .leftParen
  let value ← item
  expect .rightParen
  return value

/-- Skips a text in parentheses, with the parentheses in it. -/
def skipParens : Production Unit := do
  expect .leftParen
  loop (fun depth => do
    match ← kind with
    | .eof => expected ")"
    | .leftParen => advance; return .more (depth + 1)
    | .rightParen => advance; return if depth = 0 then .done () else .more (depth - 1)
    | _ => advance; return .more depth) 0

/-! ## Errors -/

/-- Runs a production; its error is recorded and its statement skipped where errors do not end lists. -/
def recovering {α : Type} (production : Production α) : Production (Option α) := fun p =>
  match production p with
  | .ok value p' => .ok (some value) p'
  | .error e p' =>
    if p'.recovering && !p'.cancelled then .ok none (p'.record e).synchronize else .error e p'

/-- Runs a production inside the body of a routine. -/
def inRoutine {α : Type} (production : Production α) : Production α := fun p =>
  match production { p with routineDepth := p.routineDepth + 1 } with
  | .ok value p' => .ok value { p' with routineDepth := p'.routineDepth - 1 }
  | .error e p' => .error e { p' with routineDepth := p'.routineDepth - 1 }

/-! ## Nodes from pools -/

/-- Takes a selection from its pool. -/
def acquireSelect : Production Select :=
  modifyGet fun p =>
    let (node, pool) := p.pools.select.acquire
    (node, { p with pools := { p.pools with select := pool } })

/-- Takes an operator from its pool. -/
def acquireBinary : Production Binary :=
  modifyGet fun p =>
    let (node, pool) := p.pools.binary.acquire
    (node, { p with pools := { p.pools with binary := pool } })

/-- Takes a column from its pool. -/
def acquireColumn : Production ColumnRef :=
  modifyGet fun p =>
    let (node, pool) := p.pools.column.acquire
    (node, { p with pools := { p.pools with column := pool } })

/-- Takes a join from its pool. -/
def acquireJoin : Production Join :=
  modifyGet fun p =>
    let (node, pool) := p.pools.join.acquire
    (node, { p with pools := { p.pools with join := pool } })

/-- Changes the pools if a production fails, and fails as it does. -/
def onFailure {α : Type} (production : Production α) (change : Pools → Pools) : Production α :=
  fun p =>
    match production p with
    | .ok value p' => .ok value p'
    | .error e p' => .error e { p' with pools := change p'.pools }

end Production

end SqlFrontend
