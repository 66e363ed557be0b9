import SqlFrontend.Lexing.Keyword
import SqlFrontend.Lexing.Span

/-!
# Tokens

A token is a kind, a literal and the span it was read from. The literal of a quoted token is its
value without the quotes, that of an illegal token says what is wrong with it, and that of every
other token is its text.

* `TokenKind.describe`: how an expected kind is named in a message.
* `Token.describe`: how a token that was found is named in a message.

Section 3, *Tokens*, of the polysql specification.
-/

namespace SqlFrontend

/-- The kinds of tokens. -/
inductive TokenKind where
  -- the end of the text, and text that is no token
  | eof | illegal
  -- names, keywords and literals
  | identifier | quotedIdentifier | keyword (word : Keyword) | string | number | dollarQuote
  -- operators; `assign` is a single equals sign, `eq` a double one
  | assign | eq | notEq | lt | gt | ltEq | gtEq | plus | minus | star | slash | percent | concat
  -- punctuation
  | leftParen | rightParen | leftBracket | rightBracket | comma | semicolon | dot | dotDot | colon
  | doubleColon | colonAssign
  deriving DecidableEq, Repr

namespace TokenKind

/-- Names a kind where it is expected. -/
def describe : TokenKind → String
  | .eof => "end of input"
  | .illegal => "illegal token"
  | .identifier | .quotedIdentifier => "identifier"
  | .keyword word => word.spelling
  | .string => "string"
  | .number => "number"
  | .dollarQuote => "dollar-quoted string"
  | .assign => "="
  | .eq => "=="
  | .notEq => "!="
  | .lt => "<"
  | .gt => ">"
  | .ltEq => "<="
  | .gtEq => ">="
  | .plus => "+"
  | .minus => "-"
  | .star => "*"
  | .slash => "/"
  | .percent => "%"
  | .concat => "||"
  | .leftParen => "("
  | .rightParen => ")"
  | .leftBracket => "["
  | .rightBracket => "]"
  | .comma => ","
  | .semicolon => ";"
  | .dot => "."
  | .dotDot => ".."
  | .colon => ":"
  | .doubleColon => "::"
  | .colonAssign => ":="

end TokenKind

/-- A token of a source text. -/
structure Token where
  kind : TokenKind
  literal : String
  span : Span
  deriving DecidableEq, Repr

namespace Token

instance : Inhabited Token := ⟨⟨.eof, "", .origin⟩⟩

/-- Decides whether a token is the end of the text. -/
def isEof (t : Token) : Bool := t.kind == .eof

/-- Decides whether a token can stand for a bare name: a name, quoted or not, or a keyword that is
not reserved. -/
def isName (t : Token) : Bool :=
  match t.kind with
  | .identifier | .quotedIdentifier => true
  | .keyword word => !word.isReserved
  | _ => false

/-- Decides whether a token is a bare name or a quoted one. -/
def isIdentifier (t : Token) : Bool :=
  match t.kind with
  | .identifier | .quotedIdentifier => true
  | _ => false

/-- Decides whether a token is the given word, in any case and not quoted. -/
def isWord (t : Token) (word : String) : Bool :=
  t.kind == .identifier && Text.sameWord t.literal word

/-- Names a token that was found. -/
def describe (t : Token) : String :=
  match t.kind with
  | .identifier | .quotedIdentifier => s!"identifier \"{t.literal}\""
  | .string => s!"string '{t.literal}'"
  | .number => s!"number {t.literal}"
  | .illegal => s!"illegal token ({t.literal})"
  | kind => kind.describe

end Token

end SqlFrontend
