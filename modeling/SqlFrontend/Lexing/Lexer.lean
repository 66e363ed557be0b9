import SqlFrontend.Dialect
import SqlFrontend.Lexing.Cursor
import SqlFrontend.Lexing.Token
import SqlFrontend.Text.Alphanumeric

/-!
# Lexical analysis

A lexer reads the tokens of a text one after the other, under a dialect that may change between two
tokens. It never fails: text that is no token becomes an illegal token whose literal says what is
wrong, and after the last token every further one is the end of the text.

* `Lexer.skipTrivia`: over white space and comments.
* `Scan.ofChar`: the token that starts with a given character.
* `Lexer.next`: the next token; `Lexer.next_rest_length_lt` says that it uses up text unless it is
  the end.
* `Lexer.tokens`: all tokens that are left, the end of the text included.

Section 4.2 of the polysql specification: *Algorithm*, *Failure model* and *Lexical rules*.
-/

namespace SqlFrontend

/-! ## Trivia -/

/-- What a lexer stands in while it looks for a token. -/
inductive Trivia where
  /-- Between tokens. -/
  | gap
  /-- In a comment that ends with the line. -/
  | lineComment
  /-- In a comment that was opened at `opening` and has to be closed. -/
  | blockComment (opening : Cursor)

/-- Walks over white space and comments. Fails with the opening of a block comment that is never
closed. -/
def Cursor.skipTriviaRun (d : Dialect) : List Char → Trivia → Cursor → Except Cursor Cursor
  | [], .blockComment opening, _ => .error opening
  | [], _, here => .ok here
  | c :: rest, .lineComment, here =>
    skipTriviaRun d rest (if c = '\n' then .gap else .lineComment) (here.after c rest)
  | '*' :: '/' :: rest, .blockComment _, here =>
    skipTriviaRun d rest .gap ((here.after '*' ('/' :: rest)).after '/' rest)
  | c :: rest, .blockComment opening, here =>
    skipTriviaRun d rest (.blockComment opening) (here.after c rest)
  | '-' :: '-' :: rest, .gap, here =>
    skipTriviaRun d rest .lineComment ((here.after '-' ('-' :: rest)).after '-' rest)
  | '/' :: '*' :: rest, .gap, here =>
    skipTriviaRun d rest (.blockComment here) ((here.after '/' ('*' :: rest)).after '*' rest)
  | c :: rest, .gap, here =>
    if Text.isBlank c then skipTriviaRun d rest .gap (here.after c rest)
    else if c = '#' && d.hasHashComments then
      skipTriviaRun d rest .lineComment (here.after c rest)
    else .ok here

/-- The place of the next token: behind white space and comments. Fails with the opening of a block
comment that is never closed. -/
def Cursor.skipTrivia (d : Dialect) (here : Cursor) : Except Cursor Cursor :=
  here.skipTriviaRun d here.rest .gap

/-! ## Single tokens -/

/-- What was read of a token: its kind, the place behind it, and its literal where that is not just
its text. -/
structure Scan where
  kind : TokenKind
  next : Cursor
  literal? : Option String := none

namespace Scan

/-- The kinds that are spelt with one character which starts no longer token. -/
def punctuation? : Char → Option TokenKind
  | '(' => some .leftParen
  | ')' => some .rightParen
  | ',' => some .comma
  | ';' => some .semicolon
  | '+' => some .plus
  | '-' => some .minus
  | '*' => some .star
  | '/' => some .slash
  | '%' => some .percent
  | _ => none

/-- An illegal token for a character that starts no token. -/
def unexpected (c : Char) (next : Cursor) : Scan :=
  ⟨.illegal, next, some s!"unexpected character '{c}'"⟩

/-- An illegal token for a text that lacks its end; it reaches to the end of the source. -/
def unterminated (what : String) (here : Cursor) : Scan :=
  ⟨.illegal, here.finish, some ("unterminated " ++ what)⟩

/-- A text token of one kind if the next character is `c`, and `otherwise` if not. -/
def extended (c : Char) (kind : TokenKind) (here : Cursor) (otherwise : Scan) : Scan :=
  if here.peek? = some c then ⟨kind, here.skip 1, none⟩ else otherwise

/-- The place behind the fraction that follows the integral digits. A fraction needs a digit behind
its point, so that a range of two numbers is none. -/
def skipFraction (here : Cursor) : Cursor :=
  match here.rest with
  | '.' :: c :: _ => if c.isDigit then (here.skip 1).skipWhile Char.isDigit else here
  | _ => here

/-- The place behind the exponent that follows the digits. An exponent needs a digit. -/
def skipExponent (here : Cursor) : Cursor :=
  match here.rest with
  | mark :: c :: rest =>
    if mark = 'e' || mark = 'E' then
      if c.isDigit then (here.skip 1).skipWhile Char.isDigit
      else if (c = '+' || c = '-') && rest.head?.any Char.isDigit then
        (here.skip 2).skipWhile Char.isDigit
      else here
    else here
  | _ => here

/-- A number: digits, then a fraction and an exponent where they follow. The digits may be missing
behind a leading point. -/
def number (here : Cursor) : Scan :=
  ⟨.number, skipExponent (skipFraction (here.skipWhile Char.isDigit)), none⟩

/-- A string that ends with `quote`. -/
def string (quote : Char) (here : Cursor) : Scan :=
  match here.unquote? quote with
  | some (value, next) => ⟨.string, next, some value⟩
  | none => unterminated "string literal" here

/-- A quoted name that ends with `quote`. -/
def quotedIdentifier (quote : Char) (here : Cursor) : Scan :=
  match here.unquote? quote with
  | some (value, next) => ⟨.quotedIdentifier, next, some value⟩
  | none => unterminated "quoted identifier" here

/-- Decides whether a character may spell the tag of a dollar quote. -/
def isTagChar (c : Char) : Bool := Text.isAlphanumeric c || c == '_'

/-- What a dollar sign starts where dollar quotes exist: a numbered parameter, a text between two
equal tags, or nothing. A tag starts with no digit. -/
def dollar (here : Cursor) : Scan :=
  if here.peek?.any Char.isDigit then ⟨.identifier, here.skipWhile Char.isDigit, none⟩
  else
    let behindTag := here.skipWhile isTagChar
    if behindTag.peek? = some '$' then
      let delimiter := '$' :: (here.rest.takeWhile isTagChar ++ ['$'])
      match (behindTag.skip 1).until? delimiter with
      | some (body, next) => ⟨.dollarQuote, next.skip delimiter.length, some body⟩
      | none => unterminated "dollar-quoted string" here
    else unexpected '$' here

/-- Decides whether a character may continue a name. -/
def isNameChar (d : Dialect) (c : Char) : Bool :=
  Text.isAlphanumeric c || c == '_' || c == '$' || d.isNamePrefix c

/-- Decides whether a character may start a name. -/
def isNameStart (d : Dialect) (c : Char) : Bool :=
  c.isAlpha || c == '_' || d.isNamePrefix c

/-- A name or a keyword. A word with one of the dialect's prefixes is always a name. -/
def word (d : Dialect) (start : Cursor) (c : Char) (here : Cursor) : Scan :=
  let next := here.skipWhile (isNameChar d)
  match d.keyword? (start.textTo next) with
  | some keyword =>
    if d.isNamePrefix c then ⟨.identifier, next, none⟩ else ⟨.keyword keyword, next, none⟩
  | none => ⟨.identifier, next, none⟩

/-- A quoted text, a number, a name, or whatever else is no operator. -/
def literal (d : Dialect) (start : Cursor) (c : Char) (here : Cursor) : Scan :=
  if (c = 'N' || c = 'n') && here.peek? = some '\x27' && d.hasNationalStrings then
    string '\x27' (here.skip 1)
  else if d.isStringQuote c then string c here
  else
    match d.closingQuote? c with
    | some quote => quotedIdentifier quote here
    | none =>
      if c = '[' then ⟨.leftBracket, here, none⟩
      else if c = ']' then ⟨.rightBracket, here, none⟩
      else if c = '$' && d.hasDollarQuotes then dollar here
      else if c.isDigit then number here
      else if isNameStart d c then word d start c here
      else unexpected c here

/-- The token that starts at `start` with the character `c`; `here` is the place behind that. -/
def ofChar (d : Dialect) (start : Cursor) (c : Char) (here : Cursor) : Scan :=
  match punctuation? c with
  | some kind => ⟨kind, here, none⟩
  | none =>
    match c with
    | '.' =>
      if here.peek?.any Char.isDigit then number here
      else extended '.' .dotDot here ⟨.dot, here, none⟩
    | ':' =>
      extended ':' .doubleColon here (extended '=' .colonAssign here ⟨.colon, here, none⟩)
    | '=' => extended '=' .eq here ⟨.assign, here, none⟩
    | '<' => extended '=' .ltEq here (extended '>' .notEq here ⟨.lt, here, none⟩)
    | '>' => extended '=' .gtEq here ⟨.gt, here, none⟩
    | '!' => extended '=' .notEq here (unexpected c here)
    | '|' => extended '|' .concat here (unexpected c here)
    | _ => literal d start c here

end Scan

/-! ## The lexer -/

/-- A source text with a place in it, read under a dialect. -/
structure Lexer where
  source : String
  dialect : Dialect
  cursor : Cursor

namespace Lexer

/-- A lexer at the beginning of a text. -/
def ofSource (source : String) (dialect : Dialect) : Lexer :=
  ⟨source, dialect, Cursor.start source⟩

/-- Reads the tokens that follow under another dialect. -/
def setDialect (lexer : Lexer) (dialect : Dialect) : Lexer := { lexer with dialect }

/-- The token from `start` to what `scan` found. -/
def tokenOf (start : Cursor) (scan : Scan) : Token where
  kind := scan.kind
  literal := scan.literal?.getD (start.textTo scan.next)
  span := ⟨start.offset, scan.next.offset, start.line, start.column⟩

/-- The next token and the lexer behind it. -/
def next (lexer : Lexer) : Token × Lexer :=
  match lexer.cursor.skipTrivia lexer.dialect with
  | .error opening =>
    let scan := Scan.unterminated "block comment" opening
    (tokenOf opening scan, { lexer with cursor := scan.next })
  | .ok start =>
    match start.rest with
    | [] => (tokenOf start ⟨.eof, start, some ""⟩, { lexer with cursor := start })
    | c :: rest =>
      let scan := Scan.ofChar lexer.dialect start c (start.after c rest)
      (tokenOf start scan, { lexer with cursor := scan.next })

end Lexer

/-! ## Every token uses up text -/

theorem Cursor.skipTriviaRun_rest_length_le {d : Dialect} {rest : List Char} {mode : Trivia}
    {here there : Cursor} (hr : here.rest = rest)
    (h : here.skipTriviaRun d rest mode = .ok there) : there.rest.length ≤ rest.length := by
  fun_induction Cursor.skipTriviaRun d rest mode here with
  | case1 => cases h
  | case2 => cases h; simp [hr]
  | case3 c rest here ih => exact Nat.le_succ_of_le (ih rfl h)
  | case4 rest here _ ih => exact Nat.le_trans (ih rfl h) (by simp only [List.length_cons]; omega)
  | case5 c rest here _ _ ih => exact Nat.le_succ_of_le (ih rfl h)
  | case6 rest here ih => exact Nat.le_trans (ih rfl h) (by simp only [List.length_cons]; omega)
  | case7 rest here ih => exact Nat.le_trans (ih rfl h) (by simp only [List.length_cons]; omega)
  | case8 c rest here _ _ _ ih => exact Nat.le_succ_of_le (ih rfl h)
  | case9 c rest here _ _ _ _ ih => exact Nat.le_succ_of_le (ih rfl h)
  | case10 => cases h; simp [hr]

theorem Cursor.skipTrivia_rest_length_le {d : Dialect} {here there : Cursor}
    (h : here.skipTrivia d = .ok there) : there.rest.length ≤ here.rest.length :=
  Cursor.skipTriviaRun_rest_length_le rfl h

namespace Scan

theorem unterminated_rest_length_le (what : String) (here : Cursor) :
    (unterminated what here).next.rest.length ≤ here.rest.length := by
  simp [unterminated, Cursor.finish_rest]

theorem extended_rest_length_le {c : Char} {kind : TokenKind} {here : Cursor} {otherwise : Scan}
    (h : otherwise.next.rest.length ≤ here.rest.length) :
    (extended c kind here otherwise).next.rest.length ≤ here.rest.length := by
  unfold extended
  split
  · exact Cursor.skip_rest_length_le here 1
  · exact h

theorem skipFraction_rest_length_le (here : Cursor) :
    (skipFraction here).rest.length ≤ here.rest.length := by
  unfold skipFraction
  split
  · split
    · exact Nat.le_trans (Cursor.skipWhile_rest_length_le _ _) (Cursor.skip_rest_length_le _ _)
    · exact Nat.le_refl _
  · exact Nat.le_refl _

theorem skipExponent_rest_length_le (here : Cursor) :
    (skipExponent here).rest.length ≤ here.rest.length := by
  unfold skipExponent
  split
  · split
    · split
      · exact Nat.le_trans (Cursor.skipWhile_rest_length_le _ _) (Cursor.skip_rest_length_le _ _)
      · split
        · exact Nat.le_trans (Cursor.skipWhile_rest_length_le _ _)
            (Cursor.skip_rest_length_le _ _)
        · exact Nat.le_refl _
    · exact Nat.le_refl _
  · exact Nat.le_refl _

theorem number_rest_length_le (here : Cursor) :
    (number here).next.rest.length ≤ here.rest.length :=
  Nat.le_trans (skipExponent_rest_length_le _)
    (Nat.le_trans (skipFraction_rest_length_le _) (Cursor.skipWhile_rest_length_le _ _))

theorem string_rest_length_le (quote : Char) (here : Cursor) :
    (string quote here).next.rest.length ≤ here.rest.length := by
  unfold string
  split
  · next h => exact Cursor.unquote?_rest_length_le h
  · exact unterminated_rest_length_le _ _

theorem quotedIdentifier_rest_length_le (quote : Char) (here : Cursor) :
    (quotedIdentifier quote here).next.rest.length ≤ here.rest.length := by
  unfold quotedIdentifier
  split
  · next h => exact Cursor.unquote?_rest_length_le h
  · exact unterminated_rest_length_le _ _

theorem dollar_rest_length_le (here : Cursor) :
    (dollar here).next.rest.length ≤ here.rest.length := by
  unfold dollar
  split
  · exact Cursor.skipWhile_rest_length_le _ _
  · dsimp only
    split
    · split
      · next h =>
        exact Nat.le_trans (Cursor.skip_rest_length_le _ _)
          (Nat.le_trans (Cursor.until?_rest_length_le h)
            (Nat.le_trans (Cursor.skip_rest_length_le _ _)
              (Cursor.skipWhile_rest_length_le _ _)))
      · exact unterminated_rest_length_le _ _
    · exact Nat.le_refl _

theorem word_rest_length_le (d : Dialect) (start : Cursor) (c : Char) (here : Cursor) :
    (word d start c here).next.rest.length ≤ here.rest.length := by
  have h := Cursor.skipWhile_rest_length_le (isNameChar d) here
  unfold word
  dsimp only
  split
  · split <;> exact h
  · exact h

theorem literal_rest_length_le (d : Dialect) (start : Cursor) (c : Char) (here : Cursor) :
    (literal d start c here).next.rest.length ≤ here.rest.length := by
  unfold literal
  split
  · exact Nat.le_trans (string_rest_length_le _ _) (Cursor.skip_rest_length_le _ _)
  split
  · exact string_rest_length_le _ _
  split
  · exact quotedIdentifier_rest_length_le _ _
  split
  · exact Nat.le_refl _
  split
  · exact Nat.le_refl _
  split
  · exact dollar_rest_length_le _
  split
  · exact number_rest_length_le _
  split
  · exact word_rest_length_le _ _ _ _
  · exact Nat.le_refl _

theorem ofChar_rest_length_le (d : Dialect) (start : Cursor) (c : Char) (here : Cursor) :
    (ofChar d start c here).next.rest.length ≤ here.rest.length := by
  unfold ofChar
  split
  · exact Nat.le_refl _
  split
  · split
    · exact number_rest_length_le _
    · exact extended_rest_length_le (Nat.le_refl _)
  · exact extended_rest_length_le (extended_rest_length_le (Nat.le_refl _))
  · exact extended_rest_length_le (Nat.le_refl _)
  · exact extended_rest_length_le (extended_rest_length_le (Nat.le_refl _))
  · exact extended_rest_length_le (Nat.le_refl _)
  · exact extended_rest_length_le (Nat.le_refl _)
  · exact extended_rest_length_le (Nat.le_refl _)
  · exact literal_rest_length_le _ _ _ _

end Scan

theorem Cursor.rest_ne_nil_of_skipTrivia {d : Dialect} {here opening : Cursor}
    (h : here.skipTrivia d = .error opening) : here.rest ≠ [] := by
  intro hr
  rw [Cursor.skipTrivia, hr] at h
  simp [Cursor.skipTriviaRun] at h

namespace Lexer

/-- A token that is not the end of the text leaves less text than there was. -/
theorem next_rest_length_lt {lexer : Lexer} (h : lexer.next.1.isEof = false) :
    lexer.next.2.cursor.rest.length < lexer.cursor.rest.length := by
  unfold next at h ⊢
  split at h
  · next opening htrivia =>
    have := List.length_pos_iff.2 (Cursor.rest_ne_nil_of_skipTrivia htrivia)
    simpa [Scan.unterminated, Cursor.finish_rest] using this
  · next start htrivia =>
    have hle := Cursor.skipTrivia_rest_length_le htrivia
    split at h
    · simp [Token.isEof, tokenOf] at h
    · next c rest hstart =>
      rw [hstart, List.length_cons] at hle
      exact Nat.lt_of_le_of_lt (Scan.ofChar_rest_length_le _ _ _ _) hle

/-- The tokens that are left. The last one, and no other, is the end of the text. -/
def tokens (lexer : Lexer) : List Token :=
  match _h : lexer.next with
  | (token, lexer') => if _he : token.isEof then [token] else token :: lexer'.tokens
termination_by lexer.cursor.rest.length
decreasing_by
  have := @next_rest_length_lt lexer (by simpa [_h] using _he)
  simpa [_h] using this

/-- The tokens of a text. -/
def tokenize (source : String) (dialect : Dialect) : List Token :=
  (ofSource source dialect).tokens

end Lexer

end SqlFrontend
