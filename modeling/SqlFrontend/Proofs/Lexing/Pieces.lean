import SqlFrontend.Proofs.Lexing.Quoting

/-!
# The pieces of a text

A piece is a token without its place. The pieces of a text depend on the dialect and the text only, so
a text that is put together from words, numbers, quoted strings and operators is cut at the seams.

Results:
* `Lexer.map_piece_tokens`: every lexer before a text cuts it into the same pieces.
* `pieces_blank`, `pieces_punctuation`, `pieces_word`, `pieces_keyword`, `pieces_digits`,
  `pieces_quoted`, `pieces_dollarQuote`: what the first piece of a text is, and what is left behind it.
-/

namespace SqlFrontend

/-- A token without its place. -/
structure Piece where
  kind : TokenKind
  literal : String
  deriving DecidableEq

/-- The token without its place. -/
def Token.piece (t : Token) : Piece := ⟨t.kind, t.literal⟩

@[simp] theorem Token.piece_kind (t : Token) : t.piece.kind = t.kind := rfl

@[simp] theorem Token.piece_literal (t : Token) : t.piece.literal = t.literal := rfl

/-- A piece of a kind that is spelt in one way only. -/
def Piece.of (kind : TokenKind) : Piece := ⟨kind, kind.describe⟩

@[simp] theorem Piece.of_kind (kind : TokenKind) : (Piece.of kind).kind = kind := rfl

namespace Lexer

variable {d : Dialect} {text rest : List Char}

/-! ## Pieces and places -/

/-- The pieces of a text, up to its end. -/
def pieces (d : Dialect) (text : List Char) : List Piece :=
  (tokenize (String.ofList text) d).map Token.piece

theorem map_piece_tokens_congr {lexer lexer' : Lexer} (hd : lexer'.dialect = lexer.dialect)
    (hr : lexer'.cursor.rest = lexer.cursor.rest) :
    lexer'.tokens.map Token.piece = lexer.tokens.map Token.piece := by
  induction hn : lexer.cursor.rest.length using Nat.strong_induction_on
    generalizing lexer lexer' with
  | _ n ih =>
    subst hn
    obtain ⟨r, -, hreads, -⟩ := exists_reading lexer.dialect lexer.cursor.rest
    have hnext := hreads lexer rfl rfl
    have hnext' := hreads lexer' hd hr
    have hpiece : lexer'.next.1.piece = lexer.next.1.piece := by rw [hnext, hnext']; rfl
    have hend : lexer'.next.1.isEof = lexer.next.1.isEof := by rw [hnext, hnext']; rfl
    rw [tokens_eq lexer, tokens_eq lexer', hend]
    cases he : lexer.next.1.isEof with
    | true => simp [hpiece]
    | false =>
      have hless := next_rest_length_lt he
      have hbehind : lexer'.next.2.cursor.rest = lexer.next.2.cursor.rest := by
        rw [hnext, hnext']
        show (lexer'.cursor.skip _).rest = (lexer.cursor.skip _).rest
        rw [Cursor.skip_rest, Cursor.skip_rest, hr]
      have hdialect : lexer'.next.2.dialect = lexer.next.2.dialect := by
        rw [next_dialect, next_dialect, hd]
      have hothers := ih _ hless hdialect hbehind rfl
      simp [hpiece, hothers]

/-- Where in its source a text stands does not matter. -/
theorem map_piece_tokens (lexer : Lexer) :
    lexer.tokens.map Token.piece = pieces lexer.dialect lexer.cursor.rest :=
  map_piece_tokens_congr rfl String.toList_ofList.symm

theorem map_piece_tokenize (source : String) (d : Dialect) :
    (tokenize source d).map Token.piece = pieces d source.toList :=
  map_piece_tokens (ofSource source d)

/-- What is read first is the first piece. -/
theorem pieces_of_reads {r : Reading} (h : Reads d text r) (he : r.kind ≠ .eof) :
    pieces d text = ⟨r.kind, r.literal⟩ :: pieces d (text.drop (r.gap + r.length)) := by
  let lexer := ofSource (String.ofList text) d
  have hrest : lexer.cursor.rest = text := String.toList_ofList
  have hnext := h lexer rfl hrest
  have hend : lexer.next.1.isEof = false := by
    rw [hnext]
    exact beq_false_of_ne he
  have hbehind : lexer.next.2.cursor.rest = text.drop (r.gap + r.length) := by
    rw [hnext]
    show (lexer.cursor.skip _).rest = _
    rw [Cursor.skip_rest, hrest]
  show lexer.tokens.map Token.piece = _
  rw [tokens_eq, hend, if_neg (by simp), List.map_cons, map_piece_tokens, next_dialect, hbehind]
  rw [hnext]
  rfl

@[simp] theorem pieces_nil (d : Dialect) : pieces d [] = [⟨.eof, ""⟩] := by
  show (tokenize "" d).map Token.piece = _
  rw [tokenize, tokens_eq]
  rfl

/-- A blank is in no piece. -/
@[simp] theorem pieces_blank (d : Dialect) (rest : List Char) :
    pieces d (' ' :: rest) = pieces d rest := by
  let lexer : Lexer := ⟨"", d, ⟨' ' :: rest, 0, 1, 1⟩⟩
  let behind : Lexer := ⟨"", d, lexer.cursor.after ' ' rest⟩
  have htrivia : lexer.cursor.skipTrivia d = behind.cursor.skipTrivia d := by
    show Cursor.skipTriviaRun d (' ' :: rest) .gap _ = Cursor.skipTriviaRun d rest .gap _
    rw [Cursor.skipTriviaRun, if_pos (by decide)]
    · simp
    · simp
  have hnext : lexer.next = behind.next := by
    unfold next
    rw [show lexer.cursor.skipTrivia lexer.dialect = _ from htrivia]
  have htokens : lexer.tokens = behind.tokens := by rw [tokens_eq, tokens_eq behind, hnext]
  have h := map_piece_tokens lexer
  rw [htokens, map_piece_tokens] at h
  exact h.symm

/-- What is scanned from a text without a gap before it is its first piece. -/
theorem pieces_of_scan {c : Char} {cs : List Char} {kind : TokenKind} {literal? : Option String}
    (hbare : Bare d (c :: (cs ++ rest))) (hkind : kind ≠ .eof)
    (hscan : ∀ start : Cursor, start.rest = c :: (cs ++ rest) →
      Scan.ofChar d start c (start.after c (cs ++ rest)) =
        ⟨kind, (start.after c (cs ++ rest)).skip cs.length, literal?⟩) :
    pieces d (c :: (cs ++ rest)) =
      ⟨kind, literal?.getD (String.ofList (c :: cs))⟩ :: pieces d rest := by
  have hreads := reads_token (n := 0) (m := cs.length) hbare rfl hscan
  have hpieces := pieces_of_reads hreads hkind
  rw [hpieces, Nat.zero_add, List.drop_zero, List.take_succ_cons, List.take_left, List.drop_succ_cons,
    List.drop_left]

/-! ## Punctuation -/

/-- A character that is a piece by itself. -/
theorem pieces_punctuation {c : Char} {kind : TokenKind} (h : Scan.punctuation? c = some kind)
    (hline : c = '-' → rest.head? ≠ some '-') (hblock : c = '/' → rest.head? ≠ some '*') :
    pieces d (c :: rest) = ⟨kind, String.ofList [c]⟩ :: pieces d rest := by
  have hkind : kind ≠ .eof := (Scan.punctuation_isText h).1
  have hplain : Text.isBlank c = false ∧ c ≠ '#' := by
    unfold Scan.punctuation? at h
    split at h <;> first | exact ⟨by decide, by decide⟩ | cases h
  have hscan : ∀ start : Cursor, start.rest = c :: ([] ++ rest) →
      Scan.ofChar d start c (start.after c rest) = ⟨kind, (start.after c rest).skip 0, none⟩ := by
    intro start _
    rw [Scan.ofChar.eq_def, h]
    rfl
  have hbare : Bare d (c :: ([] ++ rest)) := bare_cons hplain.1 hplain.2 hline hblock
  exact pieces_of_scan hbare hkind hscan

theorem pieces_leftParen (d : Dialect) (rest : List Char) :
    pieces d ('(' :: rest) = .of .leftParen :: pieces d rest :=
  pieces_punctuation rfl (absurd · (by decide)) (absurd · (by decide))

theorem pieces_rightParen (d : Dialect) (rest : List Char) :
    pieces d (')' :: rest) = .of .rightParen :: pieces d rest :=
  pieces_punctuation rfl (absurd · (by decide)) (absurd · (by decide))

theorem pieces_comma (d : Dialect) (rest : List Char) :
    pieces d (',' :: rest) = .of .comma :: pieces d rest :=
  pieces_punctuation rfl (absurd · (by decide)) (absurd · (by decide))

theorem pieces_plus (d : Dialect) (rest : List Char) :
    pieces d ('+' :: rest) = .of .plus :: pieces d rest :=
  pieces_punctuation rfl (absurd · (by decide)) (absurd · (by decide))

theorem pieces_minus (d : Dialect) (hrest : rest.head? ≠ some '-') :
    pieces d ('-' :: rest) = .of .minus :: pieces d rest :=
  pieces_punctuation rfl (fun _ => hrest) (absurd · (by decide))

/-- A point with neither a digit nor another point behind it. -/
theorem pieces_dot (d : Dialect) (hdigit : ∀ c ∈ rest.head?, c.isDigit = false)
    (hdot : rest.head? ≠ some '.') :
    pieces d ('.' :: rest) = .of .dot :: pieces d rest := by
  have hbare : Bare d ('.' :: ([] ++ rest)) :=
    bare_cons (by decide) (by decide) (absurd · (by decide)) (absurd · (by decide))
  have hnone : rest.head?.any Char.isDigit = false := by
    cases hr : rest.head? with
    | none => rfl
    | some c => exact hdigit c (by rw [hr]; rfl)
  have hscan : ∀ start : Cursor, start.rest = '.' :: ([] ++ rest) →
      Scan.ofChar d start '.' (start.after '.' rest) = ⟨.dot, (start.after '.' rest).skip 0, none⟩ := by
    intro start _
    show (if rest.head?.any Char.isDigit then _
      else if rest.head? = some '.' then _ else _ : Scan) = _
    rw [hnone, if_neg Bool.false_ne_true, if_neg hdot]
    rfl
  have hkind : TokenKind.dot ≠ .eof := nofun
  exact pieces_of_scan hbare hkind hscan

/-! ## Words -/

end Lexer

/-- Decides whether a word is spelt with ASCII letters, digits and underscores, and starts with no
digit. -/
def Text.isPlainWord : List Char → Bool
  | [] => false
  | c :: cs => (c.isAlpha || c == '_') && cs.all fun c => c.isAlphanum || c == '_'

/-- Decides whether a character ends whatever word, number or string stands before it. -/
def Text.isSeam (c : Char) : Bool := c == ' ' || c == ',' || c == ')'

/-- Decides whether a character ends a word that stands before it. -/
def Text.endsWord (c : Char) : Bool := isSeam c || c == '(' || c == '.'

theorem Text.endsWord_of_isSeam {c : Char} (h : isSeam c) : endsWord c := by
  rw [endsWord, h, Bool.true_or, Bool.true_or]

/-- Decides whether a character continues no number that stands before it. -/
def Text.endsNumber (c : Char) : Bool := !c.isDigit && c != '.' && c != 'e' && c != 'E'

theorem Text.endsNumber_of_isSeam {c : Char} (h : isSeam c) : endsNumber c := by
  simp only [isSeam, Bool.or_eq_true, beq_iff_eq] at h
  rcases h with (rfl | rfl) | rfl <;> decide

theorem Keyword.isPlainWord_spelling (keyword : Keyword) :
    Text.isPlainWord keyword.spelling.toList := by
  obtain ⟨hne, hall⟩ := keyword.capitals_spelling
  have hletter : ∀ c ∈ keyword.spelling.toList, (c.isAlpha || c == '_') = true := by
    intro c hc
    rcases hall c hc with h | rfl
    · exact Bool.or_eq_true_iff.2 (.inl (Bool.or_eq_true_iff.2 (.inl h)))
    · rfl
  obtain ⟨c, cs, hcons⟩ := List.exists_cons_of_ne_nil hne
  rw [hcons, List.forall_mem_cons] at hletter
  rw [hcons, Text.isPlainWord, hletter.1, Bool.true_and, List.all_eq_true]
  intro x hx
  rcases Bool.or_eq_true .. ▸ hletter.2 x hx with h | h <;> simp [Char.isAlphanum, h]

namespace Scan

variable {d : Dialect} {c : Char}

theorem ne_of_isWordStart {x : Char} (h : (c.isAlpha || c == '_') = true)
    (hx : (x.isAlpha || x == '_') = false) : c ≠ x := by
  rintro rfl
  rw [h] at hx
  cases hx

theorem toNat_of_isWordStart (h : (c.isAlpha || c == '_') = true) :
    65 ≤ c.toNat ∧ c.toNat ≤ 122 := by
  delta Char.isAlpha Char.isUpper Char.isLower at h
  simp only [Bool.or_eq_true, decide_eq_true_eq, beq_iff_eq, UInt32.le_iff_toNat_le] at h
  have hval : c.val.toNat = c.toNat := rfl
  rcases h with (h | h) | rfl
  · simp at h
    omega
  · simp at h
    omega
  · decide

theorem isDigit_of_isWordStart (h : (c.isAlpha || c == '_') = true) : c.isDigit = false := by
  have hrange := toNat_of_isWordStart h
  have hval : c.val.toNat = c.toNat := rfl
  by_contra hdigit
  simp [Char.isDigit, UInt32.le_iff_toNat_le] at hdigit
  omega

theorem isBlank_of_isWordStart (h : (c.isAlpha || c == '_') = true) : Text.isBlank c = false := by
  have hrange := toNat_of_isWordStart h
  by_contra hblank
  simp [Text.isBlank] at hblank
  omega

theorem isBlank_of_isDigit (h : c.isDigit) : Text.isBlank c = false := by
  rw [Char.isDigit_iff_toNat] at h
  by_contra hblank
  simp [Text.isBlank] at hblank h
  omega

/-- A letter, a digit or an underscore starts a number or a word, unless it marks a string. -/
theorem ofChar_of_isAlphanum {start here : Cursor} (h : (c.isAlphanum || c == '_') = true)
    (hquote : c = 'N' ∨ c = 'n' → here.peek? ≠ some '\x27') : ofChar d start c here =
      if c.isDigit then number here
      else if isNameStart d c then word d start c here else unexpected c here := by
  have hne {x : Char} (hx : (x.isAlphanum || x == '_') = false) : c ≠ x := by
    rintro rfl
    rw [h] at hx
    cases hx
  have hpunctuation : punctuation? c = none := by
    unfold punctuation?
    split <;> first | rfl | exact absurd h (by decide)
  have hstring : d.isStringQuote c = false := by
    have h1 : c ≠ '\x27' := hne (by decide)
    have h2 : c ≠ '"' := hne (by decide)
    simp [Dialect.isStringQuote, h1, h2]
  have hclosing : d.closingQuote? c = none := by
    unfold Dialect.closingQuote?
    split <;> first | rfl | exact absurd h (by decide)
  have hnational : ((c = 'N' || c = 'n') && here.peek? = some '\x27' && d.hasNationalStrings)
      = false := by
    by_contra hmark
    simp only [Bool.not_eq_false, Bool.and_eq_true, Bool.or_eq_true, decide_eq_true_eq] at hmark
    exact hquote hmark.1.1 hmark.1.2
  have hliteral : literal d start c here = if c.isDigit then number here
      else if isNameStart d c then word d start c here else unexpected c here := by
    have hopen : c ≠ '[' := hne (by decide)
    have hclose : c ≠ ']' := hne (by decide)
    have hdollar : c ≠ '$' := hne (by decide)
    unfold literal
    rw [hnational, hstring, hclosing]
    simp [hopen, hclose, hdollar]
  rw [ofChar.eq_def, hpunctuation]
  dsimp only
  split <;> first | exact hliteral | exact absurd h (by decide)

/-- What starts like a word and is not marked as national is scanned as a word. -/
theorem ofChar_word {start here : Cursor} (h : (c.isAlpha || c == '_') = true)
    (hquote : here.peek? ≠ some '\x27') : ofChar d start c here = word d start c here := by
  have hname : isNameStart d c = true := by rw [isNameStart, h, Bool.true_or]
  have halphanum : (c.isAlphanum || c == '_') = true := by
    rcases Bool.or_eq_true .. ▸ h with h | h <;> simp [Char.isAlphanum, h]
  rw [ofChar_of_isAlphanum halphanum fun _ => hquote, isDigit_of_isWordStart h, hname]
  rfl

theorem ofChar_digit {start here : Cursor} (h : c.isDigit) :
    ofChar d start c here = number here := by
  have halphanum : (c.isAlphanum || c == '_') = true := by simp [Char.isAlphanum, h]
  have hletter : ¬(c = 'N' ∨ c = 'n') := by
    rintro (rfl | rfl) <;> exact absurd h (by decide)
  rw [ofChar_of_isAlphanum halphanum fun hmark => absurd hmark hletter, if_pos h]

theorem isNamePrefix_of_isWordStart (h : (c.isAlpha || c == '_') = true) :
    d.isNamePrefix c = false := by
  have h1 : c ≠ '@' := ne_of_isWordStart h (by decide)
  have h2 : c ≠ '#' := ne_of_isWordStart h (by decide)
  have h3 : c ≠ '$' := ne_of_isWordStart h (by decide)
  cases d <;> simp [Dialect.isNamePrefix, h1, h2, h3]

theorem isNameChar_of_isAlphanum (h : (c.isAlphanum || c == '_') = true) :
    isNameChar d c = true := by
  rcases Bool.or_eq_true .. ▸ h with h | h
  · simp [isNameChar, Text.isAlphanumeric_of_isAlphanum h]
  · simp [isNameChar, h]

theorem isNameChar_of_endsWord (h : Text.endsWord c) : isNameChar d c = false := by
  simp only [Text.endsWord, Text.isSeam, Bool.or_eq_true, beq_iff_eq] at h
  rcases h with (((rfl | rfl) | rfl) | rfl) | rfl <;> cases d <;> decide

end Scan

namespace Lexer

variable {d : Dialect} {rest : List Char}

/-- The kind of a word. -/
def wordKind (d : Dialect) (word : String) : TokenKind :=
  match d.keyword? word with
  | some keyword => .keyword keyword
  | none => .identifier

theorem wordKind_ne_eof (d : Dialect) (word : String) : wordKind d word ≠ .eof := by
  unfold wordKind
  split <;> nofun

/-- A run of characters of a class stops where one of another class follows. -/
theorem takeWhile_run {p : Char → Bool} {run rest : List Char} (h : ∀ c ∈ run, p c)
    (hrest : ∀ c ∈ rest.head?, p c = false) : (run ++ rest).takeWhile p = run := by
  rw [List.takeWhile_append_of_pos h]
  cases rest with
  | nil => simp
  | cons c rest => simp [hrest c rfl]

/-- A word with its end behind it. -/
theorem pieces_word {word : String} (h : Text.isPlainWord word.toList)
    (hrest : ∀ c ∈ rest.head?, Text.endsWord c) :
    pieces d (word.toList ++ rest) = ⟨wordKind d word, word⟩ :: pieces d rest := by
  obtain ⟨cs, rfl⟩ : ∃ cs, word = String.ofList cs := ⟨_, String.ofList_toList.symm⟩
  rw [String.toList_ofList] at h ⊢
  cases cs with
  | nil => cases h
  | cons c cs =>
    rw [Text.isPlainWord, Bool.and_eq_true, List.all_eq_true] at h
    obtain ⟨hstart, hall⟩ := h
    have hquote : (cs ++ rest).head? ≠ some '\x27' := by
      intro hq
      cases cs with
      | nil => exact absurd (hrest _ hq) (by decide)
      | cons x cs =>
        obtain rfl : x = '\x27' := by simpa using hq
        exact absurd (hall _ List.mem_cons_self) (by decide)
    have hrun : (cs ++ rest).takeWhile (Scan.isNameChar d) = cs :=
      takeWhile_run (fun x hx => Scan.isNameChar_of_isAlphanum (hall x hx))
        fun x hx => Scan.isNameChar_of_endsWord (hrest x hx)
    have hscan : ∀ start : Cursor, start.rest = c :: (cs ++ rest) →
        Scan.ofChar d start c (start.after c (cs ++ rest)) =
          ⟨wordKind d (String.ofList (c :: cs)), (start.after c (cs ++ rest)).skip cs.length, none⟩ := by
      intro start hs
      have htext : start.textTo ((start.after c (cs ++ rest)).skip cs.length) =
          String.ofList (c :: cs) := by
        rw [← Cursor.skip_succ hs, Cursor.textTo_skip, hs, List.take_succ_cons, List.take_left']
        rfl
      have hnational : (start.after c (cs ++ rest)).peek? ≠ some '\x27' := hquote
      rw [Scan.ofChar_word hstart hnational, Scan.word, Cursor.skipWhile_eq, Cursor.rest_after, hrun]
      rw [htext, Scan.isNamePrefix_of_isWordStart hstart, wordKind]
      cases d.keyword? (String.ofList (c :: cs)) <;> rfl
    have hbare : Bare d (c :: (cs ++ rest)) := by
      have hdash : c ≠ '-' := Scan.ne_of_isWordStart hstart (by decide)
      have hslash : c ≠ '/' := Scan.ne_of_isWordStart hstart (by decide)
      exact bare_cons (Scan.isBlank_of_isWordStart hstart)
        (Scan.ne_of_isWordStart hstart (by decide)) (absurd · hdash) (absurd · hslash)
    exact pieces_of_scan hbare (wordKind_ne_eof _ _) hscan

theorem pieces_keyword (keyword : Keyword) (h : keyword ≠ .TOP)
    (hrest : ∀ c ∈ rest.head?, Text.endsWord c) :
    pieces d (keyword.spelling.toList ++ rest) = .of (.keyword keyword) :: pieces d rest := by
  have hkeyword : d.keyword? keyword.spelling = some keyword := by
    rw [Dialect.keyword?, Keyword.ofString?_spelling]
    cases d <;> simp [Dialect.demoted, h]
  rw [pieces_word keyword.isPlainWord_spelling hrest, wordKind, hkeyword]
  rfl

theorem pieces_keyword_blank (keyword : Keyword) (h : keyword ≠ .TOP) (rest : List Char) :
    pieces d (keyword.spelling.toList ++ ' ' :: rest) = .of (.keyword keyword) :: pieces d rest := by
  rw [pieces_keyword keyword h (by simp [Text.endsWord, Text.isSeam]), pieces_blank]

/-- A word that is no keyword is a name in every dialect. -/
theorem pieces_name {word : String} (h : Text.isPlainWord word.toList)
    (hname : Keyword.ofString? word = none) (hrest : ∀ c ∈ rest.head?, Text.endsWord c) :
    pieces d (word.toList ++ rest) = ⟨.identifier, word⟩ :: pieces d rest := by
  rw [pieces_word h hrest, wordKind, Dialect.keyword?, hname]
  rfl

/-! ## Numbers -/

/-- Digits with what continues no number behind them. -/
theorem pieces_natural {digits : List Char} (hne : digits ≠ []) (h : ∀ c ∈ digits, c.isDigit)
    (hrest : ∀ c ∈ rest.head?, Text.endsNumber c) :
    pieces d (digits ++ rest) = ⟨.number, String.ofList digits⟩ :: pieces d rest := by
  cases digits with
  | nil => exact absurd rfl hne
  | cons c cs =>
    obtain ⟨hc, hcs⟩ := List.forall_mem_cons.1 h
    simp only [Text.endsNumber, Bool.and_eq_true, Bool.not_eq_true', bne_iff_ne] at hrest
    have hrun : (cs ++ rest).takeWhile Char.isDigit = cs :=
      takeWhile_run hcs fun x hx => (hrest x hx).1.1.1
    have hfraction : Scan.fractionLength rest = 0 := by
      unfold Scan.fractionLength
      split
      · exact absurd rfl (hrest '.' rfl).1.1.2
      · rfl
    have hexponent : Scan.exponentLength rest = 0 := by
      unfold Scan.exponentLength
      split
      · next mark x t =>
        have hmark := hrest mark rfl
        rw [if_neg]
        intro he
        simp only [Bool.or_eq_true, decide_eq_true_eq] at he
        exact he.elim hmark.1.2 hmark.2
      · rfl
    have hscan : ∀ start : Cursor, start.rest = c :: (cs ++ rest) →
        Scan.ofChar d start c (start.after c (cs ++ rest)) =
          ⟨.number, (start.after c (cs ++ rest)).skip cs.length, none⟩ := by
      intro start _
      have hskip : ((start.after c (cs ++ rest)).skip cs.length).rest = rest := by
        rw [Cursor.skip_rest, Cursor.rest_after, List.drop_left']
        rfl
      rw [Scan.ofChar_digit hc, Scan.number, Cursor.skipWhile_eq, Cursor.rest_after, hrun,
        Scan.skipFraction_eq, hskip, hfraction]
      show (⟨_, Scan.skipExponent (Cursor.skip _ cs.length), none⟩ : Scan) = _
      rw [Scan.skipExponent_eq, hskip, hexponent]
      rfl
    have hbare : Bare d (c :: (cs ++ rest)) := by
      have hdash : c ≠ '-' := by rintro rfl; exact absurd hc (by decide)
      have hslash : c ≠ '/' := by rintro rfl; exact absurd hc (by decide)
      exact bare_cons (Scan.isBlank_of_isDigit hc) (by rintro rfl; exact absurd hc (by decide))
        (absurd · hdash) (absurd · hslash)
    have hkind : TokenKind.number ≠ .eof := by decide
    exact pieces_of_scan hbare hkind hscan

/-- Digits with a seam behind them. -/
theorem pieces_digits {digits : List Char} (hne : digits ≠ []) (h : ∀ c ∈ digits, c.isDigit)
    (hrest : ∀ c ∈ rest.head?, Text.isSeam c) :
    pieces d (digits ++ rest) = ⟨.number, String.ofList digits⟩ :: pieces d rest :=
  pieces_natural hne h fun c hc => Text.endsNumber_of_isSeam (hrest c hc)

/-! ## Strings -/

/-- A string as it is written, with a seam behind it. -/
theorem pieces_quoted (value : String) (hrest : ∀ c ∈ rest.head?, Text.isSeam c) :
    pieces d ((Literal.quoted value).toList ++ rest) = ⟨.string, value⟩ :: pieces d rest := by
  have hquote : rest.head? ≠ some '\x27' := fun hq => absurd (hrest _ hq) (by decide)
  have hreads := reads_string (d := d) rfl hquote value.toList
  rw [← toList_enclose, String.ofList_toList, ← quoted_eq_enclose, ← length_enclose,
    ← quoted_eq_enclose] at hreads
  rw [pieces_of_reads hreads nofun, Nat.zero_add, List.drop_left]

/-! ## Dollar quotes -/

/-- A text in dollar quotes, up to the first repetition of its tag. -/
theorem pieces_dollarQuote {tag body : List Char} (htag : Scan.IsTag tag)
    (hfirst : ∀ front back, body ++ '$' :: (tag ++ ['$']) = front ++ '$' :: (tag ++ ['$']) ++ back →
      back = []) :
    pieces .postgreSql ('$' :: (tag ++ '$' :: (body ++ ('$' :: (tag ++ ['$']) ++ rest)))) =
      ⟨.dollarQuote, String.ofList body⟩ :: pieces .postgreSql rest := by
  have hfirst' : ∀ n < body.length,
      ¬ '$' :: (tag ++ ['$']) <+: (body ++ '$' :: (tag ++ ['$'])).drop n := by
    rintro n hn ⟨back, hback⟩
    have hwhole := (List.take_append_drop n (body ++ '$' :: (tag ++ ['$']))).symm
    rw [← hback, ← List.append_assoc] at hwhole
    have hlength := congrArg List.length hwhole
    rw [hfirst _ back hwhole] at hlength
    simp at hlength
    omega
  have hopening : '$' :: (tag ++ '$' :: (body ++ ('$' :: (tag ++ ['$']) ++ rest))) =
      '$' :: (tag ++ '$' :: (body ++ '$' :: (tag ++ ['$']))) ++ rest := by simp
  rw [pieces_of_reads (reads_dollarQuote htag hfirst') nofun, hopening, Nat.zero_add, List.drop_left']
  simp
  omega

end Lexer

/-! ## Operators -/

/-- The kinds of the tokens that an operator is written with. -/
def BinaryOperator.kinds : BinaryOperator → List TokenKind
  | .eq => [.assign]
  | .notEq => [.notEq]
  | .lt => [.lt]
  | .gt => [.gt]
  | .ltEq => [.ltEq]
  | .gtEq => [.gtEq]
  | .and => [.keyword .AND]
  | .or => [.keyword .OR]
  | .plus => [.plus]
  | .minus => [.minus]
  | .multiply => [.star]
  | .divide => [.slash]
  | .modulo => [.percent]
  | .concat => [.concat]
  | .like => [.keyword .LIKE]
  | .notLike => [.keyword .NOT, .keyword .LIKE]
  | .is => [.keyword .IS]
  | .isNot => [.keyword .IS, .keyword .NOT]

namespace Lexer

/-- An operator that is no word and is not punctuation, with a blank behind it. -/
theorem pieces_mark {d : Dialect} {c : Char} {cs rest : List Char} {kind : TokenKind}
    (hc : c ∈ ['=', '!', '<', '>', '|']) (hkind : kind ≠ .eof)
    (hscan : ∀ start : Cursor, Scan.ofChar d start c (start.after c (cs ++ ' ' :: rest)) =
      ⟨kind, (start.after c (cs ++ ' ' :: rest)).skip cs.length, none⟩) :
    pieces d (c :: (cs ++ ' ' :: rest)) = ⟨kind, String.ofList (c :: cs)⟩ :: pieces d rest := by
  have hbare : Bare d (c :: (cs ++ ' ' :: rest)) := by
    simp only [List.mem_cons, List.not_mem_nil, or_false] at hc
    rcases hc with rfl | rfl | rfl | rfl | rfl <;>
      exact bare_cons (by decide) (by decide) (absurd · (by decide)) (absurd · (by decide))
  rw [pieces_of_scan hbare hkind fun start _ => hscan start, pieces_blank]
  rfl

/-- An operator between blanks is cut into the words and marks that it is written with. -/
theorem pieces_operator (d : Dialect) (op : BinaryOperator) (rest : List Char) :
    pieces d (op.text.toList ++ ' ' :: rest) = op.kinds.map Piece.of ++ pieces d rest := by
  have hpunctuation {c : Char} {kind : TokenKind} (h : Scan.punctuation? c = some kind) :
      pieces d (c :: ' ' :: rest) = ⟨kind, String.ofList [c]⟩ :: pieces d rest := by
    have hblank (x : Char) (hx : ' ' ≠ x) : (' ' :: rest).head? ≠ some x := by simpa using hx
    rw [pieces_punctuation h (fun _ => hblank _ (by decide)) fun _ => hblank _ (by decide),
      pieces_blank]
  cases op with
  | eq => exact pieces_mark (by decide) nofun fun _ => rfl
  | notEq => exact pieces_mark (by decide) nofun fun _ => rfl
  | lt => exact pieces_mark (by decide) nofun fun _ => rfl
  | gt => exact pieces_mark (by decide) nofun fun _ => rfl
  | ltEq => exact pieces_mark (by decide) nofun fun _ => rfl
  | gtEq => exact pieces_mark (by decide) nofun fun _ => rfl
  | concat => exact pieces_mark (by decide) nofun fun _ => rfl
  | plus => exact hpunctuation rfl
  | minus => exact hpunctuation rfl
  | multiply => exact hpunctuation rfl
  | divide => exact hpunctuation rfl
  | modulo => exact hpunctuation rfl
  | and => exact pieces_keyword_blank .AND nofun rest
  | or => exact pieces_keyword_blank .OR nofun rest
  | like => exact pieces_keyword_blank .LIKE nofun rest
  | is => exact pieces_keyword_blank .IS nofun rest
  | notLike =>
    have h := pieces_keyword_blank (d := d) .NOT nofun (Keyword.LIKE.spelling.toList ++ ' ' :: rest)
    rw [pieces_keyword_blank .LIKE nofun rest] at h
    exact h
  | isNot =>
    have h := pieces_keyword_blank (d := d) .IS nofun (Keyword.NOT.spelling.toList ++ ' ' :: rest)
    rw [pieces_keyword_blank .NOT nofun rest] at h
    exact h

end Lexer

end SqlFrontend
