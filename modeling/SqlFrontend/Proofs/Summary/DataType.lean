import SqlFrontend.Proofs.Grammar.Body
import SqlFrontend.Proofs.Lexing.Words
import SqlFrontend.Proofs.Summary.RoundTrip

/-!
# Data types as they are written

The summary of a data type has its name first, then its modifier, its dimensions and its sign. That is the
order in which they are read, but for the words about a time zone: they belong to the name and are read
behind the modifier.

Results:
* `DataType.Spelled`: the data types that can be read, by the words of their names.
* `Spelled.pieces_summary`: the summary of such a type is cut into the pieces of the type.
* `Grammar.parses_dataType_pieces`: the type is read from its pieces, unless a modifier stands before the
  words about a time zone.
-/

namespace SqlFrontend

/-! ## The parts of a type -/

/-- What stands behind the first word of the name of a type: the text and its pieces. -/
inductive DataType.NameTail : (first text : String) → List Piece → Prop
  | bare (first : String) : NameTail first "" []
  | precision : NameTail "DOUBLE" " PRECISION" [⟨.identifier, "PRECISION"⟩]
  | varying {first : String} : first = "CHARACTER" ∨ first = "CHAR" →
      NameTail first " VARYING" [⟨.identifier, "VARYING"⟩]
  | zone {first : String} : first = "TIMESTAMP" ∨ first = "TIME" →
      NameTail first " WITH TIME ZONE"
        [.of (.keyword .WITH), ⟨.identifier, "TIME"⟩, ⟨.identifier, "ZONE"⟩]
  | noZone {first : String} : first = "TIMESTAMP" ∨ first = "TIME" →
      NameTail first " WITHOUT TIME ZONE"
        [⟨.identifier, "WITHOUT"⟩, ⟨.identifier, "TIME"⟩, ⟨.identifier, "ZONE"⟩]

/-- The numbers of a modifier have 64 bits. -/
def TypeModifier.Fits : TypeModifier → Prop
  | .length n => n < 2 ^ 64
  | .max => True
  | .precisionScale precision scale => precision < 2 ^ 64 ∧ scale < 2 ^ 64

/-- A type whose name ends with the words about a time zone. -/
def DataType.Zoned (t : DataType) : Prop := " TIME ZONE".toList <:+ t.name.toList

instance (t : DataType) : Decidable t.Zoned := inferInstanceAs (Decidable (_ <:+ _))

/-- The words that the name of a type consists of. -/
structure DataType.Spelling where
  /-- Whether the type is one of sets. -/
  isSet : Bool
  first : Piece
  /-- The text behind the first word. -/
  tail : String
  more : List Piece

/-- A data type that can be read in a dialect, with the words of its name. -/
structure DataType.Spelled (d : Dialect) (t : DataType) (spelling : DataType.Spelling) : Prop where
  name : t.name = (if spelling.isSet then "SETOF " else "") ++ spelling.first.literal ++ spelling.tail
  word : spelling.first.IsWord d
  isName : spelling.first.kind = .identifier ∨
    ∃ keyword, spelling.first.kind = .keyword keyword ∧ keyword.isReserved = false
  capital : Text.upper spelling.first.literal = spelling.first.literal
  single : spelling.isSet = false → spelling.first.kind = .identifier →
    Text.sameWord spelling.first.literal "SETOF" = false
  tail : DataType.NameTail spelling.first.literal spelling.tail spelling.more
  modifier : ∀ m ∈ t.modifier, m.Fits
  arrays : t.dimensions ≠ [] → d = .postgreSql
  sizes : ∀ size ∈ t.dimensions, ∀ n ∈ size, n < 2 ^ 64

/-! ## Words -/

/-- The words that a type is written with besides its name. -/
def DataType.words : List String :=
  ["MAX", "PRECISION", "SETOF", "TIME", "UNSIGNED", "VARYING", "WITHOUT", "ZONE"]

theorem DataType.isPlainWord_of_mem : ∀ word ∈ DataType.words, Text.isPlainWord word.toList := by
  decide

/-- No word of a type is a keyword, and none but the word for the sign is taken for that word. -/
theorem DataType.word_facts : ∀ word ∈ DataType.words, Keyword.ofString? word = none ∧
    (word ≠ "UNSIGNED" → Text.sameWord "UNSIGNED" word = false) := by
  decide +kernel

/-! ## Pieces -/

/-- A number without a sign. -/
def Piece.natural (n : ℕ) : Piece := ⟨.number, Nat.repr n⟩

def TypeModifier.pieces : TypeModifier → List Piece
  | .length n => [.of .leftParen, .natural n, .of .rightParen]
  | .max => [.of .leftParen, ⟨.identifier, "MAX"⟩, .of .rightParen]
  | .precisionScale precision scale =>
    [.of .leftParen, .natural precision, .of .comma, .natural scale, .of .rightParen]

def DataType.modifierPieces (t : DataType) : List Piece := (t.modifier.map TypeModifier.pieces).getD []

def DataType.dimensionPieces : Option ℕ → List Piece
  | some n => [.of .leftBracket, .natural n, .of .rightBracket]
  | none => [.of .leftBracket, .of .rightBracket]

def DataType.signPieces (t : DataType) : List Piece :=
  if t.isUnsigned then [⟨.identifier, "UNSIGNED"⟩] else []

def DataType.Spelling.pieces (spelling : DataType.Spelling) : List Piece :=
  (if spelling.isSet then [⟨.identifier, "SETOF"⟩] else []) ++ spelling.first :: spelling.more

/-- The pieces that a type is written with. -/
def DataType.pieces (t : DataType) (spelling : DataType.Spelling) : List Piece :=
  spelling.pieces ++ (t.modifierPieces ++ (t.dimensions.flatMap DataType.dimensionPieces ++ t.signPieces))

/-! ## Cutting the summary -/

namespace Lexer

variable {d : Dialect} {rest : List Char}

/-- Digits end where neither a digit nor a mark of a fraction or an exponent follows. -/
theorem pieces_repr (n : ℕ) (hrest : ∀ c ∈ rest.head?, Text.endsNumber c) :
    pieces d ((Nat.repr n).toList ++ rest) = .natural n :: pieces d rest := by
  have hdigits := pieces_natural (d := d) Nat.toDigits_ne_nil
    (fun c => Numeral.isDigit_of_mem_toDigits (n := n)) hrest
  rw [Nat.toList_repr, hdigits, ← Nat.toList_repr, String.ofList_toList]
  rfl

theorem pieces_leftBracket (rest : List Char) :
    pieces .postgreSql ('[' :: rest) = .of .leftBracket :: pieces .postgreSql rest := by
  have hbare : Bare .postgreSql ('[' :: ([] ++ rest)) :=
    bare_cons (by decide) (by decide) (absurd · (by decide)) (absurd · (by decide))
  have hkind : TokenKind.leftBracket ≠ .eof := nofun
  exact pieces_of_scan hbare hkind fun start _ => rfl

theorem pieces_rightBracket (d : Dialect) (rest : List Char) :
    pieces d (']' :: rest) = .of .rightBracket :: pieces d rest := by
  have hbare : Bare d (']' :: ([] ++ rest)) :=
    bare_cons (by decide) (by decide) (absurd · (by decide)) (absurd · (by decide))
  have hkind : TokenKind.rightBracket ≠ .eof := nofun
  exact pieces_of_scan hbare hkind fun start _ => by cases d <;> rfl

/-- A word that is spelt with letters, digits and underscores is a word of every dialect. -/
theorem isWord_of_isPlainWord (d : Dialect) {word : String} (h : Text.isPlainWord word.toList) :
    Piece.IsWord d ⟨wordKind d word, word⟩ := by
  obtain ⟨cs, rfl⟩ : ∃ cs, word = String.ofList cs := ⟨_, String.ofList_toList.symm⟩
  rw [String.toList_ofList] at h
  cases cs with
  | nil => cases h
  | cons c cs =>
    rw [Text.isPlainWord, Bool.and_eq_true, List.all_eq_true] at h
    have hstart : Scan.isNameStart d c := by rw [Scan.isNameStart, h.1, Bool.true_or]
    have hword := Piece.IsWord.word hstart fun x hx => Scan.isNameChar_of_isAlphanum (d := d) (h.2 x hx)
    rwa [nameKind, Scan.isNamePrefix_of_isWordStart h.1, if_neg Bool.false_ne_true] at hword

end Lexer

/-- Decides whether a character ends whatever part of a data type stands before it. -/
def Text.endsType (c : Char) : Bool := isSeam c || c == '(' || c == '['

namespace DataType

open Lexer

variable {d : Dialect} {t : DataType} {spelling : Spelling} {rest : List Char}

theorem endsName (hrest : ∀ c ∈ rest.head?, Text.endsType c) :
    ∀ c ∈ rest.head?, Scan.isNameChar d c = false ∧ c ≠ '\x27' := by
  intro c hc
  have h := hrest c hc
  simp only [Text.endsType, Text.isSeam, Bool.or_eq_true, beq_iff_eq] at h
  rcases h with (((rfl | rfl) | rfl) | rfl) | rfl <;> cases d <;> exact ⟨by decide, by decide⟩

/-- A word with a blank before it. -/
theorem pieces_blankWord {word : String} (h : Text.isPlainWord word.toList)
    (hrest : ∀ c ∈ rest.head?, Text.endsType c) :
    Lexer.pieces d (' ' :: (word.toList ++ rest)) = ⟨wordKind d word, word⟩ :: Lexer.pieces d rest := by
  rw [pieces_blank]
  exact (isWord_of_isPlainWord d h).pieces (endsName hrest)

theorem wordKind_identifier {word : String} (h : Keyword.ofString? word = none) :
    wordKind d word = .identifier := by
  rw [wordKind, Dialect.keyword?, h]
  rfl

/-- A name with a blank before it. -/
theorem pieces_blankName (word : String) (h : word ∈ words) (hrest : ∀ c ∈ rest.head?, Text.endsType c) :
    Lexer.pieces d (' ' :: (word.toList ++ rest)) = ⟨.identifier, word⟩ :: Lexer.pieces d rest := by
  rw [pieces_blankWord (isPlainWord_of_mem word h) hrest, wordKind_identifier (word_facts word h).1]

theorem NameTail.pieces {first text : String} {more : List Piece} (h : NameTail first text more)
    (hrest : ∀ c ∈ rest.head?, Text.endsType c) :
    Lexer.pieces d (text.toList ++ rest) = more ++ Lexer.pieces d rest := by
  have hblank (text : List Char) : ∀ c ∈ (' ' :: text).head?, Text.endsType c := by
    simp [Text.endsType, Text.isSeam]
  have hlast : Lexer.pieces d (' ' :: ("ZONE".toList ++ rest)) =
      ⟨.identifier, "ZONE"⟩ :: Lexer.pieces d rest :=
    pieces_blankName _ (by decide) hrest
  have hzone : Lexer.pieces d (' ' :: ("TIME".toList ++ ' ' :: ("ZONE".toList ++ rest))) =
      ⟨.identifier, "TIME"⟩ :: ⟨.identifier, "ZONE"⟩ :: Lexer.pieces d rest := by
    rw [pieces_blankName _ (by decide) (hblank _), hlast]
  cases h with
  | bare => rfl
  | precision => exact pieces_blankName "PRECISION" (by decide) hrest
  | varying => exact pieces_blankName "VARYING" (by decide) hrest
  | zone =>
    have hwith := pieces_keyword_blank (d := d) .WITH (by decide) ("TIME".toList ++ ' ' :: ("ZONE".toList ++ rest))
    rw [pieces_blank] at hzone
    show Lexer.pieces d (' ' :: (Keyword.WITH.spelling.toList ++ ' ' ::
      ("TIME".toList ++ ' ' :: ("ZONE".toList ++ rest)))) = _
    rw [pieces_blank, hwith, hzone]
    rfl
  | noZone =>
    have hwithout := pieces_blankName (d := d) "WITHOUT" (by decide)
      (hblank ("TIME".toList ++ ' ' :: ("ZONE".toList ++ rest)))
    rw [hzone] at hwithout
    exact hwithout

theorem NameTail.endsType {first text : String} {more : List Piece} (h : NameTail first text more)
    (hrest : ∀ c ∈ rest.head?, Text.endsType c) : ∀ c ∈ (text.toList ++ rest).head?, Text.endsType c := by
  cases h with
  | bare => exact hrest
  | _ => simp [Text.endsType, Text.isSeam]

theorem pieces_modifier (m : TypeModifier) :
    Lexer.pieces d (m.summary.toList ++ rest) = m.pieces ++ Lexer.pieces d rest := by
  have hclosing (text : List Char) : ∀ c ∈ (')' :: text).head?, Text.endsNumber c := by
    simp [Text.endsNumber]
  cases m with
  | length n =>
    have htext : (TypeModifier.length n).summary.toList ++ rest =
        '(' :: ((Nat.repr n).toList ++ ')' :: rest) := by
      simp [TypeModifier.summary]
      rfl
    rw [htext, pieces_leftParen, pieces_repr n (hclosing rest), pieces_rightParen]
    rfl
  | max =>
    have hmax : Lexer.pieces d ("MAX".toList ++ ')' :: rest) =
        ⟨.identifier, "MAX"⟩ :: Lexer.pieces d (')' :: rest) :=
      pieces_name (by decide) (word_facts _ (by decide)).1 (by simp [Text.endsWord, Text.isSeam])
    show Lexer.pieces d ('(' :: ("MAX".toList ++ ')' :: rest)) = _
    rw [pieces_leftParen, hmax, pieces_rightParen]
    rfl
  | precisionScale precision scale =>
    have htext : (TypeModifier.precisionScale precision scale).summary.toList ++ rest =
        '(' :: ((Nat.repr precision).toList ++ ',' :: ' ' :: ((Nat.repr scale).toList ++ ')' :: rest)) := by
      simp [TypeModifier.summary]
      rfl
    rw [htext, pieces_leftParen, pieces_repr precision (by simp [Text.endsNumber]), pieces_comma,
      pieces_blank, pieces_repr scale (hclosing rest), pieces_rightParen]
    rfl

theorem pieces_dimension (size : Option ℕ) (rest : List Char) :
    Lexer.pieces .postgreSql ((dimensionSummary size).toList ++ rest) =
      dimensionPieces size ++ Lexer.pieces .postgreSql rest := by
  cases size with
  | none =>
    show Lexer.pieces _ ('[' :: ']' :: rest) = _
    rw [pieces_leftBracket, pieces_rightBracket]
    rfl
  | some n =>
    have htext : (dimensionSummary (some n)).toList ++ rest =
        '[' :: ((Nat.repr n).toList ++ ']' :: rest) := by
      simp [dimensionSummary]
      rfl
    rw [htext, pieces_leftBracket, pieces_repr n (by simp [Text.endsNumber]), pieces_rightBracket]
    rfl

theorem pieces_dimensions {sizes : List (Option ℕ)} (harrays : sizes ≠ [] → d = .postgreSql) :
    Lexer.pieces d ((String.join (sizes.map dimensionSummary)).toList ++ rest) =
      sizes.flatMap dimensionPieces ++ Lexer.pieces d rest := by
  induction sizes with
  | nil => rfl
  | cons size sizes ih =>
    obtain rfl := harrays (List.cons_ne_nil _ _)
    rw [List.map_cons, String.join_cons, String.toList_append, List.append_assoc, pieces_dimension,
      ih fun _ => rfl, List.flatMap_cons, List.append_assoc]

theorem endsType_sign (t : DataType) (hrest : ∀ c ∈ rest.head?, Text.isSeam c) :
    ∀ c ∈ ((if t.isUnsigned then " UNSIGNED" else "").toList ++ rest).head?, Text.endsType c := by
  split
  · simp [Text.endsType, Text.isSeam]
  · intro c hc
    rw [Text.endsType, hrest c hc]
    rfl

theorem pieces_sign (t : DataType) (hrest : ∀ c ∈ rest.head?, Text.isSeam c) :
    Lexer.pieces d ((if t.isUnsigned then " UNSIGNED" else "").toList ++ rest) =
      t.signPieces ++ Lexer.pieces d rest := by
  unfold signPieces
  split
  · refine pieces_blankName "UNSIGNED" (by decide) fun c hc => ?_
    rw [Text.endsType, hrest c hc]
    rfl
  · rfl

theorem endsType_dimensions (t : DataType) {text : List Char} (h : ∀ c ∈ text.head?, Text.endsType c) :
    ∀ c ∈ ((String.join (t.dimensions.map dimensionSummary)).toList ++ text).head?,
      Text.endsType c := by
  cases t.dimensions with
  | nil => exact h
  | cons size sizes =>
    have hfirst : ∃ cs, (dimensionSummary size).toList = '[' :: cs := by
      cases size with
      | none => exact ⟨_, rfl⟩
      | some n => exact ⟨(Nat.repr n).toList ++ [']'], by simp [dimensionSummary]; rfl⟩
    obtain ⟨cs, hcs⟩ := hfirst
    simp [String.join_cons, hcs, Text.endsType]

theorem endsType_modifier (t : DataType) {text : List Char} (h : ∀ c ∈ text.head?, Text.endsType c) :
    ∀ c ∈ (((t.modifier.map TypeModifier.summary).getD "").toList ++ text).head?, Text.endsType c := by
  cases t.modifier with
  | none => exact h
  | some m =>
    have hfirst : ∃ cs, m.summary.toList = '(' :: cs := by
      cases m with
      | length n => exact ⟨(Nat.repr n).toList ++ [')'], by simp [TypeModifier.summary]; rfl⟩
      | max => exact ⟨_, rfl⟩
      | precisionScale precision scale =>
        exact ⟨(Nat.repr precision).toList ++ ',' :: ' ' :: ((Nat.repr scale).toList ++ [')']), by
          simp [TypeModifier.summary]; rfl⟩
    obtain ⟨cs, hcs⟩ := hfirst
    simp [hcs, Text.endsType]

/-- The summary of a type is cut into the pieces of the type, before whatever ends it. -/
theorem Spelled.pieces_summary (h : t.Spelled d spelling) (hrest : ∀ c ∈ rest.head?, Text.isSeam c) :
    Lexer.pieces d (t.summary.toList ++ rest) = t.pieces spelling ++ Lexer.pieces d rest := by
  let sign := (if t.isUnsigned then " UNSIGNED" else "").toList ++ rest
  let dimensions := (String.join (t.dimensions.map dimensionSummary)).toList ++ sign
  let modifier := ((t.modifier.map TypeModifier.summary).getD "").toList ++ dimensions
  have hdimensions : ∀ c ∈ dimensions.head?, Text.endsType c :=
    t.endsType_dimensions (t.endsType_sign hrest)
  have hmodifier : ∀ c ∈ modifier.head?, Text.endsType c := t.endsType_modifier hdimensions
  have hlast : Lexer.pieces d dimensions =
      t.dimensions.flatMap dimensionPieces ++ (t.signPieces ++ Lexer.pieces d rest) := by
    rw [pieces_dimensions h.arrays, pieces_sign t hrest]
  have hmiddle : Lexer.pieces d modifier = t.modifierPieces ++ Lexer.pieces d dimensions := by
    unfold modifier modifierPieces
    cases t.modifier with
    | none => rfl
    | some m => exact pieces_modifier m
  have hwords : Lexer.pieces d (spelling.first.literal.toList ++ (spelling.tail.toList ++ modifier)) =
      spelling.first :: (spelling.more ++ Lexer.pieces d modifier) := by
    rw [h.word.pieces (endsName (h.tail.endsType hmodifier)), h.tail.pieces hmodifier]
  have hset (text : List Char) :
      Lexer.pieces d ((if spelling.isSet then "SETOF " else "").toList ++ text) =
        (if spelling.isSet then [⟨.identifier, "SETOF"⟩] else []) ++ Lexer.pieces d text := by
    split
    · have hname : Lexer.pieces d ("SETOF".toList ++ ' ' :: text) =
          ⟨.identifier, "SETOF"⟩ :: Lexer.pieces d (' ' :: text) :=
        pieces_name (by decide) (word_facts _ (by decide)).1 (by simp [Text.endsWord, Text.isSeam])
      rw [pieces_blank] at hname
      exact hname
    · rfl
  have htext : t.summary.toList ++ rest = (if spelling.isSet then "SETOF " else "").toList ++
      (spelling.first.literal.toList ++ (spelling.tail.toList ++ modifier)) := by
    simp only [summary, h.name, String.toList_append, List.append_assoc, modifier, dimensions, sign]
  rw [htext, hset, hwords, hmiddle, hlast, pieces, Spelling.pieces]
  simp only [List.append_assoc, List.cons_append]

end DataType

/-! ## Reading the pieces -/

namespace Grammar

open Production DataType

variable {d? : Option Dialect} {d : Dialect} {t : DataType} {spelling : Spelling} {x u : Piece}
  {ps qs rs us : List Piece}

/-- What can stand behind a part of a type: no words about a time zone, and no other name than the word
for the sign. -/
def Calm (ps : List Piece) : Prop :=
  ∃ t us, ps = t :: us ∧ t.kind ≠ .keyword .WITH ∧ (t.kind = .identifier → t.literal = "UNSIGNED")

theorem Calm.consumeWord {word : String} (h : Calm ps) (hword : word ∈ words) (hne : word ≠ "UNSIGNED") :
    ParsesIn d? (consumeWord word) ps false ps := by
  obtain ⟨t, us, rfl, -, hname⟩ := h
  exact .consumeWordFalse fun hk => by rw [hname hk, (word_facts word hword).2 hne]

theorem Calm.cons (hwith : x.kind ≠ .keyword .WITH) (hname : x.kind ≠ .identifier) : Calm (x :: ps) :=
  ⟨x, ps, rfl, hwith, (absurd · hname)⟩

/-- The first of the pieces is of another kind. -/
def Off (k : TokenKind) (ps : List Piece) : Prop := ∃ u us, ps = u :: us ∧ u.kind ≠ k

theorem Off.checkFalse {k : TokenKind} (h : Off k ps) : ParsesIn d? (check k) ps false ps := by
  obtain ⟨u, us, rfl, hu⟩ := h
  exact .checkFalse hu

theorem off_sign {k : TokenKind} (t : DataType) (hk : .identifier ≠ k) (hrest : Off k rs) :
    Off k (t.signPieces ++ rs) := by
  unfold signPieces
  split
  · exact ⟨_, _, rfl, hk⟩
  · exact hrest

theorem off_dimensions {k : TokenKind} (sizes : List (Option ℕ)) (hk : .leftBracket ≠ k)
    (hrest : Off k rs) : Off k (sizes.flatMap dimensionPieces ++ rs) := by
  rcases sizes with _ | ⟨_ | _, _⟩
  · exact hrest
  · exact ⟨_, _, rfl, hk⟩
  · exact ⟨_, _, rfl, hk⟩

theorem off_tail {first text : String} {more : List Piece} (h : NameTail first text more)
    (hrest : Off .leftParen rs) : Off .leftParen (more ++ rs) := by
  cases h with
  | bare => exact hrest
  | _ => exact ⟨_, _, rfl, nofun⟩

theorem calm_sign (t : DataType) (hrest : Calm rs) : Calm (t.signPieces ++ rs) := by
  unfold signPieces
  split
  · exact ⟨_, _, rfl, nofun, fun _ => rfl⟩
  · exact hrest

theorem calm_dimensions (sizes : List (Option ℕ)) (hrest : Calm rs) :
    Calm (sizes.flatMap dimensionPieces ++ rs) := by
  rcases sizes with _ | ⟨_ | _, _⟩
  · exact hrest
  · exact .cons nofun nofun
  · exact .cons nofun nofun

theorem calm_modifier (t : DataType) (hrest : Calm rs) : Calm (t.modifierPieces ++ rs) := by
  unfold modifierPieces
  rcases t.modifier with _ | _ | _ | _
  · exact hrest
  · exact .cons nofun nofun
  · exact .cons nofun nofun
  · exact .cons nofun nofun

/-! ### The name -/

theorem parses_typeName_bare (hx : x.kind ≠ .eof) (hcapital : Text.upper x.literal = x.literal)
    (h : Calm ps) : ParsesIn d? typeName (x :: ps) x.literal ps := by
  refine .bind (.takeLiteral hx) ?_
  rw [hcapital]
  dsimp only
  split
  · exact .bind (h.consumeWord (by decide) (by decide)) .ret
  split
  · exact .bind (h.consumeWord (by decide) (by decide)) .ret
  · exact .ret

/-- The first word of a type with a time zone is its whole name. -/
theorem parses_typeName_time (hx : x.kind ≠ .eof) (hcapital : Text.upper x.literal = x.literal)
    (htime : x.literal = "TIMESTAMP" ∨ x.literal = "TIME") :
    ParsesIn d? typeName (x :: ps) x.literal ps := by
  refine .bind (.takeLiteral hx) ?_
  rw [hcapital]
  rcases htime with h | h <;> rw [h] <;> exact .ret

theorem parses_typeName_precision (hx : x.kind ≠ .eof) (hcapital : Text.upper x.literal = x.literal)
    (hfirst : x.literal = "DOUBLE") :
    ParsesIn d? typeName (x :: ⟨.identifier, "PRECISION"⟩ :: ps) "DOUBLE PRECISION" ps := by
  refine .bind (.takeLiteral hx) ?_
  rw [hcapital, hfirst]
  exact .bind (.consumeWordTrue (t := ⟨.identifier, "PRECISION"⟩) rfl (Text.sameWord_self _)) .ret

theorem parses_typeName_varying (hx : x.kind ≠ .eof) (hcapital : Text.upper x.literal = x.literal)
    (hfirst : x.literal = "CHARACTER" ∨ x.literal = "CHAR") :
    ParsesIn d? typeName (x :: ⟨.identifier, "VARYING"⟩ :: ps) (x.literal ++ " VARYING") ps := by
  have hword := Text.sameWord_self "VARYING"
  refine .bind (.takeLiteral hx) ?_
  rw [hcapital]
  rcases hfirst with h | h <;> rw [h] <;>
    exact .bind (.consumeWordTrue (t := ⟨.identifier, "VARYING"⟩) rfl hword) .ret

theorem parses_timeZone_calm (name : String) (h : Calm ps) : ParsesIn d? (timeZone name) ps name ps := by
  unfold timeZone
  split
  · obtain ⟨t, us, rfl, hwith, hname⟩ := h
    refine .bind (.checkFalse hwith) (.bindGet fun p _ => .ifFalse (by simp) ?_)
    have hwithout := (word_facts "WITHOUT" (by decide)).2 (by decide)
    exact .bindIfFalse (.consumeWordFalse fun hk => by rw [hname hk, hwithout]) .ret
  · exact .ret

theorem parses_timeZone_with {name : String} (hname : name = "TIMESTAMP" ∨ name = "TIME") :
    ParsesIn d? (timeZone name)
      (.of (.keyword .WITH) :: ⟨.identifier, "TIME"⟩ :: ⟨.identifier, "ZONE"⟩ :: ps)
      (name ++ " WITH TIME ZONE") ps := by
  have htime : Text.sameWord "TIME" "TIME" := Text.sameWord_self _
  have hzone : Text.sameWord "ZONE" "ZONE" := Text.sameWord_self _
  refine .ifTrue (by rcases hname with rfl | rfl <;> rfl) (.bind (.checkTrue rfl) (.bindGet fun p hp => ?_))
  refine .ifTrue ?_ (.bind (.advance nofun) (.bind (.advance nofun) (.bind (.expectWord rfl hzone) .ret)))
  have hkind : p.peek.kind = .identifier := hp.peek
  have hliteral : p.peek.literal = "TIME" := congrArg Piece.literal hp.peek_piece
  rw [Token.isWord, hkind, hliteral, htime]
  rfl

theorem parses_timeZone_without {name : String} (hname : name = "TIMESTAMP" ∨ name = "TIME") :
    ParsesIn d? (timeZone name)
      (⟨.identifier, "WITHOUT"⟩ :: ⟨.identifier, "TIME"⟩ :: ⟨.identifier, "ZONE"⟩ :: ps)
      (name ++ " WITHOUT TIME ZONE") ps := by
  have hwithout : Text.sameWord "WITHOUT" "WITHOUT" := Text.sameWord_self _
  have htime : Text.sameWord "TIME" "TIME" := Text.sameWord_self _
  have hzone : Text.sameWord "ZONE" "ZONE" := Text.sameWord_self _
  refine .ifTrue (by rcases hname with rfl | rfl <;> rfl)
    (.bind (.checkFalse nofun) (.bindGet fun p _ => .ifFalse (by simp) ?_))
  exact .bindIfTrue (.consumeWordTrue rfl hwithout)
    (.bind (.expectWord rfl htime) (.bind (.expectWord rfl hzone) .ret))

/-! ### The numbers -/

theorem parses_typeNumber {n : ℕ} (hn : n < 2 ^ 64) : ParsesIn d? typeNumber (.natural n :: ps) n ps := by
  refine .bindIfTrue (.checkTrue rfl) (.bindAny (fun p => ⟨_, rfl⟩) fun place => ?_)
  refine .bind (.takeLiteral (t := .natural n) nofun) ?_
  dsimp only [Piece.natural]
  rw [Numeral.natural?_repr hn]
  exact .ret

theorem parses_typeModifier {m : TypeModifier} (hm : m.Fits) :
    ParsesIn d? typeModifier (m.pieces ++ ps) m ps := by
  cases m with
  | max =>
    have hmax : Text.sameWord "MAX" "MAX" := Text.sameWord_self _
    exact .inParens (.bindIfTrue (.consumeWordTrue (t := ⟨.identifier, "MAX"⟩) rfl hmax) .ret)
  | length n =>
    exact .inParens (.bindIfFalse (.consumeWordFalse nofun)
      (.bind (parses_typeNumber hm) (.bindIfFalse (.consumeFalse nofun) .ret)))
  | precisionScale precision scale =>
    exact .inParens (.bindIfFalse (.consumeWordFalse nofun)
      (.bind (parses_typeNumber hm.1) (.bindIfTrue (.consumeTrue rfl nofun)
        (.bind (parses_typeNumber hm.2) .ret))))

/-- One of the dimensions of an array. -/
def typeDimension? : Production (Option (Option ℕ)) := do
  if (← Production.dialect) = .postgreSql then
    if ← consume .leftBracket then
      let size ← if ← check .number then some <$> typeNumber else pure none
      expect .rightBracket
      return some size
    else return none
  else return none

theorem typeDimensions_eq : typeDimensions = many typeDimension? := rfl

theorem parses_typeDimension {size : Option ℕ} (hsize : ∀ n ∈ size, n < 2 ^ 64) :
    ParsesIn (some .postgreSql) typeDimension? (dimensionPieces size ++ ps) (some size) ps := by
  refine .bind (a := .postgreSql) .dialect (.ifTrue rfl ?_)
  cases size with
  | none =>
    exact .bindIfTrue (.consumeTrue rfl nofun) (.bindIfFalse (.checkFalse nofun)
      (.bind .ret (.bind (.expect (k := .rightBracket) rfl nofun) .ret)))
  | some n =>
    exact .bindIfTrue (.consumeTrue rfl nofun) (.bindIfTrue (.checkTrue rfl)
      (.bind (.map (parses_typeNumber (hsize n rfl)))
        (.bind (.expect (k := .rightBracket) rfl nofun) .ret)))

theorem parses_typeDimensions {sizes : List (Option ℕ)} (harrays : sizes ≠ [] → d = .postgreSql)
    (hsizes : ∀ size ∈ sizes, ∀ n ∈ size, n < 2 ^ 64) (hps : Off .leftBracket ps) :
    ParsesIn (some d) typeDimensions (sizes.flatMap dimensionPieces ++ ps) sizes ps := by
  have hstop : ParsesIn (some d) typeDimension? ps none ps := by
    refine .bind .dialect ?_
    split
    · exact .bindIfFalse (.bindIfFalse hps.checkFalse .ret) .ret
    · exact .ret
  rw [typeDimensions_eq]
  refine .many (I := fun _ => True) (fun size hsize rest _ => ?_) (fun size _ rest => ⟨?_, trivial⟩) trivial hstop
  · obtain rfl := harrays (List.ne_nil_of_mem hsize)
    exact parses_typeDimension (hsizes size hsize)
  · cases size <;> exact nofun

/-! ### The type -/

/-- What a type is read before: no further part of it. -/
def Closing (ps : List Piece) : Prop :=
  ∃ t us, ps = t :: us ∧ t.kind ≠ .leftParen ∧ t.kind ≠ .leftBracket ∧ t.kind ≠ .identifier ∧
    t.kind ≠ .keyword .WITH

theorem parses_sign (t : DataType) (hrest : Closing rs) :
    ParsesIn d? (consumeWord "UNSIGNED") (t.signPieces ++ rs) t.isUnsigned rs := by
  have hword : Text.sameWord "UNSIGNED" "UNSIGNED" := Text.sameWord_self _
  obtain ⟨u, us, rfl, -, -, hname, -⟩ := hrest
  unfold signPieces
  cases t.isUnsigned with
  | true => exact .consumeWordTrue (t := ⟨.identifier, "UNSIGNED"⟩) rfl hword
  | false => exact .consumeWordFalse (absurd · hname)

/-- A modifier is read if there is one. -/
theorem parses_modifier {β : Type} {f : Option TypeModifier → Production β} {b : β} (t : DataType)
    (hm : ∀ m ∈ t.modifier, m.Fits)
    (hps : t.modifier = none → Off .leftParen ps)
    (hf : ParsesIn d? (f t.modifier) ps b rs) :
    ParsesIn d? (check .leftParen >>= fun isOpen =>
      if isOpen then (some <$> typeModifier) >>= f else Pure.pure none >>= f)
      (t.modifierPieces ++ ps) b rs := by
  unfold modifierPieces
  cases hmodifier : t.modifier with
  | none =>
    rw [hmodifier] at hf
    exact .bindIfFalse (hps hmodifier).checkFalse (.bind .ret hf)
  | some m =>
    rw [hmodifier] at hf
    have hopen : ∃ us, m.pieces ++ ps = .of .leftParen :: us := by cases m <;> exact ⟨_, rfl⟩
    obtain ⟨us, hus⟩ := hopen
    have hread : ParsesIn d? (some <$> typeModifier) (m.pieces ++ ps) (some m) ps :=
      (parses_typeModifier (hm m hmodifier)).map
    change ParsesIn d? _ (m.pieces ++ ps) _ _
    rw [hus] at hread ⊢
    exact .bindIfTrue (.checkTrue rfl) (hread.bind hf)

/-- The name of a type is read as a whole, unless it ends with the words about a time zone. These are read
later. -/
theorem parses_name (d? : Option Dialect) {text : String} {more : List Piece} (h : NameTail x.literal text more)
    (hx : x.kind ≠ .eof) (hcapital : Text.upper x.literal = x.literal) :
    (∀ {ps}, Calm ps → ParsesIn d? typeName (x :: (more ++ ps)) (x.literal ++ text) ps) ∨
    ((∃ front, text = front ++ " TIME ZONE") ∧
      (∀ {ps}, ParsesIn d? typeName (x :: ps) x.literal ps) ∧
      ∀ {ps}, ParsesIn d? (timeZone x.literal) (more ++ ps) (x.literal ++ text) ps) := by
  generalize hfirst : x.literal = first at h
  cases h with
  | bare =>
    refine .inl fun hps => ?_
    rw [String.append_empty, ← hfirst]
    exact parses_typeName_bare hx hcapital hps
  | precision => exact .inl fun _ => parses_typeName_precision hx hcapital hfirst
  | varying h =>
    subst hfirst
    exact .inl fun _ => parses_typeName_varying hx hcapital h
  | zone h =>
    subst hfirst
    exact .inr ⟨⟨" WITH", rfl⟩, parses_typeName_time hx hcapital h, parses_timeZone_with h⟩
  | noZone h =>
    subst hfirst
    exact .inr ⟨⟨" WITHOUT", rfl⟩, parses_typeName_time hx hcapital h, parses_timeZone_without h⟩

/-- A type is read from its pieces. If it ends with the words about a time zone, it has no modifier. -/
theorem parses_dataType_pieces (h : t.Spelled d spelling) (hzone : t.Zoned → t.modifier = none)
    (hrest : Closing rs) : ParsesIn (some d) dataType (t.pieces spelling ++ rs) t rs := by
  obtain ⟨u, us, rfl, hparen, hbracket, hname, hwith⟩ := hrest
  let front : String := if spelling.isSet then "SETOF " else ""
  let sizes := t.dimensions.flatMap dimensionPieces ++ (t.signPieces ++ u :: us)
  have hsign : Calm (t.signPieces ++ u :: us) := calm_sign t (.cons hwith hname)
  have hsizes : Calm sizes := calm_dimensions _ hsign
  have hmodified : Calm (t.modifierPieces ++ sizes) := calm_modifier t hsizes
  have hpieces : t.pieces spelling ++ u :: us = (if spelling.isSet then [⟨.identifier, "SETOF"⟩] else []) ++
      spelling.first :: (spelling.more ++ (t.modifierPieces ++ sizes)) := by
    simp only [DataType.pieces, Spelling.pieces, sizes, List.append_assoc, List.cons_append]
  have hset : ParsesIn (some d) (consumeWord "SETOF") (t.pieces spelling ++ u :: us) spelling.isSet
      (spelling.first :: (spelling.more ++ (t.modifierPieces ++ sizes))) := by
    have hword : Text.sameWord "SETOF" "SETOF" := Text.sameWord_self _
    rw [hpieces]
    cases hisSet : spelling.isSet with
    | true => exact .consumeWordTrue (t := ⟨.identifier, "SETOF"⟩) rfl hword
    | false => exact .consumeWordFalse (h.single hisSet)
  have hatName {ps : List Piece} : ParsesIn (some d) atName (spelling.first :: ps) true
      (spelling.first :: ps) := by
    rcases h.isName with hkind | ⟨keyword, hkind, hkeyword⟩
    · exact .atName hkind
    · exact .atNameKeyword hkind hkeyword
  have hlive : spelling.first.kind ≠ .eof := by
    rcases h.isName with hkind | ⟨keyword, hkind, -⟩ <;> rw [hkind] <;> nofun
  have hend {name : String} (hwhole : t.name = front ++ name) :
      ParsesIn (some d) (do
        let dimensions ← typeDimensions
        let isUnsigned ← consumeWord "UNSIGNED"
        return { name := if spelling.isSet then "SETOF " ++ name else name, modifier := t.modifier,
                 isUnsigned, dimensions : DataType }) sizes t (u :: us) := by
    refine .bind (parses_typeDimensions h.arrays h.sizes (off_sign t nofun ⟨u, us, rfl, hbracket⟩)) ?_
    have hvalue : t = { name := if spelling.isSet then "SETOF " ++ name else name, modifier := t.modifier,
                        isUnsigned := t.isUnsigned, dimensions := t.dimensions : DataType } := by
      have hwritten : (if spelling.isSet then "SETOF " ++ name else name) = t.name := by
        rw [hwhole]
        unfold front
        cases spelling.isSet <;> simp
      rw [hwritten]
    refine .bind (parses_sign t ⟨u, us, rfl, hparen, hbracket, hname, hwith⟩) ?_
    rw [← hvalue]
    exact .ret
  refine .bind hset (.bindIfTrue hatName ?_)
  rcases parses_name (some d) h.tail hlive h.capital with hbare | ⟨⟨before, hbefore⟩, hfirst, hlater⟩
  · refine .bind (hbare hmodified) (parses_modifier t h.modifier ?_ (.bind (parses_timeZone_calm _ hsizes) ?_))
    · exact fun _ => off_dimensions _ nofun (off_sign t nofun ⟨u, us, rfl, hparen⟩)
    · exact hend (by rw [h.name, String.append_assoc])
  · have hzoned : t.Zoned := ⟨(front ++ spelling.first.literal ++ before).toList, by
      rw [h.name, hbefore, ← String.toList_append, ← String.append_assoc]⟩
    have hnone := hzone hzoned
    have hplain : t.modifierPieces = [] := by rw [modifierPieces, hnone]; rfl
    have hparens : Off .leftParen (spelling.more ++ sizes) :=
      off_tail h.tail (off_dimensions _ nofun (off_sign t nofun ⟨u, us, rfl, hparen⟩))
    rw [hplain, List.nil_append]
    refine .bind hfirst (.bindIfFalse hparens.checkFalse (.bind .ret (.bind hlater ?_)))
    rw [← hnone]
    exact hend (by rw [h.name, String.append_assoc])

end Grammar

end SqlFrontend
