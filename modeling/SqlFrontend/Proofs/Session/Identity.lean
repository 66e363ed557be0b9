import SqlFrontend.Proofs.Session.Label
import SqlFrontend.Proofs.Session.Unquoted
import SqlFrontend.Proofs.Summary.DataType

/-!
# The numbers of an identity column

A numeral is read in two parts, a sign and digits, and the digits have to fit into 64 bits by themselves.
So every number that has as many bits is read but the least one, whose digits alone are too large.

Results:
* `SignedNumeral`: decimal numerals with an optional minus sign, and the numbers that they denote.
* `Production.Fails`: before given pieces, a production fails for a given reason.
* `Grammar.parses_integer`, `Grammar.fails_integer`: which numerals are read.
* `Parser.results_identity`: a table with one identity column, for all numerals.
* `Parser.results_identity_fits`: an identity column is read again as it is printed, and no numeral that
  stands for a number of more bits is read as another one.
-/

namespace SqlFrontend

/-! ## Numerals -/

/-- A decimal numeral: digits, perhaps with a minus sign before them. -/
structure SignedNumeral where
  negative : Bool
  digits : List Char
  nonempty : digits ≠ []
  decimal : ∀ c ∈ digits, c.isDigit

namespace SignedNumeral

variable (m : SignedNumeral)

/-- The numeral as it is written. -/
def text : String := String.ofList ((if m.negative then ['-'] else []) ++ m.digits)

/-- What the digits stand for. -/
def magnitude : ℕ := Nat.ofDigitChars 10 m.digits 0

/-- What the numeral stands for. -/
def value : ℤ := if m.negative then -m.magnitude else m.magnitude

def pieces : List Piece :=
  (if m.negative then [.of .minus] else []) ++ [⟨.number, String.ofList m.digits⟩]

/-- The numeral of a number. -/
def ofInt (a : ℤ) : SignedNumeral :=
  ⟨decide (a < 0), Nat.toDigits 10 a.natAbs, Nat.toDigits_ne_nil,
    fun _ => Numeral.isDigit_of_mem_toDigits⟩

theorem magnitude_ofInt (a : ℤ) : (ofInt a).magnitude = a.natAbs := Nat.ofDigitChars_ten_toDigits

theorem value_ofInt (a : ℤ) : (ofInt a).value = a := by
  rw [value, magnitude_ofInt]
  by_cases h : a < 0
  · rw [if_pos (show (ofInt a).negative by simp [ofInt, h])]
    omega
  · rw [if_neg (by simp [ofInt, h])]
    omega

theorem text_ofInt (a : ℤ) : (ofInt a).text = toString a := by
  rw [text, Int.toString_eq_repr]
  cases a with
  | ofNat n =>
    have hsign : (ofInt (Int.ofNat n)).negative = false := by simp [ofInt]
    rw [hsign]
    exact String.toList_inj.1 (String.toList_ofList.trans Nat.toList_repr.symm)
  | negSucc n =>
    have hsign : (ofInt (Int.negSucc n)).negative = true := by simp [ofInt, Int.negSucc_lt_zero]
    rw [hsign]
    refine String.toList_inj.1 (String.toList_ofList.trans ?_)
    show '-' :: Nat.toDigits 10 (n + 1) = ("-" ++ Nat.repr (n + 1)).toList
    rw [String.toList_append, Nat.toList_repr]
    rfl

theorem digits?_digits : Numeral.digits? m.digits = some m.magnitude := by
  have hne : m.digits.isEmpty = false := by simp [m.nonempty]
  have hall : m.digits.all Char.isDigit = true := List.all_eq_true.2 m.decimal
  rw [Numeral.digits?, hne, hall, magnitude, Nat.ofDigitChars_eq_foldl]
  rfl

/-- The digits alone are read if they fit into 63 bits. -/
theorem integer?_digits : Numeral.integer? (String.ofList m.digits) =
    if m.magnitude < 2 ^ 63 then some (m.magnitude : ℤ) else none := by
  have hsign : Numeral.sign m.digits = (false, m.digits) := by
    obtain ⟨c, cs, hcons⟩ := List.exists_cons_of_ne_nil m.nonempty
    rw [hcons]
    exact Numeral.sign_of_isDigit (m.decimal c (hcons ▸ List.mem_cons_self))
  rw [Numeral.integer?, String.toList_ofList, hsign]
  dsimp only
  rw [m.digits?_digits]
  dsimp only
  rw [if_neg Bool.false_ne_true]
  by_cases h : m.magnitude < 2 ^ 63
  · rw [if_pos h, if_pos (by omega)]
  · rw [if_neg h, if_neg (by omega)]

/-- A number that does not fit into 64 bits has digits that do not fit into 63. -/
theorem le_magnitude (h : ¬(-2 ^ 63 ≤ m.value ∧ m.value < 2 ^ 63)) : 2 ^ 63 ≤ m.magnitude := by
  rw [value] at h
  split at h <;> omega

theorem pieces_text (d : Dialect) {rest : List Char} (hrest : ∀ c ∈ rest.head?, Text.endsNumber c) :
    Lexer.pieces d (m.text.toList ++ rest) = m.pieces ++ Lexer.pieces d rest := by
  have hdigits := Lexer.pieces_natural (d := d) m.nonempty m.decimal hrest
  rw [text, String.toList_ofList, pieces]
  cases m.negative with
  | false => exact hdigits
  | true =>
    have hhead : (m.digits ++ rest).head? ≠ some '-' := by
      obtain ⟨c, cs, hcons⟩ := List.exists_cons_of_ne_nil m.nonempty
      have hdigit := m.decimal c (hcons ▸ List.mem_cons_self)
      rw [hcons]
      rintro h
      cases h
      exact absurd hdigit (by decide)
    show Lexer.pieces d ('-' :: (m.digits ++ rest)) = _
    rw [Lexer.pieces_minus d hhead, hdigits]
    rfl

end SignedNumeral

/-! ## Failures -/

namespace Production

/-- Before the pieces `ps`, a production fails for the given reason and stops before `qs`. -/
def Fails {α : Type} (m : Production α) (ps : List Piece) (cause : ParseCause) (qs : List Piece) : Prop :=
  ∀ p : Parser, p.Ahead ps → ∃ place q, m p = .error ⟨cause, place⟩ q ∧ q.Ahead qs ∧ p.Reaches q

namespace Fails

variable {α β σ : Type} {m : Production α} {f : α → Production β} {a : α} {cause : ParseCause}
  {t : Piece} {ps qs rs : List Piece}

theorem fail {place : Span} : Fails (Production.fail cause place : Production α) ps cause ps :=
  fun p hp => ⟨place, p, rfl, hp, .refl p⟩

/-- What fails at its start. -/
theorem first (h : Fails m ps cause qs) : Fails (m >>= f) ps cause qs := by
  intro p hp
  obtain ⟨place, q, hq, hqs, hreaches⟩ := h p hp
  refine ⟨place, q, ?_, hqs, hreaches⟩
  rw [run_bind, hq]

/-- What fails behind something that is read. -/
theorem behind (hm : Parses m ps a qs) (hf : Fails (f a) qs cause rs) : Fails (m >>= f) ps cause rs := by
  intro p hp
  obtain ⟨q, hq, hqs, -, hreaches⟩ := hm p hp nofun
  obtain ⟨place, r, hr, hrs, hreaches'⟩ := hf q hqs
  refine ⟨place, r, ?_, hrs, hreaches.trans hreaches'⟩
  rw [run_bind, hq]
  exact hr

theorem map {g : α → β} (h : Fails m ps cause qs) : Fails (g <$> m) ps cause qs := by
  rw [map_eq_pure_bind]
  exact h.first

theorem ifTrue {c : Prop} [Decidable c] {n : Production α} (hc : c) (h : Fails m ps cause qs) :
    Fails (if c then m else n) ps cause qs := by
  rwa [if_pos hc]

theorem ifFalse {c : Prop} [Decidable c] {n : Production α} (hc : ¬c) (h : Fails n ps cause qs) :
    Fails (if c then m else n) ps cause qs := by
  rwa [if_neg hc]

theorem bindSpan {g : Span → Production α} (h : ∀ place, Fails (g place) (t :: ps) cause qs) :
    Fails (span >>= g) (t :: ps) cause qs :=
  fun p hp => h p.current.span p hp

theorem loop {round : σ → Production (Step σ α)} {s : σ} (h : Fails (round s) ps cause qs) :
    Fails (Production.loop round s) ps cause qs := by
  intro p hp
  obtain ⟨place, q, hq, hqs, hreaches⟩ := h p hp
  refine ⟨place, q, ?_, hqs, hreaches⟩
  rw [Production.loop.eq_def, hq]

theorem inParens (h : Fails m ps cause qs) :
    Fails (Production.inParens m) (.of .leftParen :: ps) cause qs :=
  behind (.expect (k := .leftParen) rfl nofun) h.first

theorem list (h : Fails m ps cause qs) : Fails (Production.list m) ps cause qs := h.first

end Fails

namespace Comes

variable {α : Type} {m n : Production α} {a : α} {cause : ParseCause} {ps qs rs : List Piece}

theorem parses (h : Comes m ps n qs) (hn : Parses n qs a rs) : Parses m ps a rs := by
  intro p hp _
  obtain ⟨q, hq, hqs, hle, hreaches⟩ := h p hp
  obtain ⟨r, hr, hrs, hle', hreaches'⟩ := hn q hqs nofun
  exact ⟨r, hq.trans hr, hrs, by omega, hreaches.trans hreaches'⟩

theorem fails (h : Comes m ps n qs) (hn : Fails n qs cause rs) : Fails m ps cause rs := by
  intro p hp
  obtain ⟨q, hq, hqs, -, hreaches⟩ := h p hp
  obtain ⟨place, r, hr, hrs, hreaches'⟩ := hn q hqs
  exact ⟨place, r, hq.trans hr, hrs, hreaches.trans hreaches'⟩

end Comes

end Production

namespace Parser

open Production

variable {p : Parser}

/-- A text in which nothing separates statements is skipped up to its end. -/
theorem atEnd_synchronize (hsound : p.Sound) (hlive : p.expired = false) (hrunning : p.cancelled = false)
    (h : ∀ t ∈ p.upcoming, t.kind ≠ .semicolon ∧ t.kind ≠ .identifier) : p.synchronize.atEnd := by
  suffices hskip : (p.skipWhile fun p => !p.atTerminator).atEnd by
    rw [Parser.synchronize, skipSeparators_of_not_atSeparator
      (mt Ready.not_atEnd_of_atSeparator (not_not.2 hskip))]
    exact hskip
  induction hn : p.remaining using Nat.strong_induction_on generalizing p with
  | h n ih =>
    subst hn
    by_cases hend : p.atEnd
    · rw [skipWhile_of_eq_false (by simp [atTerminator, hend])]
      exact hend
    · have hc : ¬p.cancelled := by simp [hrunning]
      have he : ¬p.expired := by simp [hlive]
      have hupcoming := upcoming_advance hend hc he
      have hcurrent : p.current ∈ p.upcoming := hupcoming ▸ List.mem_cons_self
      have hterminator : p.atTerminator = false := by
        rw [atTerminator, beq_false_of_ne (h _ hcurrent).1, Bool.eq_false_iff.2 hend, atBatchSeparator,
          isBatchSeparator]
        split
        · rw [Token.isWord, beq_false_of_ne (h _ hcurrent).2, Bool.false_and]
          rfl
        · rfl
      have hless := (hsound.beyond_advance hend).remaining
      have hothers := ih _ hless hsound.advance
        (by rw [advance_of_live hc he, countCurrent_eq]; exact hlive)
        (by rw [advance_of_live hc he, countCurrent_eq]; exact hrunning)
        (fun t ht => h t (by rw [hupcoming]; exact List.mem_cons_of_mem _ ht)) rfl
      rw [Parser.skipWhile, if_pos (by rw [hterminator]; rfl), if_pos hless]
      exact hothers

/-- A statement that fails before a text without separators is the only one. -/
theorem Ahead.results_error {t : Piece} {ps qs : List Piece} {cause : ParseCause}
    (hp : p.Ahead (t :: ps)) (hready : p.Ready) (ht : t.kind ∉ [.semicolon, .identifier, .eof])
    (h : Fails Grammar.parse (t :: ps) cause qs)
    (hqs : ∀ u ∈ qs, u.kind ≠ .semicolon ∧ u.kind ≠ .identifier) :
    ∃ place, p.results.1 = [.error ⟨cause, place⟩] := by
  obtain ⟨hskip, hresults⟩ := hp.results_found hready ht
  obtain ⟨place, q, hq, hahead, -⟩ := h p hp
  let r := q.record ⟨cause, place⟩
  have hstays : r = { q with errors := r.errors, deferred := r.deferred } := record_eq q _
  have hupcoming : r.upcoming = q.upcoming := by rw [hstays]; rfl
  have hrunning : r.cancelled = false := by rw [hstays]; exact hahead.running
  have hlive : r.expired = false := by rw [hstays]; exact hahead.live
  have hsound : r.Sound := by rw [hstays]; exact hahead.sound.congr rfl rfl rfl rfl rfl
  have hended : r.synchronize.atEnd := by
    refine atEnd_synchronize hsound hlive hrunning fun u hu => ?_
    rw [hupcoming] at hu
    exact hqs u.piece (hahead.pieces ▸ List.mem_map_of_mem hu)
  have hstatement : p.statement = (.error ⟨cause, place⟩, r.synchronize) := by
    have hclear : { p with deferred := #[] } = p := by rw [← hready.settled]
    rw [Parser.statement, hclear, hskip, hq]
    dsimp only
    rw [if_neg (Bool.eq_false_iff.1 hrunning)]
  exact ⟨place, by rw [hresults, hstatement, results_of_atEnd hended]⟩

end Parser

namespace Grammar

open Production

variable {t u : Piece} {ps qs us : List Piece} {cause : ParseCause}

/-- What fails in a statement fails with all that is nested in it. -/
theorem fails_parse (h : Fails (statement .tied) ps cause qs) : Fails parse ps cause qs := by
  intro p hp
  have heq : statement .tied p = parse p := (Nested.tied_agreesAt hp.underway).statement
  rw [← heq]
  exact h p hp

/-! ## Integers -/

/-- The digits of a numeral, behind its sign. -/
theorem parses_minus (m : SignedNumeral) :
    Parses (consume .minus) (m.pieces ++ us) m.negative (⟨.number, String.ofList m.digits⟩ :: us) := by
  rw [SignedNumeral.pieces]
  cases m.negative with
  | false => exact .consumeFalse nofun
  | true => exact .consumeTrue rfl nofun

/-- A numeral whose digits fit into 63 bits is read as the number that it denotes. -/
theorem parses_integer {m : SignedNumeral} (h : m.magnitude < 2 ^ 63) :
    Parses integer (m.pieces ++ us) m.value us := by
  refine .bind (parses_minus m) (.bindIfTrue (.checkTrue rfl) (.bindAny (fun _ => ⟨_, rfl⟩) fun place => ?_))
  refine .bind (.takeLiteral nofun) ?_
  dsimp only
  rw [m.integer?_digits, if_pos h]
  exact .ret

/-- A numeral whose digits do not fit is refused with these digits, whatever its sign is. -/
theorem fails_integer {m : SignedNumeral} (h : 2 ^ 63 ≤ m.magnitude) :
    Fails integer (m.pieces ++ us) (.invalidInteger (String.ofList m.digits)) us := by
  refine .behind (parses_minus m) (.behind (.checkTrue rfl) (.ifTrue rfl (.bindSpan fun place => ?_)))
  refine .behind (.takeLiteral nofun) ?_
  dsimp only
  rw [m.integer?_digits, if_neg (Nat.not_lt.2 h)]
  exact .fail

/-! ## Identity columns -/

/-- The pieces of the numbers of an identity column, and what follows them. -/
def identityPieces (m n : SignedNumeral) (us : List Piece) : List Piece :=
  .of .leftParen :: (m.pieces ++ .of .comma :: (n.pieces ++ .of .rightParen :: us))

theorem parses_identity {m n : SignedNumeral} (hm : m.magnitude < 2 ^ 63) (hn : n.magnitude < 2 ^ 63) :
    Parses identity (identityPieces m n us) (.identity (some m.value) (some n.value)) us := by
  refine .bindIfTrue (.checkTrue rfl) (.inParens (.bind (parses_integer hm) ?_))
  exact .bindIfTrue (.consumeTrue rfl nofun) (.bind (parses_integer hn).map .ret)

theorem fails_identity_first {m n : SignedNumeral} (h : 2 ^ 63 ≤ m.magnitude) :
    Fails identity (identityPieces m n us) (.invalidInteger (String.ofList m.digits))
      (.of .comma :: (n.pieces ++ .of .rightParen :: us)) :=
  .behind (.checkTrue rfl) (.ifTrue rfl (.inParens (fails_integer h).first))

theorem fails_identity_second {m n : SignedNumeral} (hm : m.magnitude < 2 ^ 63)
    (h : 2 ^ 63 ≤ n.magnitude) :
    Fails identity (identityPieces m n us) (.invalidInteger (String.ofList n.digits))
      (.of .rightParen :: us) := by
  refine .behind (.checkTrue rfl) (.ifTrue rfl (.inParens (.behind (parses_integer hm) ?_)))
  exact .behind (.consumeTrue rfl nofun) (.ifTrue rfl (fails_integer h).map.first)

/-! ## A table with an identity column -/

/-- The pieces of a table with an identity column. -/
def identityTablePieces (m n : SignedNumeral) : List Piece :=
  .of (.keyword .CREATE) :: .of (.keyword .TABLE) :: ⟨.identifier, "t"⟩ :: .of .leftParen ::
    ⟨.identifier, "c"⟩ :: ⟨.identifier, "INT"⟩ :: .of (.keyword .IDENTITY) ::
      identityPieces m n [.of .rightParen, endPiece]

/-- A table with an identity column. -/
def identityTable (seed increment : ℤ) : CreateTable where
  ifNotExists := false
  temporary := false
  name := ⟨none, "t"⟩
  columns := [{ name := "c", type := { name := "INT" }, autoNumber := some (.identity (some seed) (some increment)) }]
  constraints := []
  options := {}

/-- The columns and options of the table, and the statement that they make. -/
def tableBody (N : Nested) : Production Statement :=
  Statement.createTable <$> do
    let items ← inParens (list (tableItem N))
    let options ← tableOptions
    return {
      ifNotExists := false, temporary := false, name := ⟨none, "t"⟩, options
      columns := items.filterMap Sum.getLeft?
      constraints := items.filterMap Sum.getRight? }

variable {N : Nested}

/-- What defines the table is read through its columns and options. -/
theorem comes_createTable :
    Comes (statement N)
      (.of (.keyword .CREATE) :: .of (.keyword .TABLE) :: ⟨.identifier, "t"⟩ :: .of .leftParen :: us)
      (tableBody N) (.of .leftParen :: us) := by
  let ps : List Piece := .of (.keyword .TABLE) :: ⟨.identifier, "t"⟩ :: .of .leftParen :: us
  have horReplace : Parses orReplace ps false ps :=
    .bind (.checkKeywordsFalse (by decide)) (.bind (.checkKeywordsFalse (by decide)) (.ifFalse (by decide) .ret))
  have htemporary : Parses (consumeAny [.keyword .TEMPORARY, .keyword .TEMP]) ps false ps :=
    .bindIfFalse (.bind .kind .ret) .ret
  have hclustering : Parses clustering ps none ps :=
    .bindIfFalse (.consumeFalse (by decide)) (.bindIfFalse (.consumeFalse (by decide)) .ret)
  have hifNotExists : Parses ifNotExists (⟨.identifier, "t"⟩ :: .of .leftParen :: us) false
      (⟨.identifier, "t"⟩ :: .of .leftParen :: us) := .bindIfFalse (.consumeFalse (by decide)) .ret
  refine .bind .kind (.ifTrue (by decide) ?_)
  refine .bind (.expectKeyword rfl) (.bind horReplace (.bind htemporary ?_))
  refine .bind (.consumeFalse (by decide)) (.bind hclustering (.bind .kind ?_))
  show Comes (Statement.createTable <$> createTable N false) _ _ _
  rw [tableBody, map_eq_pure_bind, map_eq_pure_bind]
  refine .first (.bind (.expectKeyword rfl) (.bind hifNotExists (.bind (parses_objectName (by decide)) ?_)))
  exact .bind (.checkFalse (by decide)) .refl

/-- The pieces of the column. -/
def identityColumnPieces (m n : SignedNumeral) : List Piece :=
  ⟨.identifier, "c"⟩ :: ⟨.identifier, "INT"⟩ :: .of (.keyword .IDENTITY) ::
    identityPieces m n [.of .rightParen, endPiece]

theorem parses_identityColumn {m n : SignedNumeral} (hm : m.magnitude < 2 ^ 63)
    (hn : n.magnitude < 2 ^ 63) :
    Parses (columnDefinition N) (identityColumnPieces m n)
      { name := "c", type := { name := "INT" }, autoNumber := some (.identity (some m.value) (some n.value)) }
      [.of .rightParen, endPiece] := by
  let last : List Piece := [.of .rightParen, endPiece]
  have hproperty : Parses (columnProperty? N { name := "c", type := { name := "INT" } })
      (.of (.keyword .IDENTITY) :: identityPieces m n last) (some _) last :=
    .bind .kind (.bind (.advance nofun) (.bind (parses_identity hm hn) .ret))
  have hnone (column : ColumnDefinition) : Parses (columnProperty? N column) last none last :=
    .bind .kind .ret
  have hless : last.length < (Piece.of (.keyword .IDENTITY) :: identityPieces m n last).length := by
    simp only [identityPieces, List.length_cons, List.length_append]
    omega
  refine .bind (.name rfl) (.bind (parses_dataType nofun nofun nofun) ?_)
  exact .loopMore (.bind hproperty .ret) hless (.loopDone (.bind (hnone _) .ret))

theorem fails_identityColumn {m n : SignedNumeral}
    (h : Fails identity (identityPieces m n [.of .rightParen, endPiece]) cause qs) :
    Fails (columnDefinition N) (identityColumnPieces m n) cause qs := by
  refine .behind (.name rfl) (.behind (parses_dataType nofun nofun nofun) (.loop (.first ?_)))
  exact .behind .kind (.behind (.advance nofun) h.first)

/-- Behind the columns of a table the text may end. -/
theorem parses_tableOptions_none {d? : Option Dialect} :
    ParsesIn d? tableOptions [endPiece] {} [endPiece] := by
  have hend : ParsesIn d? atTerminator [endPiece] true [endPiece] := .look fun p hp => by
    rw [run_atTerminator, Parser.atTerminator, Parser.atEnd, Token.isEof, hp.kind]
    simp [endPiece]
  exact .loopDone (.bindIfTrue hend .ret)

/-- A table whose numbers have digits that fit is read. -/
theorem parses_identityTable {m n : SignedNumeral} (hm : m.magnitude < 2 ^ 63)
    (hn : n.magnitude < 2 ^ 63) :
    Parses parse (identityTablePieces m n) (.createTable (identityTable m.value n.value)) [endPiece] := by
  have hitem : Parses (tableItem .tied) (identityColumnPieces m n) (.inl _) [.of .rightParen, endPiece] :=
    .bindIfFalse (.bind .kind .ret) (parses_identityColumn hm hn).map
  have hbody : Parses (tableBody .tied) (.of .leftParen :: identityColumnPieces m n)
      (.createTable (identityTable m.value n.value)) [endPiece] :=
    .map (.bind (.inParens (.listOne hitem (by decide))) (.bind parses_tableOptions_none .ret))
  exact parses_parse (comes_createTable.parses hbody)

/-- A table with a number whose digits do not fit fails there. -/
theorem fails_identityTable {m n : SignedNumeral}
    (h : Fails identity (identityPieces m n [.of .rightParen, endPiece]) cause qs) :
    Fails parse (identityTablePieces m n) cause qs := by
  have hitem : Fails (tableItem .tied) (identityColumnPieces m n) cause qs :=
    .behind (.bind .kind .ret) (.ifFalse Bool.false_ne_true (fails_identityColumn h).map)
  exact fails_parse (comes_createTable.fails (.map (.first (.inParens hitem.list))))

end Grammar

/-! ## Sources -/

/-- A source that defines a table with an identity column, up to the closing parenthesis. -/
def identitySource (numbers : String) : String := "CREATE TABLE t (c INT " ++ numbers ++ ")"

namespace Lexer

theorem pieces_createTable (d : Dialect) (rest : List Char) :
    pieces d ("CREATE TABLE t (".toList ++ rest) =
      .of (.keyword .CREATE) :: .of (.keyword .TABLE) :: ⟨.identifier, "t"⟩ :: .of .leftParen ::
        pieces d rest := by
  have hcreate (more : List Char) : pieces d ("CREATE ".toList ++ more) = _ :=
    pieces_keyword_blank .CREATE (by decide) more
  have htable (more : List Char) : pieces d ("TABLE ".toList ++ more) = _ :=
    pieces_keyword_blank .TABLE (by decide) more
  have hname (more : List Char) : pieces d ("t".toList ++ ' ' :: more) = _ :=
    pieces_name (by decide) (by decide +kernel) (by simp [Text.endsWord, Text.isSeam])
  have htext : "CREATE TABLE t (".toList ++ rest =
      "CREATE ".toList ++ ("TABLE ".toList ++ ("t".toList ++ ' ' :: '(' :: rest)) := by simp
  rw [htext, hcreate, htable, hname, pieces_blank, pieces_leftParen]

theorem pieces_identityHead (d : Dialect) (rest : List Char) :
    pieces d ("c INT IDENTITY(".toList ++ rest) =
      ⟨.identifier, "c"⟩ :: ⟨.identifier, "INT"⟩ :: .of (.keyword .IDENTITY) :: .of .leftParen ::
        pieces d rest := by
  have hname (more : List Char) : pieces d ("c".toList ++ ' ' :: more) = _ :=
    pieces_name (by decide) (by decide +kernel) (by simp [Text.endsWord, Text.isSeam])
  have htype (more : List Char) : pieces d ("INT".toList ++ ' ' :: more) = _ :=
    pieces_name (by decide) (by decide +kernel) (by simp [Text.endsWord, Text.isSeam])
  have hidentity (more : List Char) : pieces d ("IDENTITY".toList ++ '(' :: more) = _ :=
    pieces_keyword .IDENTITY (by decide) (by simp [Text.endsWord])
  have htext : "c INT IDENTITY(".toList ++ rest =
      "c".toList ++ ' ' :: ("INT".toList ++ ' ' :: ("IDENTITY".toList ++ '(' :: rest)) := by simp
  rw [htext, hname, pieces_blank, htype, pieces_blank, hidentity, pieces_leftParen]

theorem pieces_identitySource (d : Dialect) (m n : SignedNumeral) :
    pieces d (identitySource ("IDENTITY(" ++ m.text ++ ", " ++ n.text ++ ")")).toList =
      Grammar.identityTablePieces m n := by
  have hhead (numbers : List Char) : "CREATE TABLE t (c INT ".toList ++ ("IDENTITY(".toList ++ numbers) =
      "CREATE TABLE t (".toList ++ ("c INT IDENTITY(".toList ++ numbers) := by simp
  have htext : (identitySource ("IDENTITY(" ++ m.text ++ ", " ++ n.text ++ ")")).toList =
      "CREATE TABLE t (".toList ++ ("c INT IDENTITY(".toList ++
        (m.text.toList ++ ([',', ' '] ++ (n.text.toList ++ ([')'] ++ [')']))))) := by
    have hcomma : ", ".toList = [',', ' '] := by simp
    have hclosing : ")".toList = [')'] := by simp
    unfold identitySource
    simp only [String.toList_append, List.append_assoc, hcomma, hclosing, hhead]
  rw [htext, pieces_createTable, pieces_identityHead, m.pieces_text d (by simp [Text.endsNumber]),
    List.cons_append, List.singleton_append, pieces_comma, pieces_blank,
    n.pieces_text d (by simp [Text.endsNumber]), List.singleton_append, pieces_rightParen,
    pieces_rightParen, pieces_nil]
  rfl

end Lexer

theorem AutoNumber.summary_identity (a b : ℤ) : (identity (some a) (some b)).summary =
    "IDENTITY(" ++ (SignedNumeral.ofInt a).text ++ ", " ++ (SignedNumeral.ofInt b).text ++ ")" := by
  rw [SignedNumeral.text_ofInt, SignedNumeral.text_ofInt]
  rfl

namespace Parser

variable {d : Dialect} {pools : Pools} {m n : SignedNumeral}

/-- A table with one identity column is read if the digits of both numbers fit into 63 bits. -/
theorem results_identity (hpools : pools.IsFresh) (hm : m.magnitude < 2 ^ 63) (hn : n.magnitude < 2 ^ 63) :
    let p := ofSource (identitySource ("IDENTITY(" ++ m.text ++ ", " ++ n.text ++ ")")) d false pools
    p.results.1 = [.ok (.createTable (Grammar.identityTable m.value n.value))] ∧
      p.results.2.errors = #[] := by
  intro p
  have hp : p.Ahead (Grammar.identityTablePieces m n) :=
    Lexer.pieces_identitySource d m n ▸ ahead_ofSource _ d hpools
  exact hp.results (ready_ofSource _ d pools) nofun nofun nofun (Grammar.parses_identityTable hm hn) nofun

/-- It fails at the first number whose digits do not fit, with these digits. -/
theorem results_identity_error (hpools : pools.IsFresh) (h : 2 ^ 63 ≤ m.magnitude ∨ 2 ^ 63 ≤ n.magnitude) :
    let p := ofSource (identitySource ("IDENTITY(" ++ m.text ++ ", " ++ n.text ++ ")")) d false pools
    let digits := if m.magnitude < 2 ^ 63 then n.digits else m.digits
    ∃ place, p.results.1 = [.error ⟨.invalidInteger (String.ofList digits), place⟩] := by
  intro p digits
  have hp : p.Ahead (Grammar.identityTablePieces m n) :=
    Lexer.pieces_identitySource d m n ▸ ahead_ofSource _ d hpools
  have hready : p.Ready := ready_ofSource _ d pools
  have hnumber (k : SignedNumeral) : ∀ u ∈ k.pieces, u.kind ≠ .semicolon ∧ u.kind ≠ .identifier := by
    rw [SignedNumeral.pieces]
    cases k.negative <;> simp
  by_cases hm : m.magnitude < 2 ^ 63
  · have hn : 2 ^ 63 ≤ n.magnitude := h.resolve_left (Nat.not_le.2 hm)
    rw [show digits = n.digits from if_pos hm]
    refine hp.results_error hready (by decide)
      (Grammar.fails_identityTable (Grammar.fails_identity_second hm hn)) ?_
    simp [Grammar.endPiece]
  · rw [show digits = m.digits from if_neg hm]
    refine hp.results_error hready (by decide)
      (Grammar.fails_identityTable (Grammar.fails_identity_first (Nat.not_lt.1 hm))) fun u hu => ?_
    simp only [List.mem_cons, List.mem_append, List.not_mem_nil, or_false] at hu
    rcases hu with rfl | hu | rfl | rfl | rfl
    · decide
    · exact hnumber n u hu
    all_goals decide

/-- An identity column keeps its numbers, and takes no others. Where both fit into 64 bits and neither is
the least such number, the column is read again as it is printed, in a table of its own. A numeral that
denotes a number of more bits is refused in every dialect, whichever of the two it is and whatever the
other one denotes: the one error is a structural one. -/
theorem results_identity_fits (hpools : pools.IsFresh) :
    (∀ a b : ℤ, -2 ^ 63 < a → a < 2 ^ 63 → -2 ^ 63 < b → b < 2 ^ 63 →
      let number : AutoNumber := .identity (some a) (some b)
      let p := ofSource ("CREATE TABLE t (c INT " ++ number.summary ++ ")") .sqlServer false pools
      let column : ColumnDefinition := { name := "c", type := { name := "INT" }, autoNumber := some number }
      p.results.1 = [.ok (.createTable ⟨false, false, ⟨none, "t"⟩, [column], [], {}⟩)] ∧
        p.results.2.errors = #[]) ∧
    ∀ (d : Dialect) (m n : SignedNumeral), (∃ k ∈ [m, n], ¬(-2 ^ 63 ≤ k.value ∧ k.value < 2 ^ 63)) →
      let source := "CREATE TABLE t (c INT " ++ ("IDENTITY(" ++ m.text ++ ", " ++ n.text ++ ")") ++ ")"
      ∃ e, (ofSource source d false pools).results.1 = [.error e] ∧ e.cause.kind = .structural := by
  constructor
  · intro a b ha ha' hb hb' number p column
    have hfits {x : ℤ} (hx : -2 ^ 63 < x) (hx' : x < 2 ^ 63) :
        (SignedNumeral.ofInt x).magnitude < 2 ^ 63 := by
      rw [SignedNumeral.magnitude_ofInt]
      omega
    have h := results_identity (d := .sqlServer) hpools (hfits ha ha') (hfits hb hb')
    rw [← AutoNumber.summary_identity, SignedNumeral.value_ofInt, SignedNumeral.value_ofInt] at h
    exact h
  · rintro d m n ⟨k, hk, hvalue⟩ source
    have hlarge : 2 ^ 63 ≤ m.magnitude ∨ 2 ^ 63 ≤ n.magnitude := by
      rcases List.mem_pair.1 hk with rfl | rfl
      · exact .inl (k.le_magnitude hvalue)
      · exact .inr (k.le_magnitude hvalue)
    obtain ⟨place, h⟩ := results_identity_error (d := d) hpools hlarge
    exact ⟨_, h, rfl⟩

/-- The greatest seed is kept, beside a negative increment. One more is refused. -/
theorem results_identity_fits_greatest :
    let greatest : ℤ := 9223372036854775807
    let number : AutoNumber := .identity (some greatest) (some (-1))
    let column : ColumnDefinition := { name := "c", type := { name := "INT" }, autoNumber := some number }
    let beyond : SignedNumeral := .ofInt 9223372036854775808
    Pools.IsFresh {} ∧
      (ofSource ("CREATE TABLE t (c INT " ++ number.summary ++ ")") .sqlServer false {}).results.1 =
        [.ok (.createTable ⟨false, false, ⟨none, "t"⟩, [column], [], {}⟩)] ∧
      ∃ e, (ofSource ("CREATE TABLE t (c INT " ++
          ("IDENTITY(" ++ beyond.text ++ ", " ++ (SignedNumeral.ofInt (-1)).text ++ ")") ++ ")")
          .sqlServer false {}).results.1 = [.error e] ∧ e.cause.kind = .structural := by
  intro greatest number column beyond
  have h := results_identity_fits Pools.isFresh_empty
  have hkept := h.1 greatest (-1) (by decide) (by decide) (by decide) (by decide)
  have hbeyond : ¬(-2 ^ 63 ≤ beyond.value ∧ beyond.value < 2 ^ 63) := by
    rw [SignedNumeral.value_ofInt]
    decide
  exact ⟨Pools.isFresh_empty, hkept.1, h.2 .sqlServer beyond (.ofInt (-1)) ⟨beyond, by simp, hbeyond⟩⟩

/-- The least number of 64 bits is printed, but it is refused: the digits behind its sign are one too
large. -/
theorem results_identity_least :
    let number : AutoNumber := .identity (some (-2 ^ 63)) (some 1)
    number.summary = "IDENTITY(-9223372036854775808, 1)" ∧
      (ofSource ("CREATE TABLE t (c INT " ++ number.summary ++ ")") .sqlServer false {}).results.1.map
        failure? = [some ⟨.invalidInteger "9223372036854775808", ⟨32, 51, 1, 33⟩⟩] := by
  decide +kernel

end Parser

end SqlFrontend
