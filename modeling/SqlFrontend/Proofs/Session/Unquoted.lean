import SqlFrontend.Proofs.Grammar.Body
import SqlFrontend.Proofs.Session.Gating
import SqlFrontend.Proofs.Session.RoundTrip
import SqlFrontend.Proofs.Session.SameText

/-!
# Quoted and unquoted bodies

The body of a function can be quoted, and is then read by a parser of its own, which goes on behind errors.
Or it stands in the source as it is, and is read by the parser around it, which stops at errors. Where a
quoted body is in order, the unquoted one is, too, and both are the same block.

Results:
* `Grammar.quotedText_halting`: a text without errors is read alike by a parser that stops at errors.
* `Grammar.parse_quoted`, `Grammar.parse_inline`: a function is read through its body, in both spellings.
* `Parser.results_unquoted`: a source that defines a function by a quoted block gives the same statement
  without the quotes.
-/

namespace SqlFrontend

/-! ## Bodies in quotes -/

namespace Parser

/-- The parser of a quoted text stands before its pieces. -/
theorem Ahead.nested {p : Parser} {ps : List Piece} (h : p.Ahead ps) (text : String) :
    (p.nested text).Ahead (Lexer.pieces p.dialect text.toList) := by
  have hopened := ahead_ofSource text p.dialect h.pools
  rw [Parser.nested, h.live]
  revert hopened
  generalize ofSource text p.dialect false p.pools = inner
  rintro ⟨hsound, hsettled, herrors, hlive, hrunning, hpools, hpieces⟩
  exact ⟨hsound.congr rfl rfl rfl rfl rfl, hsettled, herrors, hlive, hrunning, hpools, hpieces⟩

theorem dialect_nested (p : Parser) (text : String) : (p.nested text).dialect = p.dialect :=
  dialect_ofSource text p.dialect p.expired p.pools

end Parser

namespace Grammar

open Production

variable {N : Nested} {p q : Parser} {text : String} {body : Block} {s : Statement} {t u : Piece}
  {us : List Piece}

/-- A quoted text that is read without an error is read alike by a parser that stops at errors. -/
theorem quotedText_halting {inner : Parser} {bound : ℕ} (hpools : p.pools.IsFresh)
    (h : quotedText (.below bound) (p.nested text) = .ok body inner) (hnone : inner.errors = #[]) :
    quotedText (.below bound) (p.nested text).halting = .ok body inner.halting := by
  have hkeeps : (gatingLedger p.dialect).Keeps (p.nested text) := .opened rfl hpools text
  have hopened : (p.nested text).errors = #[] := by
    rw [Parser.nested, Parser.ofSource_eq, Parser.countCurrent_eq]
  have hpaid := Ledger.Pays.quotedText (Ledger.paying_below bound) _ hkeeps
  rw [h] at hpaid
  cases hpaid with
  | ok _ _ _ hhalting => exact hhalting (by rw [hnone, hopened])

/-- A function with a quoted body is read through the block in the quotes, by a parser that may as well
stop at errors. -/
theorem parse_quoted
    (hp : p.Ahead (functionHeader ++ [.of (.keyword .AS), ⟨.dollarQuote, text⟩, endPiece]))
    (hdialect : p.dialect = .postgreSql) (htext : Lexer.pieces .postgreSql text.toList = t :: u :: us)
    (hblock : t.kind.OpensBlock u.kind) {p' : Parser} (h : parse p = .ok s p') :
    ∃ body inner left, s = functionOf {} body ∧ inner.Ahead (t :: u :: us) ∧ p.Beyond inner ∧
      (inner.dialect = .postgreSql ∧ inner.routineDepth = 1 ∧ inner.recovering = false) ∧
      labelledBlock (.below p.remaining) inner = .ok body left ∧ left.skipSemicolons.atEnd := by
  obtain ⟨x, hx, hxs, -, hpx⟩ := comes_createFunction (by decide) p hp
  obtain ⟨y, hy, hys, -, hxy⟩ := Comes.first comes_quotedBody x hxs
  have hpy := hpx.trans hxy
  have hydialect : y.dialect = .postgreSql := hpy.dialect.trans hdialect
  have hfunction : functionEnd (quotedBody (.below p.remaining)) y = .ok s p' := by
    rw [parse, hx] at h
    exact hy.symm.trans h
  obtain ⟨body, behind, hbody, hs⟩ := functionEnd_ok hfunction
  obtain ⟨opened, hopened, hnone, rfl⟩ := quotedBody_ok hbody
  have hliteral : y.current.literal = text := hys.literal
  have hbeyond := hys.sound.beyond_nested (by rw [hys.kind]; rfl)
  rw [hliteral] at hopened hbeyond
  -- the text in the quotes, and a parser before it that stops at errors
  let inner := (y.nested text).halting
  have hinner : inner.Ahead (t :: u :: us) := by
    have hahead := hys.nested text
    rw [hydialect, htext] at hahead
    exact hahead.congr rfl
  have hinnerDialect : inner.dialect = .postgreSql := (y.dialect_nested text).trans hydialect
  have hstart : atBlockStart inner = .ok true inner :=
    run_atBlockStart (by rw [hinner.kind, hinner.peek]; exact hblock) hinnerDialect
  obtain ⟨left, hleft, hend⟩ := quotedText_ok hstart (quotedText_halting hys.pools hopened hnone)
  have hall : p.Beyond inner :=
    (hpy.notBefore hp.sound).trans_beyond ⟨hbeyond.remaining, hbeyond.extent⟩
  have hmore : (⟨.dollarQuote, text⟩ : Piece).kind ≠ .eof := by
    intro h
    cases h
  have hlast : y.advance.current.kind ∈ endsOptions := by
    rw [(hys.advance hmore).1.kind]
    decide
  exact ⟨body, inner, left, hs hlast, hinner, hall, ⟨hinnerDialect, rfl, rfl⟩, hleft, hend⟩

/-! ## Bodies in place -/

/-- A function whose body stands in place is read through its block, if nothing but semicolons is behind
it. -/
theorem parse_inline (hq : q.Ahead (functionHeader ++ t :: u :: us)) (hdialect : q.dialect = .postgreSql)
    (hdepth : q.routineDepth = 0) (hrecovering : q.recovering = false)
    (hblock : t.kind.OpensBlock u.kind) :
    ∃ inner, inner.Ahead (t :: u :: us) ∧ q.Beyond inner ∧
      (inner.dialect = .postgreSql ∧ inner.routineDepth = 1 ∧ inner.recovering = false) ∧
      ∀ body left, labelledBlock (.below q.remaining) inner = .ok body left →
        left.skipSemicolons.atEnd →
        ∃ q', parse q = .ok (functionOf {} body) q' ∧ q'.skipSemicolons.atEnd := by
  obtain ⟨x, hx, hxs, hle, hqx⟩ := comes_createFunction (mem_endsOptions_of_opensBlock hblock) q hq
  have hxdialect : x.dialect = .postgreSql := hqx.dialect.trans hdialect
  let inner : Parser := { x with routineDepth := x.routineDepth + 1 }
  have hmore : ¬q.atEnd := by
    rw [Parser.atEnd, Token.isEof, beq_iff_eq, hq.kind]
    decide
  have hbeyond : q.Beyond x := by
    refine (hqx.eq_or_beyond hq.sound hmore).resolve_left fun hsame => ?_
    have hremaining := Parser.remaining_of_course hsame
    rw [List.length_append, functionHeader] at hle
    simp only [List.length_cons, List.length_nil] at hle
    omega
  have hinnerDepth : inner.routineDepth = 1 := by
    show x.routineDepth + 1 = 1
    rw [hqx.routineDepth, hdepth]
  refine ⟨inner, hxs.congr rfl, ⟨hbeyond.remaining, hbeyond.extent⟩,
    ⟨hxdialect, hinnerDepth, hqx.recovering.trans hrecovering⟩, fun body left hleft hend => ?_⟩
  let behind : Parser := { left with routineDepth := left.routineDepth - 1 }
  have hbody : routineBody (.below q.remaining) x = .ok body behind := by
    rw [routineBody_eq (by rw [hxs.kind, hxs.peek]; exact hblock) hxdialect, inRoutine, hleft]
  have hskip : behind.skipSemicolons =
      { left.skipSemicolons with routineDepth := left.routineDepth - 1 } :=
    Parser.skipWhile_comm (f := fun r => { r with routineDepth := left.routineDepth - 1 })
      (fun r => r.advance_atDepth _) (fun _ => rfl) (fun _ => rfl) left
  have hbehind : behind.skipSemicolons.atEnd := by
    rw [hskip]
    exact hend
  refine ⟨behind, ?_, hbehind⟩
  rw [parse, hx]
  exact run_functionEnd hbody (mem_endsOptions_of_atEnd hbehind)

/-! ## Both spellings -/

/-- A function whose quoted body is a block is read alike without the quotes. -/
theorem parse_unquoted
    (hp : p.Ahead (functionHeader ++ [.of (.keyword .AS), ⟨.dollarQuote, text⟩, endPiece]))
    (hq : q.Ahead (functionHeader ++ t :: u :: us)) (hpdialect : p.dialect = .postgreSql)
    (hqdialect : q.dialect = .postgreSql) (hdepth : q.routineDepth = 0)
    (hrecovering : q.recovering = false)
    (htext : Lexer.pieces .postgreSql text.toList = t :: u :: us) (hblock : t.kind.OpensBlock u.kind)
    {p' : Parser} (h : parse p = .ok s p') : ∃ q', parse q = .ok s q' ∧ q'.skipSemicolons.atEnd := by
  obtain ⟨body, x, left, rfl, hxs, hpx, ⟨hxdialect, hxdepth, hxrecovering⟩, hleft, hend⟩ :=
    parse_quoted hp hpdialect htext hblock h
  obtain ⟨y, hys, hqy, ⟨hydialect, hydepth, hyrecovering⟩, hparse⟩ :=
    parse_inline hq hqdialect hdepth hrecovering hblock
  have hsame : x.SameText y := hxs.sameText hys (hxdialect.trans hydialect.symm)
    (hxdepth.trans hydepth.symm) hxrecovering hyrecovering
  have hnested : Likeness.text.Nested (p, q) (.below p.remaining) (.below q.remaining) :=
    Likeness.text.nested_below (le_refl _) (le_refl _)
  have hlevel : Level.moved.Holds (p, q) x y := ⟨hpx, hqy⟩
  have houtcome :=
    Likeness.Lockstep.labelledBlock hnested (p, q) ⟨.refl p, .refl q⟩ x y hsame hlevel
  rw [hleft] at houtcome
  revert hparse houtcome
  generalize labelledBlock (.below q.remaining) y = result
  intro hparse houtcome
  cases houtcome with
  | @ok _ _ left' hstate _ _ _ =>
    have hskip : left.skipSemicolons.SameText left'.skipSemicolons :=
      (Likeness.Lockstep.skipWhile (L := .text) (fun _ _ halike => by rw [halike.current.kind])
        hstate).resolve_right id
    exact hparse body left' rfl (hskip.alike.here.atEnd ▸ hend)
  | past h => cases h; contradiction

end Grammar

/-! ## Sources -/

namespace Lexer

theorem pieces_functionHeader (rest : List Char) :
    pieces .postgreSql ("CREATE FUNCTION f() RETURNS INT ".toList ++ rest) =
      Grammar.functionHeader ++ pieces .postgreSql rest := by
  have hcreate (more : List Char) : pieces .postgreSql ("CREATE ".toList ++ more) = _ :=
    pieces_keyword_blank .CREATE (by decide) more
  have hfunction (more : List Char) : pieces .postgreSql ("FUNCTION ".toList ++ more) = _ :=
    pieces_keyword_blank .FUNCTION (by decide) more
  have hname (more : List Char) : pieces .postgreSql ("f".toList ++ '(' :: more) = _ :=
    pieces_name (by decide) (by decide +kernel) (by simp [Text.endsWord])
  have hreturns (more : List Char) : pieces .postgreSql ("RETURNS ".toList ++ more) = _ :=
    pieces_keyword_blank .RETURNS (by decide) more
  have htype (more : List Char) : pieces .postgreSql ("INT".toList ++ ' ' :: more) = _ :=
    pieces_name (by decide) (by decide +kernel) (by simp [Text.endsWord, Text.isSeam])
  have htext : "CREATE FUNCTION f() RETURNS INT ".toList ++ rest =
      "CREATE ".toList ++ ("FUNCTION ".toList ++ ("f".toList ++ '(' :: ')' :: ' ' ::
        ("RETURNS ".toList ++ ("INT".toList ++ ' ' :: rest)))) := by simp
  rw [htext, hcreate, hfunction, hname, pieces_leftParen, pieces_rightParen, pieces_blank, hreturns,
    htype, pieces_blank]
  rfl

end Lexer

namespace Parser

open Grammar

variable {p : Parser} {t : Piece} {ps : List Piece} {s : Statement}

/-- A run begins with the statement that the first piece is of. -/
theorem Ahead.results_found (hp : p.Ahead (t :: ps)) (hready : p.Ready)
    (ht : t.kind ∉ [.semicolon, .identifier, .eof]) :
    p.skipSeparators = p ∧ p.results.1 = p.statement.1 :: p.statement.2.results.1 := by
  simp only [List.mem_cons, List.not_mem_nil, or_false, not_or] at ht
  obtain ⟨hsemicolon, hname, hend⟩ := ht
  have hskip : p.skipSeparators = p := hp.skipSeparators hsemicolon hname
  have hmore : ¬p.skipSeparators.atEnd := by
    rw [hskip, atEnd, Token.isEof, hp.kind, beq_iff_eq]
    exact hend
  rw [hready.results_found hmore, hskip]
  exact ⟨rfl, rfl⟩

/-- A parser that gives a statement has read it. -/
theorem Ahead.parse_of_results (hp : p.Ahead (t :: ps)) (hready : p.Ready)
    (ht : t.kind ∉ [.semicolon, .identifier, .eof]) (h : p.results.1 = [.ok s]) :
    ∃ q, parse p = .ok s q := by
  obtain ⟨hskip, hresults⟩ := hp.results_found hready ht
  have hstatement := (List.cons.inj (hresults.symm.trans h)).1
  cases hparse : parse p with
  | ok s' q =>
    rw [hready.statement_ok hskip hparse] at hstatement
    cases hstatement
    exact ⟨q, rfl⟩
  | error e q =>
    rw [hready.statement_error hskip hparse] at hstatement
    cases hstatement

/-- A statement with nothing but semicolons behind it is the only one. -/
theorem Ahead.results_of_parse (hp : p.Ahead (t :: ps)) (hready : p.Ready)
    (ht : t.kind ∉ [.semicolon, .identifier, .eof]) {q : Parser} (h : parse p = .ok s q)
    (hlast : q.skipSemicolons.atEnd) : p.results.1 = [.ok s] := by
  obtain ⟨hskip, hresults⟩ := hp.results_found hready ht
  rw [hresults, hready.statement_ok hskip h, results_of_atEnd hlast]

/-- The quotes around a block do not matter. In PostgreSQL, if a source defines a function by a block in
dollar quotes, and gives that one statement and no error, then it gives the same statement where the block
stands in place. The block may be followed by semicolons, and the tag of the quotes is any that does not
end them earlier. -/
theorem results_unquoted {tag body : String} (htag : Scan.IsTag tag.toList)
    (hfirst : ∀ front back : String,
      body ++ ("$" ++ tag ++ "$") = front ++ ("$" ++ tag ++ "$") ++ back → back = "")
    {first second : TokenKind} {rest : List TokenKind}
    (hkinds : (Lexer.tokenize body .postgreSql).map Token.kind = first :: second :: rest)
    (hblock : first.OpensBlock second) {P Q : Pools} (hP : P.IsFresh) (hQ : Q.IsFresh)
    (h : (ofSource ("CREATE FUNCTION f() RETURNS INT AS $" ++ tag ++ "$" ++ body ++ "$" ++ tag ++ "$")
      .postgreSql false P).results.1 = [.ok s]) :
    (ofSource ("CREATE FUNCTION f() RETURNS INT " ++ body) .postgreSql false Q).results.1 = [.ok s] := by
  let quoted := "CREATE FUNCTION f() RETURNS INT AS $" ++ tag ++ "$" ++ body ++ "$" ++ tag ++ "$"
  let inline := "CREATE FUNCTION f() RETURNS INT " ++ body
  have hfirst' (front back : List Char)
      (heq : body.toList ++ '$' :: (tag.toList ++ ['$']) =
        front ++ '$' :: (tag.toList ++ ['$']) ++ back) : back = [] := by
    have hback := hfirst (String.ofList front) (String.ofList back)
      (String.toList_inj.1 (by simpa using heq))
    simpa using congrArg String.toList hback
  obtain ⟨t, ts, htokens, rfl, hts⟩ := List.map_eq_cons_iff.1 hkinds
  obtain ⟨u, us, rfl, rfl, -⟩ := List.map_eq_cons_iff.1 hts
  have hbody : Lexer.pieces .postgreSql body.toList = t.piece :: u.piece :: us.map Token.piece := by
    rw [← Lexer.map_piece_tokenize, htokens]
    rfl
  have hquoted : Lexer.pieces .postgreSql quoted.toList =
      functionHeader ++ [.of (.keyword .AS), ⟨.dollarQuote, body⟩, endPiece] := by
    have has (more : List Char) : Lexer.pieces .postgreSql ("AS ".toList ++ more) = _ :=
      Lexer.pieces_keyword_blank .AS nofun more
    have htext : quoted.toList = "CREATE FUNCTION f() RETURNS INT ".toList ++ ("AS ".toList ++
        '$' :: (tag.toList ++ '$' :: (body.toList ++ ('$' :: (tag.toList ++ ['$']) ++ [])))) := by
      simp [quoted]
    rw [htext, Lexer.pieces_functionHeader, has, Lexer.pieces_dollarQuote htag hfirst',
      Lexer.pieces_nil, String.ofList_toList]
    rfl
  have hinline : Lexer.pieces .postgreSql inline.toList =
      functionHeader ++ t.piece :: u.piece :: us.map Token.piece := by
    rw [String.toList_append, Lexer.pieces_functionHeader, hbody]
  have hp := ahead_ofSource quoted .postgreSql hP
  have hq := ahead_ofSource inline .postgreSql hQ
  rw [hquoted] at hp
  rw [hinline] at hq
  obtain ⟨p', hparse⟩ := hp.parse_of_results (ready_ofSource _ _ _) (by decide) h
  obtain ⟨q', hparse', hlast⟩ := parse_unquoted hp hq (dialect_ofSource _ _ _ _) (dialect_ofSource _ _ _ _)
    (by rw [ofSource_eq, countCurrent_eq]) (by rw [ofSource_eq, countCurrent_eq]) hbody hblock hparse
  exact hq.results_of_parse (ready_ofSource _ _ _) (by decide) hparse' hlast

/-- A block with a semicolon behind it. -/
theorem results_unquoted_block :
    let body := "BEGIN RETURN 1; END;"
    let p := ofSource ("CREATE FUNCTION f() RETURNS INT AS $" ++ "t" ++ "$" ++ body ++ "$" ++ "t" ++ "$")
      .postgreSql false {}
    let q := ofSource ("CREATE FUNCTION f() RETURNS INT " ++ body) .postgreSql false {}
    Scan.IsTag "t".toList ∧
      (∀ front back : String, body ++ ("$" ++ "t" ++ "$") = front ++ ("$" ++ "t" ++ "$") ++ back →
        back = "") ∧
      (Lexer.tokenize body .postgreSql).map Token.kind =
        [.keyword .BEGIN, .keyword .RETURN, .number, .semicolon, .keyword .END, .semicolon, .eof] ∧
      (TokenKind.keyword .BEGIN).OpensBlock (.keyword .RETURN) ∧ Pools.IsFresh {} ∧
      ∃ s, p.results.1 = [.ok s] ∧ q.results.1 = [.ok s] := by
  intro body p q
  have htag : Scan.IsTag "t".toList := Scan.isTag_of_isAlphanum (by simp) (by decide)
  have hfirst (front back : String)
      (h : body ++ ("$" ++ "t" ++ "$") = front ++ ("$" ++ "t" ++ "$") ++ back) : back = "" := by
    have hlist : body.toList ++ '$' :: (['t'] ++ ['$']) =
        front.toList ++ '$' :: (['t'] ++ ['$']) ++ back.toList := by
      simpa using congrArg String.toList h
    exact String.toList_inj.1 (Lexer.eq_nil_of_not_mem (by decide) hlist)
  have hkinds : (Lexer.tokenize body .postgreSql).map Token.kind =
      [.keyword .BEGIN, .keyword .RETURN, .number, .semicolon, .keyword .END, .semicolon, .eof] := by
    decide +kernel
  have hblock : (TokenKind.keyword .BEGIN).OpensBlock (.keyword .RETURN) := .inl ⟨rfl, by decide⟩
  have hone : p.results.1.length = 1 ∧ ∀ result ∈ p.results.1, failure? result = none := by
    decide +kernel
  obtain ⟨result, hresult⟩ := List.length_eq_one_iff.1 hone.1
  cases result with
  | error e =>
    have hnone := hone.2 (.error e) (by rw [hresult]; exact List.mem_singleton_self _)
    cases hnone
  | ok s =>
    exact ⟨htag, hfirst, hkinds, hblock, Pools.isFresh_empty, s, hresult,
      results_unquoted htag hfirst hkinds hblock Pools.isFresh_empty Pools.isFresh_empty hresult⟩

end Parser

end SqlFrontend
