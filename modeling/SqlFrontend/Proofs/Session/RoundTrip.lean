import SqlFrontend.Proofs.Session.Boundary
import SqlFrontend.Proofs.Summary.RoundTrip

/-!
# Printing and reading a selection

Results:
* `Grammar.parses_statement`: a selection of one canonical expression is read from its pieces.
* `Parser.results_summary`: in every dialect, the source that selects the summary of a canonical
  expression is read as one statement, the selection of that expression and of nothing else, without
  an error.
-/

namespace SqlFrontend

/-- A selection of one expression. -/
def Select.only (e : Expr) : Select := { Select.fresh with columns := [e] }

namespace Grammar

open Production

variable {d? : Option Dialect} {e : Expr}

/-- The end of a text. -/
def endPiece : Piece := ⟨.eof, ""⟩

/-- The words that may stand between the first word of a selection and its columns. -/
def beforeColumns : List TokenKind := [.keyword .DISTINCT, .keyword .ALL, .keyword .TOP]

theorem parses_selectColumn {ps : List Piece} (h : ParsesIn d? Nested.tied.expression ps e [endPiece]) :
    ParsesIn d? (selectColumn .tied) ps e [endPiece] := by
  refine .bind h ?_
  have hnone : ParsesIn d? asName? [endPiece] none [endPiece] :=
    .bindIfFalse (.consumeFalse (by decide)) (.trailingNameNone (by decide) (by decide))
  exact .bind hnone .ret

theorem parses_selectInto {t : Piece} {us : List Piece} (hnone : t.kind ∉ beforeColumns)
    (h : ParsesIn d? Nested.tied.expression (t :: us) e [endPiece]) :
    ParsesIn d? (selectInto .tied .fresh) (.of (.keyword .SELECT) :: t :: us) (.only e) [endPiece] := by
  simp only [beforeColumns, List.mem_cons, List.not_mem_nil, or_false, not_or] at hnone
  obtain ⟨hnotDistinct, hnotAll, hnotTop⟩ := hnone
  have hcolumns := ParsesIn.listOne (parses_selectColumn h) (by decide)
  have hdistinct : ParsesIn d? distinctRows (t :: us) false (t :: us) :=
    .bindIfFalse (.consumeFalse hnotDistinct) (.bind (.skipKeyword hnotAll) .ret)
  have htop : ParsesIn d? (top? .tied) (t :: us) none (t :: us) := .bindIfFalse (.checkFalse hnotTop) .ret
  have hfetch : ParsesIn d? (fetchRows? .tied) [endPiece] none [endPiece] :=
    .bind (.checkKeywordsFalse (by decide)) (.bind (.checkKeywordsFalse (by decide))
      (.ifFalse (by decide) .ret))
  refine .bind (.expectKeyword rfl) (.bind hdistinct (.bind htop (.bind hcolumns ?_)))
  refine .bind (.behindNone (by decide)) (.bind (.behindNone (by decide)) ?_)
  refine .bind (.behindNone (by decide)) (.bind (.behindNone (by decide)) ?_)
  refine .bind (.behindNone (by decide)) (.bind (.behindNone (by decide)) ?_)
  refine .bind (.behindNone (by decide)) (.bind (.behindNone (by decide)) ?_)
  exact .bind hfetch .ret

/-- A selection of one expression that starts with a given piece, up to the end of the text. -/
theorem parses_selectOne {t : Piece} {us : List Piece} (hnone : t.kind ∉ beforeColumns)
    (h : ParsesIn d? Nested.tied.expression (t :: us) e [endPiece]) :
    ParsesIn d? (statement .tied) (.of (.keyword .SELECT) :: t :: us) (.query (.select (.only e)))
      [endPiece] := by
  have hselection : ParsesIn d? (selection .tied) (.of (.keyword .SELECT) :: t :: us) (.only e) [endPiece] :=
    .bind .acquireSelect (.onFailure (parses_selectInto hnone h) _)
  have hnone : ParsesIn d? setOperator? [endPiece] none [endPiece] := .bind .kind .ret
  have hselections : ParsesIn d? (selections .tied) (.of (.keyword .SELECT) :: t :: us)
      (.select (.only e)) [endPiece] := .bind hselection (.loopDone (.bind hnone .ret))
  exact .bind .kind hselections.map

/-- A selection of one expression, up to the end of the text. -/
theorem parses_statement (h : ReadsWhole e) :
    Parses (statement .tied) (.of (.keyword .SELECT) :: (e.pieces ++ [endPiece]))
      (.query (.select (.only e))) [endPiece] := by
  obtain ⟨t, us, hcons, hstarts⟩ := h.starts
  have hreads := h.reads [endPiece] (.cons [] rfl)
  rw [hcons] at hreads ⊢
  refine parses_selectOne (fun hmem => ?_) hreads
  simp only [beforeColumns, List.mem_cons, List.not_mem_nil, or_false] at hmem
  rcases hmem with hmem | hmem | hmem <;> exact ne_of_startsExpression hstarts rfl hmem

/-- What is read of a statement is read with all that is nested in it. -/
theorem parses_parse {ps qs : List Piece} {s : Statement} (h : ParsesIn d? (statement .tied) ps s qs) :
    ParsesIn d? parse ps s qs := by
  intro p hp hd
  have heq : statement .tied p = parse p := (Nested.tied_agreesAt hp.underway).statement
  rw [← heq]
  exact h p hp hd

end Grammar

namespace Parser

open Production

variable {p : Parser}

theorem ahead_ofSource (source : String) (d : Dialect) {pools : Pools} (hpools : pools.IsFresh) :
    (ofSource source d false pools).Ahead (Lexer.pieces d source.toList) := by
  have hsound := sound_ofSource source d false pools
  have hpieces : (ofSource source d false pools).upcoming.map Token.piece =
      Lexer.pieces d source.toList := by
    rw [upcoming_ofSource, Lexer.map_piece_tokenize]
  rw [ofSource_eq, countCurrent_eq] at hsound hpieces ⊢
  exact ⟨hsound, rfl, rfl, rfl, rfl, hpools, hpieces⟩

/-- Nothing is skipped before a piece that neither separates statements nor looks like a name. -/
theorem Ahead.skipSeparators {t : Piece} {ps : List Piece} (hp : p.Ahead (t :: ps))
    (hsemicolon : t.kind ≠ .semicolon) (hname : t.kind ≠ .identifier) : p.skipSeparators = p := by
  have hword : p.atBatchSeparator = false := by
    unfold atBatchSeparator isBatchSeparator
    split
    · rw [Token.isWord, hp.kind, beq_false_of_ne hname, Bool.false_and]
    · rfl
  rw [Parser.skipSeparators, Parser.skipWhile, if_neg]
  simp [hword, hp.kind, hsemicolon]

/-- A statement that is read up to the end of the text is the only one. -/
theorem Ahead.results_of_run {q : Parser} {t : Piece} {ps : List Piece} {s : Statement}
    (hp : p.Ahead (t :: ps)) (hready : p.Ready) (hsemicolon : t.kind ≠ .semicolon)
    (hname : t.kind ≠ .identifier) (hend : t.kind ≠ .eof) (hq : Grammar.parse p = .ok s q)
    (hqs : q.Ahead [Grammar.endPiece]) : p.results.1 = [.ok s] ∧ p.results.2.errors = #[] := by
  have hstart : p.skipSeparators = p := hp.skipSeparators hsemicolon hname
  have hstop : q.skipSeparators = q := hqs.skipSeparators (by decide) (by decide)
  have hbehind : q.skipSemicolons = q := by
    rw [skipSemicolons, skipWhile, if_neg]
    simp [hqs.kind, Grammar.endPiece]
  have hsettled : { p with deferred := #[] } = p := by rw [← hp.settled]
  have hstatement : p.statement = (.ok s, q) := by
    rw [statement, hsettled, hstart, hq]
    dsimp only
    rw [hbehind]
  have hfound : ¬p.skipSeparators.atEnd := by
    rw [hstart, atEnd, Token.isEof, hp.kind, beq_iff_eq]
    exact hend
  have hended : q.skipSeparators.atEnd := by
    rw [hstop, atEnd, Token.isEof, hqs.kind]
    rfl
  rw [hready.results_found hfound, hstart, hstatement, results_ended hended, hstop]
  exact ⟨rfl, hqs.errorless⟩

theorem Ahead.results {d? : Option Dialect} {t : Piece} {ps : List Piece} {s : Statement}
    (hp : p.Ahead (t :: ps)) (hready : p.Ready) (hsemicolon : t.kind ≠ .semicolon)
    (hname : t.kind ≠ .identifier) (hend : t.kind ≠ .eof)
    (h : ParsesIn d? Grammar.parse (t :: ps) s [Grammar.endPiece]) (hd : ∀ d ∈ d?, p.dialect = d) :
    p.results.1 = [.ok s] ∧ p.results.2.errors = #[] := by
  obtain ⟨q, hq, hqs, -⟩ := h p hp hd
  exact hp.results_of_run hready hsemicolon hname hend hq hqs

/-- Printing and reading is the identity on canonical expressions: in every dialect, the source that
selects the summary of one is read as one statement, which selects the expression and has no other
part, and no error is recorded. -/
theorem results_summary {e : Expr} (h : e.Canonical .full) (d : Dialect) {pools : Pools}
    (hpools : pools.IsFresh) :
    let p := ofSource ("SELECT " ++ e.summary) d false pools
    p.results.1 = [.ok (.query (.select (.only e)))] ∧ p.results.2.errors = #[] := by
  intro p
  have hwhole : Grammar.ReadsWhole e := (Grammar.readsAt_of_canonical h).whole h
  have hpieces : Lexer.pieces d ("SELECT " ++ e.summary).toList =
      .of (.keyword .SELECT) :: (e.pieces ++ [Grammar.endPiece]) := by
    have hselect (rest : List Char) : Lexer.pieces d ("SELECT ".toList ++ rest) =
        .of (.keyword .SELECT) :: Lexer.pieces d rest :=
      Lexer.pieces_keyword_blank .SELECT nofun rest
    have hcuts := h.pieces_summary d [] (by simp)
    rw [List.append_nil, Lexer.pieces_nil] at hcuts
    rw [String.toList_append, hselect, hcuts]
    rfl
  have hahead : p.Ahead (.of (.keyword .SELECT) :: (e.pieces ++ [Grammar.endPiece])) := by
    rw [← hpieces]
    exact ahead_ofSource _ d hpools
  have hparses : Production.Parses Grammar.parse _ _ _ :=
    Grammar.parses_parse (Grammar.parses_statement hwhole)
  exact hahead.results (ready_ofSource _ d pools) (by decide) (by decide) (by decide) hparses nofun

/-- A negation takes all that follows, and an operator on the right stands in parentheses. -/
theorem results_summary_negation :
    let e : Expr := .unary .not (.binary ⟨.binary ⟨.column ⟨none, "a"⟩, .minus,
      .unary .minus (.literal (.integer (1 : ℕ)))⟩, .eq,
      .binary ⟨.column ⟨some "t", "b"⟩, .isNot, .literal .null⟩⟩)
    let p := ofSource ("SELECT " ++ e.summary) .mySql false {}
    e.summary = "NOT a - -1 = (t.b IS NOT NULL)" ∧ e.Canonical .full ∧ Pools.IsFresh {} ∧
      p.results.1 = [.ok (.query (.select (.only e)))] ∧ p.results.2.errors = #[] := by
  intro e p
  have ha : PlainName "a" := ⟨by decide, by decide +kernel⟩
  have ht : PlainName "t" := ⟨by decide, by decide +kernel⟩
  have hb : PlainName "b" := ⟨by decide, by decide +kernel⟩
  have hleft : (Expr.column ⟨none, "a"⟩).Canonical .left := .plainLeft (.unsigned (.column nofun ha))
  have hone : (Expr.unary .minus (.literal (.integer (1 : ℕ)))).Canonical .right :=
    .plainRight (.sign nofun (.integer (by decide)))
  have hcolumn : (Expr.column ⟨some "t", "b"⟩).Canonical .left :=
    .plainLeft (.unsigned (.column (by simpa using ht) hb))
  have hnull : (Expr.literal .null).Canonical .right := .plainRight (.unsigned .null)
  have he : e.Canonical .full :=
    .negation (.positive (.binary (.binary hleft hone) (.grouped (.binary hcolumn hnull))))
  exact ⟨by decide +kernel, he, Pools.isFresh_empty,
    results_summary he .mySql Pools.isFresh_empty⟩

end Parser

end SqlFrontend
