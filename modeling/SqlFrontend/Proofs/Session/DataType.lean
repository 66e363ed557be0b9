import SqlFrontend.Proofs.Grammar.DataType
import SqlFrontend.Proofs.Session.Unquoted

/-!
# Printing and reading a data type

Results:
* `Grammar.spelled_of_column`: if a selection starts with a conversion and its only column is a
  conversion, the type of that column was read from the text.
* `Parser.results_summary_dataType`: a type that was read as that of a conversion is read again from its
  summary, unless a modifier stands before the words about a time zone there.
-/

namespace SqlFrontend

namespace Grammar

open Production

variable {d : Dialect} {t : DataType} {p q base : Parser} {e : Expr} {N : Nested}

/-! ## The type of a column -/

/-- The type of a conversion is spelt in a dialect. -/
def CastSpelled (d : Dialect) (e : Expr) : Prop := ∀ x t, e = .cast x t → ∃ spelling, t.Spelled d spelling

/-- The readings of nested constructs go on in the text. -/
theorem nested_same (base : Parser) (errors : Array ParseError) :
    (Likeness.same .equal errors).Nested (base, base) (.below base.remaining) (.below base.remaining) :=
  (Likeness.same .equal errors).nested_below (le_refl _) (le_refl _)

/-- Where a keyword or a token of a kind had to stand, it was passed. -/
theorem eq_of_expect {k : TokenKind} (h : expect k p = .ok () q) : p.current.kind = k ∧ q = p.advance := by
  rw [run_expect] at h
  split at h
  · next hk =>
    cases h
    exact ⟨hk, rfl⟩
  · cases h

theorem castSpelled_of_dataType (hp : p.Reading d) (h : dataType p = .ok t q) :
    CastSpelled d (.cast e t) := by
  intro x t' heq
  cases heq
  exact spelled_of_dataType hp h

/-- The type of a conversion that is written as a call. -/
theorem castSpelled_of_castCall (hp : p.Reading d) (hbase : base.NotBefore p)
    (h : castCall (.below base.remaining) p = .ok e q) : CastSpelled d e := by
  obtain ⟨_, p₁, hcast, h⟩ := ok_of_bind h
  obtain ⟨hkind, rfl⟩ := eq_of_expect (k := .keyword .CAST) hcast
  obtain ⟨p₂, p₃, hopen, h, -⟩ := ok_of_inParens h
  obtain ⟨-, rfl⟩ := eq_of_expect hopen
  obtain ⟨operand, p₄, hoperand, h⟩ := ok_of_bind h
  obtain ⟨_, p₅, has, h⟩ := ok_of_bind h
  obtain ⟨-, rfl⟩ := eq_of_expect (k := .keyword .AS) has
  obtain ⟨type, _, htype, h⟩ := ok_of_bind h
  cases h
  have hmore : ¬p.atEnd := by
    rw [Parser.atEnd, Token.isEof, hkind]
    decide
  have hbeyond : base.Beyond p.advance.advance :=
    (hbase.trans_beyond (hp.underway.sound.beyond_advance hmore)).trans_notBefore
      hp.advance.underway.sound.notBefore_advance
  have hread := (hp.advance.advance.of_lockstep (l := .moved) base ⟨hbeyond, hbeyond⟩
    (nested_same base _).expression hoperand).1
  exact castSpelled_of_dataType hread.advance htype

/-- The type of a conversion that is written as an operator. -/
theorem castSpelled_of_applyOperator {left : Expr} {op : Operator} (hp : p.Reading d)
    (h : applyOperator N left op p = .ok e q) : CastSpelled d e := by
  have hother {m : Production Expr} (hm : Gives m fun e => ∀ x t, e ≠ .cast x t) (h : m p = .ok e q) :
      CastSpelled d e := fun x t heq => absurd heq (hm p e q h x t)
  have hbinary (op : BinaryOperator) : Gives (binaryOperand N left op) fun e => ∀ x t, e ≠ .cast x t :=
    .after fun _ => .after fun _ => .ret fun _ _ h => by cases h
  cases op with
  | binary op => exact hother (hbinary op) h
  | truth => exact hother (.after fun negated => hbinary _) h
  | among negated => exact hother (.after fun _ => .ret fun _ _ h => by cases h) h
  | between negated => exact hother (.after fun _ => .after fun _ => .after fun _ => .ret fun _ _ h => by cases h) h
  | cast =>
    obtain ⟨type, _, htype, h⟩ := ok_of_bind h
    cases h
    exact castSpelled_of_dataType hp htype

/-- The type of an expression that starts with a conversion. The operators behind that may convert again. -/
theorem castSpelled_of_expression (hp : p.Reading d) (hbase : base.NotBefore p)
    (hcast : p.current.kind = .keyword .CAST)
    (h : expression (.below base.remaining) p = .ok e q) : CastSpelled d e := by
  obtain ⟨first, p₁, hfirst, h⟩ := ok_of_bind h
  have hcall : castCall (.below base.remaining) p = .ok first p₁ := by
    rw [primary, run_bind, run_kind, hcast] at hfirst
    exact hfirst
  -- a round takes an operator, and what was read up to there is given if there is none
  let Read (left : Expr) (x : Parser) : Prop :=
    x.Reading d ∧ Level.moved.Holds (base, base) x x ∧ CastSpelled d left
  have hstart : Read first p₁ := by
    obtain ⟨hread, hmoved⟩ := hp.of_lockstep (l := .start) base ⟨hbase, hbase⟩
      (.castCall (nested_same base _)) hcall
    exact ⟨hread, hmoved, castSpelled_of_castCall hp hbase hcall⟩
  obtain ⟨left, x, ⟨-, -, hleft⟩, hdone⟩ := ok_of_loop h hstart
      fun left x left' y ⟨hx, hmoved, _⟩ hmore => by
    obtain ⟨_, _, hkind, hmore⟩ := ok_of_bind hmore
    cases hkind
    obtain ⟨_, _, hpeek, hmore⟩ := ok_of_bind hmore
    cases hpeek
    generalize hop : operator? x.current.kind x.peek.kind = op? at hmore
    cases op? with
    | none => cases hmore
    | some op =>
      obtain ⟨op, width⟩ := op
      obtain ⟨_, z, hspelt, hmore⟩ := ok_of_bind hmore
      obtain ⟨right, _, hright, hmore⟩ := ok_of_bind hmore
      cases hmore
      obtain ⟨hz, hthere⟩ := hx.of_lockstep base hmoved .advanceBy hspelt
      obtain ⟨hy, hbehind⟩ := hz.of_lockstep base hthere (.applyOperator (nested_same base _)) hright
      exact ⟨hy, hbehind, castSpelled_of_applyOperator hz hright⟩
  obtain ⟨_, _, hkind, hdone⟩ := ok_of_bind hdone
  cases hkind
  obtain ⟨_, _, hpeek, hdone⟩ := ok_of_bind hdone
  cases hpeek
  generalize operator? x.current.kind x.peek.kind = op? at hdone
  cases op? with
  | none =>
    cases hdone
    exact hleft
  | some op =>
    obtain ⟨_, _, _, hdone⟩ := ok_of_bind hdone
    obtain ⟨_, _, _, hdone⟩ := ok_of_bind hdone
    cases hdone

/-- What is nested is read with what is nested in less text. -/
theorem ok_of_below {n : ℕ} (h : (Nested.below n).expression p = .ok e q) :
    expression (.below p.remaining) p = .ok e q := by
  rw [Nested.below] at h
  dsimp only [within] at h
  split at h
  · exact h
  · cases h

/-- The type of a column that starts with a conversion. A name behind it makes it another expression. -/
theorem castSpelled_of_selectColumn {n : ℕ} (hp : p.Reading d) (hcast : p.current.kind = .keyword .CAST)
    (h : selectColumn (.below n) p = .ok e q) : CastSpelled d e := by
  obtain ⟨column, p₁, hcolumn, h⟩ := ok_of_bind h
  obtain ⟨name?, _, _, h⟩ := ok_of_bind h
  cases name? with
  | none =>
    cases h
    exact castSpelled_of_expression hp (.refl p) hcast (ok_of_below hcolumn)
  | some name =>
    cases h
    intro x t heq
    cases heq

/-- The columns of a selection are those that are read first. -/
theorem ok_of_selectInto {node s : Select} {t : Piece} {ps : List Piece}
    (hp : p.Ahead (.of (.keyword .SELECT) :: t :: ps)) (hnone : t.kind ∉ beforeColumns)
    (h : selectInto N node p = .ok s q) :
    ∃ x y, p.Reaches x ∧ x.Ahead (t :: ps) ∧ list (selectColumn N) x = .ok s.columns y := by
  simp only [beforeColumns, List.mem_cons, List.not_mem_nil, or_false, not_or] at hnone
  obtain ⟨hnotDistinct, hnotAll, hnotTop⟩ := hnone
  have hselect : Parses (expectKeyword .SELECT) (.of (.keyword .SELECT) :: t :: ps) () (t :: ps) :=
    .expectKeyword rfl
  have hdistinct : Parses distinctRows (t :: ps) false (t :: ps) :=
    .bindIfFalse (.consumeFalse hnotDistinct) (.bind (.skipKeyword hnotAll) .ret)
  have htop : Parses (top? N) (t :: ps) none (t :: ps) := .bindIfFalse (.checkFalse hnotTop) .ret
  obtain ⟨p₁, h, hahead₁, hreaches₁⟩ := hselect.ok_of_bind hp h
  obtain ⟨p₂, h, hahead₂, hreaches₂⟩ := hdistinct.ok_of_bind hahead₁ h
  obtain ⟨p₃, h, hahead₃, hreaches₃⟩ := htop.ok_of_bind hahead₂ h
  obtain ⟨columns, p₄, hcolumns, h⟩ := ok_of_bind h
  have hsame : s.columns = columns := by
    refine Gives.after (R := fun s : Select => s.columns = columns) (fun into => ?_) _ _ _ h
    refine .after fun sources => .after fun condition => .after fun groupBy => .after fun having => ?_
    exact .after fun orderBy => .after fun limits => .after fun offset => .after fun fetch => .ret rfl
  exact ⟨p₃, p₄, (hreaches₁.trans hreaches₂).trans hreaches₃, hahead₃, hsame ▸ hcolumns⟩

/-- A set operator makes another query of the one before it. -/
theorem setOperation_gives (left : Query) (op : SetOperator) :
    Gives (do
      advance
      let all ← consumeKeyword .ALL
      unless all do
        skipKeyword .DISTINCT
      return (.more (.setOperation left op all (← selection N)) : Step Query Query))
      fun step => ∃ query, step = .more query ∧ ∀ x, query ≠ .select x := by
  have hmore (all : Bool) : Gives (do
      return (.more (.setOperation left op all (← selection N)) : Step Query Query))
      fun step => ∃ query, step = .more query ∧ ∀ x, query ≠ .select x :=
    .after fun right => .ret ⟨_, rfl, nofun⟩
  exact .after fun _ => .after fun all => .ite (fun _ => hmore all) fun _ => .after fun _ => hmore all

/-- The selection that a statement consists of is the one that is read first. -/
theorem ok_of_parse {s : Select} {ps : List Piece} (hp : p.Ahead (.of (.keyword .SELECT) :: ps))
    (h : parse p = .ok (.query (.select s)) q) :
    ∃ x y, p.Reaches x ∧ x.Ahead (.of (.keyword .SELECT) :: ps) ∧
      selectInto (.below p.remaining) .fresh x = .ok s y := by
  obtain ⟨_, _, hkind, h⟩ := ok_of_bind h
  cases hkind
  rw [hp.kind] at h
  obtain ⟨query, hquery, heq⟩ := ok_of_map (show (Statement.query <$> selections _) p = _ from h)
  cases heq
  obtain ⟨first, p₁, hfirst, h⟩ := ok_of_bind hquery
  -- a set operator would have made another query of it
  let Kept (left : Query) (_ : Parser) : Prop := ∀ x, left = .select x → x = first
  have hfirstKept : Kept (.select first) p₁ := fun x heq => by
    cases heq
    rfl
  obtain ⟨left, y, hleft, hdone⟩ := ok_of_loop h hfirstKept fun left y left' z _ hmore => by
    obtain ⟨op?, _, _, hmore⟩ := ok_of_bind hmore
    cases op? with
    | none => cases hmore
    | some op =>
      obtain ⟨query, heq, hother⟩ := setOperation_gives left op _ _ _ hmore
      cases heq
      exact fun x hx => absurd hx (hother x)
  have hsame : s = first := by
    obtain ⟨op?, _, _, hdone⟩ := ok_of_bind hdone
    cases op? with
    | none =>
      cases hdone
      exact hleft s rfl
    | some op =>
      obtain ⟨query, heq, -⟩ := setOperation_gives left op _ _ _ hdone
      cases heq
  subst hsame
  have hnode : Parses acquireSelect (.of (.keyword .SELECT) :: ps) Select.fresh _ := .acquireSelect
  obtain ⟨x, hinto, hx, hreaches⟩ := hnode.ok_of_bind hp hfirst
  rw [onFailure] at hinto
  split at hinto
  · next heq =>
    cases hinto
    exact ⟨x, _, hreaches, hx, heq⟩
  · cases hinto

/-! ## A conversion from its pieces -/

/-- The pieces of a conversion of a column. -/
def castPieces (column : String) (rest : List Piece) : List Piece :=
  .of (.keyword .CAST) :: .of .leftParen :: ⟨.identifier, column⟩ :: .of (.keyword .AS) :: rest

theorem parses_cast (column : String) {spelling : DataType.Spelling} (h : t.Spelled d spelling)
    (hzone : t.Zoned → t.modifier = none) :
    ParsesIn (some d) Nested.tied.expression
      (castPieces column (t.pieces spelling ++ [.of .rightParen, endPiece]))
      (.cast (.column ⟨none, column⟩) t) [endPiece] := by
  let rest := t.pieces spelling ++ [.of .rightParen, endPiece]
  have hcolumn : ParsesIn (some d) Nested.tied.expression
      (⟨.identifier, column⟩ :: .of (.keyword .AS) :: rest) (.column ⟨none, column⟩)
      (.of (.keyword .AS) :: rest) := by
    rw [Nested.parses_expression, expression_eq]
    have hname : ParsesIn (some d) (primary .tied) (⟨.identifier, column⟩ :: .of (.keyword .AS) :: rest)
        (.column ⟨none, column⟩) (.of (.keyword .AS) :: rest) :=
      .bind .kind (.bindIfTrue (.atName rfl) (parses_column none column (.cons _ rfl)))
    exact hname.bind (.loopDone (parses_operatorRound_none fun _ => rfl))
  have htype : ParsesIn (some d) dataType rest t [.of .rightParen, endPiece] :=
    parses_dataType_pieces h hzone ⟨_, _, rfl, nofun, nofun, nofun, nofun⟩
  have hcall : ParsesIn (some d) (castCall .tied) (castPieces column rest)
      (.cast (.column ⟨none, column⟩) t) [endPiece] :=
    .bind (.expectKeyword rfl)
      (.inParens (hcolumn.bind (.bind (.expectKeyword rfl) (htype.bind .ret))))
  rw [Nested.parses_expression, expression_eq]
  exact .bind (.bind .kind hcall) (.loopDone (parses_operatorRound_none fun _ => rfl))

end Grammar

/-! ## Sources -/

namespace Lexer

theorem pieces_selectCast (d : Dialect) (rest : List Char) :
    pieces d ("SELECT CAST(x AS ".toList ++ rest) =
      .of (.keyword .SELECT) :: Grammar.castPieces "x" (pieces d rest) := by
  have hselect (more : List Char) : pieces d ("SELECT ".toList ++ more) = _ :=
    pieces_keyword_blank .SELECT (by decide) more
  have hcast (more : List Char) : pieces d ("CAST".toList ++ '(' :: more) = _ :=
    pieces_keyword .CAST (by decide) (by simp [Text.endsWord])
  have hname (more : List Char) : pieces d ("x".toList ++ ' ' :: more) = _ :=
    pieces_name (by decide) (by decide +kernel) (by simp [Text.endsWord, Text.isSeam])
  have has (more : List Char) : pieces d ("AS ".toList ++ more) = _ :=
    pieces_keyword_blank .AS (by decide) more
  have htext : "SELECT CAST(x AS ".toList ++ rest = "SELECT ".toList ++ ("CAST".toList ++ '(' ::
      ("x".toList ++ ' ' :: ("AS ".toList ++ rest))) := by simp
  rw [htext, hselect, hcast, pieces_leftParen, hname, pieces_blank, has]
  rfl

end Lexer

namespace Parser

open Grammar

/-- The parser of a source whose names have no quotes. -/
theorem reading_ofSource {source : String} {d : Dialect} {pools : Pools} (hpools : pools.IsFresh)
    (h : ∀ token ∈ Lexer.tokenize source d, token.kind ≠ .quotedIdentifier) :
    (ofSource source d false pools).Reading d := by
  have hahead := ahead_ofSource source d hpools
  refine ⟨hahead.underway, hahead.live, hahead.running, dialect_ofSource _ _ _ _, fun token ht => ?_⟩
  rw [upcoming_ofSource] at ht
  exact ⟨h token ht, Lexer.isWord_of_mem_tokens ht⟩

/-- The type of the conversion that is the only column of a selection, if a result is such a selection. -/
def castType? : Except ParseError Statement → Option DataType
  | .ok (.query (.select s)) =>
    match s.columns with
    | [.cast _ t] => some t
    | _ => none
  | _ => none

theorem castType?_eq {results : List (Except ParseError Statement)} {t : DataType}
    (h : results.map castType? = [some t]) :
    ∃ s e, results = [.ok (.query (.select s))] ∧ s.columns = [.cast e t] := by
  obtain ⟨result, rfl, hresult⟩ := List.map_eq_singleton_iff.1 h
  unfold castType? at hresult
  split at hresult
  · next s =>
    split at hresult
    · next e t' hcolumns =>
      cases hresult
      exact ⟨s, e, rfl, hcolumns⟩
    · cases hresult
  · cases hresult

/-- Printing and reading a data type. If the text of a selection is that of a conversion to a type, with
whatever stands behind it, and its only column is a conversion to the type `t`, then `t` is read again from
its summary. This needs that `t` has no modifier where its name ends with the words about a time zone: the
modifier would be printed behind these words. -/
theorem results_summary_dataType {d : Dialect} {text : String} {P Q : Pools} (hP : P.IsFresh)
    (hQ : Q.IsFresh)
    (hnames : ∀ token ∈ Lexer.tokenize ("SELECT CAST(x AS " ++ text ++ ")") d,
      token.kind ≠ .quotedIdentifier)
    {s : Select} {e : Expr} {t : DataType}
    (h : (ofSource ("SELECT CAST(x AS " ++ text ++ ")") d false P).results.1 =
      [.ok (.query (.select s))])
    (hcolumns : s.columns = [.cast e t]) (hzone : t.Zoned → t.modifier = none) :
    let p := ofSource ("SELECT CAST(x AS " ++ t.summary ++ ")") d false Q
    p.results.1 = [.ok (.query (.select (.only (.cast (.column ⟨none, "x"⟩) t))))] ∧
      p.results.2.errors = #[] := by
  intro p
  obtain ⟨spelling, hspelled⟩ : ∃ spelling, t.Spelled d spelling := by
    let source := ofSource ("SELECT CAST(x AS " ++ text ++ ")") d false P
    have hahead : source.Ahead (.of (.keyword .SELECT) :: castPieces "x" (Lexer.pieces d (text.toList ++ [')']))) := by
      rw [← Lexer.pieces_selectCast]
      have := ahead_ofSource ("SELECT CAST(x AS " ++ text ++ ")") d hP
      simpa using this
    obtain ⟨q, hparse⟩ := hahead.parse_of_results (ready_ofSource _ _ _) (by decide) h
    obtain ⟨x, y, hreaches, hx, hinto⟩ := ok_of_parse hahead hparse
    obtain ⟨z, w, hreaches', hz, hlist⟩ := ok_of_selectInto hx (by decide) hinto
    rw [hcolumns] at hlist
    obtain ⟨column, _, _, heq, hcolumn⟩ := Production.ok_of_list hlist
    cases heq
    have hread : z.Reading d := (reading_ofSource hP hnames).reaches (hreaches.trans hreaches') hz.underway
    exact castSpelled_of_selectColumn hread hz.kind hcolumn e t rfl
  have hpieces : Lexer.pieces d ("SELECT CAST(x AS " ++ t.summary ++ ")").toList =
      .of (.keyword .SELECT) :: castPieces "x" (t.pieces spelling ++ [.of .rightParen, endPiece]) := by
    rw [String.toList_append, String.toList_append, List.append_assoc, Lexer.pieces_selectCast,
      hspelled.pieces_summary (by simp [Text.isSeam])]
    show _ :: castPieces "x" (_ ++ Lexer.pieces d [')']) = _
    rw [Lexer.pieces_rightParen, Lexer.pieces_nil]
    rfl
  have hahead := ahead_ofSource ("SELECT CAST(x AS " ++ t.summary ++ ")") d hQ
  rw [hpieces] at hahead
  have hparses := parses_parse (parses_selectOne (t := .of (.keyword .CAST)) (by decide)
    (parses_cast "x" hspelled hzone))
  refine hahead.results (ready_ofSource _ d Q) (by decide) (by decide) (by decide) hparses fun d' hd' => ?_
  cases hd'
  exact dialect_ofSource _ _ _ _

/-- A type with every part but a modifier. -/
theorem results_summary_dataType_array :
    let text := "SETOF TIMESTAMP WITH TIME ZONE [3][]"
    let source (text : String) := ofSource ("SELECT CAST(x AS " ++ text ++ ")") .postgreSql false {}
    let t : DataType := { name := "SETOF TIMESTAMP WITH TIME ZONE", dimensions := [some 3, none] }
    (∀ token ∈ Lexer.tokenize ("SELECT CAST(x AS " ++ text ++ ")") .postgreSql,
      token.kind ≠ .quotedIdentifier) ∧
    (∃ s e, (source text).results.1 = [.ok (.query (.select s))] ∧ s.columns = [.cast e t]) ∧ (t.Zoned → t.modifier = none) ∧
    (source t.summary).results.1 = [.ok (.query (.select (.only (.cast (.column ⟨none, "x"⟩) t))))] := by
  intro text source t
  have hnames : ∀ token ∈ Lexer.tokenize ("SELECT CAST(x AS " ++ text ++ ")") .postgreSql,
      token.kind ≠ .quotedIdentifier := by decide +kernel
  have hread : (source text).results.1.map castType? = [some t] := by decide +kernel
  obtain ⟨s, e, hresults, hcolumns⟩ := castType?_eq hread
  exact ⟨hnames, ⟨s, e, hresults, hcolumns⟩, fun _ => rfl,
    (results_summary_dataType Pools.isFresh_empty Pools.isFresh_empty hnames hresults hcolumns
      fun _ => rfl).1⟩

/-- A modifier before the words about a time zone is printed behind them, and is not read there. -/
theorem results_summary_dataType_zone :
    let source (text : String) := ofSource ("SELECT CAST(x AS " ++ text ++ ")") .postgreSql false {}
    let t : DataType := { name := "TIMESTAMP WITH TIME ZONE", modifier := some (.length 3) }
    (∃ s e, (source "TIMESTAMP(3) WITH TIME ZONE").results.1 = [.ok (.query (.select s))] ∧
      s.columns = [.cast e t]) ∧ t.summary = "TIMESTAMP WITH TIME ZONE(3)" ∧
    ∀ result ∈ (source t.summary).results.1, failure? result ≠ none := by
  intro source t
  have hread : (source "TIMESTAMP(3) WITH TIME ZONE").results.1.map castType? = [some t] := by
    decide +kernel
  obtain ⟨s, e, hresults, hcolumns⟩ := castType?_eq hread
  exact ⟨⟨s, e, hresults, hcolumns⟩, by decide +kernel, by decide +kernel⟩

end Parser

end SqlFrontend
