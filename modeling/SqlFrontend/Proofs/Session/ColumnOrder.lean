import SqlFrontend.Proofs.Grammar.Clause
import SqlFrontend.Proofs.Grammar.Column
import SqlFrontend.Proofs.Session.Identity
import SqlFrontend.Proofs.Session.Taking

/-!
# The clauses of a column in any order

The clauses of a column are written behind its name and its type, each on a line of its own. Each of them
says one thing about the column, and they say it in any order.

Results:
* `Parser.results_clauses`: clauses that say different things make the same column in every order, with
  what each of them says and with nothing else.
-/

namespace SqlFrontend

namespace Grammar

open Production

/-! ## Clauses on lines of their own -/

variable {d : Dialect} {N : Nested} {column column' : ColumnDefinition} {c : ColumnChange} {text : String}
  {p q : Parser}

/-- A clause does not depend on what was said of the column before. -/
theorem takes_columnProperty? {name : String} {type : DataType}
    (h : (columnProperty? N { name, type }).Takes d text (some (c.apply { name, type })))
    (column : ColumnDefinition) : (columnProperty? N column).Takes d text (some (c.apply column)) := by
  obtain ⟨hcomplete, q, heq, hq⟩ := h
  rw [columnProperty?_eq] at heq
  obtain ⟨change?, hchange, heq⟩ := ok_of_map heq
  obtain ⟨c', rfl, hc'⟩ := Option.map_eq_some_iff.1 heq
  rw [ColumnChange.eq_of_apply hc'] at hchange
  refine ⟨hcomplete, q, ?_, hq⟩
  rw [columnProperty?_eq, run_map, hchange]
  rfl

/-- The word that a clause starts with goes on with nothing. -/
theorem start_of_columnProperty? (h : columnProperty? N column p = .ok (some column') q) :
    p.current.kind ≠ .rightParen ∧ p.current.kind.continues = false ∧
      ((∀ next, operator? p.current.kind next = none) ∨
        p.current.kind = .keyword .NOT ∧ p.advance.current.kind = .keyword .NULL) := by
  obtain ⟨k, x, hkind, h⟩ := ok_of_bind h
  obtain ⟨hk, rfl⟩ : p.current.kind = k ∧ p = x := by cases hkind; exact ⟨rfl, rfl⟩
  rw [hk]
  split at h
  case h_2 =>
    refine ⟨by decide, rfl, .inr ⟨rfl, ?_⟩⟩
    by_contra hnull
    simp [hnull] at h
  case h_15 => cases h
  all_goals exact ⟨by decide, rfl, .inl fun _ => rfl⟩

/-- Nothing that stands before a clause goes on with it. -/
theorem apart_of_takes (h : (columnProperty? N column).Takes d text (some column')) :
    Lexer.Apart d text := by
  obtain ⟨q, heq, -⟩ := h.reads
  obtain ⟨hparen, hcontinues, hnext⟩ := start_of_columnProperty? heq
  have hahead := Parser.ahead_ofSource (text ++ "\n" ++ ")") d Pools.isFresh_empty
  rw [h.pieces] at hahead
  cases hfront : Lexer.front d text with
  | nil =>
    rw [hfront] at hahead
    exact absurd hahead.kind hparen
  | cons t ts =>
    rw [hfront, List.cons_append] at hahead
    rw [hahead.kind] at hparen hcontinues hnext
    refine ⟨t, ts, hfront, hcontinues, fun rest hrest => ?_⟩
    rcases hnext with hnext | ⟨ht, hnull⟩
    · obtain ⟨u, us, hus⟩ := List.exists_cons_of_ne_nil (List.append_ne_nil_of_right_ne_nil ts hrest)
      exact ⟨u, us, hus, hnext _⟩
    · obtain ⟨hahead', -⟩ := hahead.advance (by rw [ht]; decide)
      cases ts with
      | nil =>
        have hkind := hahead'.kind
        rw [hnull] at hkind
        cases hkind
      | cons u us =>
        have hkind := hahead'.kind
        rw [hnull] at hkind
        exact ⟨u, us ++ rest, rfl, by rw [ht, ← hkind]; rfl⟩

theorem front_ne_nil (h : Lexer.Apart d text) : Lexer.front d text ≠ [] := by
  obtain ⟨t, ts, hts, -⟩ := h
  rw [hts]
  exact List.cons_ne_nil t ts

/-- Clauses are lines of their own. -/
theorem lines_of_clauses {clauses : List (String × ColumnChange)}
    (h : ∀ clause ∈ clauses, ∀ column, (columnProperty? N column).Takes d clause.1
      (some (clause.2.apply column))) (column : ColumnDefinition) :
    ∀ line ∈ clauses.map Prod.fst, Lexer.Complete d line ∧ Lexer.Apart d line := by
  intro line hline
  obtain ⟨clause, hclause, rfl⟩ := List.mem_map.1 hline
  exact ⟨(h clause hclause column).complete, apart_of_takes (h clause hclause column)⟩

/-- A column's clauses, each on a line of its own, are read one after the other. -/
theorem reads_clauses {column : ColumnDefinition} {clauses : List (String × ColumnChange)}
    (h : ∀ clause ∈ clauses, ∀ column, (columnProperty? .tied column).Takes d clause.1
      (some (clause.2.apply column))) :
    Reads d (loop (columnRound .tied) column) (Lexer.linePieces d (clauses.map Prod.fst))
      ((clauses.map Prod.snd).foldl ColumnChange.apply column) (Lexer.linePieces d []) := by
  induction clauses generalizing column with
  | nil => exact .of_parsesIn (.loopDone (.bind (.bind .kind .ret) .ret))
  | cons clause clauses ih =>
    have hothers := fun clause' h' => h clause' (List.mem_cons_of_mem _ h')
    have hclause := h clause List.mem_cons_self column
    have hne := front_ne_nil (apart_of_takes hclause)
    have hread : Reads d (columnProperty? .tied column) _ _ _ :=
      hclause.reads_lines (fun L _ => .columnProperty? L.nested_tied)
        (fun J hJ n => Junction.Follows.columnProperty? hJ) hne (lines_of_clauses hothers column)
    have hround : Reads d (columnRound .tied column) _ _ _ := hread.bind (.of_parsesIn .ret)
    rw [List.map_cons, Lexer.linePieces_cons]
    refine .loopMore hround ?_ (ih hothers)
    rw [List.length_append]
    exact Nat.lt_add_of_pos_left (List.length_pos_of_ne_nil hne)

/-! ## The column -/

theorem atTableConstraint_of_isName (h : p.current.isName) : atTableConstraint p = .ok false p := by
  obtain ⟨k, hk⟩ : ∃ k, p.current.kind = k := ⟨_, rfl⟩
  rw [Token.isName, hk] at h
  rw [atTableConstraint, run_bind, run_kind, hk]
  dsimp only
  split <;> first | rfl | cases h

/-- A column starts with a name. -/
theorem isName_of_columnHead (h : columnHead p = .ok column q) : p.current.isName := by
  obtain ⟨name, x, hname, -⟩ := ok_of_bind h
  by_contra hnot
  simp [Production.name, hnot] at hname

theorem plain_of_columnHead (h : columnHead p = .ok column q) :
    column = { name := column.name, type := column.type } := by
  obtain ⟨name, x, hname, h⟩ := ok_of_bind h
  obtain ⟨type, y, htype, h⟩ := ok_of_bind h
  cases h
  rfl

/-- A column with its clauses is an item of a table. -/
theorem reads_tableItem {head : String} {clauses : List (String × ColumnChange)}
    (hhead : columnHead.Takes d head column)
    (h : ∀ clause ∈ clauses, ∀ column, (columnProperty? .tied column).Takes d clause.1
      (some (clause.2.apply column))) :
    Reads d (tableItem .tied) (Lexer.linePieces d (head :: clauses.map Prod.fst))
      (.inl ((clauses.map Prod.snd).foldl ColumnChange.apply column)) (Lexer.linePieces d []) := by
  obtain ⟨q, heq, -⟩ := hhead.reads
  have hname := isName_of_columnHead heq
  have hahead := Parser.ahead_ofSource (head ++ "\n" ++ ")") d Pools.isFresh_empty
  rw [hhead.pieces] at hahead
  obtain ⟨t, ts, hfront⟩ : ∃ t ts, Lexer.front d head = t :: ts := by
    refine List.exists_cons_of_ne_nil fun hnil => ?_
    rw [hnil] at hahead
    rw [Token.isName, hahead.kind] at hname
    cases hname
  rw [hfront] at hahead
  have hstart (us : List Piece) : Reads d atTableConstraint (t :: us) false (t :: us) := by
    refine .of_parsesIn (.look fun p hp => atTableConstraint_of_isName ?_)
    rwa [(Token.alike_of_piece (hp.current.trans hahead.current.symm)).isName]
  have hread : Reads d columnHead _ _ _ :=
    hhead.reads_lines (fun L _ => .bind .name fun _ => .bind .dataType fun _ => .stay)
      (fun J hJ n => (Junction.Follows.name.bind fun _ =>
        (Junction.Follows.dataType hJ).bind fun _ => .ret).inside.anyway)
      (by rw [hfront]; exact List.cons_ne_nil t ts) (lines_of_clauses h column)
  have hcolumn := hread.bind (reads_clauses h)
  rw [← columnDefinition_eq, hfront, List.cons_append] at hcolumn
  rw [Lexer.linePieces_cons, hfront, List.cons_append]
  exact (hstart _).bind hcolumn.map

theorem reads_tableBody {item : ColumnDefinition} {ps : List Piece}
    (h : Reads d (tableItem .tied) ps (.inl item) (Lexer.linePieces d [])) :
    Reads d (tableBody .tied) (.of .leftParen :: ps)
      (.createTable ⟨false, false, ⟨none, "t"⟩, [item], [], {}⟩) [endPiece] :=
  .map ((Reads.inParens (h.listOne (by decide))).bind (.of_parsesIn (.bind parses_tableOptions_none .ret)))

end Grammar

/-! ## Sources -/

namespace Parser

open Grammar

variable {d : Dialect}

/-- The clauses of a column may be written in any order. Let a column be given by its name and its type, and
let there be clauses about different things, each of which is a clause that sets its own field, if it is
written alone. In every order, with line breaks between them, they make one and the same column: it says
what each of the clauses says, and nothing else. What follows the last clause has to close the table behind
each of them, as a parenthesis does behind a clause that does not end with a comment. -/
theorem results_clauses {head closing : String} {column : ColumnDefinition}
    {clauses : List (String × ColumnChange)} {pools : Pools} (hpools : pools.IsFresh)
    (hhead : columnHead.Takes d head column)
    (hclauses : ∀ clause ∈ clauses,
      (columnProperty? .tied column).Takes d clause.1 (some (clause.2.apply column)))
    (hfields : (clauses.map fun clause => clause.2.field).Nodup)
    (hclosing : ∀ line ∈ head :: clauses.map Prod.fst,
      Lexer.pieces d (line ++ closing).toList = Lexer.pieces d (line ++ "\n" ++ ")").toList) :
    ∃ whole : ColumnDefinition,
      whole.name = column.name ∧ whole.type = column.type ∧
      (∀ field, whole.change? field =
        if field = .comment then none
        else (clauses.map Prod.snd).find? fun change => change.field = field) ∧
      ∀ order : List (String × ColumnChange), order.Perm clauses →
        let p := ofSource ("CREATE TABLE t (" ++ "\n".intercalate (head :: order.map Prod.fst) ++ closing)
          d false pools
        p.results.1 = [.ok (.createTable ⟨false, false, ⟨none, "t"⟩, [whole], [], {}⟩)] ∧
          p.results.2.errors = #[] := by
  obtain ⟨q, heq, -⟩ := hhead.reads
  have hplain := plain_of_columnHead heq
  let changes := clauses.map Prod.snd
  have hchanges : (changes.map ColumnChange.field).Nodup := by rwa [List.map_map]
  have hall : ∀ clause ∈ clauses, ∀ column', (columnProperty? .tied column').Takes d clause.1
      (some (clause.2.apply column')) := by
    intro clause hclause column'
    have htakes := hclauses clause hclause
    rw [hplain] at htakes
    exact takes_columnProperty? htakes column'
  obtain ⟨hwholeName, hwholeType⟩ := ColumnChange.foldl_apply_plain changes column
  refine ⟨changes.foldl ColumnChange.apply column, hwholeName, hwholeType, fun field => ?_, fun order horder => ?_⟩
  · by_cases hfield : field = .comment
    · rw [if_pos hfield, hfield]
      rfl
    · rw [if_neg hfield, ColumnChange.change?_foldl hfield hchanges, hplain, ColumnChange.change?_plain,
        Option.or_none]
  intro p
  have hperm : changes.foldl ColumnChange.apply column =
      (order.map Prod.snd).foldl ColumnChange.apply column :=
    ColumnChange.foldl_apply_perm (horder.map Prod.snd).symm hchanges column
  have hitem := reads_tableItem hhead fun clause h => hall clause (horder.mem_iff.1 h)
  have hlines : ∀ line ∈ head :: order.map Prod.fst, Lexer.Complete d line ∧
      Lexer.pieces d (line ++ closing).toList = Lexer.pieces d (line ++ "\n" ++ ")").toList := by
    intro line hline
    rcases List.mem_cons.1 hline with rfl | hline
    · exact ⟨hhead.complete, hclosing _ List.mem_cons_self⟩
    · have hline := (horder.map Prod.fst).mem_iff.1 hline
      obtain ⟨clause, hclause, rfl⟩ := List.mem_map.1 hline
      exact ⟨(hclauses clause hclause).complete, hclosing _ (List.mem_cons_of_mem _ hline)⟩
  have hahead := ahead_ofSource
    ("CREATE TABLE t (" ++ "\n".intercalate (head :: order.map Prod.fst) ++ closing) d hpools
  rw [String.append_assoc, String.toList_append, Lexer.pieces_createTable,
    Lexer.pieces_intercalate_paren hlines, ← String.append_assoc] at hahead
  obtain ⟨q, hq, hqs, -, hreaches⟩ := comes_createTable p hahead
  obtain ⟨r, hr, hrs, -⟩ := reads_tableBody hitem q hqs ((plain_ofSource _ d pools).reaches hreaches)
  have hparse : Grammar.parse p = .ok _ r :=
    (Nested.tied_agreesAt hahead.underway).statement.symm.trans (hq.trans hr)
  rw [hperm]
  exact hahead.results_of_run (ready_ofSource _ d pools) nofun nofun nofun hparse hrs

/-- A default is followed by a word that could negate an operator, and a comment by nothing that is kept. -/
theorem results_clauses_reversed :
    let column : ColumnDefinition := { name := "c", type := { name := "INT" } }
    let clauses : List (String × ColumnChange) :=
      [("DEFAULT a", .initial (.column ⟨none, "a"⟩)), ("NOT NULL", .nullable false), ("COMMENT 'x'", .comment)]
    Pools.IsFresh {} ∧ columnHead.Takes .mySql "c INT" column ∧
      (∀ clause ∈ clauses,
        (columnProperty? .tied column).Takes .mySql clause.1 (some (clause.2.apply column))) ∧
      (clauses.map fun clause => clause.2.field).Nodup ∧
      (∀ line ∈ "c INT" :: clauses.map Prod.fst, Lexer.pieces .mySql (line ++ ")").toList =
        Lexer.pieces .mySql (line ++ "\n" ++ ")").toList) ∧
      ∃ whole : ColumnDefinition, whole.change? .nullable = some (.nullable false) ∧
        whole.change? .initial = some (.initial (.column ⟨none, "a"⟩)) ∧
        ∀ text ∈ ["DEFAULT a\nNOT NULL\nCOMMENT 'x'", "COMMENT 'x'\nNOT NULL\nDEFAULT a"],
          (ofSource ("CREATE TABLE t (c INT\n" ++ text ++ ")") .mySql false {}).results.1 =
            [.ok (.createTable ⟨false, false, ⟨none, "t"⟩, [whole], [], {}⟩)] := by
  intro column clauses
  have hpieces {text : String} (ps : List Piece) (h : Lexer.pieces .mySql (text ++ "\n" ++ ")").toList = ps)
      {α : Type} {m : Production α} {a : α} (hcomplete : ∀ t ∈ Lexer.tokenize text .mySql, t.isUnterminated = false)
      (hm : Production.Parses m ps a [.of .rightParen, endPiece]) : m.Takes .mySql text a :=
    .of_parses hcomplete (by rwa [h, Lexer.pieces_paren])
  have hhead : columnHead.Takes .mySql "c INT" column := by
    refine hpieces [⟨.identifier, "c"⟩, ⟨.identifier, "INT"⟩, .of .rightParen, endPiece]
      (by decide +kernel) (by decide +kernel) ?_
    exact .bind (.name rfl) (.bind (parses_dataType nofun nofun nofun) .ret)
  have hexpression : Production.Parses Nested.tied.expression [⟨.identifier, "a"⟩, .of .rightParen, endPiece]
      (.column ⟨none, "a"⟩) [.of .rightParen, endPiece] := by
    have ha : PlainName "a" := ⟨by decide, by decide +kernel⟩
    have hcanonical : (Expr.column ⟨none, "a"⟩).Canonical .full :=
      .positive (.plainLeft (.unsigned (.column nofun ha)))
    exact ((readsAt_of_canonical hcanonical).whole hcanonical).reads _ (.cons _ rfl)
  have hclauses : ∀ clause ∈ clauses,
      (columnProperty? .tied column).Takes .mySql clause.1 (some (clause.2.apply column)) := by
    intro clause hclause
    simp only [clauses, List.mem_cons, List.not_mem_nil, or_false] at hclause
    rcases hclause with rfl | rfl | rfl
    · refine hpieces [.of (.keyword .DEFAULT), ⟨.identifier, "a"⟩, .of .rightParen, endPiece]
        (by decide +kernel) (by decide +kernel) ?_
      exact .bind .kind (.bind (.advance nofun) (.bind hexpression .ret))
    · refine hpieces [.of (.keyword .NOT), .of (.keyword .NULL), .of .rightParen, endPiece]
        (by decide +kernel) (by decide +kernel) ?_
      exact .bind .kind (.bind (.advance nofun) (.bind (.expectKeyword rfl) .ret))
    · refine hpieces [.of (.keyword .COMMENT), ⟨.string, "x"⟩, .of .rightParen, endPiece]
        (by decide +kernel) (by decide +kernel) ?_
      refine .bind .kind (.bindIfTrue (.look fun p hp => ?_) (.bind (.advance nofun) (.bind (.advance nofun) .ret)))
      rw [Production.run_checkPeek, hp.peek]
      rfl
  have hfields : (clauses.map fun clause => clause.2.field).Nodup := by decide
  have hclosing : ∀ line ∈ "c INT" :: clauses.map Prod.fst, Lexer.pieces .mySql (line ++ ")").toList =
      Lexer.pieces .mySql (line ++ "\n" ++ ")").toList := by
    change ∀ line ∈ ["c INT", "DEFAULT a", "NOT NULL", "COMMENT 'x'"], _
    decide +kernel
  obtain ⟨whole, -, -, hwhole, horders⟩ :=
    results_clauses Pools.isFresh_empty hhead hclauses hfields hclosing
  refine ⟨Pools.isFresh_empty, hhead, hclauses, hfields, hclosing, whole, hwhole .nullable, hwhole .initial,
    fun text htext => ?_⟩
  simp only [List.mem_cons, List.not_mem_nil, or_false] at htext
  rcases htext with rfl | rfl
  · exact (horders clauses (.refl _)).1
  · exact (horders clauses.reverse (List.reverse_perm _)).1

end Parser

end SqlFrontend
