import SqlFrontend.Grammar.Query
import SqlFrontend.Proofs.Kinship.Expression

/-!
# Queries of texts that are kin

* `Kindred.selection`, `Kindred.selections`: selections, for readings of the constructs nested in them
  that are kindred.
* `Kindred.withTables`: a query that names others first. What is read behind the names has to be a
  query, and no query is left open.
* `Kindred.query`, `Kindred.tableRef`: queries of any kind, and tables.
-/

namespace SqlFrontend

/-- The query of a statement that is one has the texts of the statement. -/
theorem Same.query? {exact : Bool} {s s' : Statement} (h : Same exact s s') :
    Same exact s.query? s'.query? := by
  cases exact with
  | true => exact congrArg Statement.query? h
  | false =>
    have hmap (f : String → String) (s : Statement) :
        (s.mapTexts f).query? = s.query?.map (Query.mapTexts f) := by
      cases s <;> rfl
    have hquery := congrArg Statement.query? (show s.mapTexts Text.lower = s'.mapTexts Text.lower from h)
    rwa [hmap, hmap] at hquery

/-! ## The end of the text -/

namespace Production.Ends

variable {N : Grammar.Nested} {stopped : Bool}

theorem tableRef {S : TableRef → Prop} : Ends stopped .eof (Grammar.tableRef N) S :=
  bindIf check objectName.fails

theorem selection {S : Select → Prop} : Ends stopped .eof (Grammar.selection N) S :=
  bind acquireSelect fun _ _ => onFailure (fails expectKeyword)

theorem selections {S : Query → Prop} : Ends stopped .eof (Grammar.selections N) S := selection.fails

theorem query {S : Query → Prop} : Ends stopped .eof (Grammar.query N) S :=
  bindIf checkKeyword (bindIf checkKeyword expected)

theorem joinKind {S : JoinKind → Prop} : Ends stopped .eof Grammar.joinKind S := bindKind expected

end Production.Ends

namespace Kinship.Kindred

variable {G : Kinship} {P : Parser → Prop} {N N' : Grammar.Nested}

/-! ## Tables -/

theorem asName? : G.Kindred P Grammar.asName? Grammar.asName? (Same G.goesOn) :=
  .bindIf .consumeKeyword (.mapSame .name fun _ _ => .some) (.same .trailingName?)

theorem tableHints : G.Kindred P Grammar.tableHints Grammar.tableHints Eq := by
  refine .bindAnd .checkKeyword (.checkPeek fun p hp => hp.1) ?_ .stay
  refine .bind .advance fun _ => .inParens (.list (.mapApart .name ?_ fun _ _ => False.elim))
  exact fun _ _ => Same.upper

theorem tableRef (h : G.Nested N N') :
    G.Kindred P (Grammar.tableRef N) (Grammar.tableRef N') (Same G.goesOn) := by
  refine .bindIf (Test.kindred .check) ?_ ?_
  · refine .bindSpan fun s s' hs => .bindSame (.inParens h.selections) fun q q' hq => ?_
    refine .bindSame .asName? fun asName asName' hname => ?_
    cases hname.option with
    | none => exact .fail hs (.refl _)
    | some hname =>
      refine .ret ?_
      cases hg : G.goesOn <;> simp_all [Same, mapTexts]
  · refine .bindSame .objectName fun table table' htable => ?_
    refine .bindSame .asName? fun asName asName' hname => .bind .tableHints fun hints => .ret ?_
    cases hg : G.goesOn <;> simp_all [Same, mapTexts]

/-! ## Joins -/

theorem atJoin : G.Kindred P Grammar.atJoin Grammar.atJoin Eq := by
  refine .bindKind (fun k => ?_) .stay
  split <;> exact .stay

theorem joinKind : G.Kindred P Grammar.joinKind Grammar.joinKind Eq := by
  have houter {kind : JoinKind} : G.Kindred Anywhere
      (do
        Production.skipKeyword .OUTER
        Production.expectKeyword .JOIN
        return kind)
      (do
        Production.skipKeyword .OUTER
        Production.expectKeyword .JOIN
        return kind) Eq :=
    .bind .skipKeyword fun _ => .bind .expectKeyword fun _ => .stay
  refine .needing .joinKind (.bindKindHere fun k => ?_)
  split
  · exact .bind .advance fun _ => .stay
  · exact .bind .advance fun _ => .bind .expectKeyword fun _ => .stay
  · exact .bind .advance fun _ => houter
  · exact .bind .advance fun _ => houter
  · exact .bind .advance fun _ => houter
  · exact .bind .advance fun _ => .bind .expectKeyword fun _ => .stay
  · exact .expected

theorem joinInto (h : G.Nested N N') {node : Join} :
    G.Kindred P (Grammar.joinInto N node) (Grammar.joinInto N' node) (Same G.goesOn) := by
  refine .bind .joinKind fun kind => .bindSame (.tableRef h) fun table table' htable => ?_
  refine .ite (fun _ => .ret ?_) fun _ => .bindIf .consumeKeyword ?_ (.bindIf .consumeKeyword ?_ .expected)
  · cases hg : G.goesOn <;> simp_all [Same, mapTexts]
  · refine .bindSame h.expression fun condition condition' hcondition => .ret ?_
    cases hg : G.goesOn <;> simp_all [Same, mapTexts]
  · refine .bindSame .columnNames fun columns columns' hcolumns => .ret ?_
    cases hg : G.goesOn <;> simp_all [Same, mapTexts]

theorem join (h : G.Nested N N') :
    G.Kindred P (Grammar.join N) (Grammar.join N') (Same G.goesOn) := by
  refine .bind .acquireJoin fun node => .onFailure (.joinInto h) fun P hP => ?_
  exact ⟨⟨hP.select, hP.binary, hP.column, NodePool.release_isFresh hP.join _⟩,
    ⟨hP.select, hP.binary, hP.column, NodePool.release_isFresh hP.join _⟩⟩

/-! ## Selections -/

theorem topLimit (h : G.Nested N N') :
    G.Kindred P (Grammar.topLimit N) (Grammar.topLimit N') (Same G.goesOn) := by
  refine .bindIfThen (Test.kindred .check) (.inParens h.expression) h.primary
    fun quantity quantity' hquantity => ?_
  refine .bind .consumeKeyword fun percent => .bind .consumeKeywords fun withTies => .ret ?_
  cases hg : G.goesOn <;> simp_all [Same, mapTexts]

theorem top? (h : G.Nested N N') :
    G.Kindred P (Grammar.top? N) (Grammar.top? N') (Same G.goesOn) := by
  refine .bindTest .checkKeyword ?_ (.ret (.refl none))
  refine .bindSpan fun s s' hs => .bindRequire hs (.bind .advance fun _ => ?_)
  exact .mapSame (.topLimit h) fun _ _ => .some

theorem selectColumn (h : G.Nested N N') :
    G.Kindred P (Grammar.selectColumn N) (Grammar.selectColumn N') (Same G.goesOn) := by
  refine .bindSame h.expression.anywhere fun expr expr' hexpr => ?_
  refine .bindSame .asName? fun asName asName' hname => ?_
  cases hname.option with
  | none => exact .ret hexpr
  | some hname =>
    refine .ret ?_
    cases hg : G.goesOn <;> simp_all [Same, mapTexts]

theorem distinctRows : G.Kindred P Grammar.distinctRows Grammar.distinctRows Eq :=
  .bindIf .consumeKeyword .stay (.bind .skipKeyword fun _ => .stay)

theorem tablesAndJoins (h : G.Nested N N') :
    G.Kindred P (Grammar.tablesAndJoins N) (Grammar.tablesAndJoins N') (Same G.goesOn) := by
  refine .bindSame (.listSame (.tableRef h)) fun tables tables' htables => ?_
  refine .bindSame (.manySame ?_) fun joins joins' hjoins => .ret ?_
  · exact .bindIf .atJoin (.mapSame (.join h) fun _ _ => .some) (.ret (.refl none))
  · cases hg : G.goesOn <;> simp_all [Same, mapTexts]

theorem limitAndOffset (h : G.Nested N N') :
    G.Kindred P (Grammar.limitAndOffset N) (Grammar.limitAndOffset N') (Same G.goesOn) := by
  refine .bindSame h.expression.anywhere fun first first' hfirst => ?_
  refine .bindIf .consume (.bindSame h.expression fun second second' hsecond => .ret ?_) (.ret ?_)
  · cases hg : G.goesOn <;> simp_all [Same, mapTexts]
  · cases hg : G.goesOn <;> simp_all [Same, mapTexts]

theorem offsetRows (h : G.Nested N N') :
    G.Kindred P (Grammar.offsetRows N) (Grammar.offsetRows N') (Same G.goesOn) := by
  refine .bindSame h.expression.anywhere fun count count' hcount => ?_
  exact .bindUnless .consumeKeyword .skipKeyword (.ret hcount)

theorem fetchRows? (h : G.Nested N N') :
    G.Kindred P (Grammar.fetchRows? N) (Grammar.fetchRows? N') (Same G.goesOn) := by
  have hrows : G.Kindred Anywhere
      (do
        let count ← N.expression
        unless ← Production.consumeKeyword .ROWS do
          Production.expectKeyword .ROW
        Production.expectKeyword .ONLY
        return some count)
      (do
        let count ← N'.expression
        unless ← Production.consumeKeyword .ROWS do
          Production.expectKeyword .ROW
        Production.expectKeyword .ONLY
        return some count) (Same G.goesOn) := by
    refine .bindSame h.expression fun count count' hcount => ?_
    exact .bindUnless .consumeKeyword .expectKeyword (.bind .expectKeyword fun _ => .ret hcount.some)
  refine .bindOr .checkKeywords .checkKeywords (.either ?_ ?_) (.ret (.refl none))
  · exact .bindAdvance (.bind .advance fun _ => hrows)
  · exact .bindAdvance (.bind .advance fun _ => hrows)

theorem behindBy {α : Type} [Textual α] {word : Keyword} {items items' : Production α}
    {T : TokenKind → Option α → Prop} (h : G.Kindred Anywhere items items' (Same G.goesOn)) :
    G.Kindred P (Grammar.behindBy word items) (Grammar.behindBy word items') (Same G.goesOn) T :=
  .behindSame (.bind .expectKeyword fun _ => h)

theorem selectInto (h : G.Nested N N') {node : Select} :
    G.Kindred P (Grammar.selectInto N node) (Grammar.selectInto N' node) (Same G.goesOn) := by
  refine .bind .expectKeyword fun _ => .bind .distinctRows fun distinct => ?_
  refine .bindSame (.top? h) fun top top' htop => ?_
  refine .bindSame (.listSame (.selectColumn h)) fun columns columns' hcolumns => ?_
  refine .bindSame (.behindSame (.listSame .qualifiedName)) fun into into' hinto => ?_
  refine .bindSame (.behindSame (.tablesAndJoins h)) fun sources sources' hsources => ?_
  refine .bindSame (.behindSame h.expression) fun condition condition' hcondition => ?_
  refine .bindSame (.behindBy (.listSame h.expression)) fun groupBy groupBy' hgroupBy => ?_
  refine .bindSame (.behindSame h.expression) fun having having' hhaving => ?_
  refine .bindSame (.behindBy (.sortItems h)) fun orderBy orderBy' horderBy => ?_
  refine .bindSame (.behindSame (.limitAndOffset h)) fun limits limits' hlimits => ?_
  refine .bindSame (.behindSame (.offsetRows h)) fun offset offset' hoffset => ?_
  refine .bindSame (.fetchRows? h) fun fetch fetch' hfetch => .ret ?_
  have htop := htop.or (.refl node.top)
  have hinto := hinto.getD (.refl node.into)
  have htables := (Same.refl node.tables).listAppend
    ((hsources.optionMap fun _ _ hs => hs.prod.1).getD (.refl []))
  have hjoins := (Same.refl node.joins).listAppend
    ((hsources.optionMap fun _ _ hs => hs.prod.2).getD (.refl []))
  have hcondition := hcondition.or (.refl node.condition)
  have hgroupBy := hgroupBy.getD (.refl node.groupBy)
  have hhaving := hhaving.or (.refl node.having)
  have horderBy := horderBy.getD (.refl node.orderBy)
  have hlimit := (hlimits.optionMap fun _ _ hl => hl.prod.1).or (.refl node.limit)
  have hoffset := hoffset.or ((hlimits.optionBind fun _ _ hl => hl.prod.2).or (.refl node.offset))
  have hfetch := hfetch.or (.refl node.fetch)
  cases hg : G.goesOn <;> simp_all [Same, mapTexts]

theorem selection (h : G.Nested N N') :
    G.Kindred P (Grammar.selection N) (Grammar.selection N') (Same G.goesOn) := by
  refine .bind .acquireSelect fun node => .onFailure (.selectInto h) fun P hP => ?_
  exact ⟨⟨NodePool.release_isFresh hP.select _, hP.binary, hP.column, hP.join⟩,
    ⟨NodePool.release_isFresh hP.select _, hP.binary, hP.column, hP.join⟩⟩

theorem setOperator? : G.Kindred P Grammar.setOperator? Grammar.setOperator? Eq := by
  refine .bindKind (fun k => ?_) .stay
  split <;> exact .stay

theorem selections (h : G.Nested N N') :
    G.Kindred P (Grammar.selections N) (Grammar.selections N') (Same G.goesOn) := by
  refine .bindSame (.selection h) fun first first' hfirst => ?_
  refine .loop (W := Same G.goesOn) (fun left left' hleft => ?_) ?_
  · refine .bind .setOperator? fun op? => ?_
    cases op? with
    | none => exact .ret (.done hleft)
    | some op =>
      refine .bindPass ?_ (.bind .consumeKeyword fun all => ?_)
      · refine Production.Ends.bind .consumeKeyword fun all _ => ?_
        exact .ite (fun _ => .fails .selection) fun _ => .bind .skipKeyword fun _ _ => .fails .selection
      · extract_lets rest rest'
        have hrest (u : Unit) : G.Kindred Anywhere (rest u) (rest' u)
            (StepRel (Same G.goesOn) (Same G.goesOn)) := by
          refine .bindSame (.selection h) fun right right' hright => .ret (.more ?_)
          cases hg : G.goesOn <;> simp_all [Same, mapTexts]
        exact .ite (fun _ => hrest ()) fun _ => .bind .skipKeyword hrest
  · cases hg : G.goesOn <;> simp_all [Same, mapTexts]

/-! ## Named queries -/

theorem commonTable (h : G.Nested N N') :
    G.Kindred P (Grammar.commonTable N) (Grammar.commonTable N') (Same G.goesOn) := by
  refine .bindSame .name fun name name' hname => .bindSame .columnNames? fun columns columns' hcolumns => ?_
  refine .bind .expectKeyword fun _ => .bindSame (.inParens h.query) fun q q' hq => .ret ?_
  cases hg : G.goesOn <;> simp_all [Same, mapTexts]

/-- A statement that was left open is no query. -/
theorem withTables (h : G.Nested N N') :
    G.Kindred P (Grammar.withTables N) (Grammar.withTables N') (Same G.goesOn) := by
  refine .bind .expectKeyword fun _ => .bind .consumeKeyword fun recursive => ?_
  refine .bindSame (.listSame (.commonTable h)) fun tables tables' htables => ?_
  refine .bindSpan fun s s' hs => .bindApart h.statement.anywhere (fun body body' hbody => ?_)
    fun k body hk => ?_
  · have hquery := hbody.query?.option
    generalize body.query? = q?, body'.query? = q?' at hquery
    cases hquery with
    | none => exact .fail hs (.refl _)
    | some hq =>
      refine .ret ?_
      cases hg : G.goesOn <;> simp_all [Same, mapTexts]
  · rw [hk.noQuery]
    exact .fail

theorem query (h : G.Nested N N') :
    G.Kindred P (Grammar.query N) (Grammar.query N') (Same G.goesOn) :=
  .bindIf (Test.kindred .checkKeyword) (.withTables h)
    (.bindIf (Test.kindred .checkKeyword) (.selections h) .expected)

end Kinship.Kindred

end SqlFrontend
