import SqlFrontend.Grammar.Rows
import SqlFrontend.Proofs.Shape.Expression

/-!
# The shape of queries and changes of rows

* `Yields.selections`, `Yields.query`: queries. A selection has columns, a join the condition that its
  kind asks for, and a query in parentheses starts with no common tables.
* `Yields.insert`, `Yields.update`, `Yields.delete`: changes of rows.
-/

namespace SqlFrontend.Production.Yields

variable {P : Parser → Prop} {N : Grammar.Nested}

/-! ## Tables and joins -/

theorem asName? : Yields P Grammar.asName? fun _ _ => True :=
  .bindIf .consumeKeyword (mapQuiet .name) .trailingName?

theorem tableHints : Yields P Grammar.tableHints fun _ _ => True := by
  refine .bind .checkKeyword fun atWith => .bind .checkPeek fun atParen => .ite (fun h => ?_) fun _ => .stay
  rw [Bool.and_eq_true] at h
  refine .bind (.pass fun p hp _ => ?_) fun _ => .inParens (.quiet (.list (mapQuiet .name)))
  rw [hp.1.2 h.1]

theorem tableRef (h : N.Shaped) : Yields P (Grammar.tableRef N) fun t _ => Shapely t.parts := by
  refine .bindIf .check ?_ ?_
  · refine .bind .span fun place => .seq (.inParens h.selections) fun query hquery => ?_
    refine .bind asName? fun asName => ?_
    split
    · exact .ret fun _ _ => by simpa [TableRef.Shaped] using hquery
    · exact .fail
  · refine .bind .objectName fun table => .bind asName? fun asName => .bind tableHints fun hints => ?_
    exact .ret fun _ _ => by simp [TableRef.Shaped]

theorem atJoin : Yields P Grammar.atJoin fun _ _ => True := by
  refine .bind .kind fun k => ?_
  split <;> exact .stay

theorem joinKind : Yields P Grammar.joinKind fun _ _ => True := by
  have hjoin {P : Parser → Prop} {kind : JoinKind} :
      Yields P (do Production.expectKeyword .JOIN; return kind) fun _ _ => True :=
    .bind .expectKeyword fun _ => .stay
  have houter {P : Parser → Prop} {kind : JoinKind} : Yields P
      (do Production.skipKeyword .OUTER; Production.expectKeyword .JOIN; return kind) fun _ _ => True :=
    .bind .skipKeyword fun _ => hjoin
  refine .bind .kind fun k => ?_
  split
  · exact .bind .advance fun _ => .stay
  · exact .bind .advance fun _ => hjoin
  · exact .bind .advance fun _ => houter
  · exact .bind .advance fun _ => houter
  · exact .bind .advance fun _ => houter
  · exact .bind .advance fun _ => hjoin
  · exact .expected

/-- A join is read into a node that says nothing about a condition. -/
theorem joinInto (h : N.Shaped) :
    Yields P (Grammar.joinInto N .fresh) fun j _ => Shapely j.parts := by
  refine .bind joinKind fun kind => .seq (tableRef h) fun table htable => ?_
  refine .ite (fun hkind => .ret fun _ _ => ?_) fun hkind => ?_
  · simp [Join.Shaped, Join.fresh, hkind, htable, Expr.partsOption]
  refine .bindIf .consumeKeyword (.seq h.expression fun e he => .ret fun _ _ => ?_) ?_
  · simp [Join.Shaped, Join.fresh, hkind, htable, he]
  refine .bindIf .consumeKeyword (.seq .columnNames fun names hnames => .ret fun _ _ => ?_) .expected
  simp [Join.Shaped, Join.fresh, hkind, htable, hnames, Expr.partsOption]

theorem join (h : N.Shaped) : Yields P (Grammar.join N) fun j _ => Shapely j.parts := by
  refine .seq .acquireJoin fun node hnode => .onFailure (hnode ▸ joinInto h) fun pools hpools => ?_
  exact ⟨hpools.select, hpools.binary, hpools.column, NodePool.release_isFresh hpools.join _⟩

/-! ## Selections -/

theorem topLimit (h : N.Shaped) :
    Yields P (Grammar.topLimit N) fun t _ => Shapely t.quantity.parts := by
  refine .bindIfThen .check (.inParens h.expression) h.primary fun quantity hquantity => ?_
  exact .bind .consumeKeyword fun percent => .bind .consumeKeywords fun withTies =>
    .ret fun _ _ => hquantity

theorem top? (h : N.Shaped) :
    Yields P (Grammar.top? N) fun top _ => ∀ t ∈ top, Shapely t.quantity.parts := by
  refine .bindIf .checkKeyword (.bind .span fun place => .bind .require fun _ => ?_) .retNone
  exact .bind .advance fun _ => .mapSome (topLimit h)

theorem selectColumn (h : N.Shaped) :
    Yields P (Grammar.selectColumn N) fun e _ => Shapely (e.partsAs .column) := by
  refine .seq h.expression fun expr hexpr => .bind asName? fun asName => ?_
  split
  · exact .ret fun _ _ => by simp [hexpr]
  · exact .ret fun _ _ => Expr.shapely_column hexpr

theorem distinctRows : Yields P Grammar.distinctRows fun _ _ => True :=
  .bindIf .consumeKeyword .stay (.bind .skipKeyword fun _ => .stay)

theorem tablesAndJoins (h : N.Shaped) : Yields P (Grammar.tablesAndJoins N) fun sources _ =>
    (∀ t ∈ sources.1, Shapely t.parts) ∧ ∀ j ∈ sources.2, Shapely j.parts := by
  refine .seq (.list (tableRef h)) fun tables htables => ?_
  have hjoin : Yields (fun _ => True)
      (do if ← Grammar.atJoin then some <$> Grammar.join N else return none)
      fun join _ => ∀ j ∈ join, Shapely j.parts :=
    .bindIf atJoin (join h).mapSome .retNone
  exact .seq (.many hjoin) fun joins hjoins => .ret fun _ _ => ⟨htables.2, hjoins⟩

theorem limitAndOffset (h : N.Shaped) : Yields P (Grammar.limitAndOffset N) fun limits _ =>
    Shapely limits.1.parts ∧ ∀ e ∈ limits.2, Shapely e.parts := by
  refine .seq h.expression fun first hfirst => .bindIf .consume ?_ (.ret fun _ _ => by simp [hfirst])
  exact .seq h.expression fun second hsecond => .ret fun _ _ => by simp [hfirst, hsecond]

theorem offsetRows (h : N.Shaped) :
    Yields P (Grammar.offsetRows N) fun e _ => Shapely e.parts := by
  refine .seq h.expression fun count hcount => .bindUnless .consumeKeyword .skipKeyword ?_
  exact .ret fun _ _ => hcount

theorem fetchRows? (h : N.Shaped) :
    Yields P (Grammar.fetchRows? N) fun item _ => ∀ e ∈ item, Shapely e.parts := by
  refine .bind .checkKeywords fun first => .bind .checkKeywords fun next =>
    .ite (fun hrows => ?_) fun _ => .retNone
  refine .bind (.passTo fun p hp _ => ?_) fun _ => .bind .advance fun _ => ?_
  · rcases Bool.or_eq_true_iff.1 hrows with hfirst | hnext
    · simp [hp.1.2 hfirst, TokenKind.isProper]
    · simp [hp.2 hnext, TokenKind.isProper]
  refine .seq h.expression fun count hcount => .bindUnless .consumeKeyword .expectKeyword ?_
  exact .bind .expectKeyword fun _ => .ret fun _ _ => by simpa using hcount

theorem behindBy {α : Type} {word : Keyword} {items : Production (List α)} {G : α → Prop}
    (h : Yields (fun _ => True) items fun items _ => items ≠ [] ∧ ∀ a ∈ items, G a) :
    Yields P (Grammar.behindBy word items) fun items _ => ∀ a ∈ items.getD [], G a :=
  behindOr (.bind .expectKeyword fun _ => h)

/-- A selection is read into a node of nothing. -/
theorem selectInto (h : N.Shaped) :
    Yields P (Grammar.selectInto N .fresh) fun s _ => Shapely s.parts := by
  refine .bind .expectKeyword fun _ => .bind distinctRows fun distinct => ?_
  refine .seq (top? h) fun top htop => .seq (.list (selectColumn h)) fun columns hcolumns => ?_
  refine .bind (.behind (Yields.list .qualifiedName).quiet) fun into => ?_
  refine .seq (.behind (tablesAndJoins h)) fun sources hsources => ?_
  refine .seq (.behind h.expression) fun condition hcondition => ?_
  refine .seq (behindBy (expressions h)) fun groupBy hgroupBy => ?_
  refine .seq (.behind h.expression) fun having hhaving => ?_
  refine .seq (behindBy (sortItems h)) fun orderBy horderBy => ?_
  refine .seq (.behind (limitAndOffset h)) fun limits hlimits => ?_
  refine .seq (.behind (offsetRows h)) fun offset hoffset => ?_
  refine .seq (fetchRows? h) fun fetch hfetch => .ret fun _ _ => ?_
  have htables : ∀ t ∈ (sources.map Prod.fst).getD [], Shapely t.parts := by
    cases sources with
    | none => simp
    | some sources => exact (hsources sources rfl).1
  have hjoins : ∀ j ∈ (sources.map Prod.snd).getD [], Shapely j.parts := by
    cases sources with
    | none => simp
    | some sources => exact (hsources sources rfl).2
  have hlimit : ∀ e ∈ limits.map Prod.fst, Shapely e.parts := by
    cases limits with
    | none => simp
    | some limits => simpa using (hlimits limits rfl).1
  have hskipped : ∀ e ∈ offset.or (limits.bind Prod.snd), Shapely e.parts := by
    cases offset with
    | some e => simpa using hoffset e rfl
    | none =>
      cases limits with
      | none => simp
      | some limits => exact (hlimits limits rfl).2
  simp only [Select.parts, Select.fresh, shapely_cons, shapely_append, Part.Shaped,
    Top.shapely_partsOption, Expr.shapely_partsAll, Expr.shapely_partsOption,
    TableRef.shapely_partsAll, Join.shapely_partsAll, SortItem.shapely_partsAll,
    Option.orElse_eq_orElse, Option.orElse_eq_or, Option.or_none, List.nil_append, and_assoc]
  exact ⟨hcolumns.1, htop, hcolumns.2, htables, hjoins, hcondition, hgroupBy, hhaving, horderBy,
    hlimit, hskipped, hfetch⟩

theorem selection (h : N.Shaped) :
    Yields P (Grammar.selection N) fun s _ => Shapely s.parts := by
  refine .seq .acquireSelect fun node hnode => .onFailure (hnode ▸ selectInto h) fun pools hpools => ?_
  exact ⟨NodePool.release_isFresh hpools.select _, hpools.binary, hpools.column, hpools.join⟩

theorem setOperator? : Yields P Grammar.setOperator?
    fun op p => op.isSome → p.current.kind.isProper := by
  refine .bind .kind fun k => ?_
  split <;> exact .ret fun p hp => by simp [hp.2, TokenKind.isProper]

theorem selections (h : N.Shaped) : Yields P (Grammar.selections N)
    fun q _ => q.isSelections ∧ Shapely q.parts := by
  refine .seq (selection h) fun first hfirst =>
    .loop (I := fun q => q.isSelections ∧ Shapely q.parts) (fun left hleft => ?_) ?_
  · refine .bind setOperator? fun op? => ?_
    cases op? with
    | none => exact .ret fun _ _ => hleft
    | some op =>
      refine .bind (.pass fun p hp _ => hp rfl) fun _ => .bind .consumeKeyword fun all => ?_
      extract_lets rest
      have hrest (u : Unit) : Yields (fun _ => True) (rest u)
          (Round (fun q : Query => q.isSelections ∧ Shapely q.parts)
            fun q _ => q.isSelections ∧ Shapely q.parts) :=
        .seq (selection h) fun right hright => .ret fun _ _ => by
          simpa [Round, hleft] using hright
      exact .ite (fun _ => hrest ()) fun _ => .bind .skipKeyword hrest
  · simpa using hfirst

/-! ## Named queries -/

theorem commonTable (h : N.Shaped) :
    Yields P (Grammar.commonTable N) fun t _ => Shapely t.query.parts := by
  refine .bind .name fun name => .bind .columnNames? fun columns => .bind .expectKeyword fun _ => ?_
  exact .seq (.inParens h.query) fun q hq => .ret fun _ _ => hq

/-- A statement that is a query is as well shaped as the query. -/
theorem shapely_of_query? {s : Statement} {q : Query} (hs : s.WellFormed) (hq : s.query? = some q) :
    Shapely q.parts := by
  cases s with
  | query =>
    cases hq
    rw [Statement.WellFormed, Statement.parts.eq_def, shapely_cons] at hs
    exact hs.2
  | _ => cases hq

theorem withTables (h : N.Shaped) :
    Yields P (Grammar.withTables N) fun q _ => Shapely q.parts := by
  refine .bind .expectKeyword fun _ => .bind .consumeKeyword fun recursive => ?_
  refine .seq (.list (commonTable h)) fun tables htables => .bind .span fun place => ?_
  refine .seq h.statement fun body hbody => ?_
  split
  · next q hq =>
    have hshapely := shapely_of_query? hbody hq
    exact .ret fun _ _ => by simpa [hshapely] using htables
  · exact .fail

theorem query (h : N.Shaped) : Yields P (Grammar.query N) fun q _ => Shapely q.parts := by
  refine .bindIf .checkKeyword (withTables h) (.bindIf .checkKeyword ?_ .expected)
  exact (selections h).mono fun _ _ => And.right

/-! ## Changes of rows -/

theorem assignments (h : N.Shaped) : Yields P (Grammar.assignments N) fun items _ =>
    items ≠ [] ∧ ∀ a ∈ items, Shapely a.value.parts := by
  refine .list (.bind .qualifiedName fun target => .bindUnless .consume .expect ?_)
  exact .seq h.expression fun e he => .ret fun _ _ => he

theorem insertSource (h : N.Shaped) {table : ObjectName} {columns : List String} :
    Yields P (Grammar.insertSource N)
      fun source _ => (Statement.insert ⟨table, columns, source⟩).WellFormed := by
  refine .bindIf .consumeKeyword (.map (.mono (.list (.inParens (expressions h))) ?_)) ?_
  · intro rows _ hrows
    simpa [Statement.WellFormed, forall_and, imp_and, and_assoc] using hrows
  refine .bindIf .consumeKeyword (.bind .expectKeyword fun _ => .ret fun _ _ => ?_) ?_
  · simp [Statement.WellFormed]
  refine .bind .checkKeyword fun _ => .bind .checkKeyword fun _ =>
    .ite (fun _ => .map (h.query.mono fun q _ hq => ?_)) fun _ => .expected
  simpa [Statement.WellFormed] using hq

theorem insert (h : N.Shaped) :
    Yields P (Grammar.insert N) fun i _ => (Statement.insert i).WellFormed := by
  refine .bind .expectKeyword fun _ => .bind .skipKeyword fun _ => .bind .objectName fun table => ?_
  exact .bind .columnNames? fun columns => .seq (insertSource h) fun source hsource =>
    .ret fun _ _ => hsource

theorem update (h : N.Shaped) :
    Yields P (Grammar.update N) fun u _ => (Statement.update u).WellFormed := by
  refine .bind .expectKeyword fun _ => .seq (tableRef h) fun table htable => ?_
  refine .bind .expectKeyword fun _ => .seq (assignments h) fun assignments hassignments => ?_
  refine .seq (behindOr (.list (tableRef h))) fun tables htables => ?_
  refine .seq (.behind h.expression) fun condition hcondition => .ret fun _ _ => ?_
  simpa [Statement.WellFormed, htable, hassignments.1] using ⟨hassignments.2, htables, hcondition⟩

theorem delete (h : N.Shaped) :
    Yields P (Grammar.delete N) fun d _ => (Statement.delete d).WellFormed := by
  refine .bind .expectKeyword fun _ => .bind .skipKeyword fun _ => .seq (tableRef h) fun table htable => ?_
  refine .seq (.behind h.expression) fun condition hcondition => .ret fun _ _ => ?_
  simpa [Statement.WellFormed, htable] using hcondition

end SqlFrontend.Production.Yields
