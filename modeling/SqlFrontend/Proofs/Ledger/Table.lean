import SqlFrontend.Grammar.Table
import SqlFrontend.Grammar.View
import SqlFrontend.Proofs.Ledger.Query

/-!
# What definitions of tables, indexes and views are charged for

* `Pays.columnChange?`, `total_apply_le`: what the clauses of a column are charged for, and the column
  behind them.
* `Pays.columnDefinition`: a value or a condition of a column takes the place of one that was given
  before. Then the ledger does not count the way, or makes up for it.
* `Pays.createTable`, `Pays.alterTable`, `Pays.createIndex`, `Pays.createView`, `Pays.drop`: the
  definitions. Materialized views are charged for where the dialect does not have them.
-/

namespace SqlFrontend.Ledger

variable {M : Type} [AddCommMonoid M] [PartialOrder M] [IsOrderedAddMonoid M] {L : Ledger M}

/-! ## Clauses of columns -/

/-- What is charged for a clause of a column. -/
def ofChange (L : Ledger M) : ColumnChange → M
  | .initial e | .check e => L.total (.expr e)
  | _ => 0

/-- A clause takes the place of one that was given before. -/
def Replaces (c : ColumnChange) (column : ColumnDefinition) : Prop :=
  ∃ word ∈ c.word?, column.hasClause word

theorem maybe_nonneg (h : ∀ cs, 0 ≤ L.sum cs) (e : Option Expr) : 0 ≤ L.maybe .expr e := by
  simpa using h (e.toList.map .expr)

theorem ite_pardon_le {b b' : Bool} (h : b → b') :
    (if b' then L.pardon else 0) ≤ if b then L.pardon else 0 := by
  cases b with
  | true => rw [if_pos rfl, if_pos (h rfl)]
  | false =>
    rw [if_neg Bool.false_ne_true]
    split
    · exact L.pardon_le
    · exact le_refl 0

/-- Behind a clause a column is worth no more than before, with the clause. Where the clause takes the
place of another one, a tidy ledger does not say so. -/
theorem total_apply_le {c : ColumnChange} {column : ColumnDefinition} (h : Replaces c column → ¬L.tidy) :
    L.total (.columnDefinition (c.apply column)) ≤
      L.total (.columnDefinition column) + ofChange L c := by
  by_cases hreplaces : Replaces c column
  · have hhide : (Component.columnDefinition (c.apply column)).mayHide := by
      cases c <;> simp_all [Replaces, ColumnChange.word?, ColumnChange.apply, ColumnDefinition.hasClause,
        Component.mayHide]
    refine total_le_of_mayHide (h hreplaces) hhide fun hpardon hnonneg => ?_
    have hinitial := maybe_nonneg hnonneg column.initial
    have hcheck := maybe_nonneg hnonneg column.check
    rw [total_columnDefinition, total_columnDefinition, hpardon, ite_self, ite_self, zero_add, zero_add]
    cases c with
    | initial e =>
      refine (le_add_of_nonneg_right hinitial).trans_eq ?_
      simp [ColumnChange.apply, ofChange, add_comm, add_left_comm]
    | check e =>
      refine (le_add_of_nonneg_right hcheck).trans_eq ?_
      simp [ColumnChange.apply, ofChange, add_assoc, add_comm, add_left_comm]
    | _ => simp [Replaces, ColumnChange.word?] at hreplaces
  · rw [total_columnDefinition, total_columnDefinition, add_assoc]
    refine add_le_add (ite_pardon_le ?_) (le_of_eq ?_)
    · cases c <;> simp_all [ColumnChange.apply]
    · cases c <;> simp_all [Replaces, ColumnChange.word?, ColumnChange.apply, ColumnDefinition.hasClause, ofChange,
        add_comm, add_left_comm]

namespace Pays

variable {N : Grammar.Nested}

/-! ## References -/

theorem referentialAction : L.Quiet Grammar.referentialAction := by
  refine .bindIf .consumeKeyword .stay (.bindIf .consumeKeyword .stay ?_)
  refine .bindIf .consumeKeyword ?_ (.bindIf .consumeKeyword ?_ .expected)
  · exact .bindIf .consumeKeyword .stay (.bind .expectKeyword fun _ => .stay)
  · exact .bind .expectKeyword fun _ => .stay

theorem foreignKey : L.Quiet Grammar.foreignKey := by
  refine .bind .expectKeyword fun _ => .bind .objectName fun table => .bind .columnNames? fun columns => ?_
  refine .loopQuiet fun key => .bindIf .checkKeywords ?_ (.bindIf .checkKeywords ?_ .stay)
  · exact .bind .advance fun _ => .bind .advance fun _ => .bind referentialAction fun _ => .stay
  · exact .bind .advance fun _ => .bind .advance fun _ => .bind referentialAction fun _ => .stay

/-! ## Columns -/

theorem skipClustering : L.Quiet Grammar.skipClustering := .bindIf .consumeKeyword .stay .skipKeyword

theorem identity : L.Quiet Grammar.identity := by
  refine .bindIf .check (.inParens (.bind .integer fun seed => ?_)) .stay
  exact .bindIf .consume (.bind integer.mapQuiet fun _ => .stay) (.bind .stay fun _ => .stay)

theorem generated : L.Quiet Grammar.generated := by
  refine .bind .consumeKeyword fun always => ?_
  extract_lets last rest
  have hrest (u : Unit) : L.Quiet (rest u) := by
    refine .bind .expectKeyword fun _ => .bind .expectKeyword fun _ => ?_
    exact .bindIf .check (.bind .skipParens fun _ => .stay) .stay
  exact .ite (fun _ => hrest ()) fun _ => .bind .expectKeyword fun _ => .bind .expectKeyword hrest

theorem columnChange? (h : L.Paying N) :
    L.Pays 0 (Grammar.columnChange? N) fun c => c.elim 0 (ofChange L) := by
  refine .bind .kind fun k => ?_
  split
  · exact .bind .advance fun _ => .bind .name fun _ => .ret (le_refl _)
  · exact .bind .advance fun _ => .bind .expectKeyword fun _ => .ret (le_refl _)
  · exact .bind .advance fun _ => .ret (le_refl _)
  · refine .bind .advance fun _ => .bind .expectKeyword fun _ => ?_
    exact .bind skipClustering fun _ => .ret (le_refl _)
  · exact .bind .advance fun _ => .bind .skipKeyword fun _ => .ret (le_refl _)
  · exact .bind .advance fun _ => .ret (le_refl _)
  · exact .bind .advance fun _ => .ret (le_refl _)
  · exact .bind .advance fun _ => .bind identity fun _ => .ret (le_refl _)
  · exact .bind .advance fun _ => .bind generated fun _ => .ret (le_refl _)
  · exact .bind .advance fun _ => h.expression.seq fun e => .ret (zero_add _).ge
  · exact .bind foreignKey fun _ => .ret (le_refl _)
  · exact .bind .advance fun _ => (inParens h.expression).seq fun e => .ret (zero_add _).ge
  · exact .bind .advance fun _ => .bind .name fun _ => .ret (le_refl _)
  · refine .bindIf .checkPeek (.bind .advance fun _ => .bind .advance fun _ => ?_) .retNone
    exact .ret (le_refl _)
  · exact .retNone

/-- The expressions that a column has were given on the way, in clauses of the same column. -/
def GivenOn (base p : Parser) (column : ColumnDefinition) : Prop :=
  ∀ word, column.hasClause word → ∃ q, base.Reaches q ∧ q.Reaches p ∧ q.current.kind = .keyword word ∧
    Relation.TransGen Grammar.ReadsClause q p

theorem GivenOn.apply {bound : ℕ} {base p q : Parser} {column : ColumnDefinition} {c : ColumnChange}
    (h : GivenOn base p column) (hbase : base.Reaches p) (hreaches : p.Reaches q)
    (hless : q.remaining < p.remaining)
    (hchange : Grammar.columnChange? (.below bound) p = .ok (some c) q) :
    GivenOn base q (c.apply column) := by
  have hclause : Grammar.ReadsClause p q := Parser.readsClause_of_change hreaches hless hchange
  intro word hword
  rcases ColumnChange.hasClause_apply hword with hfirst | hbefore
  · exact ⟨p, hbase, hreaches, Grammar.kind_of_columnChange? hchange word hfirst, .single hclause⟩
  · obtain ⟨r, hbehind, hahead, hkind, hclauses⟩ := h word hbefore
    exact ⟨r, hbehind, hahead.trans hreaches, hkind, hclauses.tail hclause⟩

/-- Where a way counts for a tidy ledger, no clause takes the place of another one. -/
theorem GivenOn.not_replaces {bound : ℕ} {base p q : Parser} {column : ColumnDefinition}
    {c : ColumnChange} (h : GivenOn base p column) (hreaches : p.Reaches q)
    (hchange : Grammar.columnChange? (.below bound) p = .ok (some c) q) (hcounts : L.Counts base q)
    (hreplaces : Replaces c column) : ¬L.tidy := by
  intro htidy
  obtain ⟨word, hword, hcolumn⟩ := hreplaces
  obtain ⟨r, hbehind, hahead, hkind, hclauses⟩ := h word hcolumn
  have hnext := Grammar.kind_of_columnChange? hchange word hword
  have hmeets : base.Meets q r := .here r.routineDepth hbehind (hahead.trans hreaches)
  exact hcounts.once htidy r hmeets (Parser.givesTwice_of_clause hcolumn ⟨hkind, p, hclauses, hnext⟩)

/-- The clauses of a column, from one of them on. What a clause replaces was read on the way from the
first one. -/
theorem clauses (h : L.Paying N) {base p : Parser} {column : ColumnDefinition} {budget : M}
    {other : EStateM.Result ParseError Parser ColumnDefinition} (hleads : L.Leads base p)
    (hgiven : GivenOn base p column)
    (hvalue : L.Counts base p →
      L.total (.columnDefinition column) ≤ budget + L.income base.pools p.pools)
    (hhalting : p.errors.size = base.errors.size →
      other = Production.loop (Grammar.columnRound N) column p.halting) :
    L.Paid budget base (fun c => L.total (.columnDefinition c)) (fun _ => True)
      (Production.loop (Grammar.columnRound N) column p) other := by
  obtain ⟨bound, rfl⟩ := h.below
  -- less text is left from clause to clause; the budget is that of the first place, so that a way counts
  -- with the clause that is replaced on it
  induction hn : p.remaining using Nat.strong_induction_on generalizing p column other with
  | _ n ih =>
    subst hn
    have hrun := columnChange? h p hleads.keeps
    generalize hchange : Grammar.columnChange? (.below bound) p = result at hrun
    generalize hhalted : Grammar.columnChange? (.below bound) p.halting = halted at hrun
    rw [Production.loop.eq_def, Grammar.columnRound_eq, Production.run_map, hchange]
    cases hrun with
    | error hleads' honest hstopped => exact .error (hleads.trans hleads') honest hstopped
    | @ok item q _ hleads' hvalue' _ hhalting' =>
      have hbehind := hleads.trans hleads'
      -- where no error was passed, a parser that stops at errors has come as far
      have hround (hall : q.errors.size = base.errors.size) :
          other = Production.loop (Grammar.columnRound (.below bound)) column p.halting ∧
            Grammar.columnRound (.below bound) column p.halting =
              .ok (item.elim (.done column) fun c => .more (c.apply column)) q.halting := by
        have hle := hleads.errors
        have hle' := hleads'.errors
        refine ⟨hhalting (by omega), ?_⟩
        rw [Grammar.columnRound_eq, Production.run_map, hhalted, hhalting' (by omega)]
      have hpaid (hcounts : L.Counts base q) : L.total (.columnDefinition column) +
          item.elim 0 (ofChange L) ≤ budget + L.income base.pools q.pools := by
        obtain ⟨hfirst, hsecond⟩ := hcounts.parts hleads hleads'
        have hitem := hvalue' hsecond
        rw [zero_add] at hitem
        rw [← L.income_add base.pools p.pools q.pools, ← add_assoc]
        exact add_le_add (hvalue hfirst) hitem
      cases item with
      | none =>
        refine .ok hbehind (fun hcounts => by simpa using hpaid hcounts) trivial fun hall => ?_
        rw [(hround hall).1, Production.loop.eq_def, (hround hall).2]
        rfl
      | some c =>
        dsimp only [Option.elim_some]
        by_cases hless : q.remaining < p.remaining
        · rw [if_pos hless]
          refine ih _ hless hbehind (hgiven.apply hleads.reaches hleads'.reaches hless hchange)
            (fun hcounts => ?_) (fun hall => ?_) rfl
          · have htidy := hgiven.not_replaces hleads'.reaches hchange hcounts
            exact (total_apply_le htidy).trans (hpaid hcounts)
          · rw [(hround hall).1, Production.loop.eq_def, (hround hall).2]
            exact if_pos hless
        · rw [if_neg hless]
          have honest := hbehind.keeps.honest_expectedError "more input"
          exact .error hbehind honest.1 honest.2

/-- A column without clauses has no expressions. -/
theorem columnHead : L.Pays 0 Grammar.columnHead (fun c => L.total (.columnDefinition c))
    fun c => ∀ p, GivenOn p p c := by
  refine .bind .name fun name => dataType.seq fun type => .give (total_le rfl rfl ?_) fun p word hword => ?_
  · simp [Component.fields]
  · cases word <;> cases hword

theorem columnDefinition (h : L.Paying N) :
    L.Pays 0 (Grammar.columnDefinition N) fun c => L.total (.columnDefinition c) := by
  rw [Grammar.columnDefinition_eq]
  refine columnHead.chain fun column hplain p hp => ?_
  exact clauses h (.refl hp) (hplain p) (fun _ => by rw [L.income_self, add_zero]) fun _ => rfl

/-! ## Constraints -/

theorem atTableConstraint : L.Quiet Grammar.atTableConstraint := by
  refine .bind .kind fun k => ?_
  split <;> exact .stay

theorem skipIndexName : L.Quiet Grammar.skipIndexName := .bindIf .atName .advance .stay

theorem constraintKind (h : L.Paying N) :
    L.Pays 0 (Grammar.constraintKind N) fun k => L.total (.constraintKind k) := by
  refine .bind .kind fun k => ?_
  have hnames {c : List String → ConstraintKind}
      (hc : ∀ names, (Component.constraintKind (c names)).fields = []) :
      L.Pays 0 (c <$> Grammar.columnNames) fun k => L.total (.constraintKind k) :=
    columnNames.map fun names => total_le rfl rfl (by rw [hc]; simp)
  split
  · refine .bind .advance fun _ => .bind .expectKeyword fun _ => ?_
    exact .bind skipClustering fun _ => hnames fun _ => rfl
  · refine .bind .advance fun _ => .bind .skipKeyword fun _ => .bind skipClustering fun _ => ?_
    exact .bind skipIndexName fun _ => hnames fun _ => rfl
  · refine .bind .advance fun _ => .bind .expectKeyword fun _ => .bind .columnNames fun columns => ?_
    exact .bind foreignKey fun _ => .ret (total_le rfl rfl (le_refl 0))
  · refine .bind .advance fun _ => (inParens h.expression).map fun e => total_le rfl rfl ?_
    simp [Component.fields]
  · exact .bind .advance fun _ => .bind skipIndexName fun _ => hnames fun _ => rfl
  · exact .expected

theorem tableConstraint (h : L.Paying N) :
    L.Pays 0 (Grammar.tableConstraint N) fun c => L.total (.constraint c) :=
  .bind (.behindQuiet .name) fun _ => (constraintKind h).seq fun _ =>
    .ret (total_le rfl rfl (by simp [Component.fields]))

/-! ## Tables -/

theorem tableOptionValue : L.Quiet Grammar.tableOptionValue := by
  refine .bindIf .consume .optionValue (.bind .atTerminator fun _ => .bind .check fun _ => ?_)
  exact .ite (fun _ => .stay) fun _ => .optionValue

theorem tableOptions : L.Quiet Grammar.tableOptions := by
  refine .loopQuiet fun options => .bindIf .atTerminator .stay ?_
  refine .bindIf .consumeKeyword (.bind .optionValue fun _ => .stay) ?_
  refine .bind .skipKeyword fun _ => .bindIf .atName (.bind .takeLiteral fun key => ?_) .stay
  exact .bind tableOptionValue fun value => .bind (.discard .consume) fun _ => .stay

/-- What is charged for a column or a constraint. -/
def itemTotal (L : Ledger M) (item : ColumnDefinition ⊕ TableConstraint) : M :=
  item.elim (fun c => L.total (.columnDefinition c)) fun c => L.total (.constraint c)

theorem tableItem (h : L.Paying N) : L.Pays 0 (Grammar.tableItem N) (itemTotal L) :=
  .bindIf atTableConstraint ((tableConstraint h).map fun _ => (zero_add _).ge)
    ((columnDefinition h).map fun _ => (zero_add _).ge)

/-- The columns and the constraints of a table are charged for as its items. -/
theorem sum_itemTotal (items : List (ColumnDefinition ⊕ TableConstraint)) :
    L.each .columnDefinition (items.filterMap Sum.getLeft?) +
      L.each .constraint (items.filterMap Sum.getRight?) = (items.map (itemTotal L)).sum := by
  induction items with
  | nil => simp
  | cons item items ih =>
    rw [List.map_cons, List.sum_cons, ← ih]
    cases item <;> simp [itemTotal, List.filterMap_cons, add_assoc, add_left_comm]

theorem createTable (h : L.Paying N) {temporary : Bool} :
    L.Pays 0 (Grammar.createTable N temporary) fun node => L.total (.createTable node) := by
  refine .bind .expectKeyword fun _ => .bind .ifNotExists fun _ => .bind .objectName fun name => ?_
  refine .bind .checkKeyword fun _ => ?_
  extract_lets rest
  have hrest (u : Unit) : L.Pays 0 (rest u) fun node => L.total (.createTable node) := by
    refine (inParens (list (tableItem h))).seq fun items => .bind tableOptions fun options => .ret ?_
    refine total_le rfl rfl ?_
    rw [zero_add, ← sum_itemTotal]
    simp [Component.fields]
  exact .ite (fun _ => .bind .span fun place => .failThen trivial nofun) fun _ => hrest ()

/-! ## Changes -/

/-- A change that holds nothing that is charged for. -/
theorem total_bareAction {action : AlterAction} (h : (Component.alterAction action).fields = []) :
    L.total (.alterAction action) ≤ 0 := total_le rfl rfl (by rw [h]; simp)

theorem addAction (h : L.Paying N) :
    L.Pays 0 (Grammar.addAction N) fun a => L.total (.alterAction a) := by
  refine .bindIf atTableConstraint ((tableConstraint h).map fun c => ?_) ?_
  · exact total_le rfl rfl (by simp [Component.fields])
  · refine .bind .skipKeyword fun _ => (columnDefinition h).map fun c => ?_
    exact total_le rfl rfl (by simp [Component.fields])

theorem dropAction : L.Pays 0 Grammar.dropAction fun a => L.total (.alterAction a) := by
  refine .bindIf .consumeKeyword (name.map fun _ => ?_) ?_
  · simpa using total_bareAction (L := L) rfl
  · exact .bind .skipKeyword fun _ => .bind .ifExists fun ifExists => .bind .name fun _ =>
      .ret (total_bareAction rfl)

theorem alterColumnAction : L.Pays 0 Grammar.alterColumnAction fun a => L.total (.alterAction a) := by
  refine .bind .skipKeyword fun _ => .bind .name fun column => .bind .consumeKeyword fun _ => ?_
  extract_lets rest
  have hrest (u : Unit) : L.Pays 0 (rest u) fun a => L.total (.alterAction a) := by
    refine .bind .skipKeyword fun _ => dataType.seq fun type => ?_
    have hlast : L.Pays (0 + L.total (.dataType type)) (Pure.pure (.alterColumnType column type))
        fun a => L.total (.alterAction a) := .ret (total_le rfl rfl (by simp [Component.fields]))
    exact .bindIf .consumeKeyword (.bind .expectKeyword fun _ => hlast)
      (.bind .skipKeyword fun _ => hlast)
  exact .ite (fun _ => .bind .expectKeyword hrest) fun _ => hrest ()

theorem renameAction : L.Pays 0 Grammar.renameAction fun a => L.total (.alterAction a) := by
  refine .bindIf .consumeKeyword ?_ (.bindUnless .consumeKeyword .skipKeyword ?_)
  · exact .bind .name fun oldName => .bind .expectKeyword fun _ => .bind .name fun _ =>
      .ret (total_bareAction rfl)
  · exact objectName.map fun _ => by simpa using total_bareAction (L := L) rfl

theorem alterAction (h : L.Paying N) :
    L.Pays 0 (Grammar.alterAction N) fun a => L.total (.alterAction a) := by
  refine .bind .kind fun k => ?_
  split
  · exact .bind .advance fun _ => addAction h
  · exact .bind .advance fun _ => dropAction
  · refine .bind .advance fun _ => .bind .skipKeyword fun _ => (columnDefinition h).map fun c => ?_
    exact total_le rfl rfl (by simp [Component.fields])
  · refine .bind .advance fun _ => .bind .skipKeyword fun _ => .bind .name fun oldName => ?_
    exact (columnDefinition h).seq fun c => .ret (total_le rfl rfl (by simp [Component.fields]))
  · exact .bind .advance fun _ => alterColumnAction
  · exact .bind .advance fun _ => renameAction
  · exact .expected

theorem alterTable (h : L.Paying N) :
    L.Pays 0 (Grammar.alterTable N) fun change => L.total (.alterAction change.2) := by
  refine .bind .expectKeyword fun _ => .bind .expectKeyword fun _ => .bind .objectName fun name => ?_
  exact (alterAction h).seq fun a => .ret (zero_add _).ge

/-! ## Indexes and views -/

theorem createIndex (h : L.Paying N) {unique : Bool} {clustered : Option Bool} :
    L.Pays 0 (Grammar.createIndex N unique clustered) fun node => L.total (.createIndex node) := by
  refine .bind .expectKeyword fun _ => .bind .ifNotExists fun ifNotExists => ?_
  refine .bind .qualifiedName fun indexName => .bind .expectKeyword fun _ => ?_
  refine .bind .objectName fun table => .bind (.behindQuiet .name) fun method => ?_
  refine (inParens (sortItems h)).seq fun columns => ?_
  extract_lets rest
  have hrest (method : Option String) : L.Pays (0 + L.each .sortItem columns) (rest method)
      fun node => L.total (.createIndex node) := by
    refine .bind (.behindQuiet .columnNames) fun included => (behind h.expression).seq fun condition => ?_
    exact .ret (total_le rfl rfl (by simp [Component.fields]))
  exact .ite (fun _ => .retThen (hrest _)) fun _ => .bind (.behindQuiet .name) hrest

theorem viewOption : L.Quiet Grammar.viewOption :=
  .bind .name fun _ => .bindIf .consume (.bind .optionValue fun _ => .stay) (.retThen .stay)

theorem viewOptions : L.Quiet Grammar.viewOptions := by
  refine .bindIf .check (.bind (.inParens (.listQuiet viewOption)) fun _ => .stay) ?_
  exact .bind (.listQuiet (.bind .name fun _ => .stay)) fun _ => .stay

theorem checkScope {options : Options} : L.Quiet (Grammar.checkScope options) :=
  .bindIf .consumeKeyword .stay (.bindIf .consumeKeyword .stay .stay)

theorem viewEnding {options : Options} : L.Quiet (Grammar.viewEnding options) := by
  refine .bind checkScope fun options => ?_
  refine .bindIf .consumeKeyword (.bind .expectKeyword fun _ => .stay) ?_
  refine .bindIf .consumeKeyword (.bind .expectKeyword fun _ => .stay) ?_
  exact .bindIf .consumeKeyword .stay .expected

theorem createView (h : L.Paying N) {orReplace materialized : Bool}
    (hview : materialized = true → L.dialect.supports .materializedView = true) :
    L.Pays 0 (Grammar.createView N orReplace materialized) fun node => L.total (.createView node) := by
  refine .bind .expectKeyword fun _ => .bind .ifNotExists fun ifNotExists => ?_
  refine .bind .objectName fun name => .bind .columnNames? fun columns => ?_
  refine .bind (.behindQuiet viewOptions) fun options => .bind .expectKeyword fun _ => ?_
  refine h.query.seq fun query => .bind (.behindQuiet viewEnding) fun ending => .ret ?_
  refine total_le rfl ?_ (by simp [Component.fields])
  cases materialized with
  | false => rfl
  | true => exact hview rfl

theorem objectKind : L.Quiet Grammar.objectKind
    fun kind => kind = .materializedView → L.dialect.supports .materializedView = true := by
  refine .bind .kind fun k => ?_
  split
  iterate 8
    · exact .bind .advance fun _ => .found nofun
  · refine .bind .span fun place => .know .require fun _ hview => .bind .advance fun _ => ?_
    exact .bind .expectKeyword fun _ => .found fun _ => hview
  · exact .bindIf .consumeWord (.found nofun) .expected

theorem droppedName : L.Quiet Grammar.droppedName :=
  .bind .objectName fun _ => .bindIf .check (.bind .skipParens fun _ => .stay) .stay

theorem drop : L.Pays 0 Grammar.drop fun node => L.total (.drop node) := by
  refine .bind .expectKeyword fun _ => .know objectKind fun kind hkind => ?_
  refine .bind .ifExists fun ifExists => .bind (.listQuiet droppedName) fun names => ?_
  extract_lets rest
  have hrest (onTable : Option ObjectName) :
      L.Pays 0 (rest onTable) fun node => L.total (.drop node) := by
    refine .bind .consumeKeyword fun cascade => ?_
    extract_lets last
    have hlast (restrict : Bool) : L.Pays 0 (last restrict) fun node => L.total (.drop node) := by
      refine .ret (total_le rfl ?_ (le_refl 0))
      cases kind with
      | materializedView => exact hkind rfl
      | _ => rfl
    exact .ite (fun _ => .retThen (hlast _)) fun _ => .bind .consumeKeyword hlast
  exact .ite (fun _ => .bind (.behindQuiet .objectName) hrest) fun _ => .retThen (hrest _)

end Pays

end SqlFrontend.Ledger
