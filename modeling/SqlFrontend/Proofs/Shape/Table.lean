import SqlFrontend.Grammar.Table
import SqlFrontend.Grammar.View
import SqlFrontend.Proofs.Shape.Query

/-!
# The shape of definitions of tables, indexes and views

* `Yields.createTable`, `Yields.alterTable`, `Yields.createIndex`, `Yields.createView`, `Yields.drop`:
  an index has columns, a removal has names, and the expressions and queries in definitions are well
  shaped.
* `YieldsBehind.generated`, `YieldsBehind.droppedNames`: texts in parentheses are skipped behind the words
  for a generated column, and behind the names of objects to remove.
-/

open Computability

namespace SqlFrontend.Production.YieldsBehind

variable {P : Parser → Prop} {X : Language Token}

theorem generated : YieldsBehind (⊤ * Phrase.word .GENERATED) P Grammar.generated (fun _ => ⊤)
    fun _ _ => True := by
  refine .bind .consumeKeyword fun always => ?_
  extract_lets last rest
  have hrest (u : Unit) : YieldsBehind (⊤ * Phrase.word .GENERATED *
      (Phrase.word .ALWAYS + Phrase.word .BY * Phrase.word .DEFAULT)) (fun _ => True) (rest u)
      (fun _ => ⊤) fun _ _ => True := by
    refine .bind .expectKeyword fun _ => .bind .expectKeyword fun _ => ?_
    refine .bindIf (.looks .check fun _ => ⟨_, rfl⟩) (.bind (.skipParens ?_) fun _ => .ofYields .stay)
      (.ofYields .stay)
    have hhead : Phrase.generated ≤ Phrase.skipHead :=
      le_add_self.trans (le_self_add.trans le_self_add)
    simpa only [Phrase.generated, mul_assoc] using mul_le_mul_right hhead ⊤
  cases always with
  | true =>
    refine .ite (fun _ => (hrest ()).behind ?_) fun hno => absurd rfl hno
    exact mul_le_mul_right le_self_add _
  | false =>
    refine .ite nofun fun _ => .bind .expectKeyword fun _ => .bind .expectKeyword fun _ =>
      (hrest ()).behind ?_
    rw [cond_false, mul_assoc]
    exact mul_le_mul_right le_add_self _

theorem objectKind :
    YieldsBehind X P Grammar.objectKind (fun _ => X * Phrase.objectKind) fun _ _ => True := by
  refine .bind (.looks .kind fun _ => ⟨_, rfl⟩) fun k => ?_
  have hword {w : Keyword} (kind : ObjectKind) (hmem : TokenKind.keyword w ∈ [.keyword .TABLE,
      .keyword .DATABASE, .keyword .INDEX, .keyword .VIEW, .keyword .TRIGGER, .keyword .PROCEDURE,
      .keyword .FUNCTION, .keyword .SCHEMA]) :
      YieldsBehind X (fun p => P p ∧ p.current.kind = .keyword w)
        (do Production.advance; return kind) (fun _ => X * Phrase.objectKind) fun _ _ => True := by
    have hone : Phrase.word w ≤ Phrase.objectKind := by
      rintro ts ⟨t, ht, rfl⟩
      exact .inl (.inl ⟨t, by rwa [← ht] at hmem, rfl⟩)
    refine .bind (.advance (k := .keyword w) fun p hp => hp.2) fun _ => .ret ?_ fun _ => id
    exact mul_le_mul_right hone X
  split
  iterate 8
    · exact hword _ (by decide)
  · refine .bind (.looks .span fun _ => ⟨_, rfl⟩) fun place => .bind .require fun _ => ?_
    refine .bind (.advance (k := .keyword .MATERIALIZED) fun _ hp => hp.2) fun _ => ?_
    refine .bind .expectKeyword fun _ => .ret ?_ fun _ _ => trivial
    rw [mul_assoc]
    exact mul_le_mul_right le_add_self X
  · refine .bindIf .consumeWord (.ret ?_ fun _ _ => trivial) .expected
    exact mul_le_mul_right (le_add_self.trans le_self_add) X

/-- A text in parentheses may be skipped behind the name of an object to remove. -/
theorem droppedName
    (h : X * Phrase.qualifiedName ≤ ⊤ * (Phrase.firstDropped * Phrase.nextDropped∗)) :
    YieldsBehind X P Grammar.droppedName
      (fun _ => ⊤ * (Phrase.firstDropped * Phrase.nextDropped∗) * (1 + Phrase.group))
      fun _ _ => True := by
  have hhead : Phrase.firstDropped * Phrase.nextDropped∗ ≤ Phrase.skipHead := le_add_self
  have hskip : YieldsBehind (⊤ * (Phrase.firstDropped * Phrase.nextDropped∗)) (fun _ => True)
      Production.skipParens (fun _ => ⊤ * (Phrase.firstDropped * Phrase.nextDropped∗) * Phrase.group)
      fun _ _ => True := .skipParens (mul_le_mul_right hhead ⊤)
  refine .bind (objectName.leading fun _ => h) fun name => .bindIf (.looks .check fun _ => ⟨_, rfl⟩) ?_ ?_
  · exact .bind hskip.anywhere fun _ => .ret Phrase.mul_le_mul_optional fun _ => id
  · exact .ret Phrase.le_mul_optional fun _ _ => trivial

theorem droppedNames : YieldsBehind
    (⊤ * (Phrase.word .DROP * Phrase.objectKind * (1 + Phrase.word .IF * Phrase.word .EXISTS))) P
    (Production.list Grammar.droppedName) (fun _ => ⊤) fun names _ => names ≠ [] := by
  have hfirst : ⊤ * (Phrase.word .DROP * Phrase.objectKind *
      (1 + Phrase.word .IF * Phrase.word .EXISTS)) * Phrase.qualifiedName ≤
      ⊤ * (Phrase.firstDropped * Phrase.nextDropped∗) := by
    rw [mul_assoc]
    exact mul_le_mul_right Phrase.le_mul_many ⊤
  have hnext :
      ⊤ * (Phrase.firstDropped * Phrase.nextDropped∗) * (1 + Phrase.group) * Phrase.mark .comma *
        Phrase.qualifiedName ≤ ⊤ * (Phrase.firstDropped * Phrase.nextDropped∗) :=
    calc ⊤ * (Phrase.firstDropped * Phrase.nextDropped∗) * (1 + Phrase.group) * Phrase.mark .comma *
          Phrase.qualifiedName
      _ = ⊤ * (Phrase.firstDropped * Phrase.nextDropped∗ * Phrase.nextDropped) := by
        simp only [Phrase.nextDropped, mul_assoc]
      _ ≤ ⊤ * (Phrase.firstDropped * Phrase.nextDropped∗) :=
        mul_le_mul_right Phrase.mul_many_le ⊤
  have hnames := YieldsBehind.list (P := P) (G := fun _ => True) (droppedName hfirst) (droppedName hnext)
  exact hnames.mono le_rfl (fun _ => le_top) fun _ _ => And.left

end SqlFrontend.Production.YieldsBehind

namespace SqlFrontend.Production.Yields

variable {P : Parser → Prop} {N : Grammar.Nested}

/-! ## References -/

theorem referentialAction : Yields P Grammar.referentialAction fun _ _ => True := by
  refine .bindIf .consumeKeyword .stay (.bindIf .consumeKeyword .stay ?_)
  refine .bindIf .consumeKeyword ?_ (.bindIf .consumeKeyword ?_ .expected)
  · exact .bindIf .consumeKeyword .stay (.bind .expectKeyword fun _ => .stay)
  · exact .bind .expectKeyword fun _ => .stay

theorem foreignKey : Yields P Grammar.foreignKey fun _ _ => True := by
  refine .bind .expectKeyword fun _ => .bind .objectName fun table => .bind .columnNames? fun columns => ?_
  refine .loop (I := fun _ => True) (fun key _ => ?_) trivial
  refine .bindIf .checkKeywords ?_ (.bindIf .checkKeywords ?_ .stay)
  · exact .bind .advanceTo fun _ => .bind .advance fun _ => .bind referentialAction fun _ => .stay
  · exact .bind .advanceTo fun _ => .bind .advance fun _ => .bind referentialAction fun _ => .stay

/-! ## Columns -/

theorem skipClustering : Yields P Grammar.skipClustering fun _ _ => True :=
  .bindIf .consumeKeyword .stay .skipKeyword

theorem identity : Yields P Grammar.identity fun _ _ => True := by
  refine .bindIf .check (.inParens (.bind .integer fun seed => ?_)) .stay
  exact .bindIfThen (G := fun _ => True) .consume (mapQuiet .integer) .stay fun increment _ => .stay

/-- A property leaves the expressions of a column alone, or sets them to well shaped ones. -/
theorem columnProperty? (h : N.Shaped) {column : ColumnDefinition} (hcolumn : Shapely column.parts) :
    Yields P (Grammar.columnProperty? N column) fun item _ => ∀ c ∈ item, Shapely c.parts := by
  refine .bind .kind fun k => ?_
  have hkept {c : ColumnDefinition} (hinitial : c.initial = column.initial)
      (hcheck : c.check = column.check) : ∀ c' ∈ some c, Shapely c'.parts := by
    simpa [hinitial, hcheck] using hcolumn
  simp only [ColumnDefinition.parts, shapely_append] at hcolumn
  split
  · exact .bind .advance fun _ => .bind .name fun _ => .ret fun _ _ => hkept rfl rfl
  · exact .bind .advance fun _ => .bind .expectKeyword fun _ => .ret fun _ _ => hkept rfl rfl
  · exact .bind .advance fun _ => .ret fun _ _ => hkept rfl rfl
  · refine .bind .advance fun _ => .bind .expectKeyword fun _ => ?_
    exact .bind skipClustering fun _ => .ret fun _ _ => hkept rfl rfl
  · exact .bind .advance fun _ => .bind .skipKeyword fun _ => .ret fun _ _ => hkept rfl rfl
  · exact .bind .advance fun _ => .ret fun _ _ => hkept rfl rfl
  · exact .bind .advance fun _ => .ret fun _ _ => hkept rfl rfl
  · exact .bind .advance fun _ => .bind identity fun _ => .ret fun _ _ => hkept rfl rfl
  · refine .ofBehind (.bind (.advance fun p hp => hp.2) fun _ => .bind .generated fun _ => ?_)
    exact .ofYields (.ret fun _ _ => hkept rfl rfl)
  · refine .bind .advance fun _ => .seq h.expression fun e he => .ret fun _ _ => ?_
    simpa [he] using hcolumn.2
  · exact .bind foreignKey fun _ => .ret fun _ _ => hkept rfl rfl
  · refine .bind .advance fun _ => .seq (.inParens h.expression) fun e he => .ret fun _ _ => ?_
    simpa [he] using hcolumn.1
  · exact .bind .advance fun _ => .bind .name fun _ => .ret fun _ _ => hkept rfl rfl
  · refine .bindIf .checkPeek (.bind (.passTo fun p hp _ => ?_) fun _ => .bind .advance fun _ => ?_)
      .retNone
    · simp [hp.1.2, hp.2, TokenKind.isProper]
    · exact .ret fun _ _ => hkept rfl rfl
  · exact .retNone

theorem columnDefinition (h : N.Shaped) :
    Yields P (Grammar.columnDefinition N) fun c _ => Shapely c.parts := by
  refine .bind .name fun name => .bind .dataType fun type =>
    .loop (I := fun c => Shapely c.parts) (fun column hcolumn => ?_) ?_
  · refine .seq (columnProperty? h hcolumn) fun column? hnext => ?_
    cases column? with
    | none => exact .ret fun _ _ => hcolumn
    | some next => exact .ret fun _ _ => hnext next rfl
  · simp [Expr.partsOption]

/-! ## Constraints -/

theorem atTableConstraint : Yields P Grammar.atTableConstraint fun _ _ => True := by
  refine .bind .kind fun k => ?_
  split <;> exact .stay

theorem skipIndexName : Yields P Grammar.skipIndexName fun _ _ => True :=
  .bindIf .atName (.pass fun _ hp _ => hp.2 rfl) .stay

theorem constraintKind (h : N.Shaped) {name : Option String} :
    Yields P (Grammar.constraintKind N) fun k _ => Shapely (TableConstraint.mk name k).parts := by
  refine .bind .kind fun k => ?_
  have hnames {c : List String → ConstraintKind}
      (hc : ∀ names, Shapely (TableConstraint.mk name (c names)).parts) :
      Yields (fun _ => True) (c <$> Grammar.columnNames)
        fun k _ => Shapely (TableConstraint.mk name k).parts :=
    .map (columnNames.mono fun names _ _ => hc names)
  split
  · refine .bind .advance fun _ => .bind .expectKeyword fun _ => ?_
    exact .bind skipClustering fun _ => hnames fun _ => by simp
  · refine .bind .advance fun _ => .bind .skipKeyword fun _ => .bind skipClustering fun _ => ?_
    exact .bind skipIndexName fun _ => hnames fun _ => by simp
  · refine .bind .advance fun _ => .bind .expectKeyword fun _ => .bind .columnNames fun columns => ?_
    exact .bind foreignKey fun _ => .ret fun _ _ => by simp
  · refine .bind .advance fun _ => .map ((Yields.inParens h.expression).mono fun e _ he => ?_)
    simpa using he
  · exact .bind .advance fun _ => .bind skipIndexName fun _ => hnames fun _ => by simp
  · exact .expected

theorem tableConstraint (h : N.Shaped) :
    Yields P (Grammar.tableConstraint N) fun c _ => Shapely c.parts :=
  .bind (.behind .name) fun _ => .seq (constraintKind h) fun _ hk => .ret fun _ _ => hk

/-! ## Tables -/

theorem tableOptionValue : Yields P Grammar.tableOptionValue fun _ _ => True := by
  refine .bindIf .consume .optionValue (.bind .atTerminator fun _ => .bind .check fun _ => ?_)
  exact .ite (fun _ => .stay) fun _ => .optionValue

theorem tableOptions : Yields P Grammar.tableOptions fun _ _ => True := by
  refine .loop (I := fun _ => True) (fun options _ => .bindIf .atTerminator .stay ?_) trivial
  refine .bindIf .consumeKeyword (.bind .optionValue fun _ => .stay) ?_
  refine .bind .skipKeyword fun _ => .bindIf .atName (.bind .takeLiteral fun key => ?_) .stay
  exact .bind tableOptionValue fun value => .bind (.discard .consume) fun _ => .stay

theorem tableItem (h : N.Shaped) : Yields P (Grammar.tableItem N)
    fun item _ => item.elim (fun c => Shapely c.parts) fun c => Shapely c.parts :=
  .bindIf atTableConstraint (.map (tableConstraint h)) (.map (columnDefinition h))

theorem createTable (h : N.Shaped) {temporary : Bool} :
    Yields P (Grammar.createTable N temporary)
      fun node _ => (Statement.createTable node).WellFormed := by
  refine .bind .expectKeyword fun _ => .bind .ifNotExists fun _ => .bind .objectName fun name => ?_
  refine .bind .checkKeyword fun _ => ?_
  extract_lets rest
  have hrest (u : Unit) : Yields (fun _ => True) (rest u)
      fun node _ => (Statement.createTable node).WellFormed := by
    refine .seq (.inParens (.list (tableItem h))) fun items hitems =>
      .bind tableOptions fun options => .ret fun _ _ => ?_
    have hcolumns : ∀ c ∈ items.filterMap Sum.getLeft?, Shapely c.parts := by
      intro c hc
      obtain ⟨item, hitem, heq⟩ := List.mem_filterMap.1 hc
      rw [Sum.getLeft?_eq_some_iff] at heq
      subst heq
      exact hitems.2 _ hitem
    have hconstraints : ∀ c ∈ items.filterMap Sum.getRight?, Shapely c.parts := by
      intro c hc
      obtain ⟨item, hitem, heq⟩ := List.mem_filterMap.1 hc
      rw [Sum.getRight?_eq_some_iff] at heq
      subst heq
      exact hitems.2 _ hitem
    simp only [Statement.WellFormed, Statement.parts, shapely_cons, shapely_append, shapely_flatMap]
    exact ⟨trivial, hcolumns, hconstraints⟩
  exact .ite (fun _ => .bind .span fun place => .failThen) fun _ => .anywhere (hrest ())

/-! ## Changes -/

theorem addAction (h : N.Shaped) : Yields P (Grammar.addAction N) fun a _ => Shapely a.parts := by
  refine .bindIf atTableConstraint (.map (tableConstraint h)) ?_
  exact .bind .skipKeyword fun _ => .map (columnDefinition h)

theorem dropAction : Yields P Grammar.dropAction fun a _ => Shapely a.parts := by
  refine .bindIf .consumeKeyword (.map (.mono .name fun _ _ _ => shapely_nil)) ?_
  exact .bind .skipKeyword fun _ => .bind .ifExists fun ifExists => .bind .name fun _ =>
    .ret fun _ _ => shapely_nil

theorem alterColumnAction : Yields P Grammar.alterColumnAction fun a _ => Shapely a.parts := by
  refine .bind .skipKeyword fun _ => .bind .name fun column => .bind .consumeKeyword fun _ => ?_
  extract_lets rest
  have hrest (u : Unit) : Yields (fun _ => True) (rest u) fun a _ => Shapely a.parts := by
    refine .bind .skipKeyword fun _ => .bind .dataType fun type => ?_
    exact .bindIfThen (G := fun _ => True) .consumeKeyword .expectKeyword .skipKeyword fun _ _ =>
      .ret fun _ _ => shapely_nil
  exact .ite (fun _ => .bind .expectKeyword hrest) fun _ => hrest ()

theorem renameAction : Yields P Grammar.renameAction fun a _ => Shapely a.parts := by
  refine .bindIf .consumeKeyword ?_ ?_
  · refine .bind .name fun oldName => .bind .expectKeyword fun _ => .bind .name fun _ =>
      .ret fun _ _ => shapely_nil
  · exact .bindUnless .consumeKeyword .skipKeyword
      (.map (objectName.mono fun _ _ _ => shapely_nil))

theorem alterAction (h : N.Shaped) :
    Yields P (Grammar.alterAction N) fun a _ => Shapely a.parts := by
  refine .bind .kind fun k => ?_
  split
  · exact .bind .advance fun _ => addAction h
  · exact .bind .advance fun _ => dropAction
  · exact .bind .advance fun _ => .bind .skipKeyword fun _ => .map (columnDefinition h)
  · refine .bind .advance fun _ => .bind .skipKeyword fun _ => .bind .name fun oldName => ?_
    exact .seq (columnDefinition h) fun c hc => .ret fun _ _ => hc
  · exact .bind .advance fun _ => alterColumnAction
  · exact .bind .advance fun _ => renameAction
  · exact .expected

theorem alterTable (h : N.Shaped) :
    Yields P (Grammar.alterTable N) fun change _ =>
      (Statement.alterTable change.1 change.2).WellFormed := by
  refine .bind .expectKeyword fun _ => .bind .expectKeyword fun _ => .bind .objectName fun name => ?_
  exact .seq (alterAction h) fun a ha => .ret fun _ _ => by simpa [Statement.WellFormed] using ha

/-! ## Indexes and views -/

theorem createIndex (h : N.Shaped) {unique : Bool} {clustered : Option Bool} :
    Yields P (Grammar.createIndex N unique clustered)
      fun node _ => (Statement.createIndex node).WellFormed := by
  refine .bind .expectKeyword fun _ => .bind .ifNotExists fun ifNotExists => ?_
  refine .bind .qualifiedName fun indexName => .bind .expectKeyword fun _ => ?_
  refine .bind .objectName fun table => .bind (.behind .name) fun method => ?_
  refine .seq (.inParens (sortItems h)) fun columns hcolumns => ?_
  extract_lets rest
  have hrest (method : Option String) : Yields (fun _ => True) (rest method)
      fun node _ => (Statement.createIndex node).WellFormed := by
    refine .bind (.behind .columnNames) fun included => ?_
    refine .seq (.behind h.expression) fun condition hcondition => .ret fun _ _ => ?_
    simpa [Statement.WellFormed, hcolumns.1] using ⟨hcolumns.2, hcondition⟩
  exact .ite (fun _ => .retThen (hrest _)) fun _ => .bind (.quiet (.behind .name)) hrest

theorem viewOption : Yields P Grammar.viewOption fun _ _ => True :=
  .bind .name fun _ =>
    .bindIfThen (G := fun _ => True) .consume .optionValue .stay fun _ _ => .stay

theorem viewOptions : Yields P Grammar.viewOptions fun _ _ => True := by
  refine .bindIfThen (G := fun _ => True) .check (.inParens (.quiet (.list viewOption))) ?_
    fun entries _ => .stay
  exact .quiet (.list (G := fun _ => True) (.bind .name fun _ => .stay))

theorem checkScope {options : Options} : Yields P (Grammar.checkScope options) fun _ _ => True :=
  .bindIf .consumeKeyword .stay (.bindIf .consumeKeyword .stay .stay)

theorem viewEnding {options : Options} : Yields P (Grammar.viewEnding options) fun _ _ => True := by
  refine .bind checkScope fun options => ?_
  refine .bindIf .consumeKeyword (.bind .expectKeyword fun _ => .stay) ?_
  refine .bindIf .consumeKeyword (.bind .expectKeyword fun _ => .stay) ?_
  exact .bindIf .consumeKeyword .stay .expected

theorem createView (h : N.Shaped) {orReplace materialized : Bool} :
    Yields P (Grammar.createView N orReplace materialized)
      fun node _ => (Statement.createView node).WellFormed := by
  refine .bind .expectKeyword fun _ => .bind .ifNotExists fun ifNotExists => ?_
  refine .bind .objectName fun name => .bind .columnNames? fun columns => ?_
  refine .bind (.behind viewOptions) fun options => .bind .expectKeyword fun _ => ?_
  refine .seq h.query fun query hquery => .bind (.behind viewEnding) fun ending => .ret fun _ _ => ?_
  simpa [Statement.WellFormed] using hquery

theorem drop : Yields P Grammar.drop fun node _ => (Statement.drop node).WellFormed := by
  refine .ofBehind (.bind .expectKeyword fun _ => .bind .objectKind fun kind => ?_)
  refine .bind .ifExists fun ifExists => .seq (.behind .droppedNames (by simp only [mul_assoc, le_rfl]))
    fun names hnames => .ofYields ?_
  extract_lets rest
  have hrest (onTable : Option ObjectName) : Yields (fun _ => True) (rest onTable)
      fun node _ => (Statement.drop node).WellFormed := by
    refine .bind .consumeKeyword fun cascade => ?_
    extract_lets last
    have hlast (restrict : Bool) : Yields (fun _ => True) (last restrict)
        fun node _ => (Statement.drop node).WellFormed :=
      .ret fun _ _ => by simp [Statement.WellFormed, hnames]
    exact .ite (fun _ => .retThen (hlast _)) fun _ => .bind .consumeKeyword hlast
  exact .ite (fun _ => .bind (.quiet (.behind .objectName)) hrest) fun _ => .retThen (hrest _)

end SqlFrontend.Production.Yields
