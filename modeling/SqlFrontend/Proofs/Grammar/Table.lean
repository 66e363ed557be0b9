import SqlFrontend.Grammar.Table
import SqlFrontend.Grammar.View
import SqlFrontend.Proofs.Grammar.Query

/-!
# Definitions of tables, indexes and views in lockstep

* `Lockstep.createTable`, `Lockstep.alterTable`, `Lockstep.createIndex`, `Lockstep.createView`,
  `Lockstep.drop`.
-/

namespace SqlFrontend.Likeness.Lockstep

variable {L : Likeness} {b : Parser × Parser} {l : Level} {N N' : Grammar.Nested}

/-! ## References -/

theorem referentialAction :
    L.Lockstep b l Grammar.referentialAction Grammar.referentialAction fun _ => .moved := by
  refine .strict (.bindIf .consumeKeyword .ret (.bindIf .consumeKeyword .ret ?_))
  refine .bindIf .consumeKeyword ?_ (.bindIf .consumeKeyword ?_ (.expected (by decide)))
  · exact .bindIf .consumeKeyword .ret (.bind .expectKeyword fun _ => .stay)
  · exact .bind .expectKeyword fun _ => .stay

theorem foreignKey :
    L.Lockstep b l Grammar.foreignKey Grammar.foreignKey fun _ => .moved := by
  refine .bind .expectKeyword fun _ => .bind .objectName fun table => ?_
  refine .bind .columnNames? fun columns => .loop fun key => ?_
  have haction {put : ReferentialAction → ForeignKey} :
      L.Lockstep b .token (α := Production.Step ForeignKey ForeignKey)
      (do
        Production.advance
        Production.advance
        return Production.Step.more (put (← Grammar.referentialAction)))
      (do
        Production.advance
        Production.advance
        return Production.Step.more (put (← Grammar.referentialAction)))
      Production.Step.level :=
    .bind .advance fun _ => .bind .advance fun _ => .bind .referentialAction fun _ => .ret
  exact .bindIf .checkKeywords haction (.bindIf .checkKeywords haction .ret)

/-! ## Columns -/

theorem skipClustering :
    L.Lockstep b .moved Grammar.skipClustering Grammar.skipClustering fun _ => .moved :=
  .bindIf .consumeKeyword .stay .skipKeyword

theorem identity : L.Lockstep b .moved Grammar.identity Grammar.identity fun _ => .moved := by
  refine .bindIf .check (.inParens (.bind .integer fun seed => ?_)) .stay
  exact .bindIfThen .consume (.map _ .integer) .ret fun increment => .stay

theorem generated : L.Lockstep b .moved Grammar.generated Grammar.generated fun _ => .moved := by
  refine .bind .consumeKeyword fun always => ?_
  extract_lets last rest
  have hrest (u : Unit) : L.Lockstep b .moved (rest u) (rest u) fun _ => .moved := by
    refine .bind .expectKeyword fun _ => .bind .expectKeyword fun _ => ?_
    exact .bindIf .check (.bind .skipParens fun _ => .stay) .stay
  refine .ite (fun _ => hrest ()) fun _ => ?_
  exact .bind .expectKeyword fun _ => .bind .expectKeyword hrest

theorem columnProperty? (h : L.Nested b N N') {column : ColumnDefinition} :
    L.Lockstep b .start (Grammar.columnProperty? N column) (Grammar.columnProperty? N' column)
      Level.start.item := by
  refine .bindKinds fun k => ?_
  split
  case h_14 =>
    exact .bindIfPeek (.of (.bind .advance fun _ => .bind .advance fun _ => .ret)) (.of .ret)
  all_goals refine .of ?_
  · exact .bind .advance fun _ => .bind .name fun _ => .ret
  · exact .bind .advance fun _ => .bind .expectKeyword fun _ => .ret
  · exact .bind .advance fun _ => .ret
  · refine .bind .advance fun _ => .bind .expectKeyword fun _ => ?_
    exact .bind .skipClustering fun _ => .ret
  · exact .bind .advance fun _ => .bind .skipKeyword fun _ => .ret
  · exact .bind .advance fun _ => .ret
  · exact .bind .advance fun _ => .ret
  · exact .bind .advance fun _ => .bind .identity fun _ => .ret
  · exact .bind .advance fun _ => .bind .generated fun _ => .ret
  · exact .bind .advance fun _ => .bind h.expression fun _ => .ret
  · exact .bind .foreignKey fun _ => .ret
  · exact .bind .advance fun _ => .bind (.inParens h.expression) fun _ => .ret
  · exact .bind .advance fun _ => .bind .name fun _ => .ret
  · exact .ret

theorem columnDefinition (h : L.Nested b N N') :
    L.Lockstep b l (Grammar.columnDefinition N) (Grammar.columnDefinition N')
      fun _ => .moved := by
  refine .bind .name fun name => .bind .dataType fun type => .loop fun column => ?_
  refine .bind (.columnProperty? h) fun column? => ?_
  cases column? <;> exact .ret

/-! ## Constraints -/

theorem atTableConstraint :
    L.Lockstep b l Grammar.atTableConstraint Grammar.atTableConstraint fun _ => l.any := by
  refine .weak (.bind .kind fun k => ?_)
  split <;> exact .ret

theorem skipIndexName :
    L.Lockstep b .moved Grammar.skipIndexName Grammar.skipIndexName fun _ => .moved :=
  .bindIf .atName .advance .stay

theorem constraintKind (h : L.Nested b N N') :
    L.Lockstep b l (Grammar.constraintKind N) (Grammar.constraintKind N') fun _ => .moved := by
  refine .strict (.bind .kind fun k => ?_)
  split
  · refine .bind .advance fun _ => .bind .expectKeyword fun _ => ?_
    exact .bind .skipClustering fun _ => .map _ .columnNames
  · refine .bind .advance fun _ => .bind .skipKeyword fun _ => .bind .skipClustering fun _ => ?_
    exact .bind .skipIndexName fun _ => .map _ .columnNames
  · refine .bind .advance fun _ => .bind .expectKeyword fun _ => .bind .columnNames fun columns => ?_
    exact .bind .foreignKey fun _ => .stay
  · exact .bind .advance fun _ => .map _ (.inParens h.expression)
  · exact .bind .advance fun _ => .bind .skipIndexName fun _ => .map _ .columnNames
  · exact .expected (by decide)

theorem tableConstraint (h : L.Nested b N N') :
    L.Lockstep b l (Grammar.tableConstraint N) (Grammar.tableConstraint N') fun _ => .moved :=
  .bind (.behind .name) fun _ => .bind (.constraintKind h) fun _ => .stay

/-! ## Tables -/

theorem tableOptionValue :
    L.Lockstep b .moved Grammar.tableOptionValue Grammar.tableOptionValue fun _ => .moved := by
  refine .bindIf .consume .optionValue (.bind .atTerminator fun _ => .bind .check fun _ => ?_)
  exact .ite (fun _ => .stay) fun _ => .optionValue

theorem tableOptions :
    L.Lockstep b l Grammar.tableOptions Grammar.tableOptions fun _ => l.any := by
  refine .loop fun options => .bindIf .atTerminator .ret ?_
  refine .bindIf .consumeKeyword (.bind .optionValue fun _ => .ret) ?_
  refine .bind .skipKeyword fun _ => .bindIf .atName (.bind .takeLiteral fun key => ?_) .ret
  exact .bind .tableOptionValue fun value => .bind (.discard .consume) fun _ => .ret

theorem tableItem (h : L.Nested b N N') :
    L.Lockstep b l (Grammar.tableItem N) (Grammar.tableItem N') fun _ => .moved :=
  .bindIf .atTableConstraint (.map _ (.tableConstraint h)) (.map _ (.columnDefinition h))

theorem createTable (h : L.Nested b N N') {temporary : Bool} :
    L.Lockstep b l (Grammar.createTable N temporary) (Grammar.createTable N' temporary)
      fun _ => .moved := by
  refine .bind .expectKeyword fun _ => .bind .ifNotExists fun _ => .bind .objectName fun name => ?_
  refine .bind .checkKeyword fun _ => ?_
  extract_lets rest rest'
  have hrest (u : Unit) : L.Lockstep b .moved (rest u) (rest' u) fun _ => .moved :=
    .bind (.inParens (.list (.tableItem h))) fun items => .bind .tableOptions fun options => .stay
  exact .ite (fun _ => .bindSpan fun t t' => .bind .fail fun u => (hrest u).noting t t') fun _ => hrest ()

/-! ## Changes -/

theorem addAction (h : L.Nested b N N') :
    L.Lockstep b l (Grammar.addAction N) (Grammar.addAction N') fun _ => .moved := by
  refine .bindIf .atTableConstraint (.map _ (.tableConstraint h)) ?_
  exact .bind .skipKeyword fun _ => .map _ (.columnDefinition h)

theorem dropAction : L.Lockstep b l Grammar.dropAction Grammar.dropAction fun _ => .moved := by
  refine .strict (.bindIf .consumeKeyword (.map _ .name) (.bind .skipKeyword fun _ => ?_))
  exact .bind .ifExists fun ifExists => .bind .name fun _ => .stay

theorem alterColumnAction :
    L.Lockstep b l Grammar.alterColumnAction Grammar.alterColumnAction fun _ => .moved := by
  refine .bind .skipKeyword fun _ => .bind .name fun column => .bind .consumeKeyword fun _ => ?_
  extract_lets rest
  have hrest (u : Unit) : L.Lockstep b .moved (rest u) (rest u) fun _ => .moved := by
    refine .bind .skipKeyword fun _ => .bind .dataType fun type => ?_
    exact .bindIfThen .consumeKeyword .expectKeyword .skipKeyword fun _ => .stay
  exact .ite (fun _ => .bind .expectKeyword hrest) fun _ => hrest ()

theorem renameAction :
    L.Lockstep b .moved Grammar.renameAction Grammar.renameAction fun _ => .moved := by
  refine .bindIf .consumeKeyword ?_ ?_
  · refine .bind .name fun oldName => .bind .expectKeyword fun _ => .bind .name fun _ => .stay
  · exact .bindUnless .consumeKeyword .skipKeyword (.map _ .objectName)

theorem alterAction (h : L.Nested b N N') :
    L.Lockstep b l (Grammar.alterAction N) (Grammar.alterAction N') fun _ => .moved := by
  refine .strict (.bind .kind fun k => ?_)
  split
  · exact .bind .advance fun _ => .addAction h
  · exact .bind .advance fun _ => .dropAction
  · exact .bind .advance fun _ => .bind .skipKeyword fun _ => .map _ (.columnDefinition h)
  · refine .bind .advance fun _ => .bind .skipKeyword fun _ => .bind .name fun oldName => ?_
    exact .bind (.columnDefinition h) fun _ => .stay
  · exact .bind .advance fun _ => .alterColumnAction
  · exact .bind .advance fun _ => .renameAction
  · exact .expected (by decide)

theorem alterTable (h : L.Nested b N N') :
    L.Lockstep b l (Grammar.alterTable N) (Grammar.alterTable N') fun _ => .moved := by
  refine .bind .expectKeyword fun _ => .bind .expectKeyword fun _ => .bind .objectName fun name => ?_
  exact .bind (.alterAction h) fun _ => .stay

/-! ## Indexes and views -/

theorem createIndex (h : L.Nested b N N') {unique : Bool} {clustered : Option Bool} :
    L.Lockstep b l (Grammar.createIndex N unique clustered)
      (Grammar.createIndex N' unique clustered) fun _ => .moved := by
  refine .bind .expectKeyword fun _ => .bind .ifNotExists fun ifNotExists => ?_
  refine .bind .qualifiedName fun indexName => .bind .expectKeyword fun _ => ?_
  refine .bind .objectName fun table => .bind (.behind .name) fun method => ?_
  refine .bind (.inParens (.sortItems h)) fun columns => ?_
  extract_lets rest rest'
  have hrest (method : Option String) :
      L.Lockstep b .moved (rest method) (rest' method) fun _ => .moved := by
    refine .bind (.behind .columnNames) fun included => ?_
    exact .bind (.behind h.expression) fun condition => .stay
  exact .ite (fun _ => .bind .stay hrest) fun _ => .bind (.behind .name) hrest

theorem viewOption : L.Lockstep b l Grammar.viewOption Grammar.viewOption fun _ => .moved :=
  .bind .name fun _ => .bindIfThen .consume .optionValue .ret fun _ => .stay

theorem viewOptions :
    L.Lockstep b .moved Grammar.viewOptions Grammar.viewOptions fun _ => .moved := by
  refine .bindIfThen .check (.inParens (.list .viewOption)) (.list ?_) fun entries => .stay
  exact .bind .name fun _ => .stay

theorem checkScope {options : Options} :
    L.Lockstep b .moved (Grammar.checkScope options) (Grammar.checkScope options)
      fun _ => .moved :=
  .bindIf .consumeKeyword .ret (.bindIf .consumeKeyword .stay .stay)

theorem viewEnding {options : Options} :
    L.Lockstep b .moved (Grammar.viewEnding options) (Grammar.viewEnding options)
      fun _ => .moved := by
  refine .bind .checkScope fun options => ?_
  refine .bindIf .consumeKeyword (.bind .expectKeyword fun _ => .stay) ?_
  refine .bindIf .consumeKeyword (.bind .expectKeyword fun _ => .stay) ?_
  exact .bindIf .consumeKeyword .stay (.expected (by decide))

theorem createView (h : L.Nested b N N') {orReplace materialized : Bool} :
    L.Lockstep b l (Grammar.createView N orReplace materialized)
      (Grammar.createView N' orReplace materialized) fun _ => .moved := by
  refine .bind .expectKeyword fun _ => .bind .ifNotExists fun ifNotExists => ?_
  refine .bind .objectName fun name => .bind .columnNames? fun columns => ?_
  refine .bind (.behind .viewOptions) fun options => .bind .expectKeyword fun _ => ?_
  exact .bind h.query fun query => .bind (.behind .viewEnding) fun ending => .stay

theorem objectKind : L.Lockstep b l Grammar.objectKind Grammar.objectKind fun _ => .moved := by
  refine .strict (.bind .kind fun k => ?_)
  split
  · exact .bind .advance fun _ => .stay
  · exact .bind .advance fun _ => .stay
  · exact .bind .advance fun _ => .stay
  · exact .bind .advance fun _ => .stay
  · exact .bind .advance fun _ => .stay
  · exact .bind .advance fun _ => .stay
  · exact .bind .advance fun _ => .stay
  · exact .bind .advance fun _ => .stay
  · refine .bindSpan fun t t' => .bind .require fun _ => .bind .advance fun _ => ?_
    exact .bind .expectKeyword fun _ => .stay
  · exact .bindIf .consumeWord .ret (.expected (by decide))

theorem droppedName : L.Lockstep b l Grammar.droppedName Grammar.droppedName fun _ => .moved :=
  .bind .objectName fun _ => .bindIf .check (.bind .skipParens fun _ => .stay) .stay

theorem drop : L.Lockstep b l Grammar.drop Grammar.drop fun _ => .moved := by
  refine .bind .expectKeyword fun _ => .bind .objectKind fun kind => ?_
  refine .bind .ifExists fun ifExists => .bind (.list .droppedName) fun names => ?_
  extract_lets rest
  have hrest (onTable : Option ObjectName) :
      L.Lockstep b .moved (rest onTable) (rest onTable) fun _ => .moved := by
    refine .bind .consumeKeyword fun cascade => .ite (fun _ => ?_) fun _ => ?_
    · exact .bind (k := fun _ => .moved) .ret fun _ => .stay
    · exact .bind .consumeKeyword fun _ => .stay
  exact .ite (fun _ => .bind (.behind .objectName) hrest) fun _ => .bind .stay hrest

end SqlFrontend.Likeness.Lockstep
