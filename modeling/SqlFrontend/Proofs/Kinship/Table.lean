import SqlFrontend.Grammar.Table
import SqlFrontend.Grammar.View
import SqlFrontend.Proofs.Kinship.Query

/-!
# Definitions of tables, indexes and views of texts that are kin

* `Kindred.createTable`: the definition of a table is left open if its text ends with the word that
  stands before an option.
* `Kindred.alterTable`, `Kindred.createIndex`, `Kindred.createView`, `Kindred.drop`: these productions
  never leave a text open.
-/

namespace SqlFrontend

/-! ## The columns and the constraints of a table -/

section

variable {α β : Type} [Textual α] [Textual β] {exact : Bool} {xs xs' : List (α ⊕ β)}

theorem Same.lefts (h : Same exact xs xs') :
    Same exact (xs.filterMap Sum.getLeft?) (xs'.filterMap Sum.getLeft?) := by
  cases exact with
  | true => exact congrArg (List.filterMap Sum.getLeft?) h
  | false =>
    have hmap (xs : List (α ⊕ β)) : (xs.filterMap Sum.getLeft?).map (mapTexts Text.lower) =
        (xs.map (mapTexts Text.lower)).filterMap Sum.getLeft? := by
      rw [List.map_filterMap, List.filterMap_map]
      refine List.filterMap_congr fun x _ => ?_
      cases x <;> rfl
    exact (hmap xs).trans ((congrArg (List.filterMap Sum.getLeft?) h).trans (hmap xs').symm)

theorem Same.rights (h : Same exact xs xs') :
    Same exact (xs.filterMap Sum.getRight?) (xs'.filterMap Sum.getRight?) := by
  cases exact with
  | true => exact congrArg (List.filterMap Sum.getRight?) h
  | false =>
    have hmap (xs : List (α ⊕ β)) : (xs.filterMap Sum.getRight?).map (mapTexts Text.lower) =
        (xs.map (mapTexts Text.lower)).filterMap Sum.getRight? := by
      rw [List.map_filterMap, List.filterMap_map]
      refine List.filterMap_congr fun x _ => ?_
      cases x <;> rfl
    exact (hmap xs).trans ((congrArg (List.filterMap Sum.getRight?) h).trans (hmap xs').symm)

end

/-! ## The end of the text -/

namespace Production.Ends

variable {stopped : Bool}

theorem skipIndexName : Ends stopped .eof Grammar.skipIndexName fun _ => True := bindIf atName (ret trivial)

theorem objectKind {S : ObjectKind → Prop} : Ends stopped .eof Grammar.objectKind S :=
  bindKind (bindIf consumeWord expected)

end Production.Ends

namespace Kinship.Kindred

variable {G : Kinship} {P : Parser → Prop} {N N' : Grammar.Nested}

/-! ## References -/

theorem referentialAction :
    G.Kindred P Grammar.referentialAction Grammar.referentialAction Eq := by
  refine .bindIf .consumeKeyword .stay (.bindIf .consumeKeyword .stay ?_)
  refine .bindIf .consumeKeyword ?_ (.bindIf .consumeKeyword ?_ .expected)
  · exact .bindIf .consumeKeyword .stay (.bind .expectKeyword fun _ => .stay)
  · exact .bind .expectKeyword fun _ => .stay

theorem foreignKey :
    G.Kindred P Grammar.foreignKey Grammar.foreignKey (Same G.goesOn) := by
  refine .bind .expectKeyword fun _ => .bindSame .objectName fun table table' htable => ?_
  refine .bindSame .columnNames? fun columns columns' hcolumns => .loop (W := Same G.goesOn) ?_ ?_
  · intro key key' hkey
    refine .bindTest .checkKeywords ?_ (.bindTest .checkKeywords ?_ (.ret (.done hkey)))
    · refine .bindAdvance (.bind .advance fun _ => .bind .referentialAction fun _ => ?_)
      refine .ret (.more ?_)
      cases hg : G.goesOn <;> simp_all [Same, mapTexts, ForeignKey.mapTexts]
    · refine .bindAdvance (.bind .advance fun _ => .bind .referentialAction fun _ => ?_)
      refine .ret (.more ?_)
      cases hg : G.goesOn <;> simp_all [Same, mapTexts, ForeignKey.mapTexts]
  · cases hg : G.goesOn <;> simp_all [Same, mapTexts, ForeignKey.mapTexts]

/-! ## Columns -/

theorem skipClustering : G.Kindred P Grammar.skipClustering Grammar.skipClustering Eq :=
  .bindIf .consumeKeyword .stay .skipKeyword

theorem identity : G.Kindred P Grammar.identity Grammar.identity Eq := by
  refine .bindIf (Test.kindred .check) (.inParens (.bind .integer fun seed => ?_)) .stay
  refine .bindIfThen .consume (.map _ .integer) .stay fun increment _ heq => ?_
  subst heq
  exact .stay

theorem generated : G.Kindred P Grammar.generated Grammar.generated Eq := by
  refine .bind .consumeKeyword fun always => ?_
  extract_lets last rest
  have hrest (u : Unit) : G.Kindred Anywhere (rest u) (rest u) Eq := by
    refine .bind .expectKeyword fun _ => .bind .expectKeyword fun _ => ?_
    exact .bindIf (Test.kindred .check) (.bind .skipParens fun _ => .stay) .stay
  refine .ite (fun _ => hrest ()) fun _ => ?_
  exact .bind .expectKeyword fun _ => .bind .expectKeyword hrest

theorem columnProperty? (h : G.Nested N N') {column column' : ColumnDefinition}
    (hcolumn : Same G.goesOn column column') :
    G.Kindred P (Grammar.columnProperty? N column) (Grammar.columnProperty? N' column')
      (Same G.goesOn) := by
  refine .bindKind (fun k => ?_) (.ret (.refl none))
  split
  · refine .bind .advance fun _ => .bindSame .name fun name name' hname => .ret ?_
    cases hg : G.goesOn <;> simp_all [Same, mapTexts, ColumnDefinition.mapTexts]
  · refine .bind .advance fun _ => .bind .expectKeyword fun _ => .ret ?_
    cases hg : G.goesOn <;> simp_all [Same, mapTexts, ColumnDefinition.mapTexts]
  · refine .bind .advance fun _ => .ret ?_
    cases hg : G.goesOn <;> simp_all [Same, mapTexts, ColumnDefinition.mapTexts]
  · refine .bind .advance fun _ => .bind .expectKeyword fun _ => .bind .skipClustering fun _ => .ret ?_
    cases hg : G.goesOn <;> simp_all [Same, mapTexts, ColumnDefinition.mapTexts]
  · refine .bind .advance fun _ => .bind .skipKeyword fun _ => .ret ?_
    cases hg : G.goesOn <;> simp_all [Same, mapTexts, ColumnDefinition.mapTexts]
  · refine .bind .advance fun _ => .ret ?_
    cases hg : G.goesOn <;> simp_all [Same, mapTexts, ColumnDefinition.mapTexts]
  · refine .bind .advance fun _ => .ret ?_
    cases hg : G.goesOn <;> simp_all [Same, mapTexts, ColumnDefinition.mapTexts]
  · refine .bind .advance fun _ => .bind .identity fun _ => .ret ?_
    cases hg : G.goesOn <;> simp_all [Same, mapTexts, ColumnDefinition.mapTexts]
  · refine .bind .advance fun _ => .bind .generated fun _ => .ret ?_
    cases hg : G.goesOn <;> simp_all [Same, mapTexts, ColumnDefinition.mapTexts]
  · refine .bind .advance fun _ => .bindSame h.expression fun initial initial' hinitial => .ret ?_
    cases hg : G.goesOn <;> simp_all [Same, mapTexts, ColumnDefinition.mapTexts]
  · refine .bindSame .foreignKey fun key key' hkey => .ret ?_
    cases hg : G.goesOn <;> simp_all [Same, mapTexts, ColumnDefinition.mapTexts]
  · refine .bind .advance fun _ => .bindSame (.inParens h.expression) fun check check' hcheck => .ret ?_
    cases hg : G.goesOn <;> simp_all [Same, mapTexts, ColumnDefinition.mapTexts]
  · refine .bind .advance fun _ => .bindSame .name fun collation collation' hcollation => .ret ?_
    cases hg : G.goesOn <;> simp_all [Same, mapTexts, ColumnDefinition.mapTexts]
  · refine .bindTest (.checkPeek fun p hp => hp.1) ?_ (.ret (.refl none))
    exact .bindAdvance (.bind .advance fun _ => .ret hcolumn.some)
  · exact .ret (.refl none)

theorem columnDefinition (h : G.Nested N N') :
    G.Kindred P (Grammar.columnDefinition N) (Grammar.columnDefinition N') (Same G.goesOn) := by
  refine .bindSame .name fun name name' hname => .bind .dataType fun type => ?_
  refine .loop (W := Same G.goesOn) (fun column column' hcolumn => ?_) ?_
  · refine .bindSame (.columnProperty? h hcolumn) fun property property' hproperty => ?_
    cases hproperty.option with
    | none => exact .ret (.done hcolumn)
    | some hnext => exact .ret (.more hnext)
  · cases hg : G.goesOn <;> simp_all [Same, mapTexts, ColumnDefinition.mapTexts]

/-! ## Constraints -/

theorem atTableConstraint :
    G.Kindred P Grammar.atTableConstraint Grammar.atTableConstraint Eq := by
  refine .bindKind (fun k => ?_) .stay
  split <;> exact .stay

/-- What is read behind the name of an index has to be there. -/
theorem skipIndexName : G.Kindred G.Here Grammar.skipIndexName Grammar.skipIndexName Eq :=
  .bindTest (.atName fun _ => id) (.mapApart .takeNamed (fun _ _ _ => rfl) fun _ _ => False.elim) .stay

theorem constraintKind (h : G.Nested N N') :
    G.Kindred P (Grammar.constraintKind N) (Grammar.constraintKind N') (Same G.goesOn) := by
  have hnamed {g : List String → ConstraintKind}
      (hg : ∀ xs xs', Same G.goesOn xs xs' → Same G.goesOn (g xs) (g xs')) :
      G.Kindred Anywhere
        (do
          Grammar.skipIndexName
          g <$> Grammar.columnNames)
        (do
          Grammar.skipIndexName
          g <$> Grammar.columnNames) (Same G.goesOn) := by
    refine .needing ?_ (.bind .skipIndexName fun _ => .mapSame .columnNames hg)
    exact .bind .skipIndexName fun _ _ => .map .columnNames fun _ => False.elim
  refine .bindKind (fun k => ?_) .expected
  split
  · refine .bind .advance fun _ => .bind .expectKeyword fun _ => .bind .skipClustering fun _ => ?_
    refine .mapSame .columnNames fun columns columns' hcolumns => ?_
    cases hg : G.goesOn <;> simp_all [Same, mapTexts, ConstraintKind.mapTexts]
  · refine .bind .advance fun _ => .bind .skipKeyword fun _ => .bind .skipClustering fun _ => ?_
    refine hnamed fun columns columns' hcolumns => ?_
    cases hg : G.goesOn <;> simp_all [Same, mapTexts, ConstraintKind.mapTexts]
  · refine .bind .advance fun _ => .bind .expectKeyword fun _ => ?_
    refine .bindSame .columnNames fun columns columns' hcolumns => ?_
    refine .bindSame .foreignKey fun key key' hkey => .ret ?_
    cases hg : G.goesOn <;> simp_all [Same, mapTexts, ConstraintKind.mapTexts]
  · refine .bind .advance fun _ => .mapSame (.inParens h.expression) fun check check' hcheck => ?_
    cases hg : G.goesOn <;> simp_all [Same, mapTexts, ConstraintKind.mapTexts]
  · refine .bind .advance fun _ => hnamed fun columns columns' hcolumns => ?_
    cases hg : G.goesOn <;> simp_all [Same, mapTexts, ConstraintKind.mapTexts]
  · exact .expected

theorem tableConstraint (h : G.Nested N N') :
    G.Kindred P (Grammar.tableConstraint N) (Grammar.tableConstraint N') (Same G.goesOn) := by
  refine .bindSame (.behindSame .name) fun name name' hname => ?_
  refine .bindSame (.constraintKind h) fun kind kind' hkind => .ret ?_
  cases hg : G.goesOn <;> simp_all [Same, mapTexts, TableConstraint.mapTexts]

/-! ## Tables -/

theorem tableOptionValue :
    G.Kindred P Grammar.tableOptionValue Grammar.tableOptionValue Eq := by
  refine .bindIf .consume .optionValue (.bind (Test.kindred .atTerminator) fun _ => ?_)
  exact .bind (Test.kindred .check) fun _ => .ite (fun _ => .stay) fun _ => .optionValue

/-- The word before an option can be the last one of a text, which then goes on with a name. -/
theorem tableOptions :
    G.Kindred P Grammar.tableOptions Grammar.tableOptions Eq
      fun k _ => k = .eof ∧ G.last = .keyword .DEFAULT := by
  refine .loopApart (W := Eq)
    (V := fun k step => (k = .eof ∧ G.last = .keyword .DEFAULT) ∧ ∃ options, step = .done options)
    (fun options _ heq => ?_) (fun k options hk => ?_) (fun k options hk => hk.1) rfl
  · subst heq
    refine .bindTest .atTerminator (.ret (.done rfl)) ?_
    refine .bindConsume (.bind .optionValue fun _ => .ret (.more rfl)) ?_
    refine .stage (.bindSkipKeyword (.bindTest (.atName fun _ => id) ?_ (.ret (.done rfl))) ?_)
      fun p hp => hp.2
    · refine .bindSame .takeNamed fun key key' hkey => ?_
      rw [hkey.upper]
      exact .bind .tableOptionValue fun value => .bind (.discard .consume) fun _ => .ret (.more rfl)
    · exact fun hlast => .bindIf .atName (.ret ⟨⟨rfl, hlast⟩, options, rfl⟩)
  · obtain ⟨-, _, hk⟩ := hk
    cases hk

theorem tableItem (h : G.Nested N N') :
    G.Kindred P (Grammar.tableItem N) (Grammar.tableItem N') (Same G.goesOn) := by
  refine .bindIf .atTableConstraint (.mapSame (.tableConstraint h) fun item item' hitem => ?_)
    (.mapSame (.columnDefinition h) fun item item' hitem => ?_)
  · cases hg : G.goesOn <;> simp_all [Same, mapTexts]
  · cases hg : G.goesOn <;> simp_all [Same, mapTexts]

theorem createTable (h : G.Nested N N') {temporary : Bool} :
    G.Kindred P (Grammar.createTable N temporary) (Grammar.createTable N' temporary)
      (Same G.goesOn) fun k _ => k = .eof ∧ G.last = .keyword .DEFAULT := by
  refine .bind .expectKeyword fun _ => .bind .ifNotExists fun ifNotExists => ?_
  refine .bindSame .objectName fun name name' hname => .bind (Test.kindred .checkKeyword) fun _ => ?_
  extract_lets rest rest'
  have hrest (u : Unit) : G.Kindred Anywhere (rest u) (rest' u) (Same G.goesOn)
      fun k _ => k = .eof ∧ G.last = .keyword .DEFAULT := by
    refine .bindSame (.inParens (.listSame (.tableItem h))) fun items items' hitems => ?_
    refine .bindApart .tableOptions (fun options _ heq => .ret ?_) fun k _ hk => .ret hk
    have hcolumns := hitems.lefts
    have hconstraints := hitems.rights
    subst heq
    cases hg : G.goesOn <;> simp_all [Same, mapTexts, CreateTable.mapTexts]
  refine .ite (fun _ => .bindSpan fun s s' hs => ?_) fun _ => hrest ()
  exact .bind (.fail hs (.refl _)) hrest

/-! ## Changes -/

theorem addAction (h : G.Nested N N') :
    G.Kindred P (Grammar.addAction N) (Grammar.addAction N') (Same G.goesOn) := by
  refine .bindIf .atTableConstraint (.mapSame (.tableConstraint h) fun item item' hitem => ?_)
    (.bind .skipKeyword fun _ => .mapSame (.columnDefinition h) fun item item' hitem => ?_)
  · cases hg : G.goesOn <;> simp_all [Same, mapTexts, AlterAction.mapTexts]
  · cases hg : G.goesOn <;> simp_all [Same, mapTexts, AlterAction.mapTexts]

theorem dropAction : G.Kindred P Grammar.dropAction Grammar.dropAction (Same G.goesOn) := by
  refine .bindIf .consumeKeyword (.mapSame .name fun name name' hname => ?_)
    (.bind .skipKeyword fun _ => .bind .ifExists fun ifExists => ?_)
  · cases hg : G.goesOn <;> simp_all [Same, mapTexts, AlterAction.mapTexts]
  · refine .bindSame .name fun name name' hname => .ret ?_
    cases hg : G.goesOn <;> simp_all [Same, mapTexts, AlterAction.mapTexts]

theorem alterColumnAction :
    G.Kindred P Grammar.alterColumnAction Grammar.alterColumnAction (Same G.goesOn) := by
  refine .bind .skipKeyword fun _ => .bindSame .name fun column column' hcolumn => ?_
  refine .bind .consumeKeyword fun _ => ?_
  extract_lets rest rest'
  have hrest (u : Unit) : G.Kindred Anywhere (rest u) (rest' u) (Same G.goesOn) := by
    refine .bind .skipKeyword fun _ => .bind .dataType fun type => ?_
    refine .bindIfThen (R := Eq) .consumeKeyword .expectKeyword .skipKeyword fun _ _ _ => .ret ?_
    cases hg : G.goesOn <;> simp_all [Same, mapTexts, AlterAction.mapTexts]
  exact .ite (fun _ => .bind .expectKeyword hrest) fun _ => hrest ()

theorem renameAction :
    G.Kindred P Grammar.renameAction Grammar.renameAction (Same G.goesOn) := by
  refine .bindIf .consumeKeyword ?_ (.bindUnless .consumeKeyword .skipKeyword ?_)
  · refine .bindSame .name fun oldName oldName' hold => .bind .expectKeyword fun _ => ?_
    refine .bindSame .name fun newName newName' hnew => .ret ?_
    cases hg : G.goesOn <;> simp_all [Same, mapTexts, AlterAction.mapTexts]
  · refine .mapSame .objectName fun name name' hname => ?_
    cases hg : G.goesOn <;> simp_all [Same, mapTexts, AlterAction.mapTexts]

theorem alterAction (h : G.Nested N N') :
    G.Kindred P (Grammar.alterAction N) (Grammar.alterAction N') (Same G.goesOn) := by
  refine .bindKind (fun k => ?_) .expected
  split
  · exact .bind .advance fun _ => .addAction h
  · exact .bind .advance fun _ => .dropAction
  · refine .bind .advance fun _ => .bind .skipKeyword fun _ => ?_
    refine .mapSame (.columnDefinition h) fun column column' hcolumn => ?_
    cases hg : G.goesOn <;> simp_all [Same, mapTexts, AlterAction.mapTexts]
  · refine .bind .advance fun _ => .bind .skipKeyword fun _ => .bindSame .name fun old old' hold => ?_
    refine .bindSame (.columnDefinition h) fun column column' hcolumn => .ret ?_
    cases hg : G.goesOn <;> simp_all [Same, mapTexts, AlterAction.mapTexts]
  · exact .bind .advance fun _ => .alterColumnAction
  · exact .bind .advance fun _ => .renameAction
  · exact .expected

theorem alterTable (h : G.Nested N N') :
    G.Kindred P (Grammar.alterTable N) (Grammar.alterTable N') (Same G.goesOn) := by
  refine .bind .expectKeyword fun _ => .bind .expectKeyword fun _ => ?_
  refine .bindSame .objectName fun name name' hname => ?_
  refine .bindSame (.alterAction h) fun action action' haction => .ret ?_
  cases hg : G.goesOn <;> simp_all [Same, mapTexts]

/-! ## Indexes and views -/

theorem createIndex (h : G.Nested N N') {unique : Bool} {clustered : Option Bool} :
    G.Kindred P (Grammar.createIndex N unique clustered) (Grammar.createIndex N' unique clustered)
      (Same G.goesOn) := by
  refine .bind .expectKeyword fun _ => .bind .ifNotExists fun ifNotExists => ?_
  refine .bindSame .qualifiedName fun indexName indexName' hindexName => ?_
  refine .bind .expectKeyword fun _ => .bindSame .objectName fun table table' htable => ?_
  refine .bindSame (.behindSame .name) fun method method' hmethod => ?_
  refine .bindSame (.inParens (.sortItems h)) fun columns columns' hcolumns => ?_
  extract_lets rest rest'
  have hrest (method method' : Option String) (hmethod : Same G.goesOn method method') :
      G.Kindred Anywhere (rest method) (rest' method') (Same G.goesOn) := by
    refine .bindSame (.behindSame .columnNames) fun included included' hincluded => ?_
    refine .bindSame (.behindSame h.expression) fun condition condition' hcondition => .ret ?_
    have hincluded := hincluded.getD (.refl [])
    cases hg : G.goesOn <;> simp_all [Same, mapTexts, CreateIndex.mapTexts]
  cases hmethod.option with
  | none => exact .bindSame (.behindSame .name) hrest
  | some hname => exact .bindSame (.ret hname.some) hrest

theorem viewOption : G.Kindred P Grammar.viewOption Grammar.viewOption Eq := by
  refine .bindSame .name fun key key' hkey => ?_
  refine .bindIfThen .consume .optionValue .stay fun value _ heq => ?_
  rw [hkey.upper, heq]
  exact .stay

theorem viewOptions : G.Kindred P Grammar.viewOptions Grammar.viewOptions Eq := by
  refine .bindIfThen (R := Eq) (Test.kindred .check) (.inParens (.list .viewOption)) (.list ?_) ?_
  · refine .bindSame .name fun key key' hkey => .ret ?_
    rw [hkey.upper]
  · intro entries _ heq
    rw [heq]
    exact .stay

theorem checkScope {options : Options} :
    G.Kindred P (Grammar.checkScope options) (Grammar.checkScope options) Eq :=
  .bindIf .consumeKeyword .stay (.bindIf .consumeKeyword .stay .stay)

theorem viewEnding {options : Options} :
    G.Kindred P (Grammar.viewEnding options) (Grammar.viewEnding options) Eq := by
  refine .bind .checkScope fun options => ?_
  refine .bindIf .consumeKeyword (.bind .expectKeyword fun _ => .stay) ?_
  refine .bindIf .consumeKeyword (.bind .expectKeyword fun _ => .stay) ?_
  exact .bindIf .consumeKeyword .stay .expected

theorem createView (h : G.Nested N N') {orReplace materialized : Bool} :
    G.Kindred P (Grammar.createView N orReplace materialized)
      (Grammar.createView N' orReplace materialized) (Same G.goesOn) := by
  refine .bind .expectKeyword fun _ => .bind .ifNotExists fun ifNotExists => ?_
  refine .bindSame .objectName fun name name' hname => ?_
  refine .bindSame .columnNames? fun columns columns' hcolumns => ?_
  refine .bind (.behind .viewOptions) fun options => .bind .expectKeyword fun _ => ?_
  refine .bindSame h.query fun query query' hquery => .bind (.behind .viewEnding) fun ending => .ret ?_
  cases hg : G.goesOn <;> simp_all [Same, mapTexts, CreateView.mapTexts]

theorem objectKind : G.Kindred P Grammar.objectKind Grammar.objectKind Eq := by
  refine .needing .objectKind (.bindKindHere fun k => ?_)
  split
  · exact .bind .advance fun _ => .stay
  · exact .bind .advance fun _ => .stay
  · exact .bind .advance fun _ => .stay
  · exact .bind .advance fun _ => .stay
  · exact .bind .advance fun _ => .stay
  · exact .bind .advance fun _ => .stay
  · exact .bind .advance fun _ => .stay
  · exact .bind .advance fun _ => .stay
  · refine .bindSpan fun s s' hs => .bindRequire hs (.bind .advance fun _ => ?_)
    exact .bind .expectKeyword fun _ => .stay
  · exact .bindIf .consumeWord .stay .expected

theorem droppedName :
    G.Kindred P Grammar.droppedName Grammar.droppedName (Same G.goesOn) := by
  refine .bindSame .objectName fun name name' hname => ?_
  exact .bindIf (Test.kindred .check) (.bind .skipParens fun _ => .ret hname) (.ret hname)

theorem drop : G.Kindred P Grammar.drop Grammar.drop (Same G.goesOn) := by
  refine .bind .expectKeyword fun _ => .bind .objectKind fun kind => .bind .ifExists fun ifExists => ?_
  refine .bindSame (.listSame .droppedName) fun names names' hnames => ?_
  extract_lets rest rest'
  have hrest (onTable onTable' : Option ObjectName) (hon : Same G.goesOn onTable onTable') :
      G.Kindred Anywhere (rest onTable) (rest' onTable') (Same G.goesOn) := by
    refine .bind .consumeKeyword fun cascade => ?_
    extract_lets last last'
    have hlast (restrict : Bool) :
        G.Kindred Anywhere (last restrict) (last' restrict) (Same G.goesOn) := by
      refine .ret ?_
      cases hg : G.goesOn <;> simp_all [Same, mapTexts, Drop.mapTexts]
    exact .ite (fun _ => .bind .stay hlast) fun _ => .bind .consumeKeyword hlast
  refine .ite (fun _ => ?_) fun _ => .bindSame (.ret (.refl none)) hrest
  exact .bindSame (.behindSame .objectName) hrest

end Kinship.Kindred

end SqlFrontend
