import SqlFrontend.Grammar.Rows
import SqlFrontend.Proofs.Grammar.Expression

/-!
# Queries and changes of rows in lockstep

* `Lockstep.selections`, `Lockstep.query`, `Lockstep.withTables`: queries.
* `Lockstep.insert`, `Lockstep.update`, `Lockstep.delete`: changes of rows.
-/

namespace SqlFrontend.Likeness.Lockstep

variable {L : Likeness} {b : Parser × Parser} {l : Level} {N N' : Grammar.Nested}

/-! ## Tables and joins -/

theorem asName? : L.Lockstep b .moved Grammar.asName? Grammar.asName? fun _ => .moved :=
  .bindIf .consumeKeyword (.map _ .name) .trailingName?

theorem tableHints : L.Lockstep b .moved Grammar.tableHints Grammar.tableHints fun _ => .moved := by
  refine .bindAnd .checkKeyword (.bind .advance fun _ => ?_) .stay
  exact .inParens (.list (.map _ .name))

theorem tableRef (h : L.Nested b N N') :
    L.Lockstep b l (Grammar.tableRef N) (Grammar.tableRef N') fun _ => .moved := by
  refine .strict (.bindIf .check ?_ ?_)
  · refine .bindSpan fun t t' => .bind (.inParens (h.noting t t').selections) fun query => ?_
    refine .bind .asName? fun asName => ?_
    split
    · exact .stay
    · exact .fail
  · exact .bind .objectName fun table => .bind .asName? fun asName => .bind .tableHints fun _ => .stay

theorem atJoin : L.Lockstep b l Grammar.atJoin Grammar.atJoin fun _ => l.any := by
  refine .weak (.bind .kind fun k => ?_)
  split <;> exact .ret

theorem joinKind : L.Lockstep b l Grammar.joinKind Grammar.joinKind fun _ => .moved := by
  have hjoin {kind : JoinKind} : L.Lockstep b .moved
      (do Production.expectKeyword .JOIN; return kind)
      (do Production.expectKeyword .JOIN; return kind) fun _ => .moved :=
    .bind .expectKeyword fun _ => .stay
  have houter {kind : JoinKind} : L.Lockstep b .moved
      (do Production.skipKeyword .OUTER; Production.expectKeyword .JOIN; return kind)
      (do Production.skipKeyword .OUTER; Production.expectKeyword .JOIN; return kind) fun _ => .moved :=
    .bind .skipKeyword fun _ => hjoin
  refine .strict (.bind .kind fun k => ?_)
  split
  · exact .bind .advance fun _ => .stay
  · exact .bind .advance fun _ => hjoin
  · exact .bind .advance fun _ => houter
  · exact .bind .advance fun _ => houter
  · exact .bind .advance fun _ => houter
  · exact .bind .advance fun _ => hjoin
  · exact .expected (by decide)

theorem joinInto (h : L.Nested b N N') {node : Join} :
    L.Lockstep b l (Grammar.joinInto N node) (Grammar.joinInto N' node) fun _ => .moved := by
  refine .bind .joinKind fun kind => .bind (.tableRef h) fun table => ?_
  refine .ite (fun _ => .stay) fun _ => ?_
  refine .bindIf .consumeKeyword (.bind h.expression fun _ => .stay) ?_
  exact .bindIf .consumeKeyword (.bind .columnNames fun _ => .stay) (.expected (by decide))

theorem join (h : L.Nested b N N') :
    L.Lockstep b l (Grammar.join N) (Grammar.join N') fun _ => .moved := by
  exact .bind .acquireJoin fun node => .onFailure (.joinInto h) (.given (.join node))

/-! ## Selections -/

theorem topLimit (h : L.Nested b N N') :
    L.Lockstep b .moved (Grammar.topLimit N) (Grammar.topLimit N') fun _ => .moved := by
  refine .bindIfThen .check (.inParens h.expression) h.primary fun quantity => ?_
  exact .bind .consumeKeyword fun percent => .bind .consumeKeywords fun withTies => .stay

theorem top? (h : L.Nested b N N') :
    L.Lockstep b .moved (Grammar.top? N) (Grammar.top? N') fun _ => .moved := by
  refine .bindIf .checkKeyword (.bindSpan fun t t' => .bind .require fun _ => ?_) .stay
  exact .bind .advance fun _ => .map _ (.topLimit (h.noting t t'))

theorem selectColumn (h : L.Nested b N N') :
    L.Lockstep b .moved (Grammar.selectColumn N) (Grammar.selectColumn N') fun _ => .moved := by
  refine .bind h.expression fun expr => .bind .asName? fun asName => ?_
  split <;> exact .stay

theorem distinctRows :
    L.Lockstep b .moved Grammar.distinctRows Grammar.distinctRows fun _ => .moved :=
  .bindIf .consumeKeyword .ret (.bind .skipKeyword fun _ => .stay)

theorem tablesAndJoins (h : L.Nested b N N') :
    L.Lockstep b .moved (Grammar.tablesAndJoins N) (Grammar.tablesAndJoins N')
      fun _ => .moved := by
  refine .bind (.list (.tableRef h)) fun tables => .bind (.many ?_) fun joins => .stay
  exact .bindIf .atJoin (.mapSome (.join h)) .ret

theorem limitAndOffset (h : L.Nested b N N') :
    L.Lockstep b .moved (Grammar.limitAndOffset N) (Grammar.limitAndOffset N')
      fun _ => .moved := by
  refine .bind h.expression fun first => .bindIf .consume (.bind h.expression fun _ => .stay) .stay

theorem offsetRows (h : L.Nested b N N') :
    L.Lockstep b .moved (Grammar.offsetRows N) (Grammar.offsetRows N') fun _ => .moved :=
  .bind h.expression fun _ => .bindUnless .consumeKeyword .skipKeyword .stay

theorem fetchRows? (h : L.Nested b N N') :
    L.Lockstep b .moved (Grammar.fetchRows? N) (Grammar.fetchRows? N') fun _ => .moved := by
  refine .bindOr .checkKeywords (fun _ => .checkKeywords) ?_ .stay
  refine .bind .advance fun _ => .bind .advance fun _ => .bind h.expression fun count => ?_
  refine .bindUnless .consumeKeyword .expectKeyword ?_
  exact .bind .expectKeyword fun _ => .stay

theorem behindBy {α : Type} {word : Keyword} {items items' : Production α}
    (h : L.Lockstep b .moved items items' fun _ => .moved) :
    L.Lockstep b .moved (Grammar.behindBy word items) (Grammar.behindBy word items')
      fun _ => .moved :=
  .behind (.bind .expectKeyword fun _ => h)

theorem selectInto (h : L.Nested b N N') {node : Select} :
    L.Lockstep b l (Grammar.selectInto N node) (Grammar.selectInto N' node) fun _ => .moved := by
  refine .bind .expectKeyword fun _ => .bind .distinctRows fun distinct => ?_
  refine .bind (.top? h) fun top => .bind (.list (.selectColumn h)) fun columns => ?_
  refine .bind (.behind (.list .qualifiedName)) fun into => ?_
  refine .bind (.behind (.tablesAndJoins h)) fun sources => ?_
  refine .bind (.behind h.expression) fun condition => ?_
  refine .bind (.behindBy (.list h.expression)) fun groupBy => ?_
  refine .bind (.behind h.expression) fun having => ?_
  refine .bind (.behindBy (.sortItems h)) fun orderBy => ?_
  refine .bind (.behind (.limitAndOffset h)) fun limits => ?_
  refine .bind (.behind (.offsetRows h)) fun offset => .bind (.fetchRows? h) fun fetch => .stay

theorem selection (h : L.Nested b N N') :
    L.Lockstep b l (Grammar.selection N) (Grammar.selection N') fun _ => .moved := by
  exact .bind .acquireSelect fun node => .onFailure (.selectInto h) (.given (.select node))

theorem setOperator? :
    L.Lockstep b .start Grammar.setOperator? Grammar.setOperator? fun
      | some _ => .token
      | none => .start := by
  refine .bind .kind fun k => ?_
  split <;> exact .ret

theorem selections (h : L.Nested b N N') :
    L.Lockstep b l (Grammar.selections N) (Grammar.selections N') fun _ => .moved := by
  refine .bind (.selection h) fun first => .loop fun left => .bind .setOperator? fun op? => ?_
  cases op? with
  | none => exact .ret
  | some op =>
    refine .bind .advance fun _ => .bind .consumeKeyword fun all => ?_
    extract_lets rest rest'
    have hrest (u : Unit) : L.Lockstep b .moved (rest u) (rest' u) Production.Step.level :=
      .bind (.selection h) fun _ => .ret
    exact .ite (fun _ => hrest ()) fun _ => .bind .skipKeyword hrest

/-! ## Named queries -/

theorem commonTable (h : L.Nested b N N') :
    L.Lockstep b l (Grammar.commonTable N) (Grammar.commonTable N') fun _ => .moved := by
  refine .bind .name fun name => .bind .columnNames? fun columns => .bind .expectKeyword fun _ => ?_
  exact .bind (.inParens h.query) fun _ => .stay

theorem withTables (h : L.Nested b N N') :
    L.Lockstep b l (Grammar.withTables N) (Grammar.withTables N') fun _ => .moved := by
  refine .bind .expectKeyword fun _ => .bind .consumeKeyword fun recursive => ?_
  refine .bind (.list (.commonTable h)) fun tables => .bindSpan fun t t' => ?_
  refine .bind (h.noting t t').statement fun body => ?_
  split
  · exact .stay
  · exact .fail

theorem query (h : L.Nested b N N') :
    L.Lockstep b l (Grammar.query N) (Grammar.query N') fun _ => .moved :=
  .strict (.bindIf .checkKeyword (.withTables h) (.bindIf .checkKeyword (.selections h) (.expected (by decide))))

/-! ## Changes of rows -/

theorem assignments (h : L.Nested b N N') :
    L.Lockstep b l (Grammar.assignments N) (Grammar.assignments N') fun _ => .moved := by
  refine .list (.bind .qualifiedName fun target => .bindUnless .consume .expect ?_)
  exact .bind h.expression fun _ => .stay

theorem insertSource (h : L.Nested b N N') :
    L.Lockstep b .moved (Grammar.insertSource N) (Grammar.insertSource N') fun _ => .moved := by
  refine .bindIf .consumeKeyword (.map _ (.list (.inParens (.list h.expression)))) ?_
  refine .bindIf .consumeKeyword (.bind .expectKeyword fun _ => .stay) ?_
  exact .bindOr .checkKeyword (fun _ => .checkKeyword) (.map _ h.query) (.expected (by decide))

theorem insert (h : L.Nested b N N') :
    L.Lockstep b l (Grammar.insert N) (Grammar.insert N') fun _ => .moved := by
  refine .bind .expectKeyword fun _ => .bind .skipKeyword fun _ => .bind .objectName fun table => ?_
  exact .bind .columnNames? fun columns => .bind (.insertSource h) fun _ => .stay

theorem update (h : L.Nested b N N') :
    L.Lockstep b l (Grammar.update N) (Grammar.update N') fun _ => .moved := by
  refine .bind .expectKeyword fun _ => .bind (.tableRef h) fun table => ?_
  refine .bind .expectKeyword fun _ => .bind (.assignments h) fun assignments => ?_
  refine .bind (.behind (.list (.tableRef h))) fun tables => ?_
  exact .bind (.behind h.expression) fun condition => .stay

theorem delete (h : L.Nested b N N') :
    L.Lockstep b l (Grammar.delete N) (Grammar.delete N') fun _ => .moved := by
  refine .bind .expectKeyword fun _ => .bind .skipKeyword fun _ => .bind (.tableRef h) fun table => ?_
  exact .bind (.behind h.expression) fun _ => .stay

end SqlFrontend.Likeness.Lockstep
