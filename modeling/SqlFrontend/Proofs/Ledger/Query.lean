import SqlFrontend.Grammar.Rows
import SqlFrontend.Proofs.Ledger.Expression

/-!
# What queries and changes of rows are charged for

* `Pays.exists_limits`: limits and an offset are paid for together, since an offset that stands among the
  limits gives way to one on its own.
* `Pays.selections`, `Pays.query`: queries. A selection and a join are nodes from pools.
* `Pays.insert`, `Pays.update`, `Pays.delete`: changes of rows.
-/

namespace SqlFrontend.Ledger.Pays

variable {M : Type} [AddCommMonoid M] [PartialOrder M] [IsOrderedAddMonoid M] {L : Ledger M}
variable {N : Grammar.Nested}

/-! ## Tables and joins -/

theorem asName? : L.Quiet Grammar.asName? := .bindIf .consumeKeyword name.mapQuiet .trailingName?

theorem tableHints : L.Quiet Grammar.tableHints := by
  refine .bind .checkKeyword fun atWith => .bind .checkPeek fun atParen => .ite (fun _ => ?_) fun _ => .stay
  exact .bind .advance fun _ => .inParens (.listQuiet name.mapQuiet)

theorem tableRef (h : L.Paying N) : L.Pays 0 (Grammar.tableRef N) fun t => L.total (.table t) := by
  refine .bindIf .check ?_ ?_
  · refine .bind .span fun place => (inParens h.selections).seq fun query => .bind asName? fun asName => ?_
    split
    · exact .ret (total_le rfl rfl (by simp [Component.fields]))
    · exact .fail trivial nofun
  · refine .bind .objectName fun table => .bind asName? fun asName => .bind tableHints fun hints => ?_
    exact .ret (total_le rfl rfl (le_refl 0))

theorem atJoin : L.Quiet Grammar.atJoin := by
  refine .bind .kind fun k => ?_
  split <;> exact .stay

theorem joinKind : L.Quiet Grammar.joinKind := by
  have hjoin {kind : JoinKind} : L.Quiet (do Production.expectKeyword .JOIN; return kind) :=
    .bind .expectKeyword fun _ => .stay
  have houter {kind : JoinKind} :
      L.Quiet (do Production.skipKeyword .OUTER; Production.expectKeyword .JOIN; return kind) :=
    .bind .skipKeyword fun _ => hjoin
  refine .bind .kind fun k => ?_
  split
  · exact .bind .advance fun _ => .stay
  · exact .bind .advance fun _ => hjoin
  · exact .bind .advance fun _ => houter
  · exact .bind .advance fun _ => houter
  · exact .bind .advance fun _ => houter
  · exact .bind .advance fun _ => hjoin
  · exact .expected

/-- A join is read into a node that says nothing about a condition. -/
theorem joinInto (h : L.Paying N) : L.Pays (0 + L.coin .join) (Grammar.joinInto N .fresh)
    fun j => L.total (.join j) := by
  refine .bind joinKind fun kind => (tableRef h).seq fun table => .ite (fun _ => .ret ?_) fun _ => ?_
  · exact (total_node_le rfl).trans_eq (by simp [Component.fields, Join.fresh])
  refine .bindIf .consumeKeyword (h.expression.seq fun e => .ret ?_) ?_
  · exact (total_node_le rfl).trans_eq (by simp [Component.fields, add_assoc])
  refine .bindIf .consumeKeyword (.bind .columnNames fun names => .ret ?_) .expected
  exact (total_node_le rfl).trans_eq (by simp [Component.fields, Join.fresh])

theorem join (h : L.Paying N) : L.Pays 0 (Grammar.join N) fun j => L.total (.join j) := by
  refine taking .join (fun pools => pools.join.acquire.1) (G := fun node => node = .fresh) (fun _ => rfl)
    (fun _ hpools => NodePool.acquire_eq_fresh hpools.join) (fun node _ => ⟨.join node, rfl, rfl⟩) ?_
  rintro _ rfl
  exact joinInto h

/-! ## Selections -/

theorem topLimit (h : L.Paying N) (htop : L.dialect.supports .top = true) :
    L.Pays 0 (Grammar.topLimit N) fun t => L.total (.top t) := by
  refine .bindIfThen .check (.inParens h.expression) h.primary fun quantity => ?_
  refine .bind .consumeKeyword fun percent => .bind .consumeKeywords fun withTies => .ret ?_
  exact total_le rfl htop (by simp [Component.fields])

theorem top? (h : L.Paying N) : L.Pays 0 (Grammar.top? N) (L.maybe .top) := by
  refine .bindIf .checkKeyword (.bind .span fun place => .know .require fun _ htop => ?_) .retNone
  exact .bind .advance fun _ => .mapSome (topLimit h htop)

theorem selectColumn (h : L.Paying N) :
    L.Pays 0 (Grammar.selectColumn N) fun e => L.total (.expr e) := by
  refine h.expression.seq fun expr => .bind asName? fun asName => ?_
  split
  · exact .ret (total_expr_le (by simp [Component.ofExpr]))
  · exact .ret (zero_add _).ge

theorem distinctRows : L.Quiet Grammar.distinctRows :=
  .bindIf .consumeKeyword .stay (.bind .skipKeyword fun _ => .stay)

theorem tablesAndJoins (h : L.Paying N) : L.Pays 0 (Grammar.tablesAndJoins N)
    fun sources => L.each .table sources.1 + L.each .join sources.2 := by
  have hjoin : L.Pays 0 (do if ← Grammar.atJoin then some <$> Grammar.join N else return none)
      (L.maybe .join) := .bindIf atJoin (join h).mapSome .retNone
  exact (list (tableRef h)).seq fun tables => (many hjoin).seq fun joins => .ret (by simp)

theorem limitAndOffset (h : L.Paying N) : L.Pays 0 (Grammar.limitAndOffset N)
    fun limits => L.total (.expr limits.1) + L.maybe .expr limits.2 := by
  refine h.expression.seq fun first => .bindIf .consume ?_ (.ret (by simp))
  exact h.expression.seq fun second => .ret (by simp [add_comm])

theorem offsetRows (h : L.Paying N) :
    L.Pays 0 (Grammar.offsetRows N) fun e => L.total (.expr e) := by
  refine h.expression.seq fun count => .bindUnless .consumeKeyword .skipKeyword ?_
  exact .ret (zero_add _).ge

theorem fetchRows? (h : L.Paying N) : L.Pays 0 (Grammar.fetchRows? N) (L.maybe .expr) := by
  refine .bind .checkKeywords fun first => .bind .checkKeywords fun next =>
    .ite (fun _ => ?_) fun _ => .retNone
  refine .bind .advance fun _ => .bind .advance fun _ => h.expression.seq fun count => ?_
  refine .bindUnless .consumeKeyword .expectKeyword (.bind .expectKeyword fun _ => .ret ?_)
  simp

theorem behindBy {α : Type} {word : Keyword} {items : Production α} {P : α → M}
    (h : L.Pays 0 items P) :
    L.Pays 0 (Grammar.behindBy word items) fun items => items.elim 0 P :=
  .behind (.bind .expectKeyword fun _ => h)

/-- What is charged for the limits and the offset that are read. -/
def readLimits (L : Ledger M) (v : Option (Expr × Option Expr) × Option Expr) : M :=
  v.1.elim 0 (fun limits => L.total (.expr limits.1) + L.maybe .expr limits.2) + L.maybe .expr v.2

/-- What is charged for those of them that are kept. An offset on its own is kept rather than one among
the limits. -/
def keptLimits (L : Ledger M) (v : Option (Expr × Option Expr) × Option Expr) : M :=
  L.maybe .expr (v.1.map Prod.fst) + L.maybe .expr (v.2 <|> v.1.bind Prod.snd)

theorem keptLimits_eq {v : Option (Expr × Option Expr) × Option Expr}
    (h : ¬((v.1.bind Prod.snd).isSome ∧ v.2.isSome)) : keptLimits L v = readLimits L v := by
  rcases v with ⟨_ | ⟨count, _ | skipped⟩, _ | offset⟩ <;> simp_all [keptLimits, readLimits]

theorem limitsAndOffset (h : L.Paying N) : L.Pays 0 (Grammar.limitsAndOffset N) (readLimits L) :=
  (behind (limitAndOffset h)).seq fun limits => (behind (offsetRows h)).map fun offset => by
    simp [readLimits]

/-- On ways that count for a tidy ledger, all that is read is kept. -/
theorem limitsAndOffset_kept (h : L.Paying N) (htidy : L.tidy) :
    L.Pays 0 (Grammar.limitsAndOffset N) (keptLimits L) := by
  obtain ⟨bound, rfl⟩ := h.below
  intro p hp
  have hrun := limitsAndOffset h p hp
  generalize hresult : Grammar.limitsAndOffset (.below bound) p = result at hrun ⊢
  cases hrun with
  | error hleads honest hstopped => exact .error hleads honest hstopped
  | @ok v q _ hleads hvalue _ hhalting =>
    refine .ok hleads (fun hcounts => ?_) trivial hhalting
    have hmeets : p.Meets q p := .here p.routineDepth (.refl p) hleads.reaches
    have hone : ¬((v.1.bind Prod.snd).isSome ∧ v.2.isSome) := fun hboth =>
      hcounts.once htidy p hmeets (Parser.givesTwice_of_limits hresult hboth.1 hboth.2)
    rw [keptLimits_eq hone]
    exact hvalue hcounts

/-- What is charged for a selection, with its limit and its offset apart. -/
theorem total_select_le {v : Option (Expr × Option Expr) × Option Expr} {s : Select}
    (hlimit : s.limit = v.1.map Prod.fst) (hoffset : s.offset = (v.2 <|> v.1.bind Prod.snd)) :
    L.total (.select s) ≤
      L.coin .select + L.sum (Component.select { s with limit := none, offset := none }).fields +
        keptLimits L v := by
  refine (total_node_le rfl).trans_eq ?_
  simp [keptLimits, ← hlimit, ← hoffset, Component.fields, add_assoc, add_comm, add_left_comm]

/-- Limits and an offset are paid for together, since an offset among the limits gives way to one on its
own. A tidy ledger does not count the way then, and another one makes up for what was lost. -/
theorem exists_limits (h : L.Paying N) : ∃ P : Option (Expr × Option Expr) × Option Expr → M,
    L.Pays 0 (Grammar.limitsAndOffset N) P ∧
    ∀ v (s : Select), s.limit = v.1.map Prod.fst → s.offset = (v.2 <|> v.1.bind Prod.snd) →
      L.total (.select s) ≤
        L.coin .select + L.sum (Component.select { s with limit := none, offset := none }).fields + P v := by
  by_cases htidy : L.tidy
  · exact ⟨_, limitsAndOffset_kept h htidy, fun v s => total_select_le⟩
  refine ⟨_, limitsAndOffset h, fun v s hlimit hoffset => ?_⟩
  have htotal := total_select_le (L := L) hlimit hoffset
  by_cases hboth : (v.1.bind Prod.snd).isSome ∧ v.2.isSome
  · obtain ⟨_ | ⟨count, _ | skipped⟩, _ | offset⟩ := v <;> simp at hboth
    have hhide : (Component.select s).mayHide := by
      rw [Component.mayHide, hlimit, hoffset]
      rfl
    refine total_le_of_mayHide htidy hhide fun _ hnonneg => htotal.trans ?_
    refine add_le_add_right (add_le_add_left ?_ _) _
    simpa using le_add_of_nonneg_right (hnonneg [.expr skipped])
  · rw [← keptLimits_eq hboth]
    exact htotal

/-- A selection is read into a node of nothing. -/
theorem selectInto (h : L.Paying N) : L.Pays (0 + L.coin .select) (Grammar.selectInto N .fresh)
    fun s => L.total (.select s) := by
  obtain ⟨P, hlimits, htotal⟩ := exists_limits h
  refine .bind .expectKeyword fun _ => .bind distinctRows fun distinct => ?_
  refine (top? h).seq fun top => (list (selectColumn h)).seq fun columns => ?_
  refine .bind (.behindQuiet (.listQuiet .qualifiedName)) fun into => ?_
  refine (behind (tablesAndJoins h)).seq fun sources => ?_
  refine (behind h.expression).seq fun condition => (behindBy (expressions h)).seq fun groupBy => ?_
  refine (behind h.expression).seq fun having => (behindBy (sortItems h)).seq fun orderBy => ?_
  refine seqPair hlimits fun limits offset => (fetchRows? h).seq fun fetch => .ret ?_
  refine (htotal (limits, offset) _ ?_ ?_).trans_eq ?_
  · simp [Select.fresh]
  · simp [Select.fresh]
  · cases sources <;>
      simp [Component.fields, Select.fresh, Option.orElse_eq_orElse, Option.orElse_eq_or, add_assoc, add_comm,
        add_left_comm]

theorem selection (h : L.Paying N) :
    L.Pays 0 (Grammar.selection N) fun s => L.total (.select s) := by
  refine taking .select (fun pools => pools.select.acquire.1) (G := fun node => node = .fresh)
    (fun _ => rfl) (fun _ hpools => NodePool.acquire_eq_fresh hpools.select)
    (fun node _ => ⟨.select node, rfl, rfl⟩) ?_
  rintro _ rfl
  exact selectInto h

theorem setOperator? : L.Quiet Grammar.setOperator? := by
  refine .bind .kind fun k => ?_
  split <;> exact .stay

theorem selections (h : L.Paying N) :
    L.Pays 0 (Grammar.selections N) fun q => L.total (.query q) := by
  have hselect (s : Select) : L.total (.query (.select s)) ≤ L.total (.select s) :=
    total_le rfl rfl (by simp [Component.fields])
  refine (selection h).seq fun first => .loop (I := fun q => L.total (.query q)) (fun left => ?_) ?_
  · refine .bind setOperator? fun op? => ?_
    cases op? with
    | none => exact .ret (le_refl _)
    | some op =>
      refine .bind .advance fun _ => .bind .consumeKeyword fun all => ?_
      extract_lets rest
      have hrest (u : Unit) : L.Pays (L.total (.query left)) (rest u)
          (round (fun q => L.total (.query q)) fun q => L.total (.query q)) := by
        refine (selection h).seq fun right => .ret (total_le rfl rfl ?_)
        simpa [Component.fields] using add_le_add_right (hselect right) _
      exact .ite (fun _ => hrest ()) fun _ => .bind .skipKeyword hrest
  · simpa using hselect first

/-! ## Named queries -/

theorem commonTable (h : L.Paying N) :
    L.Pays 0 (Grammar.commonTable N) fun t => L.total (.commonTable t) := by
  refine .bind .name fun name => .bind .columnNames? fun columns => .bind .expectKeyword fun _ => ?_
  exact (inParens h.query).seq fun q => .ret (total_le rfl rfl (by simp [Component.fields]))

/-- A statement that is a query is worth at least the query. -/
theorem total_of_query? {s : Statement} {q : Query} (hs : s.query? = some q) :
    L.total (.query q) = L.total (.statement s) := by
  cases s with
  | query =>
    cases hs
    simp [L.total_eq (.statement _), own, Component.fields, Component.ofStatement,
      Component.pooledKind?, Component.isSupported, Component.mayHide]
  | _ => cases hs

theorem withTables (h : L.Paying N) :
    L.Pays 0 (Grammar.withTables N) fun q => L.total (.query q) := by
  refine .bind .expectKeyword fun _ => .bind .consumeKeyword fun recursive => ?_
  refine (list (commonTable h)).seq fun tables => .bind .span fun place => ?_
  refine h.statement.seq fun body => ?_
  split
  · next q hq =>
    rw [← total_of_query? hq]
    exact .ret (total_le rfl rfl (by simp [Component.fields]))
  · exact .fail trivial nofun

theorem query (h : L.Paying N) : L.Pays 0 (Grammar.query N) fun q => L.total (.query q) :=
  .bindIf .checkKeyword (withTables h) (.bindIf .checkKeyword (selections h) .expected)

/-! ## Changes of rows -/

theorem assignments (h : L.Paying N) : L.Pays 0 (Grammar.assignments N) (L.each .assignment) := by
  refine .list (.bind .qualifiedName fun target => .bindUnless .consume .expect ?_)
  exact h.expression.seq fun e => .ret (total_le rfl rfl (by simp [Component.fields]))

theorem insertSource (h : L.Paying N) :
    L.Pays 0 (Grammar.insertSource N) fun source => L.total (.insertSource source) := by
  refine .bindIf .consumeKeyword ((list (inParens (expressions h))).map fun rows => ?_) ?_
  · exact total_le rfl rfl (by simp [Component.fields])
  refine .bindIf .consumeKeyword (.bind .expectKeyword fun _ => .ret ?_) ?_
  · exact total_le rfl rfl (le_refl 0)
  refine .bind .checkKeyword fun _ => .bind .checkKeyword fun _ =>
    .ite (fun _ => h.query.map fun q => ?_) fun _ => .expected
  exact total_le rfl rfl (by simp [Component.fields])

theorem insert (h : L.Paying N) : L.Pays 0 (Grammar.insert N) fun i => L.total (.insert i) := by
  refine .bind .expectKeyword fun _ => .bind .skipKeyword fun _ => .bind .objectName fun table => ?_
  refine .bind .columnNames? fun columns => (insertSource h).seq fun source => .ret ?_
  exact total_le rfl rfl (by simp [Component.fields])

theorem update (h : L.Paying N) : L.Pays 0 (Grammar.update N) fun u => L.total (.update u) := by
  refine .bind .expectKeyword fun _ => (tableRef h).seq fun table => .bind .expectKeyword fun _ => ?_
  refine (assignments h).seq fun assignments => (behind (list (tableRef h))).seq fun tables => ?_
  refine (behind h.expression).seq fun condition => .ret (total_le rfl rfl ?_)
  simp [Component.fields, add_assoc]

theorem delete (h : L.Paying N) : L.Pays 0 (Grammar.delete N) fun d => L.total (.delete d) := by
  refine .bind .expectKeyword fun _ => .bind .skipKeyword fun _ => (tableRef h).seq fun table => ?_
  refine (behind h.expression).seq fun condition => .ret (total_le rfl rfl ?_)
  simp [Component.fields]

end SqlFrontend.Ledger.Pays
