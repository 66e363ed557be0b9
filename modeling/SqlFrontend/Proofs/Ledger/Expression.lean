import SqlFrontend.Grammar.Expression
import SqlFrontend.Proofs.Ledger.Names

/-!
# What expressions are charged for

* `Ledger.Paying`: the readings of nested constructs make what was paid for.
* `Pays.expression`, `Pays.primary`: so do those of expressions and operands, for such readings. An
  operator and a column are nodes from pools.
-/

namespace SqlFrontend.Ledger

variable {M : Type} [AddCommMonoid M] [PartialOrder M] [IsOrderedAddMonoid M] {L : Ledger M}

/-- The readings of the constructs that other constructs hold make what was paid for. -/
structure Paying (L : Ledger M) (N : Grammar.Nested) : Prop where
  below : ∃ bound, N = .below bound
  expression : L.Pays 0 N.expression fun e => L.total (.expr e)
  primary : L.Pays 0 N.primary fun e => L.total (.expr e)
  selections : L.Pays 0 N.selections fun q => L.total (.query q)
  query : L.Pays 0 N.query fun q => L.total (.query q)
  statement : L.Pays 0 N.statement fun s => L.total (.statement s)
  block : L.Pays 0 N.block fun b => L.total (.block b)

/-- An expression is worth no more than what it is made of. -/
theorem total_expr_le {e : Expr} {x : M} (h : L.sum (Component.ofExpr e) ≤ x) :
    L.total (.expr e) ≤ x := total_le rfl rfl h

namespace Pays

variable {N : Grammar.Nested} {budget : M}

/-! ## Operators -/

/-- What is done with a value behind a production may be done before its failure counts. -/
theorem onFailure_bind {α β : Type} (m : Production α) (change : Pools → Pools) (g : α → β) :
    (Production.onFailure m change >>= fun a => Pure.pure (g a)) =
      Production.onFailure (g <$> m) change := by
  funext p
  rw [Production.run_bind, Production.onFailure, Production.onFailure, Production.run_map]
  cases m p <;> rfl

theorem binaryOperand (h : L.Paying N) {left : Expr} {op : BinaryOperator} :
    L.Pays (L.total (.expr left)) (Grammar.binaryOperand N left op) fun e => L.total (.expr e) := by
  have hform : Grammar.binaryOperand N left op = Production.acquireBinary >>= fun node =>
      Production.onFailure ((fun right => Expr.binary { node with left, op, right }) <$> N.primary)
        fun pools => { pools with binary := pools.binary.release { node with left, op } } := by
    simp only [← onFailure_bind]
    rfl
  rw [hform]
  refine taking .binary (fun pools => pools.binary.acquire.1) (G := fun _ => True) (fun _ => rfl)
    (fun _ _ => trivial) (fun node _ => ⟨.binary { node with left, op }, rfl, rfl⟩) fun node _ => ?_
  refine h.primary.map fun right => total_expr_le ?_
  have hnode := total_node_le (L := L) (c := .binary ⟨left, op, right⟩) rfl
  simpa [Component.ofExpr, Component.fields, add_comm, add_left_comm, add_assoc] using hnode

/-- Expressions in a list, at least one. -/
theorem expressions (h : L.Paying N) : L.Pays 0 (Production.list N.expression) (L.each .expr) :=
  .list h.expression

theorem candidates (h : L.Paying N) :
    L.Pays 0 (Grammar.candidates N) fun values => L.total (.candidates values) := by
  refine .inParens (.bindIf .checkKeyword (h.selections.map fun q => ?_)
    ((expressions h).map fun items => ?_))
  · exact total_le rfl rfl (by simp [Component.fields])
  · exact total_le rfl rfl (by simp [Component.fields])

theorem applyOperator (h : L.Paying N) {left : Expr} {op : Grammar.Operator} :
    L.Pays (L.total (.expr left)) (Grammar.applyOperator N left op) fun e => L.total (.expr e) := by
  cases op with
  | binary op => exact binaryOperand h
  | among negated =>
    exact (candidates h).seq fun values => .ret (total_expr_le (by simp [Component.ofExpr]))
  | between negated =>
    refine h.primary.seq fun low => .bind .expectKeyword fun _ => h.primary.seq fun high => .ret ?_
    exact total_expr_le (by simp [Component.ofExpr, add_assoc])
  | truth => exact .bind .consumeKeyword fun negated => binaryOperand h
  | cast => exact dataType.seq fun type => .ret (total_expr_le (by simp [Component.ofExpr]))

/-! ## Calls -/

theorem sortItems (h : L.Paying N) : L.Pays 0 (Grammar.sortItems N) (L.each .sortItem) := by
  refine .list (h.expression.seq fun expr => .bind .consumeKeyword fun descending => ?_)
  extract_lets rest
  have hrest (direction : SortDirection) : L.Pays (0 + L.total (.expr expr)) (rest direction)
      fun item => L.total (.sortItem item) := by
    refine .bind (.behindQuiet (.bindIf .consumeKeyword .stay ?_)) fun nulls => .ret ?_
    · exact .bind .expectKeyword fun _ => .stay
    · exact total_le rfl rfl (by simp [Component.fields])
  exact .ite (fun _ => .retThen (hrest _)) fun _ => .bind .skipKeyword fun _ => .retThen (hrest _)

theorem frameDirection : L.Quiet Grammar.frameDirection :=
  .bindIf .consumeKeyword .stay (.bindIf .consumeKeyword .stay .expected)

theorem frameBound (h : L.Paying N) :
    L.Pays 0 (Grammar.frameBound N) fun b => L.total (.frameBound b) := by
  refine .bindIf .consumeKeyword (.bind frameDirection fun _ => .ret ?_) ?_
  · exact total_le rfl rfl (le_refl 0)
  refine .bindIf .consumeKeyword (.bind .expectKeyword fun _ => .ret ?_) ?_
  · exact total_le rfl rfl (le_refl 0)
  refine h.primary.seq fun count => .bind frameDirection fun _ => .ret ?_
  exact total_le rfl rfl (by simp [Component.fields])

theorem windowFrame (h : L.Paying N) :
    L.Pays 0 (Grammar.windowFrame N) fun f => L.total (.frame f) := by
  refine .bind .consumeKeyword fun rows => ?_
  extract_lets rest
  have hrest (unit : FrameUnit) : L.Pays 0 (rest unit) fun f => L.total (.frame f) := by
    refine .bindIf .consumeKeyword ?_ ?_
    · refine (frameBound h).seq fun start => .bind .expectKeyword fun _ =>
        (frameBound h).seq fun stop => .ret ?_
      exact total_le rfl rfl (by simp [Component.fields])
    · exact (frameBound h).seq fun start => .ret (total_le rfl rfl (by simp [Component.fields]))
  exact .ite (fun _ => .retThen (hrest _)) fun _ => .bind .expectKeyword fun _ => .retThen (hrest _)

theorem window (h : L.Paying N) : L.Pays 0 (Grammar.window N) fun w => L.total (.window w) := by
  refine .bind .expectKeyword fun _ => .inParens ?_
  refine .seq (.behind (.bind .expectKeyword fun _ => expressions h)) fun partitionBy => ?_
  refine .seq (.behind (.bind .expectKeyword fun _ => sortItems h)) fun orderBy => ?_
  refine .bind .checkKeyword fun _ => .bind .checkKeyword fun _ => ?_
  extract_lets rest
  have hrest (frame : Option WindowFrame) :
      L.Pays (0 + partitionBy.elim 0 (L.each .expr) + orderBy.elim 0 (L.each .sortItem) +
        L.maybe .frame frame) (rest frame) fun w => L.total (.window w) := by
    exact .ret (total_le rfl rfl (by simp [Component.fields, add_assoc]))
  refine .ite (fun _ => (windowFrame h).mapSome.seq hrest) fun _ => .retThen ?_
  simpa using hrest none

theorem callArguments (h : L.Paying N) :
    L.Pays 0 (Grammar.callArguments N) fun call => L.each .expr call.2 := by
  refine .inParens (.bindIf .check (.ret (le_refl 0)) (.bind .consumeKeyword fun distinct => ?_))
  extract_lets rest
  have hrest (u : Unit) : L.Pays 0 (rest u) fun call => L.each .expr call.2 :=
    (expressions h).seq fun args => .ret (by simp)
  exact .ite (fun _ => hrest ()) fun _ => .bind .skipKeyword hrest

theorem total_call (call : Call) : L.total (.call call) ≤ L.each .expr call.args :=
  total_le (L := L) rfl rfl (by simp [Component.fields])

theorem functionCall (h : L.Paying N) {name : String} :
    L.Pays 0 (Grammar.functionCall N name) fun e => L.total (.expr e) := by
  refine (callArguments h).seq fun call => .bindIf .checkKeyword ?_ (.ret (total_expr_le ?_))
  · refine (window h).seq fun spec => .ret (total_expr_le ?_)
    simpa [Component.ofExpr] using
      add_le_add_left (total_call (L := L) ⟨name, call.2, call.1⟩) (L.total (.window spec))
  · simpa [Component.ofExpr] using total_call (L := L) ⟨name, call.2, call.1⟩

theorem nameExpression (h : L.Paying N) :
    L.Pays 0 (Grammar.nameExpression N) fun e => L.total (.expr e) := by
  refine .bind .takeLiteral fun first => .loop (I := fun _ => 0) (fun (qualifier, name) => ?_)
    (le_refl 0)
  refine .bindIf .consume ?_ (.bindIf .check ?_ ?_)
  · refine .bindIf .consume (.ret ?_) (.bind .name fun _ => .ret (le_refl 0))
    exact total_expr_le (le_refl 0)
  · exact (functionCall h).seq fun e => .ret (zero_add _).ge
  · refine acquireColumn.seq fun node => .ret (total_expr_le ?_)
    have hnode := total_node_le (L := L) (c := .column ⟨qualifier, name⟩) rfl
    simpa [Component.ofExpr, Component.fields] using hnode

/-! ## Operands -/

theorem number : L.Pays 0 Grammar.number fun e => L.total (.expr e) := by
  refine .bind .span fun place => .bind .takeLiteral fun text => ?_
  split
  · exact .ret (total_expr_le (le_refl 0))
  · exact .fail trivial nofun

theorem grouped (h : L.Paying N) : L.Pays 0 (Grammar.grouped N) fun e => L.total (.expr e) := by
  refine .inParens (.bindIf .checkKeyword (h.selections.map fun q => ?_) h.expression)
  exact total_expr_le (by simp [Component.ofExpr])

theorem rowTest (h : L.Paying N) {negated : Bool} :
    L.Pays 0 (Grammar.rowTest N negated) fun e => L.total (.expr e) :=
  .bind .expectKeyword fun _ => (inParens h.selections).seq fun q =>
    .ret (total_expr_le (by simp [Component.ofExpr]))

theorem castCall (h : L.Paying N) : L.Pays 0 (Grammar.castCall N) fun e => L.total (.expr e) := by
  refine .bind .expectKeyword fun _ => .inParens (h.expression.seq fun expr => ?_)
  refine .bind .expectKeyword fun _ => dataType.seq fun type => .ret ?_
  exact total_expr_le (by simp [Component.ofExpr])

theorem choice (h : L.Paying N) : L.Pays 0 (Grammar.choice N) fun e => L.total (.expr e) := by
  refine .bind .expectKeyword fun _ => .bind .checkKeyword fun isBare => ?_
  extract_lets rest
  have hbranch : L.Pays 0
      (Production.behind .WHEN do
        let condition ← N.expression
        Production.expectKeyword .THEN
        return Branch.mk condition (← N.expression))
      (L.maybe .branch) := by
    refine .behind (h.expression.seq fun condition => .bind .expectKeyword fun _ =>
      h.expression.seq fun result => .ret ?_)
    exact total_le rfl rfl (by simp [Component.fields])
  have hrest (input : Option Expr) :
      L.Pays (L.maybe .expr input) (rest input) fun e => L.total (.expr e) := by
    refine (many hbranch).seq fun branches => .ite (fun _ => ?_) fun _ => ?_
    · exact .bindGet (fun _ => rfl) fun p =>
        .ite (fun _ => .expected) fun _ => .bind .span fun _ => .fail trivial nofun
    · refine (behind h.expression).seq fun otherwise => .bind .expectKeyword fun _ => .ret ?_
      exact total_expr_le (by simp [Component.ofExpr, add_assoc])
  refine .ite (fun _ => .retThen (hrest none)) fun _ => h.expression.mapSome.seq fun input => ?_
  rw [zero_add]
  exact hrest input

theorem primary (h : L.Paying N) : L.Pays 0 (Grammar.primary N) fun e => L.total (.expr e) := by
  have hleaf {e : Expr} (hleaf : Component.ofExpr e = []) :
      L.Pays 0 (Pure.pure e) fun e => L.total (.expr e) :=
    .ret (total_expr_le (by rw [hleaf]; exact le_refl 0))
  have hunary {op : UnaryOperator} {m : Production Expr}
      (hm : L.Pays 0 m fun e => L.total (.expr e)) :
      L.Pays 0 (do return Expr.unary op (← m)) fun e => L.total (.expr e) :=
    hm.seq fun e => .ret (total_expr_le (by simp [Component.ofExpr]))
  refine .bind .kind fun k => ?_
  split
  · exact number
  · exact .bind .takeLiteral fun _ => hleaf rfl
  · exact .bind .takeLiteral fun _ => hleaf rfl
  · exact .bind .advance fun _ => hleaf rfl
  · exact grouped h
  · exact .bind .advance fun _ => hunary h.primary
  · exact .bind .advance fun _ => hunary h.primary
  · exact .bind .advance fun _ => hleaf rfl
  · exact .bind .advance fun _ => hleaf rfl
  · exact .bind .advance fun _ => hleaf rfl
  · exact choice h
  · exact rowTest h
  · refine .bindIf .peekKeyword (.bind .advance fun _ => rowTest h) ?_
    exact .bind .advance fun _ => hunary h.expression
  · exact castCall h
  iterate 3
    · exact .bindIf .checkPeek (nameExpression h) .expected
  · exact .bindIf .atName (nameExpression h) .expected

theorem advanceBy {n : ℕ} : L.Quiet (Grammar.advanceBy n) := by
  induction n with
  | zero => exact .stay
  | succ n ih => exact .bind .advance fun _ => ih

theorem expression (h : L.Paying N) :
    L.Pays 0 (Grammar.expression N) fun e => L.total (.expr e) := by
  refine (primary h).seq fun first => .loop (I := fun e => L.total (.expr e)) (fun left => ?_)
    (zero_add _).ge
  refine .bind .kind fun k => .bind .peekKind fun next => ?_
  split
  · exact .bind advanceBy fun _ => (applyOperator h).chain fun e _ => .ret (le_refl _)
  · exact .ret (le_refl _)

theorem atExpressionStart : L.Quiet Grammar.atExpressionStart := by
  refine .bind .kind fun k => ?_
  split
  all_goals first | exact .stay | exact .checkPeek | skip
  exact .bind .atName fun isName => .bindGet (fun _ => rfl) fun p => .stay

end Pays

end SqlFrontend.Ledger
