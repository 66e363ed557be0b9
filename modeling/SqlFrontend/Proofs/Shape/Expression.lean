import SqlFrontend.Grammar.Expression
import SqlFrontend.Proofs.Shape.Names
import SqlFrontend.Proofs.Tree.Shape

/-!
# The shape of expressions

* `Grammar.Nested.Shaped`: the readings of nested constructs yield well shaped trees.
* `Yields.expression`, `Yields.primary`: expressions and operands are well shaped at any depth, for such
  readings.
-/

namespace SqlFrontend

/-- The readings of the constructs that other constructs hold yield well shaped trees. -/
structure Grammar.Nested.Shaped (N : Grammar.Nested) : Prop where
  expression : ∀ {P}, N.expression.Yields P fun e _ => Shapely e.parts
  primary : ∀ {P}, N.primary.Yields P fun e _ => Shapely e.parts
  selections : ∀ {P}, N.selections.Yields P fun q _ => q.isSelections ∧ Shapely q.parts
  query : ∀ {P}, N.query.Yields P fun q _ => Shapely q.parts
  statement : ∀ {P}, N.statement.Yields P fun s _ => s.WellFormed
  block : ∀ {P}, N.block.Yields P fun b _ => Shapely b.parts

namespace Production.Yields

variable {P : Parser → Prop} {N : Grammar.Nested}

/-! ## Operators -/

theorem binaryOperand (h : N.Shaped) {left : Expr} {op : BinaryOperator}
    (hleft : Shapely left.parts) :
    Yields P (Grammar.binaryOperand N left op) fun e _ => Shapely e.parts := by
  refine .bind .acquireBinary fun node => .seq (.onFailure h.primary fun pools hpools => ?_) ?_
  · exact ⟨hpools.select, NodePool.release_isFresh hpools.binary _, hpools.column, hpools.join⟩
  · exact fun right hright => .ret fun _ _ => by simp [hleft, hright]

/-- Expressions in a list, at least one. -/
theorem expressions (h : N.Shaped) : Yields P (Production.list N.expression)
    fun items _ => items ≠ [] ∧ ∀ e ∈ items, Shapely e.parts := .list h.expression

theorem candidates (h : N.Shaped) {expr : Expr} {negated : Bool} (hexpr : Shapely expr.parts) :
    Yields P (Grammar.candidates N) fun values _ => Shapely (Expr.among expr negated values).parts := by
  refine .inParens (.bindIf .checkKeyword (.map ?_) (.map ?_))
  · exact h.selections.mono fun q _ hq => by simpa [hexpr] using hq
  · exact (expressions h).mono fun items _ hitems => by simpa [hexpr] using hitems

theorem applyOperator (h : N.Shaped) {left : Expr} {op : Grammar.Operator}
    (hleft : Shapely left.parts) :
    Yields P (Grammar.applyOperator N left op) fun e _ => Shapely e.parts := by
  cases op with
  | binary op => exact binaryOperand h hleft
  | among negated => exact .map (f := Expr.among left negated) (candidates h hleft)
  | between negated =>
    refine .seq h.primary fun low hlow => .bind .expectKeyword fun _ => ?_
    exact .seq h.primary fun high hhigh => .ret fun _ _ => by simp [hleft, hlow, hhigh]
  | truth => exact .bind .consumeKeyword fun negated => binaryOperand h hleft
  | cast => exact .bind .dataType fun _ => .ret fun _ _ => by simp [hleft]

/-! ## Calls -/

theorem sortItems (h : N.Shaped) : Yields P (Grammar.sortItems N)
    fun items _ => items ≠ [] ∧ ∀ item ∈ items, Shapely item.expr.parts := by
  refine .list (.seq h.expression fun expr hexpr => .bind .consumeKeyword fun descending => ?_)
  extract_lets rest
  have hrest (direction : SortDirection) :
      Yields (fun _ => True) (rest direction) fun item _ => Shapely item.expr.parts := by
    refine .bind (.behind (G := fun _ => True) (.bindIf .consumeKeyword .stay ?_)) fun nulls =>
      .ret fun _ _ => hexpr
    exact .bind .expectKeyword fun _ => .stay
  exact .ite (fun _ => .retThen (hrest _)) fun _ => .bind .skipKeyword fun _ => .retThen (hrest _)

theorem frameDirection : Yields P Grammar.frameDirection fun _ _ => True :=
  .bindIf .consumeKeyword .stay (.bindIf .consumeKeyword .stay .expected)

theorem frameBound (h : N.Shaped) :
    Yields P (Grammar.frameBound N) fun b _ => Shapely b.parts := by
  refine .bindIf .consumeKeyword (.bind frameDirection fun _ => .ret fun _ _ => ?_) ?_
  · simp [FrameBound.Shaped]
  refine .bindIf .consumeKeyword (.bind .expectKeyword fun _ => .ret fun _ _ => ?_) ?_
  · simp [FrameBound.Shaped]
  refine .seq h.primary fun count hcount => .bind frameDirection fun _ => .ret fun _ _ => ?_
  simp [FrameBound.Shaped, hcount]

theorem windowFrame (h : N.Shaped) : Yields P (Grammar.windowFrame N)
    fun f _ => Shapely (WindowFrame.partsOption (some f)) := by
  refine .bind .consumeKeyword fun rows => ?_
  extract_lets rest
  have hrest (unit : FrameUnit) : Yields (fun _ => True) (rest unit)
      fun f _ => Shapely (WindowFrame.partsOption (some f)) := by
    refine .bindIf .consumeKeyword (.seq (frameBound h) fun start hstart => ?_) ?_
    · refine .bind .expectKeyword fun _ => .seq (frameBound h) fun stop hstop => .ret fun _ _ => ?_
      simp [hstart, hstop]
    · exact .seq (frameBound h) fun start hstart => .ret fun _ _ => by simp [hstart]
  exact .ite (fun _ => .retThen (hrest _)) fun _ => .bind .expectKeyword fun _ => .retThen (hrest _)

/-- The items behind a word, if it is there. -/
theorem behindOr {α : Type} {word : Keyword} {items : Production (List α)} {G : α → Prop}
    (h : Yields (fun _ => True) items fun items _ => items ≠ [] ∧ ∀ a ∈ items, G a) :
    Yields P (Production.behind word items) fun items _ => ∀ a ∈ items.getD [], G a :=
  (Yields.behind h).mono fun items _ hitems => by
    cases items with
    | none => nofun
    | some items => exact (hitems items rfl).2

theorem window (h : N.Shaped) : Yields P (Grammar.window N) fun w _ => Shapely w.parts := by
  refine .bind .expectKeyword fun _ => .inParens ?_
  refine .seq (behindOr (.bind .expectKeyword fun _ => expressions h)) fun partitionBy hpartition => ?_
  refine .seq (behindOr (.bind .expectKeyword fun _ => sortItems h)) fun orderBy horder => ?_
  refine .bind .checkKeyword fun _ => .bind .checkKeyword fun _ => ?_
  extract_lets rest
  have hrest (frame : Option WindowFrame) (hframe : Shapely (WindowFrame.partsOption frame)) :
      Yields (fun _ => True) (rest frame) fun w _ => Shapely w.parts :=
    .ret fun _ _ => by
      simp only [Window.parts, shapely_append, Expr.shapely_partsAll, SortItem.shapely_partsAll]
      exact ⟨⟨hpartition, horder⟩, hframe⟩
  refine .ite (fun _ => .seq (.map (windowFrame h)) hrest) fun _ => .retThen (hrest none ?_)
  exact shapely_nil

theorem callArguments (h : N.Shaped) : Yields P (Grammar.callArguments N)
    fun call _ => ∀ e ∈ call.2, Shapely e.parts := by
  refine .inParens (.bindIf .check (.ret fun _ _ => by simp) (.bind .consumeKeyword fun distinct => ?_))
  extract_lets rest
  have hrest (u : Unit) :
      Yields (fun _ => True) (rest u) fun call _ => ∀ e ∈ call.2, Shapely e.parts :=
    .seq (expressions h) fun args hargs => .ret fun _ _ => hargs.2
  exact .ite (fun _ => hrest ()) fun _ => .bind .skipKeyword hrest

theorem functionCall (h : N.Shaped) {name : String} :
    Yields P (Grammar.functionCall N name) fun e _ => Shapely e.parts := by
  refine .seq (callArguments h) fun call hcall => ?_
  refine .bindIf .checkKeyword (.seq (window h) fun spec hspec => .ret fun _ _ => ?_)
    (.ret fun _ _ => ?_)
  · simpa [hspec] using hcall
  · simpa using hcall

theorem nameExpression (h : N.Shaped) (hname : ∀ p, P p → p.current.kind.isProper) :
    Yields P (Grammar.nameExpression N) fun e _ => Shapely e.parts := by
  refine .bind (.take fun p hp _ => hname p hp) fun first =>
    .loop (I := fun _ => True) (fun (qualifier, name) _ => ?_) trivial
  refine .bindIf .consume ?_ ?_
  · refine .bindIf .consume (.ret fun _ _ => ?_) (.bind .name fun _ => .stay)
    simp [Round]
  · refine .bindIf .check (.seq (functionCall h) fun e he => .ret fun _ _ => he) ?_
    exact .bind .acquireColumn fun node => .ret fun _ _ => by simp [Round]

/-! ## Operands -/

theorem number (hnumber : ∀ p, P p → p.current.kind.isProper) :
    Yields P Grammar.number fun e _ => Shapely e.parts := by
  refine .bind .span fun place => .bind (.take fun p hp _ => hnumber p hp) fun text => ?_
  split
  · exact .ret fun _ _ => by simp
  · exact .fail

theorem grouped (h : N.Shaped) : Yields P (Grammar.grouped N) fun e _ => Shapely e.parts := by
  refine .inParens (.bindIf .checkKeyword (.map ?_) h.expression)
  exact h.selections.mono fun q _ hq => by simpa using hq

theorem rowTest (h : N.Shaped) {negated : Bool} :
    Yields P (Grammar.rowTest N negated) fun e _ => Shapely e.parts :=
  .bind .expectKeyword fun _ => .seq (.inParens h.selections) fun q hq =>
    .ret fun _ _ => by simpa using hq

theorem castCall (h : N.Shaped) : Yields P (Grammar.castCall N) fun e _ => Shapely e.parts := by
  refine .bind .expectKeyword fun _ => .inParens (.seq h.expression fun expr hexpr => ?_)
  exact .bind .expectKeyword fun _ => .bind .dataType fun _ => .ret fun _ _ => by simp [hexpr]

theorem choice (h : N.Shaped) : Yields P (Grammar.choice N) fun e _ => Shapely e.parts := by
  refine .bind .expectKeyword fun _ => .bind .checkKeyword fun isBare => ?_
  extract_lets rest
  have hrest (input : Option Expr) (hinput : ∀ e ∈ input, Shapely e.parts) :
      Yields (fun _ => True) (rest input) fun e _ => Shapely e.parts := by
    refine .seq (.many (G := fun b => Shapely b.condition.parts ∧ Shapely b.result.parts)
      (.behind ?_)) fun branches hbranches => .ite (fun _ => ?_) fun hsome => ?_
    · refine .seq h.expression fun condition hcondition => .bind .expectKeyword fun _ => ?_
      exact .seq h.expression fun result hresult => .ret fun _ _ => ⟨hcondition, hresult⟩
    · exact .bind .get fun p => .ite (fun _ => .expected) fun _ => .bind .span fun _ => .fail
    · refine .seq (.behind h.expression) fun otherwise hotherwise => .bind .expectKeyword fun _ =>
        .ret fun _ _ => ?_
      have hne : branches ≠ [] := by simpa using hsome
      simpa [hne] using ⟨hinput, hbranches, hotherwise⟩
  exact .ite (fun _ => .retThen (hrest none nofun)) fun _ => .seq (.mapSome h.expression) hrest

theorem primary (h : N.Shaped) : Yields P (Grammar.primary N) fun e _ => Shapely e.parts := by
  refine .bind .kind fun k => ?_
  split
  · exact number fun p hp => by simp [hp.2, TokenKind.isProper]
  · exact .bind .takeLiteral fun _ => .ret fun _ _ => by simp
  · exact .bind .takeLiteral fun _ => .ret fun _ _ => by simp
  · exact .bind .advance fun _ => .ret fun _ _ => by simp
  · exact grouped h
  · exact .bind .advance fun _ => .seq h.primary fun e he => .ret fun _ _ => by simp [he]
  · exact .bind .advance fun _ => .seq h.primary fun e he => .ret fun _ _ => by simp [he]
  · exact .bind .advance fun _ => .ret fun _ _ => by simp
  · exact .bind .advance fun _ => .ret fun _ _ => by simp
  · exact .bind .advance fun _ => .ret fun _ _ => by simp
  · exact choice h
  · exact rowTest h
  · refine .bindIf .peekKeyword (.bind .advance fun _ => rowTest h) ?_
    exact .bind .advance fun _ => .seq h.expression fun e he => .ret fun _ _ => by simp [he]
  · exact castCall h
  iterate 3
    · refine .bindIf .checkPeek (nameExpression h fun p hp => ?_) .expected
      simp [hp.1.2, TokenKind.isProper]
  · exact .bindIf .atName (nameExpression h fun p hp => hp.2 rfl) .expected

/-- The tokens that spell an operator are proper. -/
theorem isProper_of_operator? {current next : TokenKind} {op : Grammar.Operator} {n : ℕ}
    (h : Grammar.operator? current next = some (op, n)) :
    current.isProper ∧ (n = 1 ∨ n = 2 ∧ next.isProper) := by
  unfold Grammar.operator? at h
  split at h
  · cases h; simp [TokenKind.isProper]
  · cases h; simp [TokenKind.isProper]
  · cases h; simp [TokenKind.isProper]
  · cases h; simp [TokenKind.isProper]
  · split at h <;> cases h <;> simp [TokenKind.isProper]
  · obtain ⟨op', hop, hsome⟩ := Option.map_eq_some_iff.1 h
    cases hsome
    refine ⟨?_, .inl rfl⟩
    cases current <;> first | rfl | cases hop

theorem advanceBy {n : ℕ} (h : ∀ p, P p → p.current.kind.isProper ∧
      (n = 1 ∨ n = 2 ∧ p.peek.kind.isProper)) :
    Yields P (Grammar.advanceBy n) fun _ _ => True := by
  by_cases hn : n = 1
  · rw [hn]
    exact .bind (.pass fun p hp _ => (h p hp).1) fun _ => .stay
  by_cases hn' : n = 2
  · rw [hn']
    refine .bind (.passTo fun p hp _ => ?_) fun _ => .bind .advance fun _ => .stay
    exact ⟨(h p hp).1, ((h p hp).2.resolve_left hn).2⟩
  · exact fun p _ hP => absurd ((h p hP).2.resolve_left hn).1 hn'

theorem expression (h : N.Shaped) :
    Yields P (Grammar.expression N) fun e _ => Shapely e.parts := by
  refine .seq (primary h) fun first hfirst =>
    .loop (I := fun e => Shapely e.parts) (fun left hleft => ?_) hfirst
  refine .bind .kind fun k => .bind .peekKind fun next => ?_
  split
  · next op width hop =>
    refine .bind (advanceBy fun p hp => ?_) fun _ =>
      .seq (applyOperator h hleft) fun e he => .ret fun _ _ => he
    obtain ⟨⟨-, rfl⟩, rfl⟩ := hp
    exact isProper_of_operator? hop
  · exact .ret fun _ _ => hleft

theorem atExpressionStart : Yields P Grammar.atExpressionStart fun _ _ => True := by
  refine .bind .kind fun k => ?_
  split
  all_goals first | exact .stay | exact .quiet .checkPeek | skip
  exact .bind .atName fun isName => .bind .get fun p => .stay

end Production.Yields

end SqlFrontend
