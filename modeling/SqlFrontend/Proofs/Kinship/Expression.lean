import SqlFrontend.Grammar.Expression
import SqlFrontend.Proofs.Kinship.Names
import SqlFrontend.Proofs.Kinship.Nested

/-!
# Expressions of texts that are kin

* `Kindred.expression`, `Kindred.primary`: expressions and operands, for readings of the constructs
  nested in them that are kindred.
* `Kindred.atExpressionStart`: the word that ends a batch starts no expression.
-/

namespace SqlFrontend

/-! ## The end of the text -/

namespace Production.Ends

variable {N : Grammar.Nested} {stopped : Bool}

theorem primary {S : Expr → Prop} : Ends stopped .eof (Grammar.primary N) S :=
  bindKind (bindIf atName expected)

theorem expression {S : Expr → Prop} : Ends stopped .eof (Grammar.expression N) S := primary.fails

end Production.Ends

namespace Kinship

/-- Every operator is spelt by the tokens that it was told by, and none of them is a point. -/
theorem operator?_width {k next : TokenKind} {op : Grammar.Operator} {width : ℕ}
    (h : Grammar.operator? k next = some (op, width)) :
    k.isPlain ∧ (width = 1 ∨ width = 2 ∧ next.isMore ∧ next.isPlain) := by
  unfold Grammar.operator? at h
  split at h
  · cases h; exact ⟨rfl, .inl rfl⟩
  · cases h; exact ⟨rfl, .inl rfl⟩
  · cases h; exact ⟨rfl, .inl rfl⟩
  · cases h; exact ⟨rfl, .inl rfl⟩
  · split at h
    · cases h; exact ⟨rfl, .inr ⟨rfl, rfl, rfl⟩⟩
    · cases h; exact ⟨rfl, .inr ⟨rfl, rfl, rfl⟩⟩
    · cases h; exact ⟨rfl, .inr ⟨rfl, rfl, rfl⟩⟩
    · cases h
  · obtain ⟨op', hop, heq⟩ := Option.map_eq_some_iff.1 h
    cases heq
    refine ⟨?_, .inl rfl⟩
    cases k <;> first | rfl | cases hop

/-- No operator is spelt by the end of a text or of a batch. -/
theorem operator?_last (k : TokenKind) :
    Grammar.operator? k .eof = Grammar.operator? k .identifier := by
  unfold Grammar.operator?
  split <;> rfl

namespace Kindred

variable {G : Kinship} {P : Parser → Prop} {N N' : Grammar.Nested} {p q : Parser}

/-! ## Operators -/

theorem advanceBy {k next : TokenKind} {op : Grammar.Operator} {width : ℕ}
    (h : Grammar.operator? k next = some (op, width))
    (hP : ∀ p, P p → G.At k p ∧ (next ≠ .eof → p.peek.kind = next)) :
    G.Kindred P (Grammar.advanceBy width) (Grammar.advanceBy width) Eq := by
  obtain ⟨hdot, rfl | ⟨rfl, heof, hnext⟩⟩ := operator?_width h
  · have hk : Certain k.isPlain := ⟨hdot⟩
    exact .bind (.stage (Q := G.At k) .advance fun p hp => (hP p hp).1) fun _ => .stay
  · have hmore : Certain next.isMore := ⟨heof⟩
    have hplain : Certain next.isPlain := ⟨hnext⟩
    have hbehind : G.Kindred (G.At next) (Production.advance >>= fun _ => pure ())
        (Production.advance >>= fun _ => pure ()) Eq := .bind .advance fun _ => .stay
    refine .stage (.bindAdvanceTo hbehind) fun p hp => ?_
    exact ⟨(hP p hp).1.1, (hP p hp).2 (TokenKind.ne_eof_of_isMore heof)⟩

theorem binaryOperand (h : G.Nested N N') {left left' : Expr} {op : BinaryOperator}
    (hleft : Same G.goesOn left left') :
    G.Kindred P (Grammar.binaryOperand N left op) (Grammar.binaryOperand N' left' op)
      (Same G.goesOn) := by
  refine .bind .acquireBinary fun node => .bindSame (.onFailure h.primary.anywhere fun P hP => ?_)
    fun right right' hright => .ret ?_
  · exact ⟨⟨hP.select, NodePool.release_isFresh hP.binary _, hP.column, hP.join⟩,
      ⟨hP.select, NodePool.release_isFresh hP.binary _, hP.column, hP.join⟩⟩
  · cases hg : G.goesOn <;> simp_all [Same, mapTexts]

theorem candidates (h : G.Nested N N') :
    G.Kindred P (Grammar.candidates N) (Grammar.candidates N') (Same G.goesOn) := by
  refine .inParens (.bindIf (Test.kindred .checkKeyword) ?_ ?_)
  · refine .mapSame h.selections fun q q' hq => ?_
    cases hg : G.goesOn <;> simp_all [Same, mapTexts]
  · refine .mapSame (.listSame h.expression) fun xs xs' hxs => ?_
    cases hg : G.goesOn <;> simp_all [Same, mapTexts]

theorem applyOperator (h : G.Nested N N') {left left' : Expr} {op : Grammar.Operator}
    (hleft : Same G.goesOn left left') :
    G.Kindred P (Grammar.applyOperator N left op) (Grammar.applyOperator N' left' op)
      (Same G.goesOn) := by
  cases op with
  | binary op => exact .binaryOperand h hleft
  | among negated =>
    refine .bindSame (.candidates h) fun values values' hvalues => .ret ?_
    cases hg : G.goesOn <;> simp_all [Same, mapTexts]
  | between negated =>
    refine .bindSame h.primary.anywhere fun low low' hlow => .bind .expectKeyword fun _ => ?_
    refine .bindSame h.primary fun high high' hhigh => .ret ?_
    cases hg : G.goesOn <;> simp_all [Same, mapTexts]
  | truth => exact .bind .consumeKeyword fun negated => .binaryOperand h hleft
  | cast =>
    refine .bind .dataType fun type => .ret ?_
    cases hg : G.goesOn <;> simp_all [Same, mapTexts]

/-! ## Calls -/

theorem sortItems (h : G.Nested N N') :
    G.Kindred P (Grammar.sortItems N) (Grammar.sortItems N') (Same G.goesOn) := by
  refine .listSame (.bindSame h.expression fun expr expr' hexpr => ?_)
  refine .bind .consumeKeyword fun descending => ?_
  extract_lets rest rest'
  have hrest (direction : SortDirection) :
      G.Kindred Anywhere (rest direction) (rest' direction) (Same G.goesOn) := by
    refine .bind (.behind (.bindIf .consumeKeyword .stay ?_)) fun nulls => .ret ?_
    · exact .bind .expectKeyword fun _ => .stay
    · cases hg : G.goesOn <;> simp_all [Same, mapTexts]
  exact .ite (fun _ => .bind .stay hrest) fun _ => .bind .skipKeyword fun _ => .bind .stay hrest

theorem frameDirection : G.Kindred P Grammar.frameDirection Grammar.frameDirection Eq :=
  .bindIf .consumeKeyword .stay (.bindIf .consumeKeyword .stay .expected)

theorem frameBound (h : G.Nested N N') :
    G.Kindred P (Grammar.frameBound N) (Grammar.frameBound N') (Same G.goesOn) := by
  refine .bindIf .consumeKeyword (.bind .frameDirection fun _ => .ret (.refl _)) ?_
  refine .bindIf .consumeKeyword (.bind .expectKeyword fun _ => .ret (.refl _)) ?_
  refine .bindSame h.primary fun count count' hcount => .bind .frameDirection fun _ => .ret ?_
  cases hg : G.goesOn <;> simp_all [Same, mapTexts]

theorem windowFrame (h : G.Nested N N') :
    G.Kindred P (Grammar.windowFrame N) (Grammar.windowFrame N') (Same G.goesOn) := by
  refine .bind .consumeKeyword fun rows => ?_
  extract_lets rest rest'
  have hrest (unit : FrameUnit) :
      G.Kindred Anywhere (rest unit) (rest' unit) (Same G.goesOn) := by
    refine .bindIf .consumeKeyword (.bindSame (.frameBound h) fun start start' hstart => ?_)
      (.bindSame (.frameBound h) fun start start' hstart => .ret ?_)
    · refine .bind .expectKeyword fun _ => .bindSame (.frameBound h) fun stop stop' hstop => .ret ?_
      cases hg : G.goesOn <;> simp_all [Same, mapTexts]
    · cases hg : G.goesOn <;> simp_all [Same, mapTexts]
  exact .ite (fun _ => .bind .stay hrest) fun _ => .bind .expectKeyword fun _ => .bind .stay hrest

theorem window (h : G.Nested N N') :
    G.Kindred P (Grammar.window N) (Grammar.window N') (Same G.goesOn) := by
  refine .bind .expectKeyword fun _ => .inParens ?_
  refine .bindSame (.behindSame (.bind .expectKeyword fun _ => .listSame h.expression))
    fun partitionBy partitionBy' hpartition => ?_
  refine .bindSame (.behindSame (.bind .expectKeyword fun _ => .sortItems h))
    fun orderBy orderBy' horder => ?_
  refine .bind (Test.kindred .checkKeyword) fun _ => .bind (Test.kindred .checkKeyword) fun _ => ?_
  extract_lets rest rest'
  have hrest (frame frame' : Option WindowFrame) (hframe : Same G.goesOn frame frame') :
      G.Kindred Anywhere (rest frame) (rest' frame') (Same G.goesOn) := by
    refine .ret ?_
    have hpartitions := hpartition.option
    have horders := horder.option
    cases hg : G.goesOn <;> cases hpartitions <;> cases horders <;> simp_all [Same, mapTexts]
  refine .ite (fun _ => ?_) fun _ => .bindSame (.ret (.refl none)) hrest
  exact .bindSame (.mapSame (.windowFrame h) fun _ _ => .some) hrest

theorem callArguments (h : G.Nested N N') :
    G.Kindred P (Grammar.callArguments N) (Grammar.callArguments N') (Same G.goesOn) := by
  refine .inParens (.bindIf (Test.kindred .check) (.ret (.refl _)) (.bind .consumeKeyword fun distinct => ?_))
  extract_lets rest rest'
  have hrest (u : Unit) : G.Kindred Anywhere (rest u) (rest' u) (Same G.goesOn) := by
    refine .bindSame (.listSame h.expression) fun args args' hargs => .ret ?_
    cases hg : G.goesOn <;> simp_all [Same, mapTexts]
  exact .ite (fun _ => hrest ()) fun _ => .bind .skipKeyword hrest

theorem functionCall (h : G.Nested N N') {name name' : String} (hname : Same G.goesOn name name') :
    G.Kindred P (Grammar.functionCall N name) (Grammar.functionCall N' name') (Same G.goesOn) := by
  refine .bindSame (.callArguments h) fun (distinct, args) (distinct', args') hcall => ?_
  obtain ⟨hdistinct, hargs⟩ := hcall.prod
  refine .bindIf (Test.kindred .checkKeyword) (.bindSame (.window h) fun w w' hw => .ret ?_) (.ret ?_)
  · cases hg : G.goesOn <;> simp_all [Same, mapTexts]
  · cases hg : G.goesOn <;> simp_all [Same, mapTexts]

theorem nameExpression (h : G.Nested N N') (hP : ∀ p, P p → G.Here p ∧ p.current.kind ≠ .dot) :
    G.Kindred P (Grammar.nameExpression N) (Grammar.nameExpression N') (Same G.goesOn) := by
  refine .bindSame (.takeSame hP) fun first first' hfirst => ?_
  refine .loop (W := Same G.goesOn) (fun (qualifier, name) (qualifier', name') hboth => ?_) ?_
  · obtain ⟨hqualifier, hname⟩ := hboth.prod
    have hqualified := hqualifier.qualified hname
    refine .bindDot ?_ ?_ ?_
    · refine .bindIf .consume (.ret (.done ?_)) (.bindSame .name fun last last' hlast => ?_)
      · cases hg : G.goesOn <;> simp_all [Same, mapTexts]
      · refine .ret (.more ?_)
        cases hg : G.goesOn <;> simp_all [Same, mapTexts]
    · exact Production.Ends.bindIf .consume Production.Ends.name.fails
    · refine .bindIf (Test.kindred .check) ?_ (.bind .acquireColumn fun node => .ret (.done ?_))
      · exact .bindSame (.functionCall h hqualified) fun e e' he => .ret (.done he)
      · cases hg : G.goesOn <;> simp_all [Same, mapTexts, ColumnRef.mapTexts]
  · cases hg : G.goesOn <;> simp_all [Same, mapTexts]

/-! ## Operands -/

theorem number : G.Kindred (G.At .number) Grammar.number Grammar.number Eq := by
  refine .bindSpan fun s s' hs => .bind .takeLiteral fun text => ?_
  split
  · exact .stay
  · exact .fail hs (.refl _)

theorem grouped (h : G.Nested N N') :
    G.Kindred P (Grammar.grouped N) (Grammar.grouped N') (Same G.goesOn) := by
  refine .inParens (.bindIf (Test.kindred .checkKeyword) (.mapSame h.selections fun q q' hq => ?_)
    h.expression)
  cases hg : G.goesOn <;> simp_all [Same, mapTexts]

theorem rowTest (h : G.Nested N N') {negated : Bool} :
    G.Kindred P (Grammar.rowTest N negated) (Grammar.rowTest N' negated) (Same G.goesOn) := by
  refine .bind .expectKeyword fun _ => .bindSame (.inParens h.selections) fun q q' hq => .ret ?_
  cases hg : G.goesOn <;> simp_all [Same, mapTexts]

theorem castCall (h : G.Nested N N') :
    G.Kindred P (Grammar.castCall N) (Grammar.castCall N') (Same G.goesOn) := by
  refine .bind .expectKeyword fun _ => .inParens (.bindSame h.expression fun expr expr' hexpr => ?_)
  refine .bind .expectKeyword fun _ => .bind .dataType fun type => .ret ?_
  cases hg : G.goesOn <;> simp_all [Same, mapTexts]

theorem choice (h : G.Nested N N') :
    G.Kindred P (Grammar.choice N) (Grammar.choice N') (Same G.goesOn) := by
  refine .bind .expectKeyword fun _ => ?_
  refine .bindIfThen (R := Same G.goesOn) (Test.kindred .checkKeyword) (.ret (.refl none))
    (.mapSame h.expression fun _ _ => .some) fun input input' hinput => ?_
  have hbranch : G.Kindred Anywhere
      (do
        let condition ← N.expression
        Production.expectKeyword .THEN
        return Branch.mk condition (← N.expression))
      (do
        let condition ← N'.expression
        Production.expectKeyword .THEN
        return Branch.mk condition (← N'.expression)) (Same G.goesOn) := by
    refine .bindSame h.expression fun condition condition' hcondition => .bind .expectKeyword fun _ => ?_
    refine .bindSame h.expression fun result result' hresult => .ret ?_
    cases hg : G.goesOn <;> simp_all [Same, mapTexts]
  refine .bindSame (.manySame (.behindSame hbranch)) fun branches branches' hbranches => ?_
  rw [hbranches.isEmpty]
  refine .ite (fun _ => ?_) fun _ => ?_
  · refine .bindGetIf (fun p q hpq _ => ?_) .expected (.bindSpan fun s s' hs => .fail hs (.refl _))
    rw [(G.shown hpq).running.1, (G.shown hpq).running.2]
  · refine .bindSame (.behindSame h.expression) fun otherwise otherwise' hotherwise => ?_
    refine .bind .expectKeyword fun _ => .ret ?_
    cases hg : G.goesOn <;> simp_all [Same, mapTexts]

theorem primary (h : G.Nested N N') :
    G.Kindred P (Grammar.primary N) (Grammar.primary N') (Same G.goesOn) := by
  have hunary {op : UnaryOperator} {m m' : Production Expr}
      (hm : G.Kindred Anywhere m m' (Same G.goesOn)) :
      G.Kindred Anywhere (do return Expr.unary op (← m)) (do return Expr.unary op (← m'))
        (Same G.goesOn) := by
    refine .bindSame hm fun operand operand' hoperand => .ret ?_
    cases hg : G.goesOn <;> simp_all [Same, mapTexts]
  have hcall {word : Keyword} :
      G.Kindred (G.At (.keyword word))
        (do
          if ← Production.checkPeek .leftParen then Grammar.nameExpression N
          else Production.expected "expression")
        (do
          if ← Production.checkPeek .leftParen then Grammar.nameExpression N'
          else Production.expected "expression") (Same G.goesOn) := by
    refine .bindTest (.checkPeek fun p hp => hp.1) (.nameExpression h fun p hp => ?_) .expected
    refine ⟨hp.1.1, ?_⟩
    rw [hp.1.2]
    exact TokenKind.ne_dot_of_isPlain rfl
  refine .needing .primary (.bindKindHere fun k => ?_)
  split
  · exact .same .number
  · exact .bind .takeLiteral fun _ => .ret (.refl _)
  · exact .bind .takeLiteral fun _ => .ret (.refl _)
  · exact .bind .advance fun _ => .ret (.refl _)
  · exact .grouped h
  · exact .bind .advance fun _ => hunary h.primary
  · exact .bind .advance fun _ => hunary h.primary
  · exact .bind .advance fun _ => .ret (.refl _)
  · exact .bind .advance fun _ => .ret (.refl _)
  · exact .bind .advance fun _ => .ret (.refl _)
  · exact .choice h
  · exact .rowTest h
  · refine .bindTest (.peekKeyword fun p hp => hp.1) ?_ (.bind .advance fun _ => hunary h.expression)
    exact .bind (.stage .advance fun p hp => hp.1) fun _ => .rowTest h
  · exact .castCall h
  · exact hcall
  · exact hcall
  · exact hcall
  · exact .bindTest (.atName fun p hp => hp.1)
      (.nameExpression h fun p hp => ⟨hp.1, not_dot_of_isName hp.2⟩) .expected

theorem expression (h : G.Nested N N') :
    G.Kindred P (Grammar.expression N) (Grammar.expression N') (Same G.goesOn) := by
  refine .bindSame (.primary h) fun first first' hfirst => .loop (W := Same G.goesOn) ?_ hfirst
  intro left left' hleft
  refine .bindKind (fun k => .bindPeekKind (fun p hp => hp.1) ?_ fun next => ?_)
    (.bindPeekAny fun _ _ => .ret (.done hleft))
  · rw [operator?_last]
  · split
    · next op width hop =>
      refine .bind (.advanceBy hop fun p => id) fun _ => ?_
      exact .bindSame (.applyOperator h hleft) fun e e' he => .ret (.more he)
    · exact .ret (.done hleft)

/-- A name starts an expression, unless it ends the batch. -/
theorem isName_and_not_separator (hpq : G.state p q) :
    (p.current.isName && !p.atBatchSeparator) = (q.current.isName && !q.atBatchSeparator) := by
  rcases here_or_ended G p with hp | hp
  · have hkin := current_kin hpq hp
    have hbatch : p.atBatchSeparator = q.atBatchSeparator := isBatchSeparator_eq hpq hkin
    rw [hkin.isName, hbatch]
  · rw [Token.isName, hp.kind, (G.shown hpq).ended hp.1 hp.2]
    simp

theorem atExpressionStart :
    G.Kindred P Grammar.atExpressionStart Grammar.atExpressionStart Eq := by
  have hname {Q : Parser → Prop} :
      G.Kindred Q (do return (← Production.atName) && !(← get).atBatchSeparator)
        (do return (← Production.atName) && !(← get).atBatchSeparator) Eq := by
    intro p q hpq _
    change G.Outcome p Eq _ (.ok (p.current.isName && !p.atBatchSeparator) p)
      (.ok (q.current.isName && !q.atBatchSeparator) q)
    exact .ok hpq (isName_and_not_separator hpq) fun _ => id
  refine .bindKind (fun k => ?_) hname
  split
  all_goals first
    | exact .stay
    | exact Test.kindred (.checkPeek fun p hp => hp.1)
    | exact hname

end Kindred

end Kinship

end SqlFrontend
