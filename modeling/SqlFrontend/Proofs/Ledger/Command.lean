import SqlFrontend.Grammar.Command
import SqlFrontend.Grammar.Explain
import SqlFrontend.Grammar.Transaction
import SqlFrontend.Proofs.Ledger.Query

/-!
# What transactions, simple commands and explanations are charged for

Statements that hold no others, and requests to explain one.
-/

namespace SqlFrontend.Ledger

variable {M : Type} [AddCommMonoid M] [PartialOrder M] [IsOrderedAddMonoid M] {L : Ledger M}

/-- A statement is worth no more than what it is made of. -/
theorem total_statement_le {s : Statement} {x : M} (h : L.sum (Component.ofStatement s) ≤ x) :
    L.total (.statement s) ≤ x := total_le rfl rfl h

/-- A statement that holds nothing that is charged for. -/
theorem total_bareStatement {s : Statement} (h : Component.ofStatement s = []) :
    L.total (.statement s) ≤ 0 := total_statement_le (by rw [h]; simp)

namespace Pays

variable {N : Grammar.Nested}

/-- A statement of values that are not charged for. -/
theorem mapBare {α : Type} {m : Production α} {make : α → Statement} (h : L.Quiet m)
    (hmake : ∀ a, Component.ofStatement (make a) = []) :
    L.Pays 0 (make <$> m) fun s => L.total (.statement s) :=
  h.map fun a => by simpa using total_bareStatement (L := L) (hmake a)

/-! ## Transactions -/

theorem modeWord? : L.Quiet Grammar.modeWord? := by
  refine .bind .atTerminator fun _ => .bind .check fun _ => ?_
  exact .ite (fun _ => .stay) fun _ => optionValue.mapQuiet

theorem mode? : L.Quiet Grammar.mode? := by
  refine .bindIf .atTerminator .stay (.bind (.manyQuiet modeWord?) fun words => ?_)
  exact .ite (fun _ => .expected) fun _ => .bind (.discard .consume) fun _ => .stay

theorem transactionModes : L.Quiet Grammar.transactionModes := .manyQuiet mode?

theorem transactionName? : L.Quiet Grammar.transactionName? := by
  refine .bindGet (fun _ => rfl) fun p => .bind .checkKeyword fun _ => .ite (fun _ => .stay) fun _ => ?_
  refine .bind .atName fun isName => .bind .check fun isString => ?_
  exact .ite (fun _ => takeLiteral.mapQuiet) fun _ => .stay

theorem lockingMode : L.Quiet Grammar.lockingMode := by
  refine .bind .kind fun k => ?_
  split
  · exact .bind .optionValue fun _ => .stay
  · exact .bind .optionValue fun _ => .stay
  · exact .bind .optionValue fun _ => .stay
  · exact .stay

theorem skipTransactionWord : L.Quiet Grammar.skipTransactionWord := .discard .consumeAny

theorem beginTransaction : L.Quiet Grammar.beginTransaction := by
  refine .bind .expectKeyword fun _ => .bind lockingMode fun locking => ?_
  refine .bind skipTransactionWord fun _ => .know .dialect fun d _ => .ite (fun _ => ?_) fun _ => ?_
  · exact .bind transactionName? fun name => .stay
  · exact .bind transactionModes fun modes => .stay

theorem startTransaction : L.Quiet Grammar.startTransaction := by
  refine .bind .expectKeyword fun _ => .bind .expectKeyword fun _ => ?_
  exact .bind transactionModes fun modes => .stay

theorem consumeWork : L.Quiet Grammar.consumeWork :=
  .bind .checkKeyword fun _ => .bind skipTransactionWord fun _ => .stay

theorem skipChain : L.Quiet Grammar.skipChain :=
  .bindIf .consumeKeyword (.bind .skipKeyword fun _ => .expectWord) .stay

theorem commit : L.Pays 0 Grammar.commit fun s => L.total (.statement s) := by
  refine .bind .expectKeyword fun _ => .bind consumeWork fun work => ?_
  exact .bind transactionName? fun name => .bind skipChain fun _ => .ret (total_bareStatement rfl)

theorem rollback : L.Pays 0 Grammar.rollback fun s => L.total (.statement s) := by
  refine .bind .expectKeyword fun _ => .bind consumeWork fun work => .bind transactionName? fun name => ?_
  refine .bind (.behindQuiet (.bind .skipKeyword fun _ => .name)) fun savepoint => ?_
  exact .bind skipChain fun _ => .ret (total_bareStatement rfl)

theorem savepoint : L.Pays 0 Grammar.savepoint fun s => L.total (.statement s) := by
  have hname : L.Pays 0 (Statement.savepoint <$> Production.name) fun s => L.total (.statement s) :=
    .mapBare .name fun _ => rfl
  exact .bindIf .consumeKeyword (.bindUnless .consumeKeyword .expectKeyword hname)
    (.bind .expectKeyword fun _ => hname)

theorem releaseSavepoint : L.Pays 0 Grammar.releaseSavepoint fun s => L.total (.statement s) :=
  .bind .expectKeyword fun _ => .bind .skipKeyword fun _ => .mapBare .name fun _ => rfl

/-! ## Settings and calls -/

theorem atOptionName : L.Quiet Grammar.atOptionName := by
  refine .bind .peekKind fun k => ?_
  split
  · exact .stay
  · exact .stay
  · exact .stay
  · exact .atName

theorem set (h : L.Paying N) : L.Pays 0 (Grammar.set N) fun s => L.total (.statement s) := by
  refine .bind .expectKeyword fun _ => .bindIf .consumeKeyword ?_ (.bindIf atOptionName ?_ ?_)
  · exact .bind .optionWords fun _ => .ret (total_bareStatement rfl)
  · refine .bind .takeLiteral fun option => .bind .skipKeyword fun _ => ?_
    exact .bind .optionWords fun _ => .ret (total_bareStatement rfl)
  · exact (assignments h).map fun items => total_statement_le (by simp [Component.ofStatement])

theorem atVariable : L.Quiet Grammar.atVariable := .bind .current fun _ => .stay

theorem dynamicArguments (h : L.Paying N) :
    L.Pays 0 (Grammar.dynamicArguments N) (L.each .expr) := by
  refine .bindIf .check (.inParens (expressions h)) (h.expression.map fun e => ?_)
  simp [List.singleton]

theorem atDynamicText : L.Quiet Grammar.atDynamicText :=
  .bindIf .check .stay (.bindIf .check (.bind .checkPeek fun _ => .stay) .stay)

theorem parenArguments (h : L.Paying N) : L.Pays 0 (Grammar.parenArguments N) (L.each .expr) :=
  .inParens (.bindIf .check (.ret (le_refl 0)) (expressions h))

theorem bareArgument (h : L.Paying N) :
    L.Pays 0 (Grammar.bareArgument N) fun e => L.total (.expr e) :=
  h.expression.seq fun _ => .bind .skipWord fun _ => .ret (zero_add _).ge

theorem namedCall (h : L.Paying N) {bareArguments : Bool} :
    L.Pays 0 (Grammar.namedCall N bareArguments) fun s => L.total (.statement s) := by
  refine .bind atVariable fun isVariable => .bind .checkPeek fun isAssigned => ?_
  extract_lets rest
  have hrest (u : Unit) : L.Pays 0 (rest u) fun s => L.total (.statement s) := by
    refine .bind .objectName fun routine => .bindIf .check ?_ ?_
    · exact (parenArguments h).seq fun args => .ret (total_statement_le (by simp [Component.ofStatement]))
    refine .bind atExpressionStart fun _ => .ite (fun _ => ?_) fun _ => .ret (total_bareStatement rfl)
    exact (list (bareArgument h)).seq fun args =>
      .ret (total_statement_le (by simp [Component.ofStatement]))
  exact .ite (fun _ => .bind .advance fun _ => .bind .advance hrest) fun _ => hrest ()

theorem call (h : L.Paying N) : L.Pays 0 (Grammar.call N) fun s => L.total (.statement s) := by
  refine .bind .checkKeyword fun plain => .bind .advance fun _ => ?_
  refine .bind atDynamicText fun _ => .ite (fun _ => ?_) fun _ => namedCall h
  exact (dynamicArguments h).seq fun args => .ret (total_statement_le (by simp [Component.ofStatement]))

/-! ## Cursors -/

theorem openCursor (h : L.Paying N) :
    L.Pays 0 (Grammar.openCursor N) fun s => L.total (.statement s) := by
  refine .bind .expectKeyword fun _ => .bind .qualifiedName fun cursor => ?_
  exact (behind h.query).seq fun query => .ret (total_statement_le (by simp [Component.ofStatement]))

theorem fetchDirection (h : L.Paying N) :
    L.Pays 0 (Grammar.fetchDirection N) (L.maybe .direction) := by
  have hrow {make : Expr → FetchDirection}
      (hmake : ∀ e, (Component.direction (make e)).fields = [.expr e]) :
      L.Pays 0 (do return some (make (← N.primary))) (L.maybe .direction) := by
    refine h.primary.seq fun e => .ret ?_
    have hdirection : L.total (.direction (make e)) ≤ L.total (.expr e) :=
      total_le rfl rfl (by simp [hmake])
    simpa using hdirection
  have hword {d : FetchDirection} (hd : (Component.direction d).fields = []) :
      L.Pays 0 (Pure.pure (some d)) (L.maybe .direction) :=
    .ret (total_le (L := L) rfl rfl (by rw [hd]; simp))
  refine .bind .kind fun k => ?_
  split
  · exact .bind .advance fun _ => hword rfl
  · exact .bind .advance fun _ => hword rfl
  · exact .bind .advance fun _ => hword rfl
  · exact .bind .advance fun _ => hword rfl
  · exact .bind .advance fun _ => hrow fun _ => rfl
  · exact .bind .advance fun _ => hrow fun _ => rfl
  · exact .retNone

theorem fetch (h : L.Paying N) : L.Pays 0 (Grammar.fetch N) fun s => L.total (.statement s) := by
  refine .bind .expectKeyword fun _ => (fetchDirection h).seq fun direction => ?_
  refine .bindUnless .consumeKeyword .skipKeyword (.bind .qualifiedName fun cursor => ?_)
  refine .bind (.behindQuiet (.listQuiet .qualifiedName)) fun into => .ret (total_statement_le ?_)
  have hnode : L.total (.fetch ⟨direction, cursor, into.getD []⟩) ≤ L.maybe .direction direction :=
    total_le rfl rfl (by simp [Component.fields])
  simpa [Component.ofStatement] using hnode

theorem closeCursor : L.Pays 0 Grammar.closeCursor fun s => L.total (.statement s) :=
  .bind .expectKeyword fun _ => .mapBare .qualifiedName fun _ => rfl

theorem deallocate : L.Pays 0 Grammar.deallocate fun s => L.total (.statement s) :=
  .bind .expectKeyword fun _ => .bind .skipWord fun _ => .mapBare .qualifiedName fun _ => rfl

/-! ## Errors -/

theorem messageArguments (h : L.Paying N) : L.Pays 0 (Grammar.messageArguments N) (L.each .expr) :=
  .many (.bindIf .consume h.expression.mapSome .retNone)

theorem raiseLevel : L.Quiet Grammar.raiseLevel := by
  refine .bind .kind fun k => ?_
  split
  iterate 2
    · refine .bind .current fun t => ?_
      split
      · exact .bind .advance fun _ => .stay
      · exact .stay
  · exact .stay

/-- The message and the arguments of what is raised. -/
theorem raiseSubject (h : L.Paying N) : L.Pays 0 (Grammar.raiseSubject N)
    fun subject => L.maybe .expr subject.1 + L.each .expr subject.2.1 := by
  refine .bindIf .check (.bind .takeLiteral fun _ => ?_) ?_
  · refine (messageArguments h).seq fun args => .ret (add_le_add_left ?_ _)
    exact total_expr_le (le_refl 0)
  refine .bindIf .consumeKeyword (.bind .sqlState fun _ => .ret (by simp)) ?_
  exact .bindIf .atName (.bind .name fun _ => .ret (by simp)) (.ret (by simp))

theorem switchedOn : L.Pays 0 Grammar.switchedOn fun a => L.total (.assignment a) := by
  refine .bind .name fun _ => .ret (total_le rfl rfl ?_)
  simpa [Component.fields] using total_expr_le (L := L) (le_refl 0)

theorem raiseCall (h : L.Paying N) :
    L.Pays 0 (Grammar.raiseCall N) fun node => L.total (.raise node) := by
  have hsubject : L.Pays 0 (do return (← N.expression, ← Grammar.messageArguments N))
      fun subject => L.total (.expr subject.1) + L.each .expr subject.2 :=
    h.expression.seq fun e => (messageArguments h).seq fun args => .ret (by simp)
  refine (inParens hsubject).seq fun subject => (behind (list switchedOn)).seq fun options => .ret ?_
  exact total_le rfl rfl (by simp [Component.fields, add_assoc])

theorem raise (h : L.Paying N) : L.Pays 0 (Grammar.raise N) fun s => L.total (.statement s) := by
  refine .bindIf .consumeKeyword ((raiseCall h).map fun node => ?_) ?_
  · exact total_statement_le (by simp [Component.ofStatement])
  refine .bind .expectKeyword fun _ => .bind raiseLevel fun level => (raiseSubject h).seq fun subject => ?_
  refine (behind (assignments h)).seq fun options => .ret (total_statement_le ?_)
  have hnode : L.total (.raise ⟨false, level, subject.1, subject.2.1, subject.2.2, options.getD []⟩) ≤
      L.maybe .expr subject.1 + L.each .expr subject.2.1 + options.elim 0 (L.each .assignment) :=
    total_le rfl rfl (by simp [Component.fields, add_assoc])
  simpa [Component.ofStatement] using hnode

theorem throwStatement (h : L.Paying N) :
    L.Pays 0 (Grammar.throwStatement N) fun s => L.total (.statement s) := by
  refine .bind .expectKeyword fun _ => .bindIf atExpressionStart ?_ (.ret (total_bareStatement rfl))
  refine h.expression.seq fun errorNumber => .bind .expect fun _ => ?_
  refine h.expression.seq fun message => .bind .expect fun _ => ?_
  refine h.expression.seq fun state => .ret (total_statement_le ?_)
  have hnode : L.total (.throwing ⟨errorNumber, message, state⟩) ≤
      L.total (.expr errorNumber) + L.total (.expr message) + L.total (.expr state) :=
    total_le rfl rfl (by simp [Component.fields, add_assoc])
  simpa [Component.ofStatement] using hnode

theorem signalledCondition : L.Quiet Grammar.signalledCondition := by
  refine .bindIf .consumeKeyword (.bind .sqlState fun _ => .stay) ?_
  exact .bindIf .atName (.bind .name fun _ => .stay) .stay

theorem signal (h : L.Paying N) : L.Pays 0 (Grammar.signal N) fun s => L.total (.statement s) := by
  refine .bind .checkKeyword fun again => .bind .advance fun _ => .bind signalledCondition fun condition => ?_
  refine (behind (assignments h)).seq fun properties => .ret (total_statement_le ?_)
  have hnode : L.total (.signal ⟨again, condition.1, condition.2, properties.getD []⟩) ≤
      properties.elim 0 (L.each .assignment) := total_le rfl rfl (by simp [Component.fields])
  simpa [Component.ofStatement] using hnode

/-! ## Requests to explain -/

theorem explainValue : L.Quiet Grammar.explainValue := by
  refine .bind .check fun _ => .bind .check fun _ => ?_
  exact .ite (fun _ => .stay) fun _ => optionValue.mapQuiet

theorem explainSetting : L.Quiet Grammar.explainSetting :=
  .bind .optionValue fun _ => .bind explainValue fun _ => .stay

theorem explainPart? {request : ExplainOptions} : L.Quiet (Grammar.explainPart? request) := by
  refine .bind .kind fun k => ?_
  split
  · exact .bind .advance fun _ => .stay
  · exact .bind .advance fun _ => .stay
  · exact .bind .advance fun _ => .stay
  · exact .bind .advance fun _ => .bind (.discard .consume) fun _ => .bind .optionValue fun _ => .stay
  · exact .bindIf .peekKeyword (.bind .advance fun _ => .bind .advance fun _ => .stay) .stay
  · exact .bind (.inParens (.listQuiet explainSetting)) fun settings => .stay
  · exact .stay

theorem explain (h : L.Paying N) : L.Pays 0 (Grammar.explain N) fun s => L.total (.statement s) := by
  refine .bind .expectKeyword fun _ => .bind (.loopQuiet fun request => ?_) fun request => ?_
  · refine .bind explainPart? fun part? => ?_
    cases part? <;> exact .stay
  · exact h.statement.seq fun s => .ret (total_statement_le (by simp [Component.ofStatement]))

end Pays

end SqlFrontend.Ledger
