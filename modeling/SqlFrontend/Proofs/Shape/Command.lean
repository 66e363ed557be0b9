import SqlFrontend.Grammar.Command
import SqlFrontend.Grammar.Explain
import SqlFrontend.Grammar.Transaction
import SqlFrontend.Proofs.Shape.Query

/-!
# The shape of transactions, simple commands and explanations

Statements that hold no others, and requests to explain one.
-/

namespace SqlFrontend.Production.Yields

variable {P : Parser → Prop} {N : Grammar.Nested}

/-! ## Transactions -/

theorem modeWord? : Yields P Grammar.modeWord? fun _ _ => True := by
  refine .bind .atTerminator fun _ => .bind .check fun _ => ?_
  exact .ite (fun _ => .stay) fun _ => mapQuiet .optionValue

theorem mode? : Yields P Grammar.mode? fun _ _ => True := by
  refine .bindIf .atTerminator .stay
    (.bind (.many (G := fun _ => True) (modeWord?.mono fun _ _ _ _ _ => trivial)) fun words => ?_)
  exact .ite (fun _ => .expected) fun _ => .bind (.discard .consume) fun _ => .stay

theorem transactionModes : Yields P Grammar.transactionModes fun _ _ => True :=
  .quiet (.many (G := fun _ => True) (mode?.mono fun _ _ _ _ _ => trivial))

theorem transactionName? : Yields P Grammar.transactionName? fun _ _ => True := by
  refine .bind .get fun p => .bind .checkKeyword fun _ => .ite (fun _ => .stay) fun _ => ?_
  refine .bind .atName fun isName => .bind .check fun isString => .ite (fun h => ?_) fun _ => .stay
  refine mapQuiet (.take fun q hq _ => ?_)
  rcases Bool.or_eq_true_iff.1 h with hname | hstring
  · exact hq.1.2 hname
  · rw [hq.2 hstring]

theorem lockingMode : Yields P Grammar.lockingMode fun _ _ => True := by
  refine .bind .kind fun k => ?_
  split
  · exact .bind .optionValue fun _ => .stay
  · exact .bind .optionValue fun _ => .stay
  · exact .bind .optionValue fun _ => .stay
  · exact .stay

theorem skipTransactionWord : Yields P Grammar.skipTransactionWord fun _ _ => True :=
  .discard .consumeAny

theorem beginTransaction : Yields P Grammar.beginTransaction fun _ _ => True := by
  refine .bind .expectKeyword fun _ => .bind lockingMode fun locking => ?_
  refine .bind skipTransactionWord fun _ => .bind .dialect fun d => .ite (fun _ => ?_) fun _ => ?_
  · exact .bind transactionName? fun name => .stay
  · exact .bind transactionModes fun modes => .stay

theorem startTransaction : Yields P Grammar.startTransaction fun _ _ => True := by
  refine .bind .expectKeyword fun _ => .bind .expectKeyword fun _ => ?_
  exact .bind transactionModes fun modes => .stay

theorem consumeWork : Yields P Grammar.consumeWork fun _ _ => True :=
  .bind .checkKeyword fun _ => .bind skipTransactionWord fun _ => .stay

theorem skipChain : Yields P Grammar.skipChain fun _ _ => True :=
  .bindIf .consumeKeyword (.bind .skipKeyword fun _ => .expectWord) .stay

theorem commit : Yields P Grammar.commit fun s _ => s.WellFormed := by
  refine .bind .expectKeyword fun _ => .bind consumeWork fun work => ?_
  exact .bind transactionName? fun name => .bind skipChain fun _ =>
    .ret fun _ _ => by simp [Statement.WellFormed]

theorem rollback : Yields P Grammar.rollback fun s _ => s.WellFormed := by
  refine .bind .expectKeyword fun _ => .bind consumeWork fun work => .bind transactionName? fun name => ?_
  refine .bind (.behind (.bind .skipKeyword fun _ => .name)) fun savepoint => ?_
  exact .bind skipChain fun _ => .ret fun _ _ => by simp [Statement.WellFormed]

theorem savepoint : Yields P Grammar.savepoint fun s _ => s.WellFormed := by
  have hname : Yields (fun _ => True) (Statement.savepoint <$> Production.name)
      fun s _ => s.WellFormed := .map (.mono .name fun _ _ _ => by simp [Statement.WellFormed])
  exact .bindIf .consumeKeyword (.bindUnless .consumeKeyword .expectKeyword hname)
    (.bind .expectKeyword fun _ => hname)

theorem releaseSavepoint : Yields P Grammar.releaseSavepoint fun s _ => s.WellFormed :=
  .bind .expectKeyword fun _ => .bind .skipKeyword fun _ =>
    .map (.mono .name fun _ _ _ => by simp [Statement.WellFormed])

/-! ## Settings and calls -/

theorem atOptionName : Yields P Grammar.atOptionName
    fun b p => b = true → p.current.kind.isProper := by
  refine .bind .peekKind fun k => ?_
  split
  · exact .ret fun _ _ => by simp
  · exact .ret fun _ _ => by simp
  · exact .ret fun _ _ => by simp
  · exact .mono .atName fun _ _ => And.right

theorem set (h : N.Shaped) : Yields P (Grammar.set N) fun s _ => s.WellFormed := by
  have hoption {name value : String} : (Statement.setOption name value).WellFormed := by
    simp [Statement.WellFormed]
  refine .bind .expectKeyword fun _ => .bindIf .consumeKeyword ?_ (.bindIf atOptionName ?_ (.map ?_))
  · exact .bind .optionWords fun _ => .ret fun _ _ => hoption
  · refine .bind (.take fun p hp _ => hp rfl) fun option => .bind .skipKeyword fun _ => ?_
    exact .bind .optionWords fun _ => .ret fun _ _ => hoption
  · refine (assignments h).mono fun items _ hitems => ?_
    simpa [Statement.WellFormed] using hitems

/-- No other tokens than proper ones start like a variable. -/
theorem atVariable : Yields P Grammar.atVariable
    fun b p => P p ∧ (b = true → p.current.kind.isProper) :=
  .bind .current fun _ => .ret fun _ hp => ⟨hp.1, fun hb => hp.2.1 ▸ hp.2.2 hb⟩

theorem dynamicArguments (h : N.Shaped) : Yields P (Grammar.dynamicArguments N)
    fun args _ => ∀ e ∈ args, Shapely e.parts := by
  refine .bindIf .check (.inParens ((expressions h).mono fun _ _ => And.right)) (.map ?_)
  exact h.expression.mono fun _ _ he => by simpa [List.singleton] using he

theorem atDynamicText : Yields P Grammar.atDynamicText fun _ _ => True :=
  .bindIf .check .stay (.bindIf .check (.bind .checkPeek fun _ => .stay) .stay)

theorem parenArguments (h : N.Shaped) : Yields P (Grammar.parenArguments N)
    fun args _ => ∀ e ∈ args, Shapely e.parts :=
  .inParens (.bindIf .check (.ret fun _ _ => by simp) ((expressions h).mono fun _ _ => And.right))

theorem bareArgument (h : N.Shaped) :
    Yields P (Grammar.bareArgument N) fun e _ => Shapely e.parts :=
  .seq h.expression fun _ he => .bind .skipWord fun _ => .ret fun _ _ => he

theorem namedCall (h : N.Shaped) {bareArguments : Bool} :
    Yields P (Grammar.namedCall N bareArguments) fun s _ => s.WellFormed := by
  refine .bind atVariable fun isVariable => .bind .checkPeek fun isAssigned => ?_
  extract_lets rest
  have hrest (u : Unit) : Yields (fun _ => True) (rest u) fun s _ => s.WellFormed := by
    refine .bind .objectName fun routine => .bindIf .check ?_ ?_
    · refine .seq (parenArguments h) fun args hargs => .ret fun _ _ => ?_
      simpa [Statement.WellFormed] using hargs
    refine .bind atExpressionStart fun _ => .ite (fun _ => ?_) fun _ => .ret fun _ _ => ?_
    · refine .seq (.list (bareArgument h)) fun args hargs => .ret fun _ _ => ?_
      simpa [Statement.WellFormed] using hargs.2
    · simp [Statement.WellFormed]
  refine .ite (fun hboth => ?_) fun _ => .anywhere (hrest ())
  rw [Bool.and_eq_true] at hboth
  refine .bind (.passTo fun p hp _ => ⟨hp.1.2 hboth.1, ?_⟩) fun _ => .bind .advance hrest
  rw [hp.2 hboth.2]

theorem call (h : N.Shaped) (hword : ∀ p, P p → p.current.kind.isProper) :
    Yields P (Grammar.call N) fun s _ => s.WellFormed := by
  refine .bind .checkKeyword fun plain => .bind (.pass fun p hp _ => hword p hp.1) fun _ => ?_
  refine .bind atDynamicText fun _ => .ite (fun _ => ?_) fun _ => namedCall h
  refine .seq (dynamicArguments h) fun args hargs => .ret fun _ _ => ?_
  simpa [Statement.WellFormed] using hargs

/-! ## Cursors -/

theorem openCursor (h : N.Shaped) : Yields P (Grammar.openCursor N) fun s _ => s.WellFormed := by
  refine .bind .expectKeyword fun _ => .bind .qualifiedName fun cursor => ?_
  refine .seq (.behind h.query) fun query hquery => .ret fun _ _ => ?_
  cases query with
  | none => simp [Statement.WellFormed]
  | some query => simpa [Statement.WellFormed] using hquery query rfl

theorem fetchDirection (h : N.Shaped) : Yields P (Grammar.fetchDirection N)
    fun direction _ => Shapely ((direction.map FetchDirection.parts).getD []) := by
  refine .bind .kind fun k => ?_
  split
  · exact .bind .advance fun _ => .ret fun _ _ => shapely_nil
  · exact .bind .advance fun _ => .ret fun _ _ => shapely_nil
  · exact .bind .advance fun _ => .ret fun _ _ => shapely_nil
  · exact .bind .advance fun _ => .ret fun _ _ => shapely_nil
  · exact .bind .advance fun _ => .seq h.primary fun e he => .ret fun _ _ => he
  · exact .bind .advance fun _ => .seq h.primary fun e he => .ret fun _ _ => he
  · exact .ret fun _ _ => shapely_nil

theorem fetch (h : N.Shaped) : Yields P (Grammar.fetch N) fun s _ => s.WellFormed := by
  refine .bind .expectKeyword fun _ => .seq (fetchDirection h) fun direction hdirection => ?_
  refine .bindUnless .consumeKeyword .skipKeyword (.bind .qualifiedName fun cursor => ?_)
  refine .bind (.behind (.quiet (.list .qualifiedName))) fun into => .ret fun _ _ => ?_
  simpa only [Statement.WellFormed, Statement.parts, shapely_cons] using ⟨trivial, hdirection⟩

theorem closeCursor : Yields P Grammar.closeCursor fun s _ => s.WellFormed :=
  .bind .expectKeyword fun _ => .map (.mono .qualifiedName fun _ _ _ => by simp [Statement.WellFormed])

theorem deallocate : Yields P Grammar.deallocate fun s _ => s.WellFormed :=
  .bind .expectKeyword fun _ => .bind .skipWord fun _ =>
    .map (.mono .qualifiedName fun _ _ _ => by simp [Statement.WellFormed])

/-! ## Errors -/

theorem messageArguments (h : N.Shaped) : Yields P (Grammar.messageArguments N)
    fun args _ => ∀ e ∈ args, Shapely e.parts :=
  .many (.bindIf .consume (.mapSome h.expression) .retNone)

theorem raiseLevel : Yields P Grammar.raiseLevel fun _ _ => True := by
  refine .bind .kind fun k => ?_
  split
  iterate 2
    · refine .bind .current fun t => ?_
      split
      · exact .bind (.pass fun p hp _ => by simp [hp.1.2, TokenKind.isProper]) fun _ => .stay
      · exact .stay
  · exact .stay

/-- The message and the arguments of what is raised. -/
theorem raiseSubject (h : N.Shaped) : Yields P (Grammar.raiseSubject N) fun subject _ =>
    (∀ e ∈ subject.1, Shapely e.parts) ∧ ∀ e ∈ subject.2.1, Shapely e.parts := by
  refine .bindIf .check (.bind .takeLiteral fun _ => ?_) ?_
  · exact .seq (messageArguments h) fun args hargs => .ret fun _ _ => by simpa using hargs
  refine .bindIf .consumeKeyword (.bind .sqlState fun _ => .ret fun _ _ => by simp) ?_
  exact .bindIf .atName (.bind .name fun _ => .ret fun _ _ => by simp) (.ret fun _ _ => by simp)

theorem switchedOn : Yields P Grammar.switchedOn fun a _ => Shapely a.value.parts :=
  .bind .name fun _ => .ret fun _ _ => by simp

theorem raiseCall (h : N.Shaped) :
    Yields P (Grammar.raiseCall N) fun node _ => (Statement.raise node).WellFormed := by
  have hsubject : Yields (fun _ => True)
      (do return (← N.expression, ← Grammar.messageArguments N))
      fun subject _ => Shapely subject.1.parts ∧ ∀ e ∈ subject.2, Shapely e.parts :=
    .seq h.expression fun e he => .seq (messageArguments h) fun args hargs => .ret fun _ _ => ⟨he, hargs⟩
  refine .seq (.inParens hsubject) fun subject hmessage => ?_
  refine .seq (behindOr (.list switchedOn)) fun options hoptions => .ret fun _ _ => ?_
  simpa [Statement.WellFormed] using ⟨hmessage.1, hmessage.2, hoptions⟩

theorem raise (h : N.Shaped) : Yields P (Grammar.raise N) fun s _ => s.WellFormed := by
  refine .bindIf .consumeKeyword (.map (raiseCall h)) ?_
  refine .bind .expectKeyword fun _ => .bind raiseLevel fun level => ?_
  refine .seq (raiseSubject h) fun subject hsubject => ?_
  refine .seq (behindOr (assignments h)) fun options hoptions => .ret fun _ _ => ?_
  simpa [Statement.WellFormed] using ⟨hsubject.1, hsubject.2, hoptions⟩

theorem throwStatement (h : N.Shaped) :
    Yields P (Grammar.throwStatement N) fun s _ => s.WellFormed := by
  refine .bind .expectKeyword fun _ => .bindIf atExpressionStart ?_ (.ret fun _ _ => ?_)
  · refine .seq h.expression fun errorNumber hnumber => .bind .expect fun _ => ?_
    refine .seq h.expression fun message hmessage => .bind .expect fun _ => ?_
    refine .seq h.expression fun state hstate => .ret fun _ _ => ?_
    simp [Statement.WellFormed, hnumber, hmessage, hstate]
  · simp [Statement.WellFormed]

theorem signalledCondition : Yields P Grammar.signalledCondition fun _ _ => True := by
  refine .bindIf .consumeKeyword (.bind .sqlState fun _ => .stay) ?_
  exact .bindIf .atName (.bind .name fun _ => .stay) .stay

theorem signal (h : N.Shaped) (hword : ∀ p, P p → p.current.kind.isProper) :
    Yields P (Grammar.signal N) fun s _ => s.WellFormed := by
  refine .bind .checkKeyword fun again => .bind (.pass fun p hp _ => hword p hp.1) fun _ => ?_
  refine .bind signalledCondition fun condition => ?_
  refine .seq (behindOr (assignments h)) fun properties hproperties => .ret fun _ _ => ?_
  simpa [Statement.WellFormed] using hproperties

/-! ## Requests to explain -/

theorem explainValue : Yields P Grammar.explainValue fun _ _ => True := by
  refine .bind .check fun _ => .bind .check fun _ => ?_
  exact .ite (fun _ => .stay) fun _ => mapQuiet .optionValue

theorem explainSetting : Yields P Grammar.explainSetting fun _ _ => True :=
  .bind .optionValue fun _ => .bind explainValue fun _ => .stay

theorem explainPart? {request : ExplainOptions} :
    Yields P (Grammar.explainPart? request) fun _ _ => True := by
  refine .bind .kind fun k => ?_
  split
  · exact .bind .advance fun _ => .stay
  · exact .bind .advance fun _ => .stay
  · exact .bind .advance fun _ => .stay
  · exact .bind .advance fun _ => .bind (.discard .consume) fun _ => .bind .optionValue fun _ => .stay
  · refine .bindIf .peekKeyword (.bind (.passTo fun p hp _ => ?_) fun _ => .bind .advance fun _ => .stay)
      .stay
    simp [hp.1.2, hp.2, TokenKind.isProper]
  · exact .bind (.inParens (.quiet (.list explainSetting))) fun settings => .stay
  · exact .stay

theorem explain (h : N.Shaped) : Yields P (Grammar.explain N) fun s _ => s.WellFormed := by
  refine .bind .expectKeyword fun _ =>
    .bind (.loop (I := fun _ => True) (Q := fun _ _ => True) (fun request _ => ?_) trivial)
      fun request => ?_
  · refine .bind explainPart? fun part? => ?_
    cases part? <;> exact .stay
  · refine .seq h.statement fun s hs => .ret fun _ _ => ?_
    simpa [Statement.WellFormed] using hs

end SqlFrontend.Production.Yields
