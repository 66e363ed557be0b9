import SqlFrontend.Grammar.Command
import SqlFrontend.Grammar.Explain
import SqlFrontend.Grammar.Transaction
import SqlFrontend.Proofs.Grammar.Query
import SqlFrontend.Proofs.Parsing.Run

/-!
# Transactions, simple commands and explanations in lockstep

* `Lockstep.beginTransaction`, `Lockstep.commit`, `Lockstep.rollback`: transactions.
* `Lockstep.set`, `Lockstep.call`, `Lockstep.fetch`, `Lockstep.raise`, `Lockstep.signal`: statements that
  hold no others.
* `Lockstep.explain`: requests to explain a statement.
-/

namespace SqlFrontend

theorem Grammar.run_skipTransactionWord {p : Parser} (hk : p.current.kind = .keyword .WORK) :
    skipTransactionWord p = .ok () p.advance := by
  have hconsume : Production.consumeAny
      [.keyword .WORK, .keyword .TRANSACTION, .keyword .TRAN] p = .ok true p.advance := by
    simp [Production.consumeAny, Production.consumeIf, hk]
  rw [skipTransactionWord, Production.run_discard, hconsume]

namespace Likeness.Lockstep

variable {L : Likeness} {b : Parser × Parser} {l : Level} {N N' : Grammar.Nested}

/-! ## Transactions -/

theorem modeWord? :
    L.Lockstep b .start Grammar.modeWord? Grammar.modeWord? Level.start.item := by
  refine .bind .atTerminator fun _ => .bind .check fun _ => ?_
  exact .ite (fun _ => .ret) fun _ => .mapSome .optionValue

theorem mode? : L.Lockstep b .start Grammar.mode? Grammar.mode? Level.start.item := by
  refine .bindIf .atTerminator .ret (.bind (.many .modeWord?) fun words => ?_)
  cases words with
  | nil => exact .expected (by decide)
  | cons word words => exact .bind (.discard .consume) fun _ => .ret

theorem transactionModes :
    L.Lockstep b l Grammar.transactionModes Grammar.transactionModes l.items :=
  .many .mode?

theorem transactionName? :
    L.Lockstep b l Grammar.transactionName? Grammar.transactionName? l.item := by
  refine .item (.bindGet fun p q hpq => .bind (k := fun _ => .start) ?_ fun _ => ?_)
  · exact .mono .checkKeyword (.refl _) fun _ => .start _
  rw [(L.alike hpq).atBatchSeparator]
  refine .ite (fun _ => .ret) fun _ => ?_
  exact .bindOr .atName (fun _ => .check) (.mapSome .takeLiteral) .ret

theorem lockingMode : L.Lockstep b l Grammar.lockingMode Grammar.lockingMode l.items := by
  refine .items (.bind .kind fun k => ?_)
  split
  · exact .bind .optionValue fun _ => .ret
  · exact .bind .optionValue fun _ => .ret
  · exact .bind .optionValue fun _ => .ret
  · exact .ret

theorem skipTransactionWord :
    L.Lockstep b l Grammar.skipTransactionWord Grammar.skipTransactionWord fun _ => l.any :=
  .weak (.discard (.mono .consumeAny (.refl _) fun _ => .start _))

theorem beginTransaction :
    L.Lockstep b l Grammar.beginTransaction Grammar.beginTransaction fun _ => .moved := by
  refine .bind .expectKeyword fun _ => .bind .lockingMode fun locking => ?_
  refine .bind .skipTransactionWord fun _ => .bind .dialect fun d => .ite (fun _ => ?_) fun _ => ?_
  · exact .bind .transactionName? fun name => .stay
  · exact .bind .transactionModes fun modes => .stay

theorem startTransaction :
    L.Lockstep b l Grammar.startTransaction Grammar.startTransaction fun _ => .moved := by
  refine .bind .expectKeyword fun _ => .bind .expectKeyword fun _ => ?_
  exact .bind .transactionModes fun modes => .stay

/-- Where the word is there, it is passed. -/
theorem consumeWork : L.Lockstep b l Grammar.consumeWork Grammar.consumeWork
    fun work => l.after (Level.start.pass work) := by
  have hpassed : L.LockstepAt b .token (.keyword .WORK) (do Production.advance; return true)
      (do Production.advance; return true) Level.start.pass := .of (.bind .advance fun _ => .ret)
  have hrun (p : Parser) (hk : p.current.kind = .keyword .WORK) :
      (do Grammar.skipTransactionWord; return true : Production Bool) p =
        (do Production.advance; return true : Production Bool) p := by
    rw [Production.run_bind, Grammar.run_skipTransactionWord hk]
    rfl
  exact .anywhere (.bindCheckAt (hpassed.congr hrun hrun) (.bind .skipTransactionWord fun _ => .ret))

theorem skipChain : L.Lockstep b l Grammar.skipChain Grammar.skipChain fun _ => l.any := by
  refine .weak (.bindIf .consumeKeyword (.bind .skipKeyword fun _ => ?_) .ret)
  exact .mono (.expectWord (by decide)) (.refl _) fun _ => .start _

theorem commit : L.Lockstep b l Grammar.commit Grammar.commit fun _ => .moved := by
  refine .bind .expectKeyword fun _ => .bind .consumeWork fun work => ?_
  exact .bind .transactionName? fun name => .bind .skipChain fun _ => .stay

theorem rollback : L.Lockstep b l Grammar.rollback Grammar.rollback fun _ => .moved := by
  refine .bind .expectKeyword fun _ => .bind .consumeWork fun work => ?_
  refine .bind .transactionName? fun name => ?_
  refine .bind (.behind (.bind .skipKeyword fun _ => .name)) fun savepoint => ?_
  exact .bind .skipChain fun _ => .stay

theorem savepoint : L.Lockstep b l Grammar.savepoint Grammar.savepoint fun _ => .moved := by
  refine .strict (.bindIf .consumeKeyword ?_ (.bind .expectKeyword fun _ => .map _ .name))
  exact .bindUnless .consumeKeyword .expectKeyword (.map _ .name)

theorem releaseSavepoint :
    L.Lockstep b l Grammar.releaseSavepoint Grammar.releaseSavepoint fun _ => .moved :=
  .bind .expectKeyword fun _ => .bind .skipKeyword fun _ => .map _ .name

/-! ## Settings and calls -/

theorem atOptionName :
    L.Lockstep b .moved Grammar.atOptionName Grammar.atOptionName fun _ => .moved := by
  refine .read (f := fun p =>
    !([.assign, .colonAssign, .dot] : List TokenKind).contains p.peek.kind && p.current.isName)
    (fun p => ?_) (fun p q h => ?_) fun _ _ _ _ => id
  · rw [Grammar.atOptionName, Production.run_bind, Production.run_peekKind]
    cases p.peek.kind <;> rfl
  · rw [← (L.alike h).current.isName]
    cases hname : p.current.isName with
    | true => rw [((L.alike h).peek (Token.closes_of_isName hname)).kind]
    | false => rw [Bool.and_false, Bool.and_false]

theorem set (h : L.Nested b N N') :
    L.Lockstep b l (Grammar.set N) (Grammar.set N') fun _ => .moved := by
  refine .bind .expectKeyword fun _ => .bindIf .consumeKeyword (.bind .optionWords fun _ => .stay) ?_
  refine .bindIf .atOptionName (.bind .takeLiteral fun option => ?_) (.map _ (.assignments h))
  exact .bind .skipKeyword fun _ => .bind .optionWords fun _ => .stay

theorem atVariable :
    L.Lockstep b .moved Grammar.atVariable Grammar.atVariable fun _ => .moved := by
  refine .bindCurrent fun t t' ht => ?_
  rw [ht.literal]
  exact .stay

instance : Grammar.atVariable.TestsOpen :=
  ⟨fun x => x.literal.startsWith "@", fun _ => rfl, fun _ => Token.closes_of_startsWith⟩

theorem dynamicArguments (h : L.Nested b N N') :
    L.Lockstep b .moved (Grammar.dynamicArguments N) (Grammar.dynamicArguments N')
      fun _ => .moved :=
  .bindIf .check (.inParens (.list h.expression)) (.map _ h.expression)

theorem atDynamicText :
    L.Lockstep b .moved Grammar.atDynamicText Grammar.atDynamicText fun _ => .moved :=
  .bindIf .check .ret (.bindCheckAt (.bindPeek fun _ => .of .stay) .stay)

theorem parenArguments (h : L.Nested b N N') :
    L.Lockstep b .moved (Grammar.parenArguments N) (Grammar.parenArguments N')
      fun _ => .moved :=
  .inParens (.bindIf .check .ret (.list h.expression))

theorem bareArgument (h : L.Nested b N N') :
    L.Lockstep b .moved (Grammar.bareArgument N) (Grammar.bareArgument N') fun _ => .moved :=
  .bind h.expression fun _ => .bind .skipWord fun _ => .stay

theorem namedCall (h : L.Nested b N N') {bareArguments : Bool} :
    L.Lockstep b .moved (Grammar.namedCall N bareArguments) (Grammar.namedCall N' bareArguments)
      fun _ => .moved := by
  refine .bindTests .atVariable (fun _ _ => ?_) fun _ _ => rfl
  extract_lets rest rest'
  have hrest (u : Unit) : L.Lockstep b .moved (rest u) (rest' u) fun _ => .moved := by
    refine .bind .objectName fun routine => ?_
    refine .bindIf .check (.bind (.parenArguments h) fun _ => .stay) ?_
    refine .bind .atExpressionStart fun _ => .ite (fun _ => ?_) fun _ => .stay
    exact .bind (.list (.bareArgument h)) fun _ => .stay
  refine .ite (fun _ => ?_) fun _ => hrest ()
  exact .bind .advance fun _ => .bind .advance hrest

theorem call (h : L.Nested b N N') :
    L.Lockstep b .token (Grammar.call N) (Grammar.call N') fun _ => .moved := by
  refine .bind .checkKeyword fun plain => .bind (k := fun _ => .moved) ?_ fun _ => ?_
  · cases plain <;> exact .advance
  · refine .bind .atDynamicText fun _ => .ite (fun _ => ?_) fun _ => .namedCall h
    exact .bind (.dynamicArguments h) fun _ => .stay

/-! ## Cursors -/

theorem openCursor (h : L.Nested b N N') :
    L.Lockstep b l (Grammar.openCursor N) (Grammar.openCursor N') fun _ => .moved := by
  refine .bind .expectKeyword fun _ => .bind .qualifiedName fun cursor => ?_
  exact .bind (.behind h.query) fun _ => .stay

theorem fetchDirection (h : L.Nested b N N') :
    L.Lockstep b .moved (Grammar.fetchDirection N) (Grammar.fetchDirection N')
      fun _ => .moved := by
  refine .bind .kind fun k => ?_
  split
  · exact .bind .advance fun _ => .stay
  · exact .bind .advance fun _ => .stay
  · exact .bind .advance fun _ => .stay
  · exact .bind .advance fun _ => .stay
  · exact .bind .advance fun _ => .bind h.primary fun _ => .stay
  · exact .bind .advance fun _ => .bind h.primary fun _ => .stay
  · exact .stay

theorem fetch (h : L.Nested b N N') :
    L.Lockstep b l (Grammar.fetch N) (Grammar.fetch N') fun _ => .moved := by
  refine .bind .expectKeyword fun _ => .bind (.fetchDirection h) fun direction => ?_
  refine .bindUnless .consumeKeyword .skipKeyword (.bind .qualifiedName fun cursor => ?_)
  exact .bind (.behind (.list .qualifiedName)) fun into => .stay

theorem closeCursor :
    L.Lockstep b l Grammar.closeCursor Grammar.closeCursor fun _ => .moved :=
  .bind .expectKeyword fun _ => .map _ .qualifiedName

theorem deallocate : L.Lockstep b l Grammar.deallocate Grammar.deallocate fun _ => .moved :=
  .bind .expectKeyword fun _ => .bind .skipWord fun _ => .map _ .qualifiedName

/-! ## Errors -/

theorem messageArguments (h : L.Nested b N N') :
    L.Lockstep b .moved (Grammar.messageArguments N) (Grammar.messageArguments N')
      fun _ => .moved :=
  .many (.bindIf .consume (.mapSome h.expression) .ret)

theorem raiseLevel : L.Lockstep b l Grammar.raiseLevel Grammar.raiseLevel l.item := by
  refine .item (.bind .kind fun k => ?_)
  split
  · refine .bindCurrent fun t t' ht => ?_
    rw [ht.literal]
    split
    · exact .bind .advance fun _ => .ret
    · exact .ret
  · refine .bindCurrent fun t t' ht => ?_
    rw [ht.literal]
    split
    · exact .bind .advance fun _ => .ret
    · exact .ret
  · exact .ret

theorem raiseSubject (h : L.Nested b N N') :
    L.Lockstep b l (Grammar.raiseSubject N) (Grammar.raiseSubject N')
      fun subject => l.after (Level.besides (none, [], none) subject) := by
  refine .anywhere (.bindIf .check (.bind .takeLiteral fun _ => ?_) ?_)
  · exact .bind (.messageArguments h) fun _ => .ret
  · refine .bindIf .consumeKeyword (.bind .sqlState fun _ => .ret) ?_
    exact .bindIf .atName (.bind .name fun _ => .ret) .ret

theorem switchedOn : L.Lockstep b l Grammar.switchedOn Grammar.switchedOn fun _ => .moved :=
  .bind .name fun _ => .stay

theorem raiseCall (h : L.Nested b N N') :
    L.Lockstep b .moved (Grammar.raiseCall N) (Grammar.raiseCall N') fun _ => .moved := by
  refine .bind (.inParens ?_) fun subject => .bind (.behind (.list .switchedOn)) fun options => .stay
  exact .bind h.expression fun message => .bind (.messageArguments h) fun _ => .stay

theorem raise (h : L.Nested b N N') :
    L.Lockstep b l (Grammar.raise N) (Grammar.raise N') fun _ => .moved := by
  refine .strict (.bindIf .consumeKeyword (.map _ (.raiseCall h)) ?_)
  refine .bind .expectKeyword fun _ => .bind .raiseLevel fun level => ?_
  refine .bind (.raiseSubject h) fun subject => ?_
  exact .bind (.behind (.assignments h)) fun options => .stay

theorem throwStatement (h : L.Nested b N N') :
    L.Lockstep b l (Grammar.throwStatement N) (Grammar.throwStatement N') fun _ => .moved := by
  refine .bind .expectKeyword fun _ => .bindIf .atExpressionStart ?_ .stay
  refine .bind h.expression fun errorNumber => .bind .expect fun _ => ?_
  refine .bind h.expression fun message => .bind .expect fun _ => ?_
  exact .bind h.expression fun _ => .stay

theorem signalledCondition :
    L.Lockstep b l Grammar.signalledCondition Grammar.signalledCondition
      fun condition => l.after (Level.besides (none, none) condition) := by
  refine .anywhere (.bindIf .consumeKeyword (.bind .sqlState fun _ => .ret) ?_)
  exact .bindIf .atName (.bind .name fun _ => .ret) .ret

theorem signal (h : L.Nested b N N') :
    L.Lockstep b .token (Grammar.signal N) (Grammar.signal N') fun _ => .moved := by
  refine .bind .checkKeyword fun again => .bind (k := fun _ => .moved) ?_ fun _ => ?_
  · cases again <;> exact .advance
  · refine .bind .signalledCondition fun condition => ?_
    exact .bind (.behind (.assignments h)) fun properties => .stay

/-! ## Requests to explain -/

theorem explainValue :
    L.Lockstep b .moved Grammar.explainValue Grammar.explainValue fun _ => .moved := by
  refine .bind .check fun _ => .bind .check fun _ => ?_
  exact .ite (fun _ => .stay) fun _ => .map _ .optionValue

theorem explainSetting :
    L.Lockstep b l Grammar.explainSetting Grammar.explainSetting fun _ => .moved :=
  .bind .optionValue fun _ => .bind .explainValue fun _ => .stay

theorem explainPart? {request : ExplainOptions} :
    L.Lockstep b .start (Grammar.explainPart? request) (Grammar.explainPart? request)
      Level.start.item := by
  refine .bindKinds fun k => ?_
  split
  case h_5 =>
    exact .bindIfPeek (.of (.bind .advance fun _ => .bind .advance fun _ => .ret)) (.of .ret)
  all_goals refine .of ?_
  · exact .bind .advance fun _ => .ret
  · exact .bind .advance fun _ => .ret
  · exact .bind .advance fun _ => .ret
  · exact .bind .advance fun _ => .bind (.discard .consume) fun _ => .bind .optionValue fun _ => .ret
  · exact .bind (.inParens (.list .explainSetting)) fun settings => .ret
  · exact .ret

theorem explain (h : L.Nested b N N') :
    L.Lockstep b l (Grammar.explain N) (Grammar.explain N') fun _ => .moved := by
  refine .bind .expectKeyword fun _ => .bind (.loop fun request => ?_) fun request => ?_
  · refine .bind .explainPart? fun part? => ?_
    cases part? <;> exact .ret
  · exact .bind h.statement fun _ => .stay

end Likeness.Lockstep

end SqlFrontend
