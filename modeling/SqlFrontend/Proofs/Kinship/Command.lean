import SqlFrontend.Grammar.Command
import SqlFrontend.Grammar.Explain
import SqlFrontend.Grammar.Transaction
import SqlFrontend.Proofs.Kinship.Query

/-!
# Commands of texts that are kin

* `Kindred.insert`, `Kindred.update`, `Kindred.delete`: changes of rows.
* `Kindred.commit`, `Kindred.rollback`: the word that ends a batch names no transaction.
* `Kindred.raise`, `Kindred.signal`: a statement that raises or signals nothing that is named is left
  open, for it takes a name that follows, even the word that ends a batch.
* `Kindred.explain`: a request is left open if the statement in it is.
-/

namespace SqlFrontend

theorem RaiseLevel.ofWord?_eq {exact : Bool} {word word' : String} (h : Same exact word word') :
    ofWord? word = ofWord? word' := by
  rw [ofWord?, ofWord?, h.upper]

/-! ## The end of the text -/

namespace Production.Ends

variable {N : Grammar.Nested} {stopped : Bool}

theorem assignments {S : List Assignment → Prop} : Ends stopped .eof (Grammar.assignments N) S :=
  list (.fails .qualifiedName)

theorem atOptionName : Ends stopped .eof Grammar.atOptionName (· = false) := by
  refine bind peekKind fun k hk => ?_
  rw [hk]
  exact atName

theorem namedCall {bareArguments : Bool} {S : Statement → Prop} :
    Ends stopped .eof (Grammar.namedCall N bareArguments) S := by
  refine bind (S := fun _ => True) (bind current fun _ _ => ret trivial) fun _ _ => ?_
  refine bind checkPeek fun y hy => ?_
  rw [hy, Bool.and_false]
  exact fails .objectName

theorem raiseSubject : Ends stopped .eof (Grammar.raiseSubject N) (· = (none, [], none)) :=
  bindIf check (bindIf consumeKeyword (bindIf atName (ret rfl)))

theorem signalledCondition : Ends stopped .eof Grammar.signalledCondition (· = (none, none)) :=
  bindIf consumeKeyword (bindIf atName (ret rfl))

end Production.Ends

namespace Kinship

/-! ## Tests -/

namespace Test

variable {G : Kinship}

/-- No sign of an assignment stands where the first text ends. -/
theorem atOptionName : G.Test G.Here Grammar.atOptionName Grammar.atOptionName G.Named G.Here := by
  have hrun (p : Parser) : Grammar.atOptionName p =
      .ok (!([.assign, .colonAssign, .dot].contains p.peek.kind) && p.current.isName) p := by
    have hpeek : Production.peekKind p = .ok p.peek.kind p := rfl
    rw [Grammar.atOptionName, Production.run_bind, hpeek]
    dsimp only
    generalize p.peek.kind = k
    cases k <;> rfl
  intro p q hpq hp
  have hnext : [TokenKind.assign, .colonAssign, .dot].contains p.peek.kind =
      [TokenKind.assign, .colonAssign, .dot].contains q.peek.kind := by
    rcases peek_kin hpq hp with hkin | ⟨-, hleft, hright⟩
    · rw [hkin.kind]
    · rw [hleft, identifier_of_isWord hright]
      rfl
  refine ⟨_, hrun p, ?_, fun hx => ?_, fun _ => hp⟩
  · rw [hrun q, hnext, (current_kin hpq hp).isName]
  · exact ⟨hp, (Bool.and_eq_true_iff.1 hx).2⟩

/-- Variables are told by their sign, and not by letters. -/
theorem atVariable : G.Test G.Here Grammar.atVariable Grammar.atVariable G.Here G.Here := by
  intro p q hpq hp
  refine ⟨p.current.literal.startsWith "@", rfl, ?_, fun _ => hp, fun _ => hp⟩
  change EStateM.Result.ok (q.current.literal.startsWith "@") q = _
  rw [Text.startsWith_of_lower_eq (current_kin hpq hp).same.lower]

end Test

namespace Kindred

variable {G : Kinship} {P : Parser → Prop} {N N' : Grammar.Nested} {p q : Parser}

/-! ## Rows -/

theorem assignments (h : G.Nested N N') :
    G.Kindred P (Grammar.assignments N) (Grammar.assignments N') (Same G.goesOn) := by
  refine .listSame (.bindSame .qualifiedName fun target target' htarget => ?_)
  refine .bindUnless .consume .expect (.bindSame h.expression fun value value' hvalue => .ret ?_)
  cases hg : G.goesOn <;> simp_all [Same, mapTexts, Assignment.mapTexts]

theorem insertSource (h : G.Nested N N') :
    G.Kindred P (Grammar.insertSource N) (Grammar.insertSource N') (Same G.goesOn) := by
  refine .bindIf .consumeKeyword ?_ (.bindIf .consumeKeyword ?_ ?_)
  · refine .mapSame (.listSame (.inParens (.listSame h.expression))) fun rows rows' hrows => ?_
    cases hg : G.goesOn <;> simp_all [Same, mapTexts, InsertSource.mapTexts]
  · exact .bind .expectKeyword fun _ => .ret (.refl _)
  · refine .bind (Test.kindred .checkKeyword) fun _ => .bind (Test.kindred .checkKeyword) fun _ => ?_
    refine .ite (fun _ => .mapSame h.query fun q q' hq => ?_) fun _ => .expected
    cases hg : G.goesOn <;> simp_all [Same, mapTexts, InsertSource.mapTexts]

theorem insert (h : G.Nested N N') :
    G.Kindred P (Grammar.insert N) (Grammar.insert N') (Same G.goesOn) := by
  refine .bind .expectKeyword fun _ => .bind .skipKeyword fun _ => ?_
  refine .bindSame .objectName fun table table' htable => ?_
  refine .bindSame .columnNames? fun columns columns' hcolumns => ?_
  refine .bindSame (.insertSource h) fun source source' hsource => .ret ?_
  cases hg : G.goesOn <;> simp_all [Same, mapTexts, Insert.mapTexts]

theorem update (h : G.Nested N N') :
    G.Kindred P (Grammar.update N) (Grammar.update N') (Same G.goesOn) := by
  refine .bind .expectKeyword fun _ => .bindSame (.tableRef h) fun table table' htable => ?_
  refine .bind .expectKeyword fun _ => .bindSame (.assignments h) fun changes changes' hchanges => ?_
  refine .bindSame (.behindSame (.listSame (.tableRef h))) fun tables tables' htables => ?_
  refine .bindSame (.behindSame h.expression) fun condition condition' hcondition => .ret ?_
  have htables := htables.getD (.refl [])
  cases hg : G.goesOn <;> simp_all [Same, mapTexts, Update.mapTexts]

theorem delete (h : G.Nested N N') :
    G.Kindred P (Grammar.delete N) (Grammar.delete N') (Same G.goesOn) := by
  refine .bind .expectKeyword fun _ => .bind .skipKeyword fun _ => ?_
  refine .bindSame (.tableRef h) fun table table' htable => ?_
  refine .bindSame (.behindSame h.expression) fun condition condition' hcondition => .ret ?_
  cases hg : G.goesOn <;> simp_all [Same, mapTexts, Delete.mapTexts]

/-! ## Transactions -/

theorem modeWord? : G.Kindred P Grammar.modeWord? Grammar.modeWord? Eq := by
  refine .bind (Test.kindred .atTerminator) fun _ => .bind (Test.kindred .check) fun _ => ?_
  exact .ite (fun _ => .stay) fun _ => .map _ .optionValue

theorem mode? : G.Kindred P Grammar.mode? Grammar.mode? Eq := by
  refine .bindTest .atTerminator .stay (.bind (.many .modeWord?) fun words => ?_)
  exact .ite (fun _ => .expected) fun _ => .bind (.discard .consume) fun _ => .stay

theorem transactionModes :
    G.Kindred P Grammar.transactionModes Grammar.transactionModes Eq := .many .mode?

theorem run_transactionName? {p : Parser} (h : p.atEnd ∨ p.atBatchSeparator) :
    Grammar.transactionName? p = .ok none p := by
  rcases h with h | h
  · have hk : p.current.kind = .eof := beq_iff_eq.1 h
    have hname : p.current.isName = false := by rw [Token.isName, hk]
    simp [Grammar.transactionName?, Production.atName, Production.current, hk, hname]
  · simp [Grammar.transactionName?, h]

/-- The word that ends a batch names no transaction. -/
theorem transactionName? :
    G.Kindred P Grammar.transactionName? Grammar.transactionName? (Same G.goesOn) := by
  have hname : G.Kindred G.Here Grammar.transactionName? Grammar.transactionName?
      (Same G.goesOn) := by
    refine .bindGet fun p q hpq hp => ?_
    have hbatch : p.atBatchSeparator = q.atBatchSeparator :=
      isBatchSeparator_eq hpq (current_kin hpq hp)
    rw [hbatch]
    refine .bindSeen .checkKeyword fun _ => .ite (fun _ => .ret (.refl none)) fun _ => ?_
    refine .bindOr (.atName fun _ => id) .check ?_ (.ret (.refl none))
    refine .mapSame (.takeSame fun p hp => ?_) fun _ _ => .some
    rcases hp with hp | hp
    · exact ⟨hp.1, not_dot_of_isName hp.2⟩
    · exact ⟨hp.1, hp.2 ▸ nofun⟩
  intro p q hpq _
  rcases here_or_ended G p with hp | hp
  · exact hname p q hpq hp
  · rw [run_transactionName? (.inl hp.2), run_transactionName? (.inr ((G.shown hpq).ended hp.1 hp.2))]
    exact .ok hpq (.refl none) fun _ => id

theorem lockingMode : G.Kindred P Grammar.lockingMode Grammar.lockingMode Eq := by
  refine .bindKind (fun k => ?_) .stay
  split
  · exact .bind .optionValue fun _ => .stay
  · exact .bind .optionValue fun _ => .stay
  · exact .bind .optionValue fun _ => .stay
  · exact .stay

theorem skipTransactionWord :
    G.Kindred P Grammar.skipTransactionWord Grammar.skipTransactionWord Eq :=
  .discard .consumeAny

theorem beginTransaction :
    G.Kindred P Grammar.beginTransaction Grammar.beginTransaction (Same G.goesOn) := by
  refine .bind .expectKeyword fun _ => .bind .lockingMode fun locking => ?_
  refine .bind .skipTransactionWord fun _ => .bindDialect fun d => .ite (fun _ => ?_) fun _ => ?_
  · refine .bindSame .transactionName? fun name name' hname => .ret ?_
    cases hg : G.goesOn <;> simp_all [Same, mapTexts, BeginTransaction.mapTexts]
  · exact .bind .transactionModes fun modes => .ret (.refl _)

theorem startTransaction :
    G.Kindred P Grammar.startTransaction Grammar.startTransaction (Same G.goesOn) := by
  refine .bind .expectKeyword fun _ => .bind .expectKeyword fun _ => ?_
  exact .bind .transactionModes fun modes => .ret (.refl _)

theorem consumeWork : G.Kindred P Grammar.consumeWork Grammar.consumeWork Eq :=
  .bind (Test.kindred .checkKeyword) fun _ => .bind .skipTransactionWord fun _ => .stay

theorem skipChain : G.Kindred P Grammar.skipChain Grammar.skipChain Eq :=
  .bindIf .consumeKeyword (.bind .skipKeyword fun _ => .expectWord) .stay

theorem commit : G.Kindred P Grammar.commit Grammar.commit (Same G.goesOn) := by
  refine .bind .expectKeyword fun _ => .bind .consumeWork fun work => ?_
  refine .bindSame .transactionName? fun name name' hname => .bind .skipChain fun _ => .ret ?_
  cases hg : G.goesOn <;> simp_all [Same, mapTexts]

theorem rollback : G.Kindred P Grammar.rollback Grammar.rollback (Same G.goesOn) := by
  refine .bind .expectKeyword fun _ => .bind .consumeWork fun work => ?_
  refine .bindSame .transactionName? fun name name' hname => ?_
  refine .bindSame (.behindSame (.bind .skipKeyword fun _ => .name)) fun place place' hplace => ?_
  refine .bind .skipChain fun _ => .ret ?_
  cases hg : G.goesOn <;> simp_all [Same, mapTexts, Rollback.mapTexts]

theorem savepoint : G.Kindred P Grammar.savepoint Grammar.savepoint (Same G.goesOn) := by
  have hname : G.Kindred Anywhere (Statement.savepoint <$> Production.name)
      (Statement.savepoint <$> Production.name) (Same G.goesOn) := by
    refine .mapSame .name fun name name' hname => ?_
    cases hg : G.goesOn <;> simp_all [Same, mapTexts]
  refine .bindIf .consumeKeyword ?_ (.bind .expectKeyword fun _ => hname)
  exact .bindUnless .consumeKeyword .expectKeyword hname

theorem releaseSavepoint :
    G.Kindred P Grammar.releaseSavepoint Grammar.releaseSavepoint (Same G.goesOn) := by
  refine .bind .expectKeyword fun _ => .bind .skipKeyword fun _ => ?_
  refine .mapSame .name fun name name' hname => ?_
  cases hg : G.goesOn <;> simp_all [Same, mapTexts]

/-! ## Settings and calls -/

theorem set (h : G.Nested N N') :
    G.Kindred P (Grammar.set N) (Grammar.set N') (Same G.goesOn) := by
  refine .bind .expectKeyword fun _ => ?_
  refine .bindIf .consumeKeyword (.bind .optionWords fun _ => .ret (.refl _)) (.needing ?_ ?_)
  · exact .bindIf .atOptionName (.map Production.Ends.assignments fun _ => False.elim)
  · refine .bindTest .atOptionName (.bindSame .takeNamed fun option option' hoption => ?_) ?_
    · rw [hoption.upper]
      exact .bind .skipKeyword fun _ => .bind .optionWords fun _ => .ret (.refl _)
    · refine .mapSame (.assignments h) fun changes changes' hchanges => ?_
      cases hg : G.goesOn <;> simp_all [Same, mapTexts]

theorem dynamicArguments (h : G.Nested N N') :
    G.Kindred P (Grammar.dynamicArguments N) (Grammar.dynamicArguments N') (Same G.goesOn) := by
  refine .bindIf (Test.kindred .check) (.inParens (.listSame h.expression)) ?_
  exact .mapSame h.expression fun text text' htext => htext.cons (.refl [])

theorem atDynamicText : G.Kindred P Grammar.atDynamicText Grammar.atDynamicText Eq := by
  refine .bindTest .check .stay (.bindTest .check ?_ .stay)
  exact .bind (Test.kindred (.checkPeek fun p hp => hp.1)) fun _ => .stay

theorem parenArguments (h : G.Nested N N') :
    G.Kindred P (Grammar.parenArguments N) (Grammar.parenArguments N') (Same G.goesOn) :=
  .inParens (.bindIf (Test.kindred .check) (.ret (.refl [])) (.listSame h.expression))

theorem bareArgument (h : G.Nested N N') :
    G.Kindred P (Grammar.bareArgument N) (Grammar.bareArgument N') (Same G.goesOn) :=
  .bindSame h.expression.anywhere fun _ _ hvalue => .bind .skipWord fun _ => .ret hvalue

theorem namedCall (h : G.Nested N N') {bareArguments : Bool} :
    G.Kindred P (Grammar.namedCall N bareArguments) (Grammar.namedCall N' bareArguments)
      (Same G.goesOn) := by
  refine .needing .namedCall ?_
  have hcall {Q : Parser → Prop} : G.Kindred Q
      (do
        let routine ← Grammar.objectName
        if ← Production.check .leftParen then
          return Statement.call routine (← Grammar.parenArguments N)
        else if bareArguments && (← Grammar.atExpressionStart) then
          return Statement.call routine (← Production.list (Grammar.bareArgument N))
        else return Statement.call routine [])
      (do
        let routine ← Grammar.objectName
        if ← Production.check .leftParen then
          return Statement.call routine (← Grammar.parenArguments N')
        else if bareArguments && (← Grammar.atExpressionStart) then
          return Statement.call routine (← Production.list (Grammar.bareArgument N'))
        else return Statement.call routine []) (Same G.goesOn) := by
    refine .bindSame .objectName fun routine routine' hroutine => ?_
    refine .bindIf (Test.kindred .check) ?_ (.bind .atExpressionStart fun _ => .ite (fun _ => ?_) fun _ => ?_)
    · refine .bindSame (.parenArguments h) fun args args' hargs => .ret ?_
      cases hg : G.goesOn <;> simp_all [Same, mapTexts]
    · refine .bindSame (.listSame (.bareArgument h)) fun args args' hargs => .ret ?_
      cases hg : G.goesOn <;> simp_all [Same, mapTexts]
    · refine .ret ?_
      cases hg : G.goesOn <;> simp_all [Same, mapTexts]
  refine .bindAnd .atVariable (.checkNext fun p hp => hp) ?_ hcall
  exact .bindAdvanceTo (.bind .advance fun _ => hcall)

theorem call (h : G.Nested N N') {word : Keyword} :
    G.Kindred (G.At (.keyword word)) (Grammar.call N) (Grammar.call N') (Same G.goesOn) := by
  refine .bindCheckAt (.bind .advance fun _ => .bind .atDynamicText fun _ => ?_)
  refine .ite (fun _ => ?_) fun _ => .namedCall h
  refine .bindSame (.dynamicArguments h) fun args args' hargs => .ret ?_
  cases hg : G.goesOn <;> simp_all [Same, mapTexts]

/-! ## Cursors -/

theorem openCursor (h : G.Nested N N') :
    G.Kindred P (Grammar.openCursor N) (Grammar.openCursor N') (Same G.goesOn) := by
  refine .bind .expectKeyword fun _ => .bindSame .qualifiedName fun cursor cursor' hcursor => ?_
  refine .bindSame (.behindSame h.query) fun query query' hquery => .ret ?_
  cases hg : G.goesOn <;> simp_all [Same, mapTexts]

theorem fetchDirection (h : G.Nested N N') :
    G.Kindred P (Grammar.fetchDirection N) (Grammar.fetchDirection N') (Same G.goesOn) := by
  refine .bindKind (fun k => ?_) (.ret (.refl none))
  split
  · exact .bind .advance fun _ => .ret (.refl _)
  · exact .bind .advance fun _ => .ret (.refl _)
  · exact .bind .advance fun _ => .ret (.refl _)
  · exact .bind .advance fun _ => .ret (.refl _)
  · refine .bind .advance fun _ => .bindSame h.primary fun row row' hrow => .ret ?_
    cases hg : G.goesOn <;> simp_all [Same, mapTexts, FetchDirection.mapTexts]
  · refine .bind .advance fun _ => .bindSame h.primary fun count count' hcount => .ret ?_
    cases hg : G.goesOn <;> simp_all [Same, mapTexts, FetchDirection.mapTexts]
  · exact .ret (.refl none)

theorem fetch (h : G.Nested N N') :
    G.Kindred P (Grammar.fetch N) (Grammar.fetch N') (Same G.goesOn) := by
  refine .bind .expectKeyword fun _ => .bindSame (.fetchDirection h) fun row row' hrow => ?_
  refine .bindUnless .consumeKeyword .skipKeyword ?_
  refine .bindSame .qualifiedName fun cursor cursor' hcursor => ?_
  refine .bindSame (.behindSame (.listSame .qualifiedName)) fun into into' hinto => .ret ?_
  have hinto := hinto.getD (.refl [])
  cases hg : G.goesOn <;> simp_all [Same, mapTexts, Fetch.mapTexts]

theorem closeCursor : G.Kindred P Grammar.closeCursor Grammar.closeCursor (Same G.goesOn) := by
  refine .bind .expectKeyword fun _ => .mapSame .qualifiedName fun cursor cursor' hcursor => ?_
  cases hg : G.goesOn <;> simp_all [Same, mapTexts]

theorem deallocate : G.Kindred P Grammar.deallocate Grammar.deallocate (Same G.goesOn) := by
  refine .bind .expectKeyword fun _ => .bind .skipWord fun _ => ?_
  refine .mapSame .qualifiedName fun cursor cursor' hcursor => ?_
  cases hg : G.goesOn <;> simp_all [Same, mapTexts]

/-! ## Errors -/

theorem messageArguments (h : G.Nested N N') :
    G.Kindred P (Grammar.messageArguments N) (Grammar.messageArguments N') (Same G.goesOn) :=
  .manySame (.bindIf .consume (.mapSame h.expression fun _ _ => .some) (.ret (.refl none)))

/-- The word that ends a batch is no level. -/
theorem ofWord?_separator (hp : G.Ended p) (hpq : G.state p q) :
    RaiseLevel.ofWord? q.current.literal = none := by
  have hlower := (Bool.and_eq_true_iff.1 (hp.isWord hpq)).2
  have hsame : Same false q.current.literal "GO" := beq_iff_eq.1 hlower
  rw [RaiseLevel.ofWord?_eq hsame]
  decide +kernel

/-- A level, or none, and what the first text ends with if it ends behind it. -/
theorem bindRaiseLevel {β : Type} {last : TokenKind} {f f' : Option RaiseLevel → Production β}
    {S : β → β → Prop} {U : TokenKind → β → Prop} (hnone : G.Kindred (G.Behind last) (f none) (f' none) S U)
    (hidentifier : ∀ level, G.Kindred (G.Behind .identifier) (f (some level)) (f' (some level)) S U)
    (hexception : ∀ level,
      G.Kindred (G.Behind (.keyword .EXCEPTION)) (f (some level)) (f' (some level)) S U) :
    G.Kindred (G.Behind last) (Grammar.raiseLevel >>= f) (Grammar.raiseLevel >>= f') S U := by
  have hhere : G.Kindred G.Here (Grammar.raiseLevel >>= f) (Grammar.raiseLevel >>= f') S U := by
    rw [Grammar.raiseLevel, bind_assoc, bind_assoc]
    refine .bindKindHere fun k => ?_
    have hstay : G.Kindred (G.At k) (f none) (f' none) S U :=
      hnone.stage fun p hp hg hend => absurd hend (hp.1 hg)
    split
    case h_3 => exact hstay
    all_goals
      rw [bind_assoc, bind_assoc]
      refine .bindCurrent (fun p hp => hp.1) fun t t' ht => ?_
      rw [RaiseLevel.ofWord?_eq ht.same]
      split
    · rw [bind_assoc, bind_assoc]
      exact .bindLast (hidentifier _)
    · exact hstay
    · rw [bind_assoc, bind_assoc]
      exact .bindLast (hexception _)
    · exact hstay
  have hrun (f : Option RaiseLevel → Production β) {x : Parser}
      (hx : Grammar.raiseLevel x = .ok none x) : (Grammar.raiseLevel >>= f) x = f none x := by
    rw [Production.run_bind, hx]
  intro p q hpq hp
  rcases here_or_ended G p with hp' | hp'
  · exact hhere p q hpq hp'
  · have hleft : Grammar.raiseLevel p = .ok none p := by simp [Grammar.raiseLevel, hp'.kind]
    have hright : Grammar.raiseLevel q = .ok none q := by
      simp [Grammar.raiseLevel, hp'.right_kind hpq, ofWord?_separator hp' hpq]
    rw [hrun f hleft, hrun f' hright]
    exact hnone p q hpq hp

theorem raiseSubject (h : G.Nested N N') {last : TokenKind} :
    G.Kindred (G.Behind last) (Grammar.raiseSubject N) (Grammar.raiseSubject N') (Same G.goesOn)
      fun k subject => k = .eof ∧ subject = (none, [], none) ∧ G.last = last := by
  refine .leavingBehind (fun hlast => Production.Ends.raiseSubject.mono fun _ hs => ⟨rfl, hs, hlast⟩) ?_
  refine .bindTest .check (.bind .takeLiteral fun message => ?_) (.bindConsume ?_ ?_)
  · refine .bindSame (.messageArguments h) fun args args' hargs => .ret ?_
    cases hg : G.goesOn <;> simp_all [Same, mapTexts]
  · exact .bind .sqlState fun _ => .ret (.refl _)
  · refine .bindTest (.atName fun _ => id) (.bindSame .name fun name name' hname => .ret ?_)
      (.ret (.refl _))
    cases hg : G.goesOn <;> simp_all [Same, mapTexts]

theorem switchedOn : G.Kindred P Grammar.switchedOn Grammar.switchedOn Eq := by
  refine .bindSame .name fun name name' hname => ?_
  rw [hname.upper]
  exact .stay

theorem raiseCall (h : G.Nested N N') :
    G.Kindred P (Grammar.raiseCall N) (Grammar.raiseCall N') (Same G.goesOn) := by
  refine .bindSame (.inParens ?_) fun (message, args) (message', args') hsubject => ?_
  · refine .bindSame h.expression fun message message' hmessage => ?_
    refine .bindSame (.messageArguments h) fun args args' hargs => .ret ?_
    cases hg : G.goesOn <;> simp_all [Same, mapTexts]
  · refine .bind (.behind (.list .switchedOn)) fun options => .ret ?_
    cases hg : G.goesOn <;> simp_all [Same, mapTexts, Raise.mapTexts]

theorem raise (h : G.Nested N N') :
    G.Kindred P (Grammar.raise N) (Grammar.raise N') (Same G.goesOn) G.Dangling := by
  refine .bindIf .consumeKeyword (.mapSame (.raiseCall h) fun node node' hnode => ?_) ?_
  · cases hg : G.goesOn <;> simp_all [Same, mapTexts]
  have hrest (level : Option RaiseLevel) {last : TokenKind}
      (hlast : G.last = last → if level.isSome then G.last = .identifier ∨ G.last = .keyword .EXCEPTION
        else G.last = .keyword .RAISE) :
      G.Kindred (G.Behind last)
        (do
          let subject ← Grammar.raiseSubject N
          let options ← Production.behind .USING (Grammar.assignments N)
          return Statement.raise ⟨false, level, subject.1, subject.2.1, subject.2.2, options.getD []⟩)
        (do
          let subject ← Grammar.raiseSubject N'
          let options ← Production.behind .USING (Grammar.assignments N')
          return Statement.raise ⟨false, level, subject.1, subject.2.1, subject.2.2, options.getD []⟩)
        (Same G.goesOn) G.Dangling := by
    refine .bindApart (.raiseSubject h) (fun subject subject' hsubject => ?_) fun k subject hk => ?_
    · obtain ⟨hmessage, hrest⟩ := hsubject.prod
      obtain ⟨hargs, hcondition⟩ := hrest.prod
      refine .bindSame (.behindSame (.assignments h)) fun options options' hoptions => .ret ?_
      have hoptions := hoptions.getD (.refl [])
      cases hg : G.goesOn <;> simp_all [Same, mapTexts, Raise.mapTexts]
    · obtain ⟨rfl, rfl, hbehind⟩ := hk
      refine .bind .behind fun options hoptions => .ret ?_
      rw [hoptions]
      exact .ofOpen rfl ⟨rfl, rfl, rfl, rfl, hlast hbehind⟩
  refine .bindExpectLast (.bindRaiseLevel (hrest none fun hlast => ?_) (fun level => hrest _ fun hlast => ?_)
    fun level => hrest _ fun hlast => ?_)
  · exact hlast
  · exact .inl hlast
  · exact .inr hlast

theorem throwStatement (h : G.Nested N N') :
    G.Kindred P (Grammar.throwStatement N) (Grammar.throwStatement N') (Same G.goesOn) := by
  refine .bind .expectKeyword fun _ => .bindIf .atExpressionStart ?_ (.ret (.refl _))
  refine .bindSame h.expression fun number number' hnumber => .bind .expect fun _ => ?_
  refine .bindSame h.expression fun message message' hmessage => .bind .expect fun _ => ?_
  refine .bindSame h.expression fun state state' hstate => .ret ?_
  cases hg : G.goesOn <;> simp_all [Same, mapTexts, Throw.mapTexts]

theorem signalledCondition {last : TokenKind} :
    G.Kindred (G.Behind last) Grammar.signalledCondition Grammar.signalledCondition (Same G.goesOn)
      fun k condition => k = .eof ∧ condition = (none, none) ∧ G.last = last := by
  refine .leavingBehind (fun hlast => Production.Ends.signalledCondition.mono fun _ hs => ⟨rfl, hs, hlast⟩) ?_
  refine .bindConsume (.bind .sqlState fun _ => .ret (.refl _)) ?_
  refine .bindTest (.atName fun _ => id) (.bindSame .name fun name name' hname => .ret ?_)
    (.ret (.refl _))
  cases hg : G.goesOn <;> simp_all [Same, mapTexts]

theorem signal (h : G.Nested N N') {word : Keyword} (hword : word = .SIGNAL ∨ word = .RESIGNAL) :
    G.Kindred (G.At (.keyword word)) (Grammar.signal N) (Grammar.signal N') (Same G.goesOn)
      G.Dangling := by
  refine .bindCheckAt (.bindLast ?_)
  refine .bindApart .signalledCondition (fun subject subject' hsubject => ?_) fun k subject hk => ?_
  · obtain ⟨hcode, hcondition⟩ := hsubject.prod
    refine .bindSame (.behindSame (.assignments h)) fun properties properties' hproperties => .ret ?_
    have hproperties := hproperties.getD (.refl [])
    cases hg : G.goesOn <;> simp_all [Same, mapTexts, Signal.mapTexts]
  · obtain ⟨rfl, rfl, hlast⟩ := hk
    refine .bind .behind fun properties hproperties => .ret ?_
    rw [hproperties]
    refine .ofOpen rfl ⟨rfl, rfl, rfl, ?_⟩
    rcases hword with rfl | rfl <;> exact hlast

/-! ## Requests to explain -/

theorem explainValue : G.Kindred P Grammar.explainValue Grammar.explainValue Eq := by
  refine .bind (Test.kindred .check) fun _ => .bind (Test.kindred .check) fun _ => ?_
  exact .ite (fun _ => .stay) fun _ => .map _ .optionValue

theorem explainSetting : G.Kindred P Grammar.explainSetting Grammar.explainSetting Eq :=
  .bind .optionValue fun _ => .bind .explainValue fun _ => .stay

theorem explainPart? {request : ExplainOptions} :
    G.Kindred P (Grammar.explainPart? request) (Grammar.explainPart? request) Eq := by
  refine .bindKind (fun k => ?_) .stay
  split
  · exact .bind .advance fun _ => .stay
  · exact .bind .advance fun _ => .stay
  · exact .bind .advance fun _ => .stay
  · exact .bind .advance fun _ => .bind (.discard .consume) fun _ => .bind .optionValue fun _ => .stay
  · refine .bindTest (.peekKeyword fun p hp => hp.1) ?_ .stay
    exact .bindAdvance (.bind .advance fun _ => .stay)
  · exact .bind (.inParens (.list .explainSetting)) fun settings => .stay
  · exact .stay

theorem explain (h : G.Nested N N') :
    G.Kindred P (Grammar.explain N) (Grammar.explain N') (Same G.goesOn) G.Dangling := by
  refine .bind .expectKeyword fun _ => .bind (.loop (W := Eq) (fun request _ heq => ?_) rfl)
    fun request => ?_
  · subst heq
    refine .bind .explainPart? fun part? => ?_
    cases part? with
    | none => exact .ret (.done rfl)
    | some part => exact .ret (.more rfl)
  · refine .bindApart h.statement.anywhere (fun s s' hs => .ret ?_) fun k s hk => .ret ?_
    · cases hg : G.goesOn <;> simp_all [Same, mapTexts]
    · exact hk.endOf rfl .explain

end Kindred

end Kinship

end SqlFrontend
