import SqlFrontend.Grammar.Statement
import SqlFrontend.Proofs.Kinship.Command
import SqlFrontend.Proofs.Kinship.Table
import SqlFrontend.Proofs.Kinship.Trigger

/-!
# Statements of texts that are kin

* `Kindred.statement`: any statement, for given readings of nested constructs.
* `Kinship.needy_below`: the readings of nested constructs need text.
* `Kinship.nested_below`: they are kindred. The induction is on the text that is left.
* `Kinship.parse_outcome`: what is read of two texts that are kin corresponds, with all that is nested in
  it.
-/

namespace SqlFrontend

/-! ## The end of the text -/

namespace Production.Ends

variable {N : Grammar.Nested} {stopped : Bool}

theorem atAssignment : Ends stopped .eof Grammar.atAssignment (· = false) := bindKind (ret rfl)

theorem namedStatement {S : Statement → Prop} : Ends stopped .eof (Grammar.namedStatement N) S := by
  refine bindAnd atName (mono checkPeek fun _ _ => trivial) (bindIf atAssignment ?_)
  exact bindAnd check (mono checkPeek fun _ _ => trivial) expected

theorem statement {S : Statement → Prop} : Ends stopped .eof (Grammar.statement N) S :=
  bindKind namedStatement

theorem block {label : Option String} {S : Block → Prop} : Ends stopped .eof (Grammar.block N label) S :=
  bind (bindIf (S := fun _ => True) consumeKeyword (ret trivial)) fun _ _ => fails expectKeyword

/-- A last `WITH` is passed, and no name follows. -/
theorem withTablesLast {S : Query → Prop} : Ends false (.keyword .WITH) (Grammar.withTables N) S := by
  refine ofPassed "identifier" fun p hp => ?_
  have hname : p.advance.current.isName = false := by
    rcases hp.advance with h | h
    · rw [Token.isName, h]
      rfl
    · rw [Token.isName, h]
  have hrecursive : p.advance.current.kind ≠ .keyword .RECURSIVE := by
    rcases hp.advance with h | h <;> rw [h] <;> decide
  simp [Grammar.withTables, Grammar.commonTable, Production.list, Production.name, hp.kind, hname,
    hrecursive]

theorem statementWith {S : Statement → Prop} :
    Ends false (.keyword .WITH) (Grammar.statement N) S :=
  bindKind (map (S := fun _ => False) withTablesLast fun _ => False.elim)

theorem within {α : Type} {k : TokenKind} {bound : ℕ}
    {production : (left : ℕ) → left < bound → Production α} {S : α → Prop}
    (h : ∀ left hleft, Ends stopped k (production left hleft) S) :
    Ends stopped k (Grammar.within bound production) S := by
  intro p hp hc
  rw [Grammar.within]
  by_cases hless : p.remaining < bound
  · rw [dif_pos hless]
    exact h _ hless p hp hc
  · rw [dif_neg hless]
    have hexpected : Ends stopped k (Production.expected "shorter text" : Production α) S := expected
    exact hexpected p hp hc

end Production.Ends

namespace Kinship.Kindred

variable {G : Kinship} {P : Parser → Prop} {N N' : Grammar.Nested}

/-! ## Definitions -/

theorem orReplace : G.Kindred P Grammar.orReplace Grammar.orReplace Eq := by
  refine .bindOr .checkKeywords .checkKeywords (.either ?_ ?_) .stay
  · exact .bindAdvance (.bind .advance fun _ => .stay)
  · exact .bindAdvance (.bind .advance fun _ => .stay)

theorem clustering : G.Kindred P Grammar.clustering Grammar.clustering Eq :=
  .bindIf .consumeKeyword .stay (.bindIf .consumeKeyword .stay .stay)

theorem create (h : G.Nested N N') :
    G.Kindred P (Grammar.create N) (Grammar.create N') (Same G.goesOn) G.Dangling := by
  have hview {orReplace materialized : Bool} {Q : Parser → Prop} : G.Kindred Q
      (Statement.createView <$> Grammar.createView N orReplace materialized)
      (Statement.createView <$> Grammar.createView N' orReplace materialized) (Same G.goesOn)
      G.Dangling := by
    refine .mapSame (.createView h) fun node node' hnode => ?_
    cases hg : G.goesOn <;> simp_all [Same, mapTexts]
  refine .bind .expectKeyword fun _ => .bind .orReplace fun orReplace => ?_
  refine .bind .consumeAny fun temporary => .bind .consumeKeyword fun unique => ?_
  refine .bind .clustering fun clustered => .bindKind (fun k => ?_) ?_
  · split
    · refine .mapApart (.createTable h) (fun node node' hnode => ?_) fun k node hk => ?_
      · cases hg : G.goesOn <;> simp_all [Same, mapTexts]
      · obtain ⟨rfl, hlast⟩ := hk
        exact .ofOpen rfl hlast
    · refine .mapSame (.createIndex h) fun node node' hnode => ?_
      cases hg : G.goesOn <;> simp_all [Same, mapTexts]
    · exact hview
    · refine .bindSpan fun s s' hs => .bindRequire hs (.bind .advance fun _ => hview)
    · exact .createProcedure h
    · exact .createFunction h
    · refine .mapApart (.createTrigger h) (fun node node' hnode => ?_) fun k node hk => ?_
      · cases hg : G.goesOn <;> simp_all [Same, mapTexts]
      · exact ⟨rfl, hk.imp Statement.leftOpen_createTrigger⟩
    · exact .bindTest .checkWord (.createProcedure h) .expected
  · exact .bindTest .checkWord (.createProcedure h) .expected

/-! ## Begin -/

/-- The word that ends a batch ends what begins a transaction, as the end of the text does. -/
theorem transactionFollows :
    G.Kindred G.Here Grammar.transactionFollows Grammar.transactionFollows Eq := by
  refine .bindPeekCases (fun _ => id) (fun k => ?_) fun p q _ hpq _ _ hbatch => ?_
  · split
    all_goals first
      | exact .stay
      | refine .bindGet fun p q hpq _ => .bindGet fun p' q' hpq' hp' => ?_
        rw [isBatchSeparator_eq hpq (peek_kin_of_more hpq' hp'.1 hp'.2.2)]
        exact .stay
  · change G.Outcome p Eq _ (.ok true p) (.ok (q.isBatchSeparator q.peek) q)
    rw [hbatch]
    exact .ok hpq rfl fun _ => id

theorem begin (h : G.Nested N N') :
    G.Kindred (G.At (.keyword .BEGIN)) (Grammar.begin N) (Grammar.begin N') (Same G.goesOn)
      G.Dangling := by
  refine .bindTest (.peekKeyword fun p hp => hp.1) (.closed (.tryCatch h)) ?_
  have htransaction {Q : Parser → Prop} : G.Kindred Q
      (Statement.beginTransaction <$> Grammar.beginTransaction)
      (Statement.beginTransaction <$> Grammar.beginTransaction) (Same G.goesOn) G.Dangling := by
    refine .mapSame .beginTransaction fun node node' hnode => ?_
    cases hg : G.goesOn <;> simp_all [Same, mapTexts]
  refine .bindIf (.stage .transactionFollows fun p hp => hp.1) htransaction ?_
  refine .bindGet fun p q hpq _ => .bindDialect fun d => ?_
  rw [(G.shown hpq).routineDepth]
  refine .ite (fun _ => .mapSame (.block h (.refl none)) fun block block' hblock => ?_)
    fun _ => htransaction
  cases hg : G.goesOn <;> simp_all [Same, mapTexts]

/-! ## Dispatch -/

theorem keywordStatement (h : G.Nested N N') {word : Keyword} :
    G.Kindred (G.At (.keyword word)) (Grammar.keywordStatement N word)
      (Grammar.keywordStatement N' word) (Same G.goesOn) G.Dangling := by
  unfold Grammar.keywordStatement
  split
  case h_1 => exact .mapNode (.selections h)
  case h_2 => exact .mapNode (.withTables h)
  case h_3 => exact .mapNode (.insert h)
  case h_4 => exact .mapNode (.update h)
  case h_5 => exact .mapNode (.delete h)
  case h_6 => exact .create h
  case h_7 => exact .mapNode .drop
  case h_8 =>
    refine .bindSame (.alterTable h) fun (table, action) (table', action') hchange => .ret ?_
    cases hg : G.goesOn <;> simp_all [Same, mapTexts]
  case h_9 => exact .begin h
  case h_10 => exact .mapNode .startTransaction
  case h_11 => exact .closed .commit
  case h_12 => exact .closed .rollback
  case h_13 => exact .closed .savepoint
  case h_14 => exact .closed .savepoint
  case h_15 => exact .closed .releaseSavepoint
  case h_16 => exact .explain h
  case h_17 =>
    refine .bind .expectKeyword fun _ => .mapApart (.declaration h) (fun d d' hd => ?_) fun _ _ => id
    cases hg : G.goesOn <;> simp_all [Same, mapTexts]
  case h_18 => exact .conditional h
  case h_19 => exact .whileLoop h (.refl none)
  case h_20 => exact .closed (.plainLoop h (.refl none))
  case h_21 => exact .closed (.repeatLoop h (.refl none))
  case h_22 => exact .closed (.forLoop h (.refl none))
  case h_23 => exact .closed (.choiceStatement h)
  case h_24 => exact .closed (.returnStatement h)
  case h_25 => exact .closed (.set h)
  case h_26 => exact .closed (.openCursor h)
  case h_27 => exact .closed (.fetch h)
  case h_28 => exact .closed .closeCursor
  case h_29 => exact .closed .deallocate
  case h_30 => exact .closed (.leave h)
  case h_31 => exact .closed (.leave h)
  case h_32 => exact .closed (.leave h)
  case h_33 => exact .closed (.iterate h)
  case h_34 => exact .closed (.iterate h)
  case h_35 => exact .raise h
  case h_36 => exact .raise h
  case h_37 => exact .closed (.throwStatement h)
  case h_38 => exact .signal h (.inl rfl)
  case h_39 => exact .signal h (.inr rfl)
  case h_40 => exact .closed (.call h)
  case h_41 => exact .closed (.call h)
  case h_42 => exact .closed (.call h)
  case h_43 => exact .expected

theorem atAssignment : G.Kindred G.Here Grammar.atAssignment Grammar.atAssignment Eq := by
  refine .bindKindHere fun k => ?_
  split
  · exact Test.kindred (.checkPeek fun p hp => hp.1)
  · exact Test.kindred (.checkPeek fun p hp => hp.1)
  · exact .stay

theorem namedStatement (h : G.Nested N N') :
    G.Kindred P (Grammar.namedStatement N) (Grammar.namedStatement N') (Same G.goesOn)
      G.Dangling := by
  refine .needing .namedStatement (.bindAnd (.atName fun _ => id) (.checkNext fun p hp => hp.1) ?_ ?_)
  · refine .bindNameTo fun label label' hlabel => .bind .advance fun _ => ?_
    exact .labelled h hlabel
  · refine .bindIf .atAssignment ?_ ?_
    · refine .mapSame (.assignments h) fun changes changes' hchanges => ?_
      cases hg : G.goesOn <;> simp_all [Same, mapTexts]
    · refine .bindAnd .check (.checkPeek fun p hp => hp.1) ?_ .expected
      exact .bindSame .angleLabel fun label label' hlabel => .labelled h hlabel

theorem statement (h : G.Nested N N') :
    G.Kindred P (Grammar.statement N) (Grammar.statement N') (Same G.goesOn) G.Dangling := by
  refine .needing .statement (.bindKindHere fun k => ?_)
  split
  · exact .ite (fun _ => .keywordStatement h) fun _ => .namedStatement h
  · exact .namedStatement h

end Kinship.Kindred

/-! ## Closing the circle -/

namespace Kinship

theorem needy_below (stopped : Bool) (n : ℕ) : Needy stopped (.below n) := by
  rw [Grammar.Nested.below.eq_def]
  constructor <;> dsimp only
  case expression => exact .within fun _ _ => .expression
  case primary => exact .within fun _ _ => .primary
  case selections => exact .within fun _ _ => .selections
  case query => exact .within fun _ _ => .query
  case statement => exact .within fun _ _ => .statement
  case block => exact .within fun _ _ => .block
  case statementWith => exact .within fun _ _ => .statementWith

variable {G : Kinship}

/-- A nested construct, where the readings of what is nested in it are kindred. -/
theorem Kindred.within {α : Type} {R : α → α → Prop} {T : TokenKind → α → Prop}
    {f : Grammar.Nested → Production α} {n : ℕ}
    (hf : ∀ {N N' : Grammar.Nested}, G.Nested N N' → G.Kindred Anywhere (f N) (f N') R T)
    (hbelow : ∀ left < n, G.Nested (.below left) (.below (left + G.lead))) :
    G.Kindred Anywhere (Grammar.within n fun left _ => f (.below left))
      (Grammar.within (n + G.lead) fun left _ => f (.below left)) R T := by
  intro p q hpq _
  rw [Grammar.within, Grammar.within]
  by_cases hless : p.remaining < n
  · have hless' : q.remaining < n + G.lead := by rw [G.remaining hpq]; omega
    rw [dif_pos hless, dif_pos hless', G.remaining hpq]
    exact hf (hbelow _ hless) p q hpq trivial
  · have hless' : ¬q.remaining < n + G.lead := by rw [G.remaining hpq]; omega
    rw [dif_neg hless, dif_neg hless']
    exact .expected hpq

/-- The readings of nested constructs are kindred. -/
theorem nested_below (G : Kinship) (n : ℕ) : G.Nested (.below n) (.below (n + G.lead)) := by
  induction n using Nat.strong_induction_on with
  | _ n ih =>
    have hneedy := needy_below false n
    rw [Grammar.Nested.below.eq_def n] at hneedy ⊢
    rw [Grammar.Nested.below.eq_def (n + G.lead)]
    refine {
      expression := ?expression
      primary := ?primary
      selections := ?selections
      query := ?query
      statement := ?statement
      block := ?block
      needy := hneedy } <;> dsimp only
    case expression => exact .within (f := Grammar.expression) (fun h => .expression h) ih
    case primary => exact .within (f := Grammar.primary) (fun h => .primary h) ih
    case selections => exact .within (f := Grammar.selections) (fun h => .selections h) ih
    case query => exact .within (f := Grammar.query) (fun h => .query h) ih
    case statement => exact .within (f := Grammar.statement) (fun h => .statement h) ih
    case block =>
      exact .within (f := fun N => Grammar.block N none) (fun h => .block h (.refl none)) ih

/-- What is read of two texts that are kin corresponds. -/
theorem parse_outcome {p q : Parser} (h : G.state p q) :
    G.Outcome p (Same G.goesOn) G.Dangling (Grammar.parse p) (Grammar.parse q) := by
  rw [Grammar.parse, Grammar.parse, G.remaining h]
  exact Kindred.statement (P := Anywhere) (G.nested_below p.remaining) p q h trivial

end Kinship

end SqlFrontend
