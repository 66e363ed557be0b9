import SqlFrontend.Grammar.Trigger
import SqlFrontend.Proofs.Grammar.Routine
import SqlFrontend.Proofs.Shape.Command
import SqlFrontend.Proofs.Shape.Control

/-!
# The shape of routines and triggers

* `Yields.quotedBody`: a quoted body is read by a parser of its own, and is well shaped where it is
  read.
* `Yields.createProcedure`, `Yields.createFunction`, `Yields.createTrigger`: definitions. A trigger has
  events.
* `YieldsBehind.returnType`: the columns of a table that a function returns are skipped.
-/

open Computability

namespace SqlFrontend.Production

theorem YieldsBehind.returnType {P : Parser → Prop} :
    YieldsBehind (⊤ * Phrase.word .RETURNS) P Grammar.returnType (fun _ => ⊤) fun _ _ => True := by
  refine .bind (.looks .current fun _ => ⟨_, rfl⟩) fun t => ?_
  refine .bind (.looks .peekKeyword fun _ => ⟨_, rfl⟩) fun atTable => ?_
  extract_lets done rest
  have hrest (u : Unit) : YieldsBehind
      (⊤ * Phrase.word .RETURNS * (1 + Phrase.one fun t => t.literal.startsWith "@"))
      (fun _ => True) (rest u) (fun _ => ⊤) fun _ _ => True := by
    refine .bindIf .consumeKeyword (.bindIf (.looks .check fun _ => ⟨_, rfl⟩) ?_ (.ofYields .stay))
      (.ofYields .dataType)
    have hhead : Phrase.tableReturned ≤ Phrase.skipHead :=
      le_self_add.trans (le_self_add.trans le_self_add)
    refine .bind (.skipParens ?_) fun _ => .ofYields .stay
    simpa only [Phrase.tableReturned, mul_assoc, cond_true] using mul_le_mul_right hhead ⊤
  refine .ite (fun hboth => .bind (.pass fun p hp _ => ?_) fun u =>
    (hrest u).behind Phrase.mul_le_mul_optional) fun _ => ?_
  · have hsign := (Bool.and_eq_true_iff.1 hboth).1
    rw [hp.1.2.1]
    exact ⟨hsign, hp.1.2.2 hsign⟩
  · exact (hrest ()).anywhere.behind Phrase.le_mul_optional

end SqlFrontend.Production

namespace SqlFrontend.Production.Yields

variable {P : Parser → Prop} {N : Grammar.Nested}

/-! ## Parameters -/

theorem parameterMode : Yields P Grammar.parameterMode fun _ _ => True := by
  refine .bind .kind fun k => ?_
  split
  · exact .bind .advance fun _ => .stay
  · exact .bind .advance fun _ => .stay
  · exact .bind .advance fun _ => .stay
  · exact .stay

theorem variadic : Yields P Grammar.variadic fun _ _ => True := by
  refine .bindIf .checkKeyword (.bind .span fun place => .bind .require fun _ => ?_) .stay
  exact .bind .advance fun _ => .stay

theorem parameterName? : Yields P Grammar.parameterName? fun _ _ => True :=
  .bind .atName fun _ => .bind .peekIsName fun _ => .ite (fun _ => mapQuiet .name) fun _ => .stay

theorem parameterIsOutput : Yields P Grammar.parameterIsOutput fun _ _ => True :=
  .bindIf .consumeWord .stay (.bindIf .consumeKeyword .stay (.bind .skipWord fun _ => .stay))

theorem parameter (h : N.Shaped) :
    Yields P (Grammar.parameter N) fun p _ => ∀ e ∈ p.initial, Shapely e.parts := by
  refine .bind parameterMode fun mode => .bind variadic fun variadic => ?_
  refine .bind parameterName? fun name => .bind .dataType fun type => ?_
  exact .seq (initialValue h) fun initial hinitial => .bind parameterIsOutput fun _ =>
    .ret fun _ _ => hinitial

theorem parameters (h : N.Shaped) : Yields P (Grammar.parameters N)
    fun ps _ => ∀ p ∈ ps, ∀ e ∈ p.initial, Shapely e.parts := by
  have hlist {P : Parser → Prop} : Yields P (Production.list (Grammar.parameter N))
      fun ps _ => ∀ p ∈ ps, ∀ e ∈ p.initial, Shapely e.parts :=
    .mono (.list (parameter h)) fun _ _ => And.right
  refine .bindIf .check (.inParens (.bindIf .check (.ret fun _ _ => by simp) hlist)) ?_
  exact .bind .current fun t => .ite (fun _ => hlist) fun _ => .ret fun _ _ => by simp

/-! ## Characteristics -/

theorem language : Yields P Grammar.language fun _ _ => True := by
  refine .bind .span fun place => .bind .name fun name => .ite (fun _ => ?_) fun _ => .stay
  exact .bind .require fun _ => .stay

theorem securityMode : Yields P Grammar.securityMode fun _ _ => True :=
  .bindIf .consumeKeyword .stay (.bind .expectKeyword fun _ => .stay)

theorem routineOption? {options : RoutineOptions} :
    Yields P (Grammar.routineOption? options) fun _ _ => True := by
  have hdata {P : Parser → Prop} {word : Keyword} {found : RoutineOptions} : Yields P
      (do Production.expectKeyword word; Production.expectKeyword .DATA; return some found)
      fun _ _ => True :=
    .bind .expectKeyword fun _ => .bind .expectKeyword fun _ => .stay
  refine .bind .kind fun k => .bind .peekKind fun k' => ?_
  split
  · exact .bind .advance fun _ => .bind language fun _ => .stay
  · exact .bind .advance fun _ => .stay
  · exact .bind .advance fun _ => .bind securityMode fun _ => .stay
  · exact .bind .advance fun _ => .stay
  · exact .bind .advanceTo fun _ => .bind .advance fun _ => .stay
  · exact .bind .advance fun _ => .bind .expectKeyword fun _ => .stay
  · exact .bind .advanceTo fun _ => .bind .advance fun _ => .stay
  · exact .bind .advance fun _ => hdata
  · exact .bind .advance fun _ => hdata
  · exact .bind .advanceTo fun _ => .bind .takeLiteral fun _ => .stay
  · exact .bind .advance fun _ => .stay
  · exact .bind .advance fun _ => .stay
  · exact .bind .advance fun _ => .stay
  · refine .bind .dialect fun d => .bind .peekIsName fun _ => .ite (fun _ => ?_) fun _ => .stay
    exact .bind .advance fun _ => .bind (.discard (.list .name)) fun _ => .stay
  · exact .stay

theorem routineOptions {options : RoutineOptions} :
    Yields P (Grammar.routineOptions options) fun _ _ => True := by
  refine .loop (I := fun _ => True) (fun options _ => .bind routineOption? fun options? => ?_) trivial
  cases options? <;> exact .stay

/-! ## Bodies -/

theorem atBlockStart : Yields P Grammar.atBlockStart fun _ _ => True := by
  refine .bind .kind fun k => .bind .peekKind fun k' => ?_
  split
  iterate 5
    · exact .stay
  · exact .bind .dialect fun _ => .stay
  · exact .stay
  · exact .stay

theorem labelledBlock (h : N.Shaped) :
    Yields P (Grammar.labelledBlock N) fun b _ => Shapely b.parts :=
  .bindIfThen (G := fun _ => True) .check (mapQuiet angleLabel) .stay fun _ _ => block h

theorem quotedText (h : N.Shaped) : Yields P (Grammar.quotedText N) fun b _ => Shapely b.parts := by
  refine .bindIfThen .atBlockStart (labelledBlock h) (.map ?_) fun body hbody => ?_
  · exact (statements h).mono fun _ _ hbody => shapely_ofBody hbody
  · exact .bind .skipSemicolons fun _ => .bind .get fun p =>
      .ite (fun _ => .ret fun _ _ => hbody) fun _ => .expected

/-- Behind a quoted body its pools are taken over, and nothing else of its parser. -/
theorem quotedOutcome (place : Span) {inner p : Parser} {r : EStateM.Result ParseError Parser Block}
    (hp : p.Clean) (h : Yield inner (fun b _ => Shapely b.parts) r) :
    Yield p (fun b _ => Shapely b.parts) (Grammar.quotedOutcome place r p) := by
  have htaken {pools : Pools} (hpools : pools.IsFresh) : p.Passes { p with pools } :=
    .update hp hpools rfl rfl rfl rfl rfl rfl
  have hcancelled {pools : Pools} (hpools : pools.IsFresh) :
      Yield p (fun (b : Block) _ => Shapely b.parts)
        (.error ⟨.cancelled, place⟩ (Parser.cancel { p with pools })) :=
    .error (htaken hpools).clean.cancel (Parser.cancel_recovering _)
  have hdeferred {pools : Pools} (hpools : pools.IsFresh) (e : ParseError) (others : List ParseError) :
      Yield p (fun (b : Block) _ => Shapely b.parts)
        (.error e (Parser.defer { p with pools } others)) :=
    .error ⟨hpools, hp.current, hp.peek⟩ rfl
  cases h with
  | ok hpasses hvalue =>
    rw [Likeness.quotedOutcome_ok]
    split
    · exact hcancelled hpasses.clean.pools
    · split
      · exact .ok (htaken hpasses.clean.pools) hvalue
      · exact hdeferred hpasses.clean.pools _ _
  | error hclean hrecovering =>
    rw [Likeness.quotedOutcome_error]
    split
    · exact hcancelled hclean.pools
    · split
      · exact hdeferred hclean.pools _ _
      · exact hdeferred hclean.pools _ _

theorem quotedBody (h : N.Shaped) (htext : ∀ p, P p → p.current.kind.isProper) :
    Yields P (Grammar.quotedBody N) fun b _ => Shapely b.parts := by
  refine .bind .span fun place => .bind (.take fun p hp _ => htext p hp) fun text => ?_
  refine .bind .get fun q p hp hq => ?_
  have hbody := quotedText (P := fun _ => True) h (q.nested text) (hq.2 ▸ hp.nested text) trivial
  exact quotedOutcome place hp hbody

theorem routineBody (h : N.Shaped) :
    Yields P (Grammar.routineBody N) fun b _ => Shapely b.parts := by
  refine .bindUnless .consumeKeyword .skipKeyword (.bind .dialect fun d => ?_)
  refine .bindIf .check (quotedBody h fun p hp => ?_) (.bind .check fun isString => .ite (fun hboth => ?_) fun _ => ?_)
  · simp [hp.2, TokenKind.isProper]
  · refine quotedBody h fun p hp => ?_
    rw [hp.2 (Bool.and_eq_true_iff.1 hboth).2]
  refine .bindIf atBlockStart (.inRoutine (labelledBlock h)) (.ite (fun _ => .map ?_) fun _ => ?_)
  · exact (Yields.inRoutine (statements h)).mono fun _ _ hbody => shapely_ofBody hbody
  · exact .seq (.inRoutine h.statement) fun s hs => .ret fun _ _ =>
      shapely_ofBody (List.forall_mem_singleton.2 hs)

/-! ## Definitions of routines -/

theorem routineEnd (h : N.Shaped) {orReplace : Bool} {name : ObjectName} {parameters : List Parameter}
    (hparameters : ∀ p ∈ parameters, ∀ e ∈ p.initial, Shapely e.parts) :
    Yields P (Grammar.routineEnd N orReplace name parameters)
      fun r _ => Shapely (Parameter.partsAll r.parameters ++ r.body.parts) := by
  refine .bind routineOptions fun options => .seq (routineBody h) fun body hbody => ?_
  exact .bind routineOptions fun _ => .ret fun _ _ => by simpa [hbody] using hparameters

theorem createProcedure (h : N.Shaped) {orReplace : Bool} :
    Yields P (Grammar.createProcedure N orReplace) fun s _ => s.WellFormed := by
  refine .bindUnless .consumeKeyword .expectWord (.bind .objectName fun name => ?_)
  refine .seq (parameters h) fun ps hps => .seq (routineEnd h hps) fun r hr => .ret fun _ _ => ?_
  obtain ⟨_, _, _, _, _⟩ := r
  simpa [Statement.WellFormed] using hr

theorem createFunction (h : N.Shaped) {orReplace : Bool} :
    Yields P (Grammar.createFunction N orReplace) fun s _ => s.WellFormed := by
  refine .bind .expectKeyword fun _ => .bind .objectName fun name => ?_
  refine .seq (parameters h) fun ps hps => .ofBehind (.bindIf .consumeKeyword ?_ ?_)
  · refine .bind .returnType fun returns => .ofYields ?_
    refine .seq (routineEnd h hps) fun r hr => .ret fun _ _ => ?_
    obtain ⟨_, _, _, _, _⟩ := r
    simpa [Statement.WellFormed] using hr
  · exact .ofYields (.bind .span fun place => .failThen)

/-! ## Triggers -/

theorem insteadOf : Yields P Grammar.insteadOf fun _ _ => True := by
  refine .bind .span fun place => .bind .require fun _ => ?_
  exact .bind .expectKeyword fun _ => .bind .expectKeyword fun _ => .stay

theorem batchTiming : Yields P Grammar.batchTiming fun _ _ => True := by
  refine .bind .kind fun k => ?_
  split
  · exact .bind .advance fun _ => .stay
  · exact .bind .advance fun _ => .stay
  · exact insteadOf
  · exact .expected

theorem timing : Yields P Grammar.timing fun _ _ => True := by
  refine .bind .kind fun k => ?_
  split
  · exact .bind .advance fun _ => .stay
  · exact .bind .advance fun _ => .stay
  · exact insteadOf
  · exact .expected

theorem changedColumns : Yields P Grammar.changedColumns fun _ _ => True := by
  refine .bind .name fun first => .bind (.quiet (.many (G := fun _ => True) ?_)) fun others => .stay
  refine .bind .check fun atComma => .bind .peekIsName fun _ => .ite (fun hboth => ?_) fun _ => .retNone
  refine .bind (.pass fun p hp _ => ?_) fun _ => .mapSome .name
  rw [hp.1.2 (Bool.and_eq_true_iff.1 hboth).1]

theorem triggerEvent : Yields P Grammar.triggerEvent fun _ _ => True := by
  refine .bind .kind fun k => ?_
  split
  · exact .bind .advance fun _ => .stay
  · exact .bind .advance fun _ => .stay
  · exact .bind .advance fun _ => .bind (.behind changedColumns) fun columns => .stay
  · exact .expected

theorem triggerEvents : Yields P Grammar.triggerEvents fun events _ => events ≠ [] := by
  refine .bind triggerEvent fun first => .bind (.quiet (.many (G := fun _ => True) ?_)) fun others =>
    .ret fun _ _ => List.cons_ne_nil _ _
  exact .bindIf .consumeAny (.mapSome triggerEvent) .retNone

theorem triggerCall (h : N.Shaped) :
    Yields P (Grammar.triggerCall N) fun b _ => Shapely b.parts := by
  refine .bindUnless .consumeKeyword .expectKeyword (.bind .qualifiedName fun function => ?_)
  exact .seq (parenArguments h) fun args hargs => .ret fun _ _ => by simpa using hargs

theorem triggerBody (h : N.Shaped) :
    Yields P (Grammar.triggerBody N) fun b _ => Shapely b.parts :=
  .bindIf .consumeKeyword (triggerCall h)
    (.bindIf .checkKeyword (.map (.inRoutine (block h))) (.map (.inRoutine h.statement)))

theorem batchTriggerBody (h : N.Shaped) :
    Yields P (Grammar.batchTriggerBody N) fun b _ => Shapely b.parts := by
  refine .bind .checkKeyword fun _ => .bind .peekKeyword fun _ =>
    .ite (fun _ => .map (.inRoutine (block h))) fun _ => ?_
  exact .seq (.inRoutine (statements h)) fun body hbody => .ret fun _ _ => shapely_ofBody hbody

theorem forEachRow : Yields P Grammar.forEachRow fun _ _ => True := by
  refine .bindIf .consumeKeyword (.bind .skipKeyword fun _ => .bindIf .consumeKeyword .stay ?_) .stay
  exact .bind .expectKeyword fun _ => .stay

theorem batchTrigger (h : N.Shaped) {orReplace : Bool} {name : ObjectName} :
    Yields P (Grammar.batchTrigger N orReplace name)
      fun t _ => (Statement.createTrigger t).WellFormed := by
  refine .bind .objectName fun table => .bind batchTiming fun timing => ?_
  refine .seq triggerEvents fun events hevents => .bind .expectKeyword fun _ => ?_
  refine .seq (batchTriggerBody h) fun body hbody => .ret fun _ _ => ?_
  simp [Statement.WellFormed, hevents, hbody, Expr.partsOption]

theorem rowTrigger (h : N.Shaped) {orReplace : Bool} {name : ObjectName} :
    Yields P (Grammar.rowTrigger N orReplace name)
      fun t _ => (Statement.createTrigger t).WellFormed := by
  refine .bind timing fun timing => .seq triggerEvents fun events hevents => ?_
  refine .bind .expectKeyword fun _ => .bind .objectName fun table => .bind forEachRow fun forEachRow => ?_
  refine .seq (whenCondition h) fun condition hcondition => ?_
  refine .seq (triggerBody h) fun body hbody => .ret fun _ _ => ?_
  simpa [Statement.WellFormed, hevents, hbody] using hcondition

theorem createTrigger (h : N.Shaped) {orReplace : Bool} :
    Yields P (Grammar.createTrigger N orReplace)
      fun t _ => (Statement.createTrigger t).WellFormed := by
  refine .bind .expectKeyword fun _ => .bind .objectName fun name => ?_
  exact .bindIf .consumeKeyword (batchTrigger h) (rowTrigger h)

end SqlFrontend.Production.Yields
