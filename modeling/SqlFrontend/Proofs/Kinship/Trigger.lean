import SqlFrontend.Grammar.Trigger
import SqlFrontend.Proofs.Kinship.Routine

/-!
# Triggers of texts that are kin

* `Kindred.triggerEvents`: a comma behind columns is passed before another event only, so a last one
  makes the reading fail.
* `Kindred.createTrigger`: a trigger is left open if its body is.
-/

namespace SqlFrontend

/-! ## The end of the text -/

namespace Production.Ends

variable {stopped : Bool}

theorem changedColumn :
    Ends stopped .comma
      (do
        if (← Production.check .comma) && (← Production.peekIsName) then
          Production.advance
          some <$> Production.name
        else return none) (· = none) := by
  refine bind checkAny fun _ _ => bind peekIsName fun y hy => ?_
  rw [hy, Bool.and_false]
  exact ret rfl

/-- A last comma is passed, and no event follows. -/
theorem furtherEvent {S : Option TriggerEvent → Prop} :
    Ends false .comma
      (do
        if ← Production.consumeAny [.keyword .OR, .comma] then some <$> Grammar.triggerEvent
        else return none) S := by
  refine ofPassed "INSERT, UPDATE or DELETE" fun p hp => ?_
  have hevent : Grammar.triggerEvent p.advance =
      .error (p.advance.expectedError "INSERT, UPDATE or DELETE") p.advance := by
    rcases hp.advance with h | h <;> simp [Grammar.triggerEvent, h]
  simp [Production.consumeAny, Production.consumeIf, hp.kind, hevent]

end Production.Ends

namespace Kinship.Kindred

variable {G : Kinship} {P : Parser → Prop} {N N' : Grammar.Nested} {p q : Parser}

/-! ## Events -/

theorem insteadOf : G.Kindred P Grammar.insteadOf Grammar.insteadOf Eq := by
  refine .bindSpan fun s s' hs => .bindRequire hs (.bind .expectKeyword fun _ => ?_)
  exact .bind .expectKeyword fun _ => .stay

theorem batchTiming : G.Kindred P Grammar.batchTiming Grammar.batchTiming Eq := by
  refine .bindKind (fun k => ?_) .expected
  split
  · exact .bind .advance fun _ => .stay
  · exact .bind .advance fun _ => .stay
  · exact .insteadOf
  · exact .expected

theorem timing : G.Kindred P Grammar.timing Grammar.timing Eq := by
  refine .bindKind (fun k => ?_) .expected
  split
  · exact .bind .advance fun _ => .stay
  · exact .bind .advance fun _ => .stay
  · exact .insteadOf
  · exact .expected

/-- A last comma is left where it is. -/
theorem changedColumns :
    G.Kindred P Grammar.changedColumns Grammar.changedColumns (Same G.goesOn)
      fun k _ => k = .comma := by
  refine .bindSame .name fun first first' hfirst => .bindApart (R := List.Forall₂ (Same G.goesOn))
    (.many_rel (V := fun k x => k = .comma ∧ x = none) (U := fun k _ => k = .comma) ?_ ?_)
    (fun others others' hothers => .ret (hfirst.cons (.list hothers))) fun k _ hk => .ret hk
  · refine .bindBeforeName (.bind .advance fun _ => ?_) (.ret .none) fun p q r' hg hpq hlast => ?_
    · exact .mapApart .name (fun _ _ => .some) fun _ _ => False.elim
    · exact .apart hg hlast ⟨rfl, rfl⟩
  · rintro k _ ⟨rfl, rfl⟩
    exact ⟨.mono .changedColumn fun _ hy => ⟨hy, fun _ _ => rfl⟩, fun _ _ => rfl⟩

theorem triggerEvent :
    G.Kindred P Grammar.triggerEvent Grammar.triggerEvent (Same G.goesOn) fun k _ => k = .comma := by
  refine .bindKind (fun k => ?_) .expected
  split
  · exact .bind .advance fun _ => .ret (.refl _)
  · exact .bind .advance fun _ => .ret (.refl _)
  · refine .bind .advance fun _ => .bindApart (.behindOpen .changedColumns)
      (fun columns columns' hcolumns => .ret ?_) fun k columns hk => .ret ?_
    · have hcolumns := hcolumns.getD (.refl [])
      cases hg : G.goesOn <;> simp_all [Same, mapTexts, TriggerEvent.mapTexts]
    · obtain ⟨_, -, hk⟩ := hk
      exact hk
  · exact .expected

theorem triggerEvents :
    G.Kindred P Grammar.triggerEvents Grammar.triggerEvents (Same G.goesOn) := by
  refine .bindApart .triggerEvent (fun first first' hfirst => ?_) fun k first hk => ?_
  · refine .bindApart (R := List.Forall₂ (Same G.goesOn)) (T := fun _ _ => False)
      (.many_rel (V := fun k x => k = .comma ∧ x ≠ none) (.bindIf .consumeAny ?_ (.ret .none)) ?_)
      (fun others others' hothers => .ret (hfirst.cons (.list hothers))) fun _ _ => False.elim
    · exact .mapApart .triggerEvent (fun _ _ => .some) fun k _ hk => ⟨hk, nofun⟩
    · rintro k x ⟨rfl, hx⟩
      exact ⟨.furtherEvent, fun hnone => absurd hnone hx⟩
  · rw [hk]
    exact .fails (.loop (.fails .furtherEvent))

/-! ## Bodies -/

theorem triggerCall (h : G.Nested N N') :
    G.Kindred P (Grammar.triggerCall N) (Grammar.triggerCall N') (Same G.goesOn) := by
  refine .bindUnless .consumeKeyword .expectKeyword ?_
  refine .bindSame .qualifiedName fun function function' hfunction => ?_
  refine .bindSame (.inParens (.bindIf (Test.kindred .check) (.ret (.refl [])) (.listSame h.expression)))
    fun args args' hargs => .ret ?_
  cases hg : G.goesOn <;> simp_all [Same, mapTexts]

theorem triggerBlock (h : G.Nested N N') :
    G.Kindred P (TriggerBody.block <$> Production.inRoutine (Grammar.block N none))
      (TriggerBody.block <$> Production.inRoutine (Grammar.block N' none)) (Same G.goesOn)
      fun k body => Leaving k (body.LeftOpen G.last) := by
  refine .mapSame (.inRoutine (.block h (.refl none))) fun block block' hblock => ?_
  cases hg : G.goesOn <;> simp_all [Same, mapTexts]

theorem triggerBody (h : G.Nested N N') :
    G.Kindred P (Grammar.triggerBody N) (Grammar.triggerBody N') (Same G.goesOn)
      fun k body => Leaving k (body.LeftOpen G.last) := by
  refine .bindIf .consumeKeyword ?_ (.bindIf (Test.kindred .checkKeyword) (.triggerBlock h) ?_)
  · exact .closed (.triggerCall h)
  · refine .mapApart (.inRoutine h.statement) (fun s s' hs => ?_) fun k s hs => ?_
    · cases hg : G.goesOn <;> simp_all [Same, mapTexts]
    · exact hs.place

theorem batchTriggerBody (h : G.Nested N N') :
    G.Kindred P (Grammar.batchTriggerBody N) (Grammar.batchTriggerBody N') (Same G.goesOn)
      fun k body => Leaving k (body.LeftOpen G.last) := by
  refine .bindAnd .checkKeyword (.peekKeyword fun p hp => hp.1) (.triggerBlock h) ?_
  refine .bindApart (.inRoutine (.statements h)) (fun body body' hbody => .ret ?_)
    fun k body hbody => .ret ?_
  · have hblock := ofBody_same hbody
    cases hg : G.goesOn <;> simp_all [Same, mapTexts]
  · exact hbody.leaving

/-! ## Definitions -/

theorem forEachRow : G.Kindred P Grammar.forEachRow Grammar.forEachRow Eq := by
  refine .bindIf .consumeKeyword (.bind .skipKeyword fun _ => .bindIf .consumeKeyword .stay ?_) .stay
  exact .bind .expectKeyword fun _ => .stay

theorem batchTrigger (h : G.Nested N N') {orReplace : Bool} {name name' : ObjectName}
    (hname : Same G.goesOn name name') :
    G.Kindred P (Grammar.batchTrigger N orReplace name) (Grammar.batchTrigger N' orReplace name')
      (Same G.goesOn) fun k node => Leaving k (node.body.LeftOpen G.last) := by
  refine .bindSame .objectName fun table table' htable => .bind .batchTiming fun timing => ?_
  refine .bindSame .triggerEvents fun events events' hevents => .bind .expectKeyword fun _ => ?_
  refine .bindApart (.batchTriggerBody h) (fun body body' hbody => .ret ?_) fun k body hbody => .ret hbody
  cases hg : G.goesOn <;> simp_all [Same, mapTexts]

theorem rowTrigger (h : G.Nested N N') {orReplace : Bool} {name name' : ObjectName}
    (hname : Same G.goesOn name name') :
    G.Kindred P (Grammar.rowTrigger N orReplace name) (Grammar.rowTrigger N' orReplace name')
      (Same G.goesOn) fun k node => Leaving k (node.body.LeftOpen G.last) := by
  refine .bind .timing fun timing => .bindSame .triggerEvents fun events events' hevents => ?_
  refine .bind .expectKeyword fun _ => .bindSame .objectName fun table table' htable => ?_
  refine .bind .forEachRow fun forEachRow => ?_
  refine .bindSame (.whenCondition h) fun condition condition' hcondition => ?_
  refine .bindApart (.triggerBody h) (fun body body' hbody => .ret ?_) fun k body hbody => .ret hbody
  cases hg : G.goesOn <;> simp_all [Same, mapTexts]

theorem createTrigger (h : G.Nested N N') {orReplace : Bool} :
    G.Kindred P (Grammar.createTrigger N orReplace) (Grammar.createTrigger N' orReplace)
      (Same G.goesOn) fun k node => Leaving k (node.body.LeftOpen G.last) := by
  refine .bind .expectKeyword fun _ => .bindSame .objectName fun name name' hname => ?_
  exact .bindIf .consumeKeyword (.batchTrigger h hname) (.rowTrigger h hname)

end Kinship.Kindred

end SqlFrontend
