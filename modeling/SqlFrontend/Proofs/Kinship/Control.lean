import SqlFrontend.Grammar.Control
import SqlFrontend.Proofs.Kinship.Block

/-!
# Control flow of texts that are kin

* `Kindred.conditional`, `Kindred.whileLoop`: the forms that govern a single statement are left open if
  that statement is. The forms with closing words never are.
* `Kindred.loopEnd`: a label behind a loop is told from the one before it without regard to letters.
* `Kindred.leave`, `Kindred.iterate`: the statements that leave loops.
-/

namespace SqlFrontend

/-! ## The end of the text -/

namespace Production.Ends

variable {N : Grammar.Nested} {stopped : Bool}

theorem elseIf? : Ends stopped .eof (Grammar.elseIf? N) (· = none) := bindIf consumeAny (ret rfl)

end Production.Ends

namespace Kinship.Kindred

instance : Outside .WITH Grammar.branchEnd :=
  inferInstanceAs (Outside Keyword.WITH [.ELSEIF, .ELSIF, .ELSE, .END, .ENDIF])

variable {G : Kinship} {P : Parser → Prop} {N N' : Grammar.Nested}

/-! ## Conditions -/

theorem elseIf? (h : G.Nested N N') :
    G.Kindred P (Grammar.elseIf? N) (Grammar.elseIf? N') (Same G.goesOn) fun k _ => k = .eof := by
  refine .bindIf .consumeAny ?_ (.ret (.refl none))
  refine .bindSame h.expression fun condition condition' hcondition => .bind .expectKeyword fun _ => ?_
  refine .bindApart (.statements h) (fun body body' hbody => .ret ?_) fun k body hbody => .ret hbody.1
  cases hg : G.goesOn <;> simp_all [Same, mapTexts]

theorem closedConditional (h : G.Nested N N') {condition condition' : Expr}
    (hcondition : Same G.goesOn condition condition') :
    G.Kindred P (Grammar.closedConditional N condition) (Grammar.closedConditional N' condition')
      (Same G.goesOn) := by
  refine .bindApart (.statements h) (fun body body' hbody => ?_) fun k body hbody => ?_
  · refine .bindApart (.manyOpen (.elseIf? h) .elseIf?) (fun elseIfs elseIfs' helse => ?_)
      fun k elseIfs hk => ?_
    · refine .bindApart (.behindOpen (.statements h)) (fun otherwise otherwise' hotherwise => ?_)
        fun k otherwise hk => ?_
      · have hvalue : Same G.goesOn (Statement.conditional condition body elseIfs otherwise)
            (.conditional condition' body' elseIfs' otherwise') := by
          cases hg : G.goesOn <;> simp_all [Same, mapTexts]
        refine .bindIf .consumeKeyword (.ret hvalue) ?_
        exact .bind .expectKeyword fun _ => .bind .expectKeyword fun _ => .ret hvalue
      · obtain ⟨_, -, rfl, -⟩ := hk
        exact .bindIf .consumeKeyword (.fails .expectKeyword)
    · rw [hk]
      exact .bind .behind fun _ _ => .bindIf .consumeKeyword (.fails .expectKeyword)
  · rw [hbody.1]
    refine .bind (.many .elseIf?) fun _ _ => .bind .behind fun _ _ => ?_
    exact .bindIf .consumeKeyword (.fails .expectKeyword)

/-- A single statement, and perhaps another one, of which the last one can be left open. -/
theorem openConditional (h : G.Nested N N') {condition condition' : Expr}
    (hcondition : Same G.goesOn condition condition') :
    G.Kindred P (Grammar.openConditional N condition) (Grammar.openConditional N' condition')
      (Same G.goesOn) G.Dangling := by
  refine .bindApart h.statement.anywhere (fun body body' hbody => ?_) fun k body hbody => ?_
  · extract_lets rest rest'
    have hrest (u : Unit) :
        G.Kindred Anywhere (rest u) (rest' u) (Same G.goesOn) G.Dangling := by
      refine .bindApart (.behindOpen h.statement) (fun otherwise otherwise' hotherwise => .ret ?_)
        fun k otherwise hopen => .ret ?_
      · have hotherwise := hotherwise.optionMap fun s s' hs => Same.cons hs (.refl [])
        cases hg : G.goesOn <;> simp_all [Same, mapTexts]
      · obtain ⟨s, hs, hopen⟩ := hopen
        rw [Option.mem_def.1 hs]
        exact hopen.endOf rfl .otherwise
    exact .bindAnd .check (.peekKeyword fun p hp => hp.1) (.bind .advance hrest) (hrest ())
  · have hsemicolon : Apart k .semicolon := TokenKind.apart_of_or hbody.closes
    have helse : Apart k (.keyword .ELSE) := TokenKind.apart_of_or hbody.closes
    refine .bindAnd .check (.mono .peekKeyword fun _ _ => trivial) ?_
    refine .bind .behind fun otherwise hnone => .ret ?_
    rw [hnone]
    exact hbody.endOf rfl .conditional

theorem conditional (h : G.Nested N N') :
    G.Kindred P (Grammar.conditional N) (Grammar.conditional N') (Same G.goesOn) G.Dangling := by
  refine .bind .expectKeyword fun _ => .bindSame h.expression fun condition condition' hcondition => ?_
  refine .bindIf .consumeKeyword ?_ (.openConditional h hcondition)
  exact .closed (.closedConditional h hcondition)

/-! ## Loops -/

theorem loopEnd {word : Keyword} {label label' : Option String}
    (hlabel : Same G.goesOn label label') :
    G.Kindred P (Grammar.loopEnd word label) (Grammar.loopEnd word label') Eq := by
  refine .bind .expectKeyword fun _ => .bind .expectKeyword fun _ => .bindSpan fun s s' hs => ?_
  refine .bind .trailingName? fun endLabel => ?_
  cases hlabel.option with
  | none => exact .stay
  | some hname =>
    cases endLabel with
    | none => exact .stay
    | some endLabel =>
      dsimp only
      rw [Text.sameWord_of_lower_eq hname.lower rfl]
      exact .ite (fun _ => .stay) fun _ => .fail hs (ParseCause.kin_labelMismatch hname)

theorem loopBody (h : G.Nested N N') {word : Keyword} {label label' : Option String}
    (hlabel : Same G.goesOn label label') :
    G.Kindred P (Grammar.loopBody N word label) (Grammar.loopBody N' word label')
      (Same G.goesOn) := by
  refine .bindApart (.statementsToEnd h) (fun body body' hbody => ?_) fun k body hbody => ?_
  · exact .bind (.loopEnd hlabel) fun _ => .ret hbody
  · rw [hbody.1]
    exact .fails (.fails .expectKeyword)

theorem whileBody (h : G.Nested N N') {label label' : Option String}
    (hlabel : Same G.goesOn label label') :
    G.Kindred P (Grammar.whileBody N label) (Grammar.whileBody N' label') (Same G.goesOn)
      fun k body => ∃ s, body = [s] ∧ G.Dangling k s := by
  have hloop {word : Keyword} : G.Kindred Anywhere (Grammar.loopBody N word label)
      (Grammar.loopBody N' word label') (Same G.goesOn)
      fun k body => ∃ s, body = [s] ∧ G.Dangling k s :=
    .closed (.loopBody h hlabel)
  refine .bindIf .consumeKeyword hloop (.bindIf .consumeKeyword hloop ?_)
  exact h.statement.mapApart (fun s s' hs => Same.cons hs (.refl [])) fun k s hs => ⟨s, rfl, hs⟩

theorem whileLoop (h : G.Nested N N') {label label' : Option String}
    (hlabel : Same G.goesOn label label') :
    G.Kindred P (Grammar.whileLoop N label) (Grammar.whileLoop N' label') (Same G.goesOn)
      G.Dangling := by
  refine .bind .expectKeyword fun _ => .bindSame h.expression fun condition condition' hcondition => ?_
  refine .bindApart (.whileBody h hlabel) (fun body body' hbody => .ret ?_) fun k body hbody => .ret ?_
  · cases hg : G.goesOn <;> simp_all [Same, mapTexts]
  · obtain ⟨s, rfl, hs⟩ := hbody
    exact hs.endOf rfl .whileLoop

theorem plainLoop (h : G.Nested N N') {label label' : Option String}
    (hlabel : Same G.goesOn label label') :
    G.Kindred P (Grammar.plainLoop N label) (Grammar.plainLoop N' label') (Same G.goesOn) := by
  refine .bind .expectKeyword fun _ => .bindSame (.loopBody h hlabel) fun body body' hbody => .ret ?_
  cases hg : G.goesOn <;> simp_all [Same, mapTexts]

theorem repeatLoop (h : G.Nested N N') {label label' : Option String}
    (hlabel : Same G.goesOn label label') :
    G.Kindred P (Grammar.repeatLoop N label) (Grammar.repeatLoop N' label') (Same G.goesOn) := by
  refine .bind .expectKeyword fun _ => .bindApart (.statements h) (fun body body' hbody => ?_)
    fun k body hbody => hbody.1 ▸ .fails .expectKeyword
  refine .bind .expectKeyword fun _ => .bindSame h.expression fun condition condition' hcondition => ?_
  refine .bind (.loopEnd hlabel) fun _ => .ret ?_
  cases hg : G.goesOn <;> simp_all [Same, mapTexts]

theorem forRange (h : G.Nested N N') :
    G.Kindred P (Grammar.forRange N) (Grammar.forRange N') (Same G.goesOn) := by
  have hquery {m m' : Production Query} (hm : G.Kindred Anywhere m m' (Same G.goesOn)) :
      G.Kindred Anywhere (ForRange.query <$> m) (ForRange.query <$> m') (Same G.goesOn) := by
    refine .mapSame hm fun query query' hquery => ?_
    cases hg : G.goesOn <;> simp_all [Same, mapTexts, ForRange.mapTexts]
  refine .bindOr .checkKeyword .checkKeyword (hquery h.query).anywhere ?_
  refine .bindAnd .check (.peekKeyword fun p hp => hp.1) (hquery (.inParens h.query)).anywhere ?_
  refine .bindSame h.expression.anywhere fun start start' hstart => .bind .expect fun _ => ?_
  refine .bindSame h.expression fun stop stop' hstop => ?_
  refine .bindSame (.behindSame h.expression) fun step step' hstep => .ret ?_
  cases hg : G.goesOn <;> simp_all [Same, mapTexts, ForRange.mapTexts]

theorem forLoop (h : G.Nested N N') {label label' : Option String}
    (hlabel : Same G.goesOn label label') :
    G.Kindred P (Grammar.forLoop N label) (Grammar.forLoop N' label') (Same G.goesOn) := by
  refine .bind .expectKeyword fun _ => .bindSame .name fun counter counter' hcounter => ?_
  refine .bind .expectKeyword fun _ => .bind .consumeKeyword fun reverse => ?_
  refine .bindSame (.forRange h) fun range range' hrange => .bind .expectKeyword fun _ => ?_
  refine .bindSame (.loopBody h hlabel) fun body body' hbody => .ret ?_
  cases hg : G.goesOn <;> simp_all [Same, mapTexts]

/-! ## Choices -/

theorem choiceBranch? (h : G.Nested N N') :
    G.Kindred P (Grammar.choiceBranch? N) (Grammar.choiceBranch? N') (Same G.goesOn)
      fun k _ => k = .eof := by
  refine (behindOpen (T := fun k _ => k = .eof) ?_).mono (fun _ => id) (fun _ _ => id) fun k x hx => ?_
  · refine .bindSame h.expression fun condition condition' hcondition => .bind .expectKeyword fun _ => ?_
    refine .bindApart (.statements h) (fun body body' hbody => .ret ?_) fun k body hbody => .ret hbody.1
    cases hg : G.goesOn <;> simp_all [Same, mapTexts]
  · obtain ⟨_, -, hk⟩ := hx
    exact hk

theorem choiceStatement (h : G.Nested N N') :
    G.Kindred P (Grammar.choiceStatement N) (Grammar.choiceStatement N') (Same G.goesOn) := by
  refine .bindSpan fun s s' hs => .bind .expectKeyword fun _ => ?_
  refine .bindIfThen (R := Same G.goesOn) (Test.kindred .checkKeyword) (.ret (.refl none))
    (.mapSame h.expression fun _ _ => .some) fun input input' hinput => ?_
  refine .bindApart (.manyOpen (.choiceBranch? h) .behind) (fun branches branches' hbranches => ?_)
    fun k branches hk => ?_
  · rw [hbranches.isEmpty]
    extract_lets rest rest'
    have hrest (u : Unit) : G.Kindred Anywhere (rest u) (rest' u) (Same G.goesOn) := by
      refine .bindApart (.behindOpen (.statementsToEnd h)) (fun otherwise otherwise' hotherwise => ?_)
        fun k otherwise hopen => ?_
      · refine .bind .expectKeyword fun _ => .bind .expectKeyword fun _ => .ret ?_
        cases hg : G.goesOn <;> simp_all [Same, mapTexts]
      · obtain ⟨_, -, rfl, -⟩ := hopen
        exact .fails .expectKeyword
    exact .ite (fun _ => .bind (.fail hs (.refl _)) hrest) fun _ => hrest ()
  · rw [hk]
    have hend : Production.Ends false .eof (do
        let otherwise ← Production.behind .ELSE (Grammar.statementsToEnd N)
        Production.expectKeyword .END
        Production.expectKeyword .CASE
        return Statement.choice input branches otherwise) fun _ => False :=
      .bind .behind fun _ _ => .fails .expectKeyword
    exact .ite (fun _ => .fails .fail) fun _ => hend

theorem tryCatch (h : G.Nested N N') :
    G.Kindred P (Grammar.tryCatch N) (Grammar.tryCatch N') (Same G.goesOn) := by
  refine .bind .expectKeyword fun _ => .bind .expectKeyword fun _ => ?_
  refine .bindApart (.statementsToEnd h) (fun body body' hbody => ?_)
    fun k body hbody => hbody.1 ▸ .fails .expectKeyword
  refine .bind .expectKeyword fun _ => .bind .expectKeyword fun _ => .bind .skipSemicolons fun _ => ?_
  refine .bind .expectKeyword fun _ => .bind .expectKeyword fun _ => ?_
  refine .bindApart (.statementsToEnd h) (fun handler handler' hhandler => ?_)
    fun k handler hhandler => hhandler.1 ▸ .fails .expectKeyword
  refine .bind .expectKeyword fun _ => .bind .expectKeyword fun _ => .ret ?_
  cases hg : G.goesOn <;> simp_all [Same, mapTexts]

/-! ## Leaving -/

theorem whenCondition (h : G.Nested N N') :
    G.Kindred P (Grammar.whenCondition N) (Grammar.whenCondition N') (Same G.goesOn) :=
  .behindSame h.expression

theorem leave (h : G.Nested N N') {word : Keyword} :
    G.Kindred (G.At (.keyword word)) (Grammar.leave N) (Grammar.leave N') (Same G.goesOn) := by
  refine .bindCheckAt (.bind .advance fun _ => ?_)
  extract_lets rest rest'
  have hrest (label : Option String) :
      G.Kindred Anywhere (rest label) (rest' label) (Same G.goesOn) := by
    refine .bindSame (.whenCondition h) fun condition condition' hcondition => .ret ?_
    cases hg : G.goesOn <;> simp_all [Same, mapTexts]
  exact .ite (fun _ => .bind .trailingName? hrest) fun _ => .bind .stay hrest

theorem iterate (h : G.Nested N N') {word : Keyword} :
    G.Kindred (G.At (.keyword word)) (Grammar.iterate N) (Grammar.iterate N') (Same G.goesOn) := by
  refine .bind .advance fun _ => .bind .trailingName? fun label => ?_
  refine .bindSame (.whenCondition h) fun condition condition' hcondition => .ret ?_
  cases hg : G.goesOn <;> simp_all [Same, mapTexts]

theorem returnStatement (h : G.Nested N N') :
    G.Kindred P (Grammar.returnStatement N) (Grammar.returnStatement N') (Same G.goesOn) := by
  refine .bind .expectKeyword fun _ => .bindTest .checkKeywords ?_ ?_
  · refine .bindAdvance (.bindSame h.selections.anywhere fun query query' hquery => .ret ?_)
    cases hg : G.goesOn <;> simp_all [Same, mapTexts]
  · extract_lets rest rest'
    have hrest (u : Unit) : G.Kindred Anywhere (rest u) (rest' u) (Same G.goesOn) := by
      refine .bindIf .atExpressionStart (.bindSame h.expression fun value value' hvalue => .ret ?_)
        (.ret (.refl _))
      cases hg : G.goesOn <;> simp_all [Same, mapTexts]
    exact .bindAnd .checkKeyword (.checkPeek fun p hp => hp.1) (.bind .advance hrest) (hrest ())

/-! ## Labels -/

theorem angleLabel : G.Kindred P Grammar.angleLabel Grammar.angleLabel (Same G.goesOn) := by
  refine .bind .expect fun _ => .bind .expect fun _ => .bindSame .name fun label label' hlabel => ?_
  exact .bind .expect fun _ => .bind .expect fun _ => .ret hlabel

theorem labelled (h : G.Nested N N') {label label' : String} (hlabel : Same G.goesOn label label') :
    G.Kindred P (Grammar.labelled N label) (Grammar.labelled N' label') (Same G.goesOn)
      G.Dangling := by
  have hblock : G.Kindred Anywhere (Statement.block <$> Grammar.block N (some label))
      (Statement.block <$> Grammar.block N' (some label')) (Same G.goesOn) G.Dangling := by
    refine .mapSame (.block h hlabel.some) fun block block' hblock => ?_
    cases hg : G.goesOn <;> simp_all [Same, mapTexts]
  refine .bindKind (fun k => ?_) .expected
  split
  · exact hblock.anywhere
  · exact hblock.anywhere
  · exact .closed (.plainLoop h hlabel.some)
  · exact .whileLoop h hlabel.some
  · exact .closed (.repeatLoop h hlabel.some)
  · exact .closed (.forLoop h hlabel.some)
  · exact .expected

end Kinship.Kindred

end SqlFrontend
