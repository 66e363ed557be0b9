import SqlFrontend.Grammar.Control
import SqlFrontend.Proofs.Grammar.Block

/-!
# Control flow in lockstep

* `Lockstep.conditional`, `Lockstep.choiceStatement`: conditions and choices.
* `Lockstep.whileLoop`, `Lockstep.repeatLoop`, `Lockstep.forLoop`: loops, and the labels around them.
* `Lockstep.leave`, `Lockstep.iterate`: the statements that leave them. They pass their first token
  unseen, so they start before one.
-/

namespace SqlFrontend.Likeness.Lockstep

variable {L : Likeness} {b : Parser × Parser} {l : Level} {N N' : Grammar.Nested}

/-! ## Conditions -/

theorem elseIf? (h : L.Nested b N N') :
    L.Lockstep b l (Grammar.elseIf? N) (Grammar.elseIf? N') l.item := by
  refine .item (.bindIf .consumeAny (.bind h.expression fun condition => ?_) .ret)
  exact .bind .expectKeyword fun _ => .bind (.statements h) fun _ => .ret

theorem closedConditional (h : L.Nested b N N') {condition : Expr} :
    L.Lockstep b .moved (Grammar.closedConditional N condition)
      (Grammar.closedConditional N' condition) fun _ => .moved := by
  refine .bind (.statements h) fun body => .bind (.many (.elseIf? h)) fun elseIfs => ?_
  refine .bind (.behind (.statements h)) fun otherwise => .bindIf .consumeKeyword .ret ?_
  exact .bind .expectKeyword fun _ => .bind .expectKeyword fun _ => .stay

theorem openConditional (h : L.Nested b N N') {condition : Expr} :
    L.Lockstep b .moved (Grammar.openConditional N condition)
      (Grammar.openConditional N' condition) fun _ => .moved := by
  refine .bind h.statement fun body => .bindTests .check (fun _ _ => ?_) fun _ _ => rfl
  extract_lets rest rest'
  have hrest (u : Unit) : L.Lockstep b .moved (rest u) (rest' u) fun _ => .moved :=
    .bind (.behind h.statement) fun otherwise => .stay
  exact .ite (fun _ => .bind .advance hrest) fun _ => hrest ()

theorem conditional (h : L.Nested b N N') :
    L.Lockstep b l (Grammar.conditional N) (Grammar.conditional N') fun _ => .moved := by
  refine .bind .expectKeyword fun _ => .bind h.expression fun condition => ?_
  exact .bindIf .consumeKeyword (.closedConditional h) (.openConditional h)

/-! ## Loops -/

theorem loopEnd {word : Keyword} {label : Option String} :
    L.Lockstep b .moved (Grammar.loopEnd word label) (Grammar.loopEnd word label)
      fun _ => .moved := by
  refine .bind .expectKeyword fun _ => .bind .expectKeyword fun _ => .bindSpan fun t t' => ?_
  refine .bind .trailingName? fun endLabel => ?_
  split
  · exact .ite (fun _ => .stay) fun _ => .fail
  · exact .stay

theorem loopBody (h : L.Nested b N N') {word : Keyword} {label : Option String} :
    L.Lockstep b .moved (Grammar.loopBody N word label) (Grammar.loopBody N' word label)
      fun _ => .moved :=
  .bind (.statementsToEnd h) fun _ => .bind .loopEnd fun _ => .stay

theorem whileBody (h : L.Nested b N N') {label : Option String} :
    L.Lockstep b .moved (Grammar.whileBody N label) (Grammar.whileBody N' label)
      fun _ => .moved :=
  .bindIf .consumeKeyword (.loopBody h) (.bindIf .consumeKeyword (.loopBody h) (.map _ h.statement))

theorem whileLoop (h : L.Nested b N N') {label : Option String} :
    L.Lockstep b l (Grammar.whileLoop N label) (Grammar.whileLoop N' label) fun _ => .moved := by
  refine .bind .expectKeyword fun _ => .bind h.expression fun condition => ?_
  exact .bind (.whileBody h) fun body => .stay

theorem plainLoop (h : L.Nested b N N') {label : Option String} :
    L.Lockstep b l (Grammar.plainLoop N label) (Grammar.plainLoop N' label) fun _ => .moved :=
  .bind .expectKeyword fun _ => .bind (.loopBody h) fun _ => .stay

theorem repeatLoop (h : L.Nested b N N') {label : Option String} :
    L.Lockstep b l (Grammar.repeatLoop N label) (Grammar.repeatLoop N' label) fun _ => .moved := by
  refine .bind .expectKeyword fun _ => .bind (.statements h) fun body => ?_
  refine .bind .expectKeyword fun _ => .bind h.expression fun condition => ?_
  exact .bind .loopEnd fun _ => .stay

theorem forRange (h : L.Nested b N N') :
    L.Lockstep b .moved (Grammar.forRange N) (Grammar.forRange N') fun _ => .moved := by
  refine .bindOr .checkKeyword (fun _ => .checkKeyword) (.map _ h.query) ?_
  refine .bindAnd .check (.map _ (.inParens h.query)) ?_
  refine .bind h.expression fun start => .bind .expect fun _ => .bind h.expression fun stop => ?_
  exact .bind (.behind h.expression) fun step => .stay

theorem forLoop (h : L.Nested b N N') {label : Option String} :
    L.Lockstep b l (Grammar.forLoop N label) (Grammar.forLoop N' label) fun _ => .moved := by
  refine .bind .expectKeyword fun _ => .bind .name fun counter => .bind .expectKeyword fun _ => ?_
  refine .bind .consumeKeyword fun reverse => .bind (.forRange h) fun range => ?_
  exact .bind .expectKeyword fun _ => .bind (.loopBody h) fun body => .stay

/-! ## Choices -/

theorem choiceBranch? (h : L.Nested b N N') :
    L.Lockstep b l (Grammar.choiceBranch? N) (Grammar.choiceBranch? N') l.item := by
  refine .behind (.bind h.expression fun condition => .bind .expectKeyword fun _ => ?_)
  exact .bind (.statements h) fun _ => .stay

theorem choiceStatement (h : L.Nested b N N') :
    L.Lockstep b l (Grammar.choiceStatement N) (Grammar.choiceStatement N')
      fun _ => .moved := by
  refine .bindSpan fun t t' => .bind .expectKeyword fun _ => ?_
  have h := h.noting t t'
  refine .bindIfThen .checkKeyword .ret (.map _ h.expression) fun input => ?_
  refine .bind (.many (.choiceBranch? h)) fun branches => ?_
  extract_lets rest rest'
  have hrest (u : Unit) : (L.noting t t').Lockstep b .moved (rest u) (rest' u) fun _ => .moved := by
    refine .bind (.behind (.statementsToEnd h)) fun otherwise => ?_
    exact .bind .expectKeyword fun _ => .bind .expectKeyword fun _ => .stay
  exact .ite (fun _ => .bind (k := fun _ => .moved) .fail hrest) fun _ => hrest ()

theorem tryCatch (h : L.Nested b N N') :
    L.Lockstep b l (Grammar.tryCatch N) (Grammar.tryCatch N') fun _ => .moved := by
  refine .bind .expectKeyword fun _ => .bind .expectKeyword fun _ => ?_
  refine .bind (.statementsToEnd h) fun body => ?_
  refine .bind .expectKeyword fun _ => .bind .expectKeyword fun _ => .bind .skipSemicolons fun _ => ?_
  have hclose {s : Statement} : L.Lockstep b .moved
      (do Production.expectKeyword .END; Production.expectKeyword .CATCH; return s)
      (do Production.expectKeyword .END; Production.expectKeyword .CATCH; return s) fun _ => .moved :=
    .bind .expectKeyword fun _ => .bind .expectKeyword fun _ => .stay
  refine .bind .expectKeyword fun _ => .bind .expectKeyword fun _ => ?_
  exact .bind (.statementsToEnd h) fun handler => hclose

/-! ## Leaving -/

theorem whenCondition (h : L.Nested b N N') :
    L.Lockstep b l (Grammar.whenCondition N) (Grammar.whenCondition N') l.item :=
  .behind h.expression

theorem leave (h : L.Nested b N N') :
    L.Lockstep b .token (Grammar.leave N) (Grammar.leave N') fun _ => .moved := by
  refine .bind (k := fun _ => .token) ?_ fun takesLabel => .bind .advance fun _ => ?_
  · exact .mono .checkKeyword (.refl _) fun x => by cases x <;> exact .refl _
  · extract_lets rest rest'
    have hrest (label : Option String) : L.Lockstep b .moved (rest label) (rest' label)
        fun _ => .moved :=
      .bind (.whenCondition h) fun condition => .stay
    exact .ite (fun _ => .bind .trailingName? hrest) fun _ => .bind (k := fun _ => .moved) .stay hrest

theorem iterate (h : L.Nested b N N') :
    L.Lockstep b .token (Grammar.iterate N) (Grammar.iterate N') fun _ => .moved := by
  refine .bind .advance fun _ => .bind .trailingName? fun label => ?_
  exact .bind (.whenCondition h) fun condition => .stay

theorem returnStatement (h : L.Nested b N N') :
    L.Lockstep b l (Grammar.returnStatement N) (Grammar.returnStatement N')
      fun _ => .moved := by
  refine .bind .expectKeyword fun _ => .bindIf .checkKeywords ?_ ?_
  · exact .bind .advance fun _ => .bind h.selections fun _ => .stay
  · refine .bindTests .checkKeyword (fun _ _ => ?_) fun _ _ => rfl
    extract_lets rest rest'
    have hrest (u : Unit) : L.Lockstep b .moved (rest u) (rest' u) fun _ => .moved :=
      .bindIf .atExpressionStart (.bind h.expression fun _ => .stay) .stay
    exact .ite (fun _ => .bind .advance hrest) fun _ => hrest ()

/-! ## Labels -/

theorem angleLabel : L.Lockstep b l Grammar.angleLabel Grammar.angleLabel fun _ => .moved := by
  refine .bind .expect fun _ => .bind .expect fun _ => .bind .name fun label => ?_
  exact .bind .expect fun _ => .bind .expect fun _ => .stay

theorem labelled (h : L.Nested b N N') {label : String} :
    L.Lockstep b .moved (Grammar.labelled N label) (Grammar.labelled N' label)
      fun _ => .moved := by
  refine .bind .kind fun k => ?_
  split
  · exact .map _ (.block h)
  · exact .map _ (.block h)
  · exact .plainLoop h
  · exact .whileLoop h
  · exact .repeatLoop h
  · exact .forLoop h
  · exact .expected (by decide)

end SqlFrontend.Likeness.Lockstep
