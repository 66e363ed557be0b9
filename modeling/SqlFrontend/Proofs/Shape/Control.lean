import SqlFrontend.Grammar.Control
import SqlFrontend.Proofs.Shape.Block

/-!
# The shape of control flow

* `Yields.conditional`, `Yields.choiceStatement`: conditions and choices. A choice has branches.
* `Yields.whileLoop`, `Yields.repeatLoop`, `Yields.forLoop`: loops, and the labels around them.
* `Yields.leave`, `Yields.iterate`, `Yields.returnStatement`: the statements that leave them.
-/

namespace SqlFrontend.Production.Yields

variable {P : Parser → Prop} {N : Grammar.Nested}

/-! ## Conditions -/

theorem elseIf? (h : N.Shaped) : Yields P (Grammar.elseIf? N)
    fun item _ => ∀ a ∈ item, Shapely a.condition.parts ∧ ∀ s ∈ a.body, s.WellFormed := by
  refine .bindIf .consumeAny (.seq h.expression fun condition hcondition => ?_) .retNone
  refine .bind .expectKeyword fun _ => .seq (statements h) fun body hbody => .ret fun _ _ => ?_
  simpa [hcondition] using hbody

theorem closedConditional (h : N.Shaped) {condition : Expr} (hcondition : Shapely condition.parts) :
    Yields P (Grammar.closedConditional N condition) fun s _ => s.WellFormed := by
  refine .seq (statements h) fun body hbody => .seq (.many (elseIf? h)) fun elseIfs helse => ?_
  refine .seq (.behind (statements h)) fun otherwise hotherwise => ?_
  have hwhole : (Statement.conditional condition body elseIfs otherwise).WellFormed := by
    simpa [Statement.WellFormed, hcondition] using ⟨hbody, helse, hotherwise⟩
  refine .bindIf .consumeKeyword (.ret fun _ _ => hwhole) ?_
  exact .bind .expectKeyword fun _ => .bind .expectKeyword fun _ => .ret fun _ _ => hwhole

theorem openConditional (h : N.Shaped) {condition : Expr} (hcondition : Shapely condition.parts) :
    Yields P (Grammar.openConditional N condition) fun s _ => s.WellFormed := by
  refine .seq h.statement fun body hbody => .bind .check fun atSemicolon => .bind .peekKeyword fun atElse => ?_
  extract_lets rest
  have hrest (u : Unit) : Yields (fun _ => True) (rest u) fun s _ => s.WellFormed := by
    refine .seq (.behind h.statement) fun otherwise hotherwise => .ret fun _ _ => ?_
    simpa [Statement.WellFormed, hcondition, Alternative.partsAll] using ⟨hbody, hotherwise⟩
  refine .ite (fun hboth => .bind (.pass fun p hp _ => ?_) hrest) fun _ => .anywhere (hrest ())
  rw [hp.1.2 (Bool.and_eq_true_iff.1 hboth).1]

theorem conditional (h : N.Shaped) : Yields P (Grammar.conditional N) fun s _ => s.WellFormed := by
  refine .bind .expectKeyword fun _ => .seq h.expression fun condition hcondition => ?_
  exact .bindIf .consumeKeyword (closedConditional h hcondition) (openConditional h hcondition)

/-! ## Loops -/

theorem loopEnd {word : Keyword} {label : Option String} :
    Yields P (Grammar.loopEnd word label) fun _ _ => True := by
  refine .bind .expectKeyword fun _ => .bind .expectKeyword fun _ => .bind .span fun place => ?_
  refine .bind .trailingName? fun endLabel => ?_
  split
  · exact .ite (fun _ => .stay) fun _ => .fail
  · exact .stay

theorem loopBody (h : N.Shaped) {word : Keyword} {label : Option String} :
    Yields P (Grammar.loopBody N word label) fun body _ => ∀ s ∈ body, s.WellFormed :=
  .seq (statementsToEnd h) fun _ hbody => .bind loopEnd fun _ => .ret fun _ _ => hbody

theorem whileBody (h : N.Shaped) {label : Option String} :
    Yields P (Grammar.whileBody N label) fun body _ => ∀ s ∈ body, s.WellFormed := by
  refine .bindIf .consumeKeyword (loopBody h) (.bindIf .consumeKeyword (loopBody h) (.map ?_))
  exact h.statement.mono fun s _ hs => by simpa [List.singleton] using hs

theorem whileLoop (h : N.Shaped) {label : Option String} :
    Yields P (Grammar.whileLoop N label) fun s _ => s.WellFormed := by
  refine .bind .expectKeyword fun _ => .seq h.expression fun condition hcondition => ?_
  refine .seq (whileBody h) fun body hbody => .ret fun _ _ => ?_
  simpa [Statement.WellFormed, hcondition] using hbody

theorem plainLoop (h : N.Shaped) {label : Option String} :
    Yields P (Grammar.plainLoop N label) fun s _ => s.WellFormed :=
  .bind .expectKeyword fun _ => .seq (loopBody h) fun body hbody => .ret fun _ _ => by
    simpa [Statement.WellFormed] using hbody

theorem repeatLoop (h : N.Shaped) {label : Option String} :
    Yields P (Grammar.repeatLoop N label) fun s _ => s.WellFormed := by
  refine .bind .expectKeyword fun _ => .seq (statements h) fun body hbody => ?_
  refine .bind .expectKeyword fun _ => .seq h.expression fun condition hcondition => ?_
  refine .bind loopEnd fun _ => .ret fun _ _ => ?_
  simpa [Statement.WellFormed, hcondition] using hbody

theorem forRange (h : N.Shaped) :
    Yields P (Grammar.forRange N) fun range _ => Shapely range.parts := by
  refine .bind .checkKeyword fun _ => .bind .checkKeyword fun _ => .ite (fun _ => .map h.query) fun _ => ?_
  refine .bind .check fun _ => .bind .peekKeyword fun _ =>
    .ite (fun _ => .map (.inParens h.query)) fun _ => ?_
  refine .seq h.expression fun start hstart => .bind .expect fun _ => ?_
  refine .seq h.expression fun stop hstop => .seq (.behind h.expression) fun step hstep => .ret fun _ _ => ?_
  simpa [hstart, hstop] using hstep

theorem forLoop (h : N.Shaped) {label : Option String} :
    Yields P (Grammar.forLoop N label) fun s _ => s.WellFormed := by
  refine .bind .expectKeyword fun _ => .bind .name fun counter => .bind .expectKeyword fun _ => ?_
  refine .bind .consumeKeyword fun reverse => .seq (forRange h) fun range hrange => ?_
  refine .bind .expectKeyword fun _ => .seq (loopBody h) fun body hbody => .ret fun _ _ => ?_
  simp only [Statement.WellFormed, Statement.parts, shapely_cons, shapely_append,
    Statement.shapely_partsAll]
  exact ⟨trivial, hrange, hbody⟩

/-! ## Choices -/

theorem choiceBranch? (h : N.Shaped) : Yields P (Grammar.choiceBranch? N)
    fun item _ => ∀ a ∈ item, Shapely a.condition.parts ∧ ∀ s ∈ a.body, s.WellFormed := by
  refine .behind (.seq h.expression fun condition hcondition => .bind .expectKeyword fun _ => ?_)
  exact .seq (statements h) fun body hbody => .ret fun _ _ => ⟨hcondition, hbody⟩

theorem choiceStatement (h : N.Shaped) :
    Yields P (Grammar.choiceStatement N) fun s _ => s.WellFormed := by
  refine .bind .span fun place => .bind .expectKeyword fun _ => ?_
  refine .bindIfThen (G := fun input : Option Expr => ∀ e ∈ input, Shapely e.parts) .checkKeyword
    .retNone (.mapSome h.expression) fun input hinput => ?_
  refine .seq (.many (choiceBranch? h)) fun branches hbranches => ?_
  extract_lets rest
  have hrest (u : Unit) (hsome : branches ≠ []) :
      Yields (fun _ => True) (rest u) fun s _ => s.WellFormed := by
    refine .seq (.behind (statementsToEnd h)) fun otherwise hotherwise => ?_
    refine .bind .expectKeyword fun _ => .bind .expectKeyword fun _ => .ret fun _ _ => ?_
    simpa [Statement.WellFormed, hsome] using ⟨hinput, hbranches, hotherwise⟩
  exact .ite (fun _ => .failThen) fun hsome => hrest () (by simpa using hsome)

theorem tryCatch (h : N.Shaped) : Yields P (Grammar.tryCatch N) fun s _ => s.WellFormed := by
  refine .bind .expectKeyword fun _ => .bind .expectKeyword fun _ => ?_
  refine .seq (statementsToEnd h) fun body hbody => ?_
  refine .bind .expectKeyword fun _ => .bind .expectKeyword fun _ => .bind .skipSemicolons fun _ => ?_
  refine .bind .expectKeyword fun _ => .bind .expectKeyword fun _ => ?_
  refine .seq (statementsToEnd h) fun handler hhandler => ?_
  refine .bind .expectKeyword fun _ => .bind .expectKeyword fun _ => .ret fun _ _ => ?_
  simpa [Statement.WellFormed] using ⟨hbody, hhandler⟩

/-! ## Leaving -/

theorem whenCondition (h : N.Shaped) :
    Yields P (Grammar.whenCondition N) fun e? _ => ∀ e ∈ e?, Shapely e.parts := .behind h.expression

theorem leave (h : N.Shaped) (hword : ∀ p, P p → p.current.kind.isProper) :
    Yields P (Grammar.leave N) fun s _ => s.WellFormed := by
  refine .bind .checkKeyword fun isBreak => .bind (.pass fun p hp _ => hword p hp.1) fun _ => ?_
  extract_lets rest
  have hrest (label : Option String) :
      Yields (fun _ => True) (rest label) fun s _ => s.WellFormed :=
    .seq (whenCondition h) fun condition hcondition => .ret fun _ _ => by
      simpa [Statement.WellFormed] using hcondition
  exact .ite (fun _ => .bind .trailingName? hrest) fun _ => .retThen (hrest none)

theorem iterate (h : N.Shaped) (hword : ∀ p, P p → p.current.kind.isProper) :
    Yields P (Grammar.iterate N) fun s _ => s.WellFormed := by
  refine .bind (.pass fun p hp _ => hword p hp) fun _ => .bind .trailingName? fun label => ?_
  exact .seq (whenCondition h) fun condition hcondition => .ret fun _ _ => by
    simpa [Statement.WellFormed] using hcondition

theorem returnStatement (h : N.Shaped) :
    Yields P (Grammar.returnStatement N) fun s _ => s.WellFormed := by
  refine .bind .expectKeyword fun _ => .bindIf .checkKeywords ?_ ?_
  · refine .bind .advance fun _ => .seq h.selections fun q hq => .ret fun _ _ => ?_
    simpa [Statement.WellFormed] using hq
  · refine .bind .checkKeyword fun atNext => .bind .checkPeek fun _ => ?_
    extract_lets rest
    have hrest (u : Unit) : Yields (fun _ => True) (rest u) fun s _ => s.WellFormed := by
      refine .bindIf atExpressionStart (.seq h.expression fun e he => .ret fun _ _ => ?_)
        (.ret fun _ _ => ?_)
      · simpa [Statement.WellFormed] using he
      · simp [Statement.WellFormed]
    refine .ite (fun hboth => .bind (.pass fun p hp _ => ?_) hrest) fun _ => .anywhere (hrest ())
    rw [hp.1.2 (Bool.and_eq_true_iff.1 hboth).1]

/-! ## Labels -/

theorem angleLabel : Yields P Grammar.angleLabel fun _ _ => True := by
  refine .bind .expect fun _ => .bind .expect fun _ => .bind .name fun label => ?_
  exact .bind .expect fun _ => .bind .expect fun _ => .stay

theorem labelled (h : N.Shaped) {label : String} :
    Yields P (Grammar.labelled N label) fun s _ => s.WellFormed := by
  have hblock : Yields (fun _ => True) (Statement.block <$> Grammar.block N (some label))
      fun s _ => s.WellFormed :=
    .map ((block h).mono fun b _ hb => by simpa [Statement.WellFormed] using hb)
  refine .bind .kind fun k => ?_
  split
  · exact .anywhere hblock
  · exact .anywhere hblock
  · exact plainLoop h
  · exact whileLoop h
  · exact repeatLoop h
  · exact forLoop h
  · exact .expected

end SqlFrontend.Production.Yields
