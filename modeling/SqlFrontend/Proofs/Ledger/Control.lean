import SqlFrontend.Grammar.Control
import SqlFrontend.Proofs.Ledger.Block

/-!
# What control flow is charged for

* `Pays.conditional`, `Pays.choiceStatement`: conditions and choices.
* `Pays.whileLoop`, `Pays.repeatLoop`, `Pays.forLoop`: loops, and the labels around them.
* `Pays.leave`, `Pays.iterate`, `Pays.returnStatement`: the statements that leave them.
-/

namespace SqlFrontend.Ledger.Pays

variable {M : Type} [AddCommMonoid M] [PartialOrder M] [IsOrderedAddMonoid M] {L : Ledger M}
variable {N : Grammar.Nested}

/-! ## Conditions -/

/-- Statements under a condition are charged for one by one. -/
theorem total_alternative (condition : Expr) (body : List Statement) :
    L.total (.alternative ⟨condition, body⟩) ≤ L.total (.expr condition) + L.each .statement body :=
  total_le rfl rfl (by simp [Component.fields])

theorem elseIf? (h : L.Paying N) : L.Pays 0 (Grammar.elseIf? N) (L.maybe .alternative) := by
  refine .bindIf .consumeAny (h.expression.seq fun condition => .bind .expectKeyword fun _ => ?_) .retNone
  exact (statements h).seq fun body => .ret (by simpa using total_alternative (L := L) condition body)

theorem closedConditional (h : L.Paying N) {condition : Expr} :
    L.Pays (L.total (.expr condition)) (Grammar.closedConditional N condition)
      fun s => L.total (.statement s) := by
  refine (statements h).seq fun body => (many (elseIf? h)).seq fun elseIfs => ?_
  refine (behind (statements h)).seq fun otherwise => ?_
  have hwhole : L.total (.statement (.conditional condition body elseIfs otherwise)) ≤
      L.total (.expr condition) + L.each .statement body + L.each .alternative elseIfs +
        otherwise.elim 0 (L.each .statement) :=
    total_statement_le (by simp [Component.ofStatement, add_assoc])
  refine .bindIf .consumeKeyword (.ret hwhole) ?_
  exact .bind .expectKeyword fun _ => .bind .expectKeyword fun _ => .ret hwhole

theorem openConditional (h : L.Paying N) {condition : Expr} :
    L.Pays (L.total (.expr condition)) (Grammar.openConditional N condition)
      fun s => L.total (.statement s) := by
  refine h.statement.seq fun body => .bind .check fun atSemicolon => .bind .peekKeyword fun atElse => ?_
  extract_lets rest
  have hrest (u : Unit) : L.Pays (L.total (.expr condition) + L.total (.statement body)) (rest u)
      fun s => L.total (.statement s) := by
    refine (behind h.statement).seq fun otherwise => .ret (total_statement_le ?_)
    cases otherwise <;> simp [Component.ofStatement, add_assoc]
  exact .ite (fun _ => .bind .advance hrest) fun _ => hrest ()

theorem conditional (h : L.Paying N) :
    L.Pays 0 (Grammar.conditional N) fun s => L.total (.statement s) := by
  refine .bind .expectKeyword fun _ => h.expression.seq fun condition => ?_
  rw [zero_add]
  exact .bindIf .consumeKeyword (closedConditional h) (openConditional h)

/-! ## Loops -/

theorem loopEnd {word : Keyword} {label : Option String} : L.Quiet (Grammar.loopEnd word label) := by
  refine .bind .expectKeyword fun _ => .bind .expectKeyword fun _ => .bind .span fun place => ?_
  refine .bind .trailingName? fun endLabel => ?_
  split
  · exact .ite (fun _ => .stay) fun _ => .fail trivial nofun
  · exact .stay

theorem loopBody (h : L.Paying N) {word : Keyword} {label : Option String} :
    L.Pays 0 (Grammar.loopBody N word label) (L.each .statement) :=
  (statementsToEnd h).seq fun _ => .bind loopEnd fun _ => .ret (zero_add _).ge

theorem whileBody (h : L.Paying N) {label : Option String} :
    L.Pays 0 (Grammar.whileBody N label) (L.each .statement) := by
  refine .bindIf .consumeKeyword (loopBody h) (.bindIf .consumeKeyword (loopBody h) ?_)
  exact h.statement.map fun s => by simp [List.singleton]

theorem whileLoop (h : L.Paying N) {label : Option String} :
    L.Pays 0 (Grammar.whileLoop N label) fun s => L.total (.statement s) := by
  refine .bind .expectKeyword fun _ => h.expression.seq fun condition => (whileBody h).seq fun body => ?_
  exact .ret (total_statement_le (by simp [Component.ofStatement]))

theorem plainLoop (h : L.Paying N) {label : Option String} :
    L.Pays 0 (Grammar.plainLoop N label) fun s => L.total (.statement s) :=
  .bind .expectKeyword fun _ => (loopBody h).seq fun _ =>
    .ret (total_statement_le (by simp [Component.ofStatement]))

theorem repeatLoop (h : L.Paying N) {label : Option String} :
    L.Pays 0 (Grammar.repeatLoop N label) fun s => L.total (.statement s) := by
  refine .bind .expectKeyword fun _ => (statements h).seq fun body => .bind .expectKeyword fun _ => ?_
  refine h.expression.seq fun condition => .bind loopEnd fun _ => .ret (total_statement_le ?_)
  simp [Component.ofStatement]

theorem forRange (h : L.Paying N) :
    L.Pays 0 (Grammar.forRange N) fun range => L.total (.range range) := by
  have hquery (q : Query) : L.total (.range (.query q)) ≤ 0 + L.total (.query q) :=
    total_le rfl rfl (by simp [Component.fields])
  refine .bind .checkKeyword fun _ => .bind .checkKeyword fun _ => .ite (fun _ => h.query.map hquery)
    fun _ => ?_
  refine .bind .check fun _ => .bind .peekKeyword fun _ =>
    .ite (fun _ => (inParens h.query).map hquery) fun _ => ?_
  refine h.expression.seq fun start => .bind .expect fun _ => h.expression.seq fun stop => ?_
  refine (behind h.expression).seq fun step => .ret (total_le rfl rfl ?_)
  simp [Component.fields, add_assoc]

theorem forLoop (h : L.Paying N) {label : Option String} :
    L.Pays 0 (Grammar.forLoop N label) fun s => L.total (.statement s) := by
  refine .bind .expectKeyword fun _ => .bind .name fun counter => .bind .expectKeyword fun _ => ?_
  refine .bind .consumeKeyword fun reverse => (forRange h).seq fun range => ?_
  refine .bind .expectKeyword fun _ => (loopBody h).seq fun body => .ret (total_statement_le ?_)
  simp [Component.ofStatement]

/-! ## Choices -/

theorem choiceBranch? (h : L.Paying N) :
    L.Pays 0 (Grammar.choiceBranch? N) (L.maybe .alternative) := by
  refine .behind (h.expression.seq fun condition => .bind .expectKeyword fun _ => ?_)
  exact (statements h).seq fun body => .ret (by simpa using total_alternative (L := L) condition body)

theorem choiceStatement (h : L.Paying N) :
    L.Pays 0 (Grammar.choiceStatement N) fun s => L.total (.statement s) := by
  refine .bind .span fun place => .bind .expectKeyword fun _ => ?_
  refine .bindIfThen (P := L.maybe .expr) .checkKeyword .retNone h.expression.mapSome fun input => ?_
  refine (many (choiceBranch? h)).seq fun branches => ?_
  extract_lets rest
  have hrest (u : Unit) : L.Pays (0 + L.maybe .expr input + L.each .alternative branches) (rest u)
      fun s => L.total (.statement s) := by
    refine (behind (statementsToEnd h)).seq fun otherwise => .bind .expectKeyword fun _ => ?_
    refine .bind .expectKeyword fun _ => .ret (total_statement_le ?_)
    simp [Component.ofStatement, add_assoc]
  exact .ite (fun _ => .failThen trivial (by decide)) fun _ => hrest ()

theorem tryCatch (h : L.Paying N) :
    L.Pays 0 (Grammar.tryCatch N) fun s => L.total (.statement s) := by
  refine .bind .expectKeyword fun _ => .bind .expectKeyword fun _ => (statementsToEnd h).seq fun body => ?_
  refine .bind .expectKeyword fun _ => .bind .expectKeyword fun _ => .bind .skipSemicolons fun _ => ?_
  refine .bind .expectKeyword fun _ => .bind .expectKeyword fun _ => ?_
  refine (statementsToEnd h).seq fun handler => .bind .expectKeyword fun _ => ?_
  exact .bind .expectKeyword fun _ => .ret (total_statement_le (by simp [Component.ofStatement]))

/-! ## Leaving -/

theorem whenCondition (h : L.Paying N) : L.Pays 0 (Grammar.whenCondition N) (L.maybe .expr) :=
  .behind h.expression

theorem leave (h : L.Paying N) : L.Pays 0 (Grammar.leave N) fun s => L.total (.statement s) := by
  refine .bind .checkKeyword fun isBreak => .bind .advance fun _ => ?_
  extract_lets rest
  have hrest (label : Option String) : L.Pays 0 (rest label) fun s => L.total (.statement s) :=
    (whenCondition h).seq fun condition => .ret (total_statement_le (by simp [Component.ofStatement]))
  exact .ite (fun _ => .bind .trailingName? hrest) fun _ => .retThen (hrest none)

theorem iterate (h : L.Paying N) :
    L.Pays 0 (Grammar.iterate N) fun s => L.total (.statement s) := by
  refine .bind .advance fun _ => .bind .trailingName? fun label => ?_
  exact (whenCondition h).seq fun condition => .ret (total_statement_le (by simp [Component.ofStatement]))

theorem returnStatement (h : L.Paying N) :
    L.Pays 0 (Grammar.returnStatement N) fun s => L.total (.statement s) := by
  refine .bind .expectKeyword fun _ => .bindIf .checkKeywords ?_ ?_
  · refine .bind .advance fun _ => h.selections.seq fun q => .ret (total_statement_le ?_)
    simpa [Component.ofStatement] using total_expr_le (L := L) (e := .subquery q) (by simp [Component.ofExpr])
  · refine .bind .checkKeyword fun atNext => .bind .checkPeek fun _ => ?_
    extract_lets rest
    have hrest (u : Unit) : L.Pays 0 (rest u) fun s => L.total (.statement s) := by
      refine .bindIf atExpressionStart (h.expression.seq fun e => .ret (total_statement_le ?_))
        (.ret (total_bareStatement rfl))
      simp [Component.ofStatement]
    exact .ite (fun _ => .bind .advance hrest) fun _ => hrest ()

/-! ## Labels -/

theorem angleLabel : L.Quiet Grammar.angleLabel := by
  refine .bind .expect fun _ => .bind .expect fun _ => .bind .name fun label => ?_
  exact .bind .expect fun _ => .bind .expect fun _ => .stay

theorem labelled (h : L.Paying N) {label : String} :
    L.Pays 0 (Grammar.labelled N label) fun s => L.total (.statement s) := by
  have hblock : L.Pays 0 (Statement.block <$> Grammar.block N (some label))
      fun s => L.total (.statement s) :=
    (block h).map fun b => by simpa using total_block b
  refine .bind .kind fun k => ?_
  split
  · exact hblock
  · exact hblock
  · exact plainLoop h
  · exact whileLoop h
  · exact repeatLoop h
  · exact forLoop h
  · exact .expected

end SqlFrontend.Ledger.Pays
