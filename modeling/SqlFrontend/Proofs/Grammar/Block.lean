import SqlFrontend.Grammar.Block
import SqlFrontend.Proofs.Grammar.Query
import SqlFrontend.Proofs.Parsing.Run

/-!
# Blocks in lockstep

* `Lockstep.statements`: a list of statements. Each round reads a statement or skips one, so the list
  ends.
* `Lockstep.declaration`, `Lockstep.block`: declarations and blocks.
-/

namespace SqlFrontend.Likeness

variable {L : Likeness} {b : Parser × Parser} {l : Level} {N N' : Grammar.Nested}

/-- A reading of nested constructs, from where these may start on. -/
theorem Reads.fromHere {α : Type} {m m' : Production α} (h : L.Reads b m m') {p q : Parser}
    (hb : Level.moved.Holds b p q) : L.Lockstep (p, q) .start m m' fun _ => .moved := by
  intro e he x y hxy hlevel
  have hstart := hlevel.of_later he
  exact (h x y hxy (hb.any hstart.1 hstart.2)).relevel hxy fun _ _ _ _ _ hk => hk.of_later hlevel

namespace Lockstep

/-! ## Lists of statements -/

/-- A round of the reading of a list of statements. -/
def statementRound (nested : Grammar.Nested) (terminators : List Keyword)
    (before : List Statement) : Production (Production.Step (List Statement) (List Statement)) := do
  Production.skipSemicolons
  if ← Grammar.atListEnd terminators then return .done before.reverse
  else
    match ← Production.recovering nested.statement with
    | some statement => return .more (statement :: before)
    | none => return .more before

/-- Decides whether a list of statements ends before a parser. -/
def endsList (terminators : List Keyword) (p : Parser) : Bool :=
  p.atEnd || p.atBatchSeparator || terminators.any fun word => p.current.kind == .keyword word

/-- The rest of a round, behind the semicolons. -/
def behindSemicolons (nested : Grammar.Nested) (terminators : List Keyword) (before : List Statement)
    (p : Parser) : EStateM.Result ParseError Parser (Production.Step (List Statement) (List Statement)) :=
  if endsList terminators p then .ok (.done before.reverse) p
  else match Production.recovering nested.statement p with
    | .ok (some statement) p' => .ok (.more (statement :: before)) p'
    | .ok none p' => .ok (.more before) p'
    | .error e p' => .error e p'

theorem statementRound_eq (nested : Grammar.Nested) (terminators : List Keyword)
    (before : List Statement) (p : Parser) :
    statementRound nested terminators before p =
      behindSemicolons nested terminators before p.skipSemicolons := by
  have hround : statementRound nested terminators before p =
      (if endsList terminators p.skipSemicolons = true then
        (pure (.done before.reverse) : Production (Production.Step _ (List Statement)))
      else do
        match ← Production.recovering nested.statement with
        | some statement => return .more (statement :: before)
        | none => return .more before) p.skipSemicolons := rfl
  rw [hround, behindSemicolons]
  split
  · rfl
  · change EStateM.bind _ _ _ = _
    rw [EStateM.bind]
    cases Production.recovering nested.statement p.skipSemicolons with
    | ok statement? p' => cases statement? <;> rfl
    | error e p' => rfl

theorem alike_endsList {terminators : List Keyword} {p q : Parser}
    (h : p.AlikeHere L.place L.how q) : endsList terminators p = endsList terminators q := by
  rw [endsList, endsList, h.atEnd, h.atBatchSeparator, h.current.kind]

/-- Behind the semicolons, what ends no list ends no statement. -/
theorem not_atTerminator {terminators : List Keyword} {p : Parser} (hp : p.Sound)
    (h : ¬endsList terminators p.skipSemicolons) : ¬p.skipSemicolons.atTerminator := by
  have hstart (x : Parser) (hx : x.current.kind == .semicolon) : ¬x.atEnd := by
    rw [Parser.atEnd, Token.isEof, eq_of_beq hx]
    exact Bool.false_ne_true
  have hsemicolon : (p.skipSemicolons.current.kind == .semicolon) = false :=
    hp.skipWhile_stops hstart
  intro hterminator
  rw [Parser.atTerminator, hsemicolon, Bool.false_or] at hterminator
  exact h (by rw [endsList, hterminator, Bool.true_or])

theorem statements_round {terminators : List Keyword} {before : List Statement}
    (h : L.Lockstep b .start N.statement N'.statement fun _ => .moved) :
    L.Lockstep b .start (statementRound N terminators before)
      (statementRound N' terminators before) Production.Step.level := by
  intro e he p q hpq hlevel
  have hx : L.state p.skipSemicolons q.skipSemicolons ∨ L.limit.past p.skipSemicolons :=
    skipWhile (fun p q h => by rw [h.current.kind]) hpq
  have hp : p.Reaches p.skipSemicolons := .skipWhile p _
  have hq : q.Reaches q.skipSemicolons := .skipWhile q _
  have hbehind := hp.notBefore (L.left hpq)
  have hskipped : Level.start.Holds e p.skipSemicolons q.skipSemicolons :=
    hlevel.any hbehind (hq.notBefore (L.right hpq))
  have hself (hpast : L.limit.past p.skipSemicolons) :
      Level.start.Holds e p.skipSemicolons p.skipSemicolons :=
    (hlevel.self (L.limit.shorter hpast hpq)).any hbehind hbehind
  rw [statementRound_eq, statementRound_eq]
  refine .onward hp hq hx hskipped hself fun y hy hlater => ?_
  rw [behindSemicolons, behindSemicolons, ← alike_endsList (L.alike hy)]
  by_cases hend : endsList terminators p.skipSemicolons
  · rw [if_pos hend, if_pos hend]
    exact .ok hy (.refl _) (.refl _) hlater
  · rw [if_neg hend, if_neg hend]
    have hstatement := recovering_outcome h hy (he.any hlater.1 hlater.2)
      (not_atTerminator (L.left hpq) hend)
    revert hstatement
    generalize Production.recovering N.statement p.skipSemicolons = r,
      Production.recovering N'.statement y = r'
    intro hstatement
    cases hstatement with
    | error hf hl hr => exact .error hf hl hr
    | @ok statement? p' q' hs hl hr hk =>
      have hmoved : Level.moved.Holds e p' q' := hk.of_later (e := (p.skipSemicolons, y)) hlater
      cases statement? <;> exact .ok hs hl hr hmoved
    | past h =>
      cases h with
      | error hpast hl => exact .past (.error hpast hl)
      | @ok statement? p' hpast hl hk =>
        have hmoved : Level.moved.Holds e p' p' := hk.of_later (e := (p.skipSemicolons, y)) hlater
        cases statement? <;> exact .past (.ok hpast hl hmoved)

theorem statements_fromHere {terminators : List Keyword}
    (h : L.Lockstep b .start N.statement N'.statement fun _ => .moved) :
    L.Lockstep b .start (Grammar.statements N terminators) (Grammar.statements N' terminators)
      fun _ => .start :=
  .loop fun _ => statements_round h

theorem statements (h : L.Nested b N N') {terminators : List Keyword} :
    L.Lockstep b .moved (Grammar.statements N terminators) (Grammar.statements N' terminators)
      fun _ => .moved := by
  intro e he p q hpq hlevel
  have hloop : L.Lockstep (p, q) .start (Grammar.statements N terminators)
      (Grammar.statements N' terminators) fun _ => .start :=
    statements_fromHere (h.outside.statement.fromHere (hlevel.of_later he))
  have hown := hloop (p, q) ⟨.refl p, .refl q⟩ p q hpq ⟨.refl p, .refl q⟩
  exact hown.relevel hpq fun _ _ _ _ _ hk => hlevel.any hk.1 hk.2

theorem statementsToEnd (h : L.Nested b N N') :
    L.Lockstep b .moved (Grammar.statementsToEnd N) (Grammar.statementsToEnd N')
      fun _ => .moved :=
  .statements h

/-! ## Declarations -/

theorem cursorOption? :
    L.Lockstep b .start Grammar.cursorOption? Grammar.cursorOption? Level.start.item := by
  refine .bindOr .checkKeyword (fun _ => .checkKeyword) .ret ?_
  exact .bindIf .atName (.bind .takeLiteral fun _ => .ret) (.expected (by decide))

theorem cursorDeclaration (h : L.Nested b N N') {name : String} :
    L.Lockstep b .moved (Grammar.cursorDeclaration N name) (Grammar.cursorDeclaration N' name)
      fun _ => .moved := by
  refine .bind (.many .cursorOption?) fun options => .bind .advance fun _ => ?_
  exact .bind h.query fun _ => .stay

theorem notNull : L.Lockstep b .moved Grammar.notNull Grammar.notNull fun _ => .moved :=
  .consumeKeywords

theorem initialValue (h : L.Nested b N N') {kinds : List TokenKind} [Outside .eof kinds] :
    L.Lockstep b .moved (Grammar.initialValue N kinds) (Grammar.initialValue N' kinds)
      fun _ => .moved :=
  .bindIf .consumeAny (.map _ h.expression) .stay

theorem variableType :
    L.Lockstep b .moved Grammar.variableType Grammar.variableType fun _ => .moved :=
  .bindIf .consumeKeyword (.bind .skipParens fun _ => .stay) .dataType

theorem variableDeclaration (h : L.Nested b N N') {first : String} :
    L.Lockstep b .moved (Grammar.variableDeclaration N first)
      (Grammar.variableDeclaration N' first) fun _ => .moved := by
  refine .bind (.many (.bindIf .consume (.mapSome .name) .ret)) fun others => ?_
  refine .bind .skipKeyword fun _ => .bind .consumeKeyword fun constant => ?_
  refine .bind .variableType fun type => .bind .notNull fun notNull => ?_
  refine .bind (.initialValue h) fun initial => .bind .dialect fun d => ?_
  refine .ite (fun _ => ?_) fun _ => .stay
  refine .bindIf .check (.bindSpan fun t t' => ?_) .stay
  exact .bind (k := fun _ => .moved) .fail fun _ => .stay

theorem handlerAction? :
    L.Lockstep b .moved Grammar.handlerAction? Grammar.handlerAction? fun _ => .moved := by
  intro e he p q hpq hlevel
  cases hopen : p.current.kind.isOpen with
  | true =>
    have : Certain p.current.kind.isOpen := ⟨hopen⟩
    refine LockstepAt.bindIfPeek (.of (.bind .kind fun k => ?_)) (.of .stay) e he p q hpq hlevel rfl
    split <;> exact .stay
  | false =>
    -- what closes a construct is none of the actions
    have hnone (x : Parser) (hx : x.current.kind.isOpen = false) :
        Grammar.handlerAction? x = .ok none x := by
      rcases TokenKind.eq_of_isOpen hx with hk | hk <;> simp [Grammar.handlerAction?, hk]
    rw [hnone p hopen, hnone q (by rwa [← (L.alike hpq).current.kind])]
    exact .ok hpq (.refl p) (.refl q) hlevel

theorem handlerCondition :
    L.Lockstep b l Grammar.handlerCondition Grammar.handlerCondition fun _ => .moved := by
  refine .strict (.bind .kind fun k => ?_)
  split
  · exact .bind .advance fun _ => .stay
  · exact .bind .advance fun _ => .stay
  · exact .bind .advance fun _ => .bind .expectKeyword fun _ => .stay
  · exact .bind .advance fun _ => .map _ .sqlState
  · exact .map _ .integer
  · exact .map _ .name

theorem handlerDeclaration (h : L.Nested b N N') {action : HandlerAction} :
    L.Lockstep b .moved (Grammar.handlerDeclaration N action)
      (Grammar.handlerDeclaration N' action) fun _ => .moved := by
  refine .bind .advance fun _ => .bind .expectKeyword fun _ => .bind .expectKeyword fun _ => ?_
  refine .bind (.list .handlerCondition) fun conditions => ?_
  exact .bindIfThen .checkKeyword (.map _ h.block) h.statement fun body => .stay

theorem declaration (h : L.Nested b N N') :
    L.Lockstep b .moved (Grammar.declaration N) (Grammar.declaration N') fun _ => .moved := by
  refine .bind .handlerAction? fun action? => ?_
  cases action? with
  | some action => exact .handlerDeclaration h
  | none =>
    refine .bind .name fun name => ?_
    exact .bindIf .consumeKeyword (.map _ (.cursorDeclaration h)) (.map _ (.variableDeclaration h))

theorem sectionDeclaration (h : L.Nested b N N') :
    L.Lockstep b l (Grammar.sectionDeclaration N) (Grammar.sectionDeclaration N')
      fun _ => .moved := by
  have hend (result : Declaration) : L.Lockstep b .moved
      (do Production.expect .semicolon; return result)
      (do Production.expect .semicolon; return result) fun _ => .moved :=
    .bind .expect fun _ => .stay
  refine .bind .name fun name => .bindIf .consumeKeyword ?_ ?_
  · refine .bindUnless .consumeKeyword .expectKeyword (.bind h.query fun query => ?_)
    exact .bind (k := fun _ => .moved) .stay hend
  · refine .bind .consumeKeyword fun constant => .bind .dataType fun type => ?_
    refine .bind .notNull fun notNull => .bind (.initialValue h) fun initial => ?_
    exact .bind (k := fun _ => .moved) .stay hend

/-! ## Blocks -/

theorem declarationSection (h : L.Nested b N N') :
    L.Lockstep b l (Grammar.declarationSection N) (Grammar.declarationSection N')
      fun _ => l.any := by
  have hmany : L.Lockstep b .moved
      (Production.many do
        if (← Production.checkKeyword .BEGIN) || (← get).atEnd then return none
        else some <$> Grammar.sectionDeclaration N)
      (Production.many do
        if (← Production.checkKeyword .BEGIN) || (← get).atEnd then return none
        else some <$> Grammar.sectionDeclaration N') fun _ => .moved := by
    refine .many (.bind .checkKeyword fun _ => .bindGet fun p q hpq => ?_)
    rw [(L.alike hpq).atEnd]
    exact .ite (fun _ => .ret) fun _ => .mapSome (.sectionDeclaration h)
  exact .weak (.bindIf .consumeKeyword (hmany.mono (.refl _) fun _ => .start _) .stay)

theorem innerDeclarations (h : L.Nested b N N') :
    L.Lockstep b l (Grammar.innerDeclarations N) (Grammar.innerDeclarations N') l.items :=
  .many (.bind .skipSemicolons fun _ => .behind (.declaration h))

theorem exceptionName :
    L.Lockstep b l Grammar.exceptionName Grammar.exceptionName fun _ => .moved := by
  refine .strict (.bind .kind fun k => ?_)
  split
  · exact .bind .advance fun _ => .map _ .string
  · exact .ite (fun _ => .name) fun _ => .bind .advance fun _ => .stay
  · exact .name

theorem exceptionHandler? (h : L.Nested b N N') :
    L.Lockstep b l (Grammar.exceptionHandler? N) (Grammar.exceptionHandler? N') l.item := by
  refine .behind (.bind .exceptionName fun first => ?_)
  refine .bind (.many (.behind .exceptionName)) fun others => .bind .expectKeyword fun _ => ?_
  exact .bind (.statements h) fun _ => .stay

theorem exceptionHandlers (h : L.Nested b N N') :
    L.Lockstep b .moved (Grammar.exceptionHandlers N) (Grammar.exceptionHandlers N')
      fun _ => .moved :=
  .bind (.many (.exceptionHandler? h)) fun handlers => .ite (fun _ => .expected (by decide)) fun _ => .stay

theorem block (h : L.Nested b N N') {label : Option String} :
    L.Lockstep b l (Grammar.block N label) (Grammar.block N' label) fun _ => .moved := by
  refine .strict (.bind (.declarationSection h) fun outer => .bind .expectKeyword fun _ => ?_)
  refine .bind (.innerDeclarations h) fun inner => .bind (.statements h) fun body => ?_
  refine .bind (.behind (.exceptionHandlers h)) fun handlers => .bind .expectKeyword fun _ => ?_
  exact .bind .trailingName? fun endLabel => .stay

end Lockstep

end SqlFrontend.Likeness
