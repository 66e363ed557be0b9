import SqlFrontend.Proofs.Grammar.Statement
import SqlFrontend.Proofs.Parsing.Run
import SqlFrontend.Proofs.Parsing.Yield

/-!
# Labelled constructs and their ends

A labelled loop is its opening, up to the words that close it, and these words with the label that may
stand behind them. Whether that label fits is decided there and not before, in all loops alike. A labelled
block is an opening and its closing word as well, but the name behind that word is compared with nothing.

Results:
* `Grammar.loopOpening`, `Grammar.blockOpening`: a loop and a block behind their labels, up to the closing
  words. `Grammar.opened` reads a label and what is opened there.
* `Grammar.closeLoop`, `Grammar.closeBlock`: the closing words and the name behind them.
* `Grammar.parse_of_openedLoop`, `Grammar.parse_of_openedBlock`: where an opening was read, a statement is
  the loop or the block that is closed there.
* `Lockstep.labelledOpening`: openings are read alike.
* `Grammar.loopEnd_closed`, `Grammar.loopEnd_named`: the closing words at the end of the text, without
  a label and with one. `Grammar.run_closeBlock`: those of a block.
-/

namespace SqlFrontend

namespace Grammar

open Production

/-! ## Openings -/

/-- A labelled loop that is read up to the words that close it: the second of them, and what the loop
is behind them. -/
structure OpenLoop where
  label : String
  word : Keyword
  loop : Statement

/-- Reads the words that close a loop. -/
def closeLoop (o : OpenLoop) : Production Statement := do
  loopEnd o.word (some o.label)
  return o.loop

/-- Reads the word that closes a block, and a name behind it. -/
def closeBlock (b : Block) : Production Statement := do
  expectKeyword .END
  let endLabel ← trailingName?
  return .block { b with endLabel }

section

variable (nested : Nested)

/-- The statements behind the condition of a loop that is closed, and the word that closes it. -/
def whileOpening : Production (Keyword × List Statement) := do
  if ← consumeKeyword .DO then return (.WHILE, ← statementsToEnd nested)
  else
    expectKeyword .LOOP
    return (.LOOP, ← statementsToEnd nested)

/-- A loop behind its label, up to the words that close it. -/
def loopOpening (label : String) : Production OpenLoop := do
  match ← kind with
  | .keyword .LOOP =>
    expectKeyword .LOOP
    return ⟨label, .LOOP, .loop (some label) (← statementsToEnd nested)⟩
  | .keyword .WHILE =>
    expectKeyword .WHILE
    let condition ← nested.expression
    let (word, body) ← whileOpening nested
    return ⟨label, word, .whileLoop (some label) condition body⟩
  | .keyword .REPEAT =>
    expectKeyword .REPEAT
    let body ← statements nested [.UNTIL]
    expectKeyword .UNTIL
    let condition ← nested.expression
    return ⟨label, .REPEAT, .repeatLoop (some label) body condition⟩
  | .keyword .FOR =>
    expectKeyword .FOR
    let counter ← name
    expectKeyword .IN
    let reverse ← consumeKeyword .REVERSE
    let range ← forRange nested
    expectKeyword .LOOP
    return ⟨label, .LOOP,
      .forLoop (some label) counter reverse range (← statementsToEnd nested)⟩
  | _ => expected "LOOP, WHILE, REPEAT or FOR"

/-- The parts of a block with a label, up to the word that closes it. -/
def blockParts (label : String) : Production Block := do
  let outer ← declarationSection nested
  expectKeyword .BEGIN
  let inner ← innerDeclarations nested
  let body ← statements nested [.END, .EXCEPTION]
  let handlers ← behind .EXCEPTION (exceptionHandlers nested)
  return { label := some label, declarations := outer ++ inner, body, handlers, endLabel := none }

/-- A block behind its label, up to the word that closes it. -/
def blockOpening (label : String) : Production Block := do
  match ← kind with
  | .keyword .BEGIN | .keyword .DECLARE => blockParts nested label
  | _ => expected "BEGIN or DECLARE"

end

/-- A label and what is opened behind it. -/
def labelledOpening {α : Type} (opening : String → Production α) : Production α := do
  if (← atName) && (← checkPeek .colon) then
    let label ← name
    advance
    opening label
  else if (← check .lt) && (← checkPeek .lt) then opening (← angleLabel)
  else expected "label"

/-- A label and what is opened behind it, with all that is nested there. -/
def opened {α : Type} (opening : Nested → String → Production α) : Production α := fun p =>
  labelledOpening (opening (Nested.below p.remaining)) p

/-! ## Openings as fronts of statements -/

/-- Where the first production succeeds, the other one does what follows from its result. -/
def Opens {α β : Type} (opening : Production α) (rest : α → Production β) (whole : Production β) :
    Prop :=
  ∀ p a q, opening p = .ok a q → whole p = rest a q

namespace Opens

variable {α β γ : Type} {m : Production γ} {f : γ → Production α} {g : γ → Production β}
  {opening : Production α} {rest : α → Production β} {whole : Production β}

theorem ret {a : α} : Opens (pure a) rest (rest a) := by
  intro p _ _ h
  cases h
  rfl

theorem self : Opens whole pure whole := fun _ _ _ h => h

theorem expected (what : String) : Opens (Production.expected what) rest whole := by
  intro p a q h
  cases h

theorem bind (h : ∀ x, Opens (f x) rest (g x)) : Opens (m >>= f) rest (m >>= g) := by
  intro p a q hrun
  rw [run_bind] at hrun ⊢
  revert hrun
  cases m p with
  | ok x p' => exact fun hrun => h x p' a q hrun
  | error e p' => exact fun hrun => by cases hrun

theorem ite {c : Prop} [Decidable c] {other : Production α} {otherwise : Production β}
    (h : c → Opens opening rest whole) (h' : ¬c → Opens other rest otherwise) :
    Opens (if c then opening else other) rest (if c then whole else otherwise) := by
  split
  · exact h ‹_›
  · exact h' ‹_›

end Opens

variable {nested : Nested} {label : String}

theorem opens_closeLoop (o : OpenLoop) : Opens (pure o) closeLoop (closeLoop o) := .ret

/-- The statements of a loop are read before the words that close it. -/
theorem opens_loopBody {word : Keyword} {loop : List Statement → Statement} :
    Opens (do return ⟨label, word, loop (← statementsToEnd nested)⟩) closeLoop
      (do return loop (← loopBody nested word (some label))) := by
  simp only [loopBody, bind_assoc, pure_bind]
  exact .bind fun body => opens_closeLoop _

/-- A word that has to stand somewhere, and decides there what follows. -/
theorem opens_consumed {α β : Type} {word : Keyword} {opening : Production α}
    {rest : α → Production β} {whole : Bool → Production β} (h : Opens opening rest (whole true)) :
    Opens (do expectKeyword word; opening) rest (do whole (← consumeKeyword word)) := by
  intro p a q hrun
  rw [run_bind, run_expectKeyword] at hrun
  rw [run_bind, run_consumeKeyword]
  by_cases hword : p.current.kind = .keyword word
  · rw [if_pos hword] at hrun ⊢
    exact h p.advance a q hrun
  · rw [if_neg hword] at hrun
    cases hrun

theorem opens_whileBody {condition : Expr} :
    Opens (do
        let (word, body) ← whileOpening nested
        return ⟨label, word, .whileLoop (some label) condition body⟩)
      closeLoop (do return .whileLoop (some label) condition (← whileBody nested (some label))) := by
  rw [whileOpening, whileBody, bind_assoc, bind_assoc]
  refine .bind fun takes => ?_
  cases takes with
  | true => simpa only [if_true, bind_assoc, pure_bind] using opens_loopBody
  | false =>
    simp only [Bool.false_eq_true, if_false, bind_assoc, pure_bind]
    exact opens_consumed opens_loopBody

theorem opens_loopOpening :
    Opens (loopOpening nested label) closeLoop (labelled nested label) := by
  refine .bind fun k => ?_
  split
  · exact .bind fun _ => opens_loopBody
  · exact .bind fun _ => .bind fun condition => opens_whileBody
  · refine .bind fun _ => .bind fun body => .bind fun _ => .bind fun condition => ?_
    exact opens_closeLoop _
  · refine .bind fun _ => .bind fun counter => .bind fun _ => .bind fun reverse => ?_
    exact .bind fun range => .bind fun _ => opens_loopBody
  · exact .expected _

theorem opens_blockParts :
    Opens (blockParts nested label) closeBlock (.block <$> block nested (some label)) := by
  rw [map_eq_pure_bind, block, blockParts]
  simp only [bind_assoc, pure_bind]
  refine .bind fun outer => .bind fun _ => .bind fun inner => .bind fun body => .bind fun handlers => ?_
  exact .ret

theorem opens_blockOpening :
    Opens (blockOpening nested label) closeBlock (labelled nested label) := by
  refine .bind fun k => ?_
  split
  · exact opens_blockParts
  · exact opens_blockParts
  · exact .expected _

section

variable {α : Type} {opening : String → Production α} {rest : α → Production Statement}

/-- In angle brackets no name stands that is assigned to. -/
theorem opens_angleLabel (h : ∀ label, Opens (opening label) rest (labelled nested label)) :
    Opens (do
        if (← check .lt) && (← checkPeek .lt) then opening (← angleLabel)
        else expected "label")
      rest (do
        if ← atAssignment then .assign <$> assignments nested
        else if (← check .lt) && (← checkPeek .lt) then labelled nested (← angleLabel)
        else expected "statement") := by
  have hopens : Opens (do
        if (← check .lt) && (← checkPeek .lt) then opening (← angleLabel)
        else expected "label")
      rest (do
        if (← check .lt) && (← checkPeek .lt) then labelled nested (← angleLabel)
        else expected "statement") := by
    refine .bind fun hasFirst => .bind fun hasSecond => .ite (fun _ => ?_) fun _ => .expected _
    exact .bind fun label => h label
  intro p a q hrun
  have hassignment : atAssignment p = .ok false p := by
    have hlt : p.current.kind = .lt := by
      by_contra hlt
      simp [hlt] at hrun
    simp [atAssignment, hlt]
  rw [← hopens p a q hrun, run_bind, hassignment]
  rfl

theorem opens_namedStatement (h : ∀ label, Opens (opening label) rest (labelled nested label)) :
    Opens (labelledOpening opening) rest (namedStatement nested) := by
  refine .bind fun hasName => .bind fun hasColon => .ite (fun _ => ?_) fun _ => ?_
  · exact .bind fun label => .bind fun _ => h label
  · exact opens_angleLabel h

/-- A reserved word is no label. -/
theorem opens_statement (h : ∀ label, Opens (opening label) rest (labelled nested label)) :
    Opens (labelledOpening opening) rest (statement nested) := by
  intro p a q hrun
  rw [← opens_namedStatement h p a q hrun, statement, run_bind, run_kind]
  refine congrFun ?_ p
  split
  · next word hkind =>
    split
    · next hreserved =>
      have hname : p.current.isName = false := by simp [Token.isName, hkind, hreserved]
      simp [labelledOpening, hname, hkind] at hrun
    · rfl
  · rfl

end

/-- Where the opening of a loop is read, a statement is the loop that is closed there. -/
theorem parse_of_openedLoop {p q : Parser} {o : OpenLoop} (h : opened loopOpening p = .ok o q) :
    parse p = closeLoop o q :=
  opens_statement (fun _ => opens_loopOpening) p o q h

/-- Where the opening of a block is read, a statement is the block that is closed there. -/
theorem parse_of_openedBlock {p q : Parser} {b : Block} (h : opened blockOpening p = .ok b q) :
    parse p = closeBlock b q :=
  opens_statement (fun _ => opens_blockOpening) p b q h

/-! ## Closing words -/

section

variable {p : Parser} {word : Keyword} {first second name last : Token}

theorem run_trailingName (p : Parser) :
    trailingName? p = if p.atTrailingName then .ok (some p.current.literal) p.advance
      else .ok none p := by
  by_cases h : p.atTrailingName <;> simp [trailingName?, h]

/-- Behind the closing words stands a name, or nothing is compared. -/
theorem run_loopEnd (hp : p.Steady) {rest : List Token}
    (h : p.upcoming = first :: second :: last :: rest) (hfirst : first.kind = .keyword .END)
    (hsecond : second.kind = .keyword word) :
    loopEnd word (some label) p =
      let q := p.advance.advance
      if q.atTrailingName then
        if Text.sameWord label q.current.literal then .ok () q.advance
        else .error ⟨.labelMismatch q.current.literal label, q.current.span⟩ q.advance
      else .ok () q := by
  have hsteady := hp.advance
  have hnext := hp.upcoming_tail h
  rw [← Parser.current_of_upcoming h] at hfirst
  rw [← Parser.current_of_upcoming hnext] at hsecond
  simp only [loopEnd, run_bind, run_expectKeyword, hfirst, hsecond, if_true, run_span,
    run_trailingName]
  by_cases hname : p.advance.advance.atTrailingName
  · simp only [hname, if_true]
    by_cases hsame : Text.sameWord label p.advance.advance.current.literal
    · simp [hsame]
    · simp only [hsame]
      rfl
  · simp [hname]

/-- A name that the text ends with is a trailing one. -/
theorem atTrailingName_of_upcoming (h : p.upcoming = [name, last]) (hname : name.kind = .identifier)
    (hbatch : p.isBatchSeparator name = false) (hlast : last.kind = .eof) : p.atTrailingName := by
  have hcurrent := Parser.current_of_upcoming h
  have hpeek := Parser.peek_of_upcoming h
  have hword : p.atBatchSeparator = false := by rwa [Parser.atBatchSeparator, hcurrent]
  simp [Parser.atTrailingName, Token.isIdentifier, hcurrent, hpeek, hname, hword, hlast]

/-- Where the text ends behind the closing words, nothing is compared. -/
theorem loopEnd_closed (hp : p.Steady) (h : p.upcoming = [first, second, last])
    (hfirst : first.kind = .keyword .END) (hsecond : second.kind = .keyword word)
    (hlast : last.kind = .eof) : loopEnd word (some label) p = .ok () p.advance.advance := by
  have hcurrent := Parser.current_of_upcoming (hp.advance.upcoming_tail (hp.upcoming_tail h))
  have hname : p.advance.advance.atTrailingName = false := by
    simp [Parser.atTrailingName, Token.isIdentifier, hcurrent, hlast]
  rw [run_loopEnd hp h hfirst hsecond]
  simp [hname]

/-- A name that the text ends with behind the closing words is compared with the label. -/
theorem loopEnd_named (hp : p.Steady) (h : p.upcoming = [first, second, name, last])
    (hfirst : first.kind = .keyword .END) (hsecond : second.kind = .keyword word)
    (hname : name.kind = .identifier) (hbatch : p.isBatchSeparator name = false)
    (hlast : last.kind = .eof) :
    loopEnd word (some label) p =
      if Text.sameWord label name.literal then .ok () p.advance.advance.advance
      else .error ⟨.labelMismatch name.literal label, name.span⟩ p.advance.advance.advance := by
  have hbehind := hp.advance.upcoming_tail (hp.upcoming_tail h)
  have hcurrent := Parser.current_of_upcoming hbehind
  have hbatch' : p.advance.advance.isBatchSeparator name = false := by
    rwa [Parser.isBatchSeparator, Parser.advance_dialect, Parser.advance_dialect]
  have htrailing := atTrailingName_of_upcoming hbehind hname hbatch' hlast
  rw [run_loopEnd hp h hfirst hsecond]
  simp only [htrailing, if_true, hcurrent]

/-- A block takes a name behind its closing word, whatever its label is. -/
theorem run_closeBlock {b : Block} (hfirst : p.current.kind = .keyword .END) :
    closeBlock b p =
      if p.advance.atTrailingName then
        .ok (.block { b with endLabel := some p.advance.current.literal }) p.advance.advance
      else .ok (.block { b with endLabel := none }) p.advance := by
  simp only [closeBlock, run_bind, run_expectKeyword, hfirst, if_true, run_trailingName]
  by_cases hname : p.advance.atTrailingName
  · simp only [hname, if_true]
    rfl
  · simp only [hname]
    rfl

end

end Grammar

namespace Likeness.Lockstep

variable {L : Likeness} {b : Parser × Parser} {l : Level} {N N' : Grammar.Nested}

theorem whileOpening (h : L.Nested b N N') :
    L.Lockstep b .moved (Grammar.whileOpening N) (Grammar.whileOpening N') fun _ => .moved := by
  refine .bindIf .consumeKeyword (.bind (.statementsToEnd h) fun body => .stay) ?_
  exact .bind .expectKeyword fun _ => .bind (.statementsToEnd h) fun body => .stay

theorem loopOpening (h : L.Nested b N N') {label : String} :
    L.Lockstep b .moved (Grammar.loopOpening N label) (Grammar.loopOpening N' label)
      fun _ => .moved := by
  -- all but REPEAT end with the statements before the closing words
  have hbody {word : Keyword} {loop : List Statement → Statement} :
      L.Lockstep b .moved
        (do return Grammar.OpenLoop.mk label word (loop (← Grammar.statementsToEnd N)))
        (do return Grammar.OpenLoop.mk label word (loop (← Grammar.statementsToEnd N')))
        fun _ => .moved :=
    .bind (.statementsToEnd h) fun body => .stay
  have hcondition {body : List Statement} :
      L.Lockstep b .moved
        (do return Grammar.OpenLoop.mk label .REPEAT (.repeatLoop (some label) body (← N.expression)))
        (do return Grammar.OpenLoop.mk label .REPEAT (.repeatLoop (some label) body (← N'.expression)))
        fun _ => .moved :=
    .bind h.expression fun condition => .stay
  refine .bind .kind fun k => ?_
  split
  · exact .bind .expectKeyword fun _ => hbody
  · refine .bind .expectKeyword fun _ => .bind h.expression fun condition => ?_
    exact .bind (.whileOpening h) fun opened => .stay
  · refine .bind .expectKeyword fun _ => .bind (.statements h) fun body => ?_
    exact .bind .expectKeyword fun _ => hcondition
  · refine .bind .expectKeyword fun _ => .bind .name fun counter => .bind .expectKeyword fun _ => ?_
    refine .bind .consumeKeyword fun reverse => .bind (.forRange h) fun range => ?_
    exact .bind .expectKeyword fun _ => hbody
  · exact .expected (by decide)

theorem blockOpening (h : L.Nested b N N') {label : String} :
    L.Lockstep b .moved (Grammar.blockOpening N label) (Grammar.blockOpening N' label)
      fun _ => .moved := by
  have hparts : L.Lockstep b .moved (Grammar.blockParts N label) (Grammar.blockParts N' label)
      fun _ => .moved := by
    refine .bind (.declarationSection h) fun outer => .bind .expectKeyword fun _ => ?_
    refine .bind (.innerDeclarations h) fun inner => .bind (.statements h) fun body => ?_
    exact .bind (.behind (.exceptionHandlers h)) fun handlers => .stay
  refine .bind .kind fun k => ?_
  split
  · exact hparts
  · exact hparts
  · exact .expected (by decide)

/-- A label is read before what it is for. -/
theorem labelledOpening {α : Type} {opening opening' : String → Production α}
    (h : ∀ label, L.Lockstep b .moved (opening label) (opening' label) fun _ => .moved) :
    L.Lockstep b l (Grammar.labelledOpening opening) (Grammar.labelledOpening opening')
      fun _ => .moved := by
  refine .bindAnd .atName ?_ ?_
  · exact .bind .name fun label => .bind .advance fun _ => h label
  · refine .bindAnd .check ?_ (.expected (by decide))
    exact .bind .angleLabel fun label => h label

end Likeness.Lockstep

end SqlFrontend
