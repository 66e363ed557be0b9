import SqlFrontend.Grammar.Block
import SqlFrontend.Proofs.Kinship.Query

/-!
# Blocks of texts that are kin

* `Kindred.statements`: a list of statements is left open if the last one of them is.
* `Kindred.declaration`: a declaration is left open if it is one of a handler whose statement is.
* `Kindred.block`: a block is never left open, for it ends with a word.
-/

namespace SqlFrontend

/-! ## The end of the text -/

namespace Production.Ends

variable {N : Grammar.Nested} {stopped : Bool} {k : TokenKind}

theorem atListEnd {terminators : List Keyword} :
    Ends stopped .eof (Grammar.atListEnd terminators) (· = true) :=
  bindGet fun p hp => by
    rw [atEnd hp]
    exact ret (by simp)

theorem atListEndWith {terminators : List Keyword} [h : Outside .WITH terminators] :
    Ends stopped (.keyword .WITH) (Grammar.atListEnd terminators) (· = false) := by
  refine bindGet fun p hp => ret ?_
  have hend : p.atEnd = false := by rw [Parser.atEnd, Token.isEof, hp.kind]; rfl
  have hbatch : p.atBatchSeparator = false := by
    rw [Parser.atBatchSeparator, Parser.isBatchSeparator]
    split
    · exact isWord hp (by decide) _
    · rfl
  have hwords : (terminators.any fun word => p.current.kind == .keyword word) = false := by
    rw [List.any_eq_false]
    intro word hword
    rw [hp.kind, beq_iff_eq, TokenKind.keyword.injEq]
    rintro rfl
    exact h.notMem hword
  rw [hend, hbatch, hwords]
  rfl

theorem statements {terminators : List Keyword} :
    Ends stopped .eof (Grammar.statements N terminators) (· = []) := by
  refine loop (bind skipSemicolons fun _ _ => bind atListEnd fun x hx => ?_)
  rw [hx]
  exact ret rfl

theorem statementsWith (h : Kinship.Needy false N) {terminators : List Keyword} {S : List Statement → Prop}
    [Outside .WITH terminators] : Ends false (.keyword .WITH) (Grammar.statements N terminators) S := by
  refine loop (bind skipSemicolons fun _ _ => bindIf atListEndWith ?_)
  exact fails (recovering h.statementWith)

theorem handlerCondition {S : HandlerCondition → Prop} : Ends stopped .eof Grammar.handlerCondition S :=
  bindKind (map (S := fun _ => False) name fun _ => False.elim)

theorem declaration {S : Declaration → Prop} : Ends stopped .eof (Grammar.declaration N) S :=
  bind (S := (· = none)) (bindIf peekKeyword (ret rfl)) fun action? hnone => by
    rw [hnone]
    exact fails name

end Production.Ends

namespace Kinship

namespace Test

variable {G : Kinship} {P : Parser → Prop}

/-- A list of statements ends where its batch does. -/
theorem atListEnd {terminators : List Keyword} :
    G.Test P (Grammar.atListEnd terminators) (Grammar.atListEnd terminators) P
      fun p => P p ∧ G.Here p := by
  intro p q hpq hp
  have hrun (p : Parser) : Grammar.atListEnd terminators p =
      .ok (p.atEnd || p.atBatchSeparator ||
        terminators.any fun word => p.current.kind == .keyword word) p := rfl
  rw [hrun, hrun]
  rcases here_or_ended G p with hhere | hended
  · have hkin := current_kin hpq hhere
    have hend : p.atEnd = q.atEnd := hkin.isEof
    have hbatch : p.atBatchSeparator = q.atBatchSeparator :=
      Kindred.isBatchSeparator_eq hpq hkin
    rw [← hend, ← hbatch, ← hkin.kind]
    exact ⟨_, rfl, rfl, fun _ => hp, fun _ => ⟨hp, hhere⟩⟩
  · rw [hended.2, (G.shown hpq).ended hended.1 hended.2]
    exact ⟨true, rfl, by simp, fun _ => hp, nofun⟩

end Test

namespace Kindred

variable {G : Kinship} {P : Parser → Prop} {N N' : Grammar.Nested}

/-! ## Lists of statements -/

/-- Behind a statement that was left open, the list ends, or it fails before a last `WITH`. -/
theorem statements (h : G.Nested N N') {terminators : List Keyword}
    [Outside .WITH terminators] :
    G.Kindred P (Grammar.statements N terminators) (Grammar.statements N' terminators)
      (Same G.goesOn) G.Trailing := by
  refine .loopApart (W := Same G.goesOn)
    (V := fun k step => ∃ s before, step = .more (s :: before) ∧ G.Dangling k s)
    (fun before before' hbefore => ?_) (fun k before hopen => ?_) (fun k l hopen => ?_) (.refl [])
  · refine .bind .skipSemicolons fun _ => .bindTest .atListEnd (.ret (.done hbefore.reverse)) ?_
    refine .bindApart (.recovering h.statement.anywhere) (fun s? s?' hs => ?_) fun k s? hs => ?_
    · cases hs.option with
      | none => exact .ret (.more hbefore)
      | some hone => exact .ret (.more (hone.cons hbefore))
    · obtain ⟨s, hmem, hs⟩ := hs
      rw [Option.mem_def.1 hmem]
      exact .ret ⟨s, before, rfl, hs⟩
  · obtain ⟨s, rest, hstep, hs⟩ := hopen
    cases hstep
    rcases hs.place with ⟨rfl, hleft⟩ | rfl
    · refine .loop (.bind .skipSemicolons fun _ _ => .bind .atListEnd fun x hx => ?_)
      rw [hx]
      exact .ret ⟨rfl, rest.reverse, s, List.reverse_cons, hleft⟩
    · refine .loop (.bind .skipSemicolons fun _ _ => .bindIf .atListEndWith ?_)
      exact .fails (.recovering h.needy.statementWith)
  · obtain ⟨_, _, hstep, _⟩ := hopen
    cases hstep

theorem statementsToEnd (h : G.Nested N N') :
    G.Kindred P (Grammar.statementsToEnd N) (Grammar.statementsToEnd N') (Same G.goesOn) G.Trailing :=
  .statements h

/-! ## Declarations -/

theorem cursorOption? : G.Kindred P Grammar.cursorOption? Grammar.cursorOption? Eq := by
  refine .needing (.bindOr .checkKeyword .checkKeyword (.bindIf .atName .expected)) ?_
  refine .bindOr .checkKeyword .checkKeyword .stay ?_
  refine .bindTest (.atName fun p hp => hp.1) (.bindSame .takeNamed fun word word' hword => ?_) .expected
  rw [hword.upper]
  exact .stay

theorem cursorDeclaration (h : G.Nested N N') {name name' : String}
    (hname : Same G.goesOn name name') :
    G.Kindred P (Grammar.cursorDeclaration N name) (Grammar.cursorDeclaration N' name')
      (Same G.goesOn) := by
  refine .bind (.many .cursorOption?) fun options => .bindPass h.needy.query.fails ?_
  refine .bindSame h.query fun query query' hquery => .ret ?_
  cases hg : G.goesOn <;> simp_all [Same, mapTexts, CursorDeclaration.mapTexts]

theorem notNull : G.Kindred P Grammar.notNull Grammar.notNull Eq := .consumeKeywords

theorem initialValue (h : G.Nested N N') {kinds : List TokenKind} [TokenKind.Signs kinds] :
    G.Kindred P (Grammar.initialValue N kinds) (Grammar.initialValue N' kinds) (Same G.goesOn) :=
  .bindIf .consumeAny (.mapSame h.expression fun _ _ => .some) (.ret (.refl none))

theorem variableType : G.Kindred P Grammar.variableType Grammar.variableType Eq :=
  .bindIf .consumeKeyword (.bind .skipParens fun _ => .stay) .dataType

theorem variableDeclaration (h : G.Nested N N') {first first' : String}
    (hfirst : Same G.goesOn first first') :
    G.Kindred P (Grammar.variableDeclaration N first) (Grammar.variableDeclaration N' first')
      (Same G.goesOn) := by
  refine .bindSame (.manySame (.bindIf .consume (.mapSame .name fun _ _ => .some) (.ret (.refl none))))
    fun others others' hothers => ?_
  refine .bind .skipKeyword fun _ => .bind .consumeKeyword fun constant => ?_
  refine .bind .variableType fun type => .bind .notNull fun notNull => ?_
  refine .bindSame (.initialValue h) fun initial initial' hinitial => .bindDialect fun d => ?_
  extract_lets rest rest'
  have hrest (u : Unit) : G.Kindred Anywhere (rest u) (rest' u) (Same G.goesOn) := by
    refine .ret ?_
    cases hg : G.goesOn <;> simp_all [Same, mapTexts, VariableDeclaration.mapTexts]
  refine .ite (fun _ => .bindIf (Test.kindred .check) ?_ (hrest ())) fun _ => hrest ()
  exact .bindSpan fun s s' hs => .bind (.fail hs (.refl _)) hrest

theorem handlerAction? : G.Kindred G.Here Grammar.handlerAction? Grammar.handlerAction? Eq := by
  refine .bindTest (.peekKeyword fun _ => id) (.stage (.bindKindHere fun k => ?_) fun _ hp => hp.1) .stay
  split <;> exact .stay

theorem handlerCondition :
    G.Kindred P Grammar.handlerCondition Grammar.handlerCondition (Same G.goesOn) := by
  refine .needing .handlerCondition (.bindKindHere fun k => ?_)
  split
  · exact .bind .advance fun _ => .ret (.refl _)
  · exact .bind .advance fun _ => .ret (.refl _)
  · exact .bind .advance fun _ => .bind .expectKeyword fun _ => .ret (.refl _)
  · exact .bind .advance fun _ => .same (.map _ .sqlState)
  · exact .same (.map _ .integer)
  · refine .mapSame .name fun name name' hname => ?_
    cases hg : G.goesOn <;> simp_all [Same, mapTexts, HandlerCondition.mapTexts]

theorem handlerDeclaration (h : G.Nested N N') {action : HandlerAction} :
    G.Kindred P (Grammar.handlerDeclaration N action) (Grammar.handlerDeclaration N' action)
      (Same G.goesOn) fun k d => G.Dangling k (.declare d) := by
  refine .bindPass (.fails .expectKeyword) (.bind .expectKeyword fun _ => .bind .expectKeyword fun _ => ?_)
  refine .bindSame (.listSame .handlerCondition) fun conditions conditions' hconditions => ?_
  extract_lets rest rest'
  have hrest (body body' : Statement) (hbody : Same G.goesOn body body') :
      G.Kindred Anywhere (rest body) (rest' body') (Same G.goesOn)
        fun k d => G.Dangling k (.declare d) := by
    refine .ret ?_
    cases hg : G.goesOn <;> simp_all [Same, mapTexts]
  refine .bindIf (Test.kindred .checkKeyword) (.bindSame (.mapSame h.block fun body body' hbody => ?_) hrest)
    (.bindApart h.statement hrest fun k body hbody => .ret ?_)
  · cases hg : G.goesOn <;> simp_all [Same, mapTexts]
  · exact hbody.endOf rfl .handler

theorem declaration (h : G.Nested N N') :
    G.Kindred P (Grammar.declaration N) (Grammar.declaration N') (Same G.goesOn)
      fun k d => G.Dangling k (.declare d) := by
  refine .needing .declaration (.bind .handlerAction? fun action? => ?_)
  cases action? with
  | some action => exact .handlerDeclaration h
  | none =>
    refine .bindSame .name fun name name' hname => .bindIf .consumeKeyword ?_ ?_
    · refine .mapSame (.cursorDeclaration h hname) fun d d' hd => ?_
      cases hg : G.goesOn <;> simp_all [Same, mapTexts]
    · refine .mapSame (.variableDeclaration h hname) fun d d' hd => ?_
      cases hg : G.goesOn <;> simp_all [Same, mapTexts]

theorem sectionDeclaration (h : G.Nested N N') :
    G.Kindred P (Grammar.sectionDeclaration N) (Grammar.sectionDeclaration N') (Same G.goesOn) := by
  have hrest (d d' : Declaration) (hd : Same G.goesOn d d') : G.Kindred Anywhere
      (do Production.expect .semicolon; return d) (do Production.expect .semicolon; return d')
      (Same G.goesOn) := .bind .expect fun _ => .ret hd
  refine .bindSame .name fun name name' hname => ?_
  refine .bindIf .consumeKeyword (.bindUnless .consumeKeyword .expectKeyword ?_) ?_
  · refine .bindSame h.query fun query query' hquery => .bindSame (.ret ?_) hrest
    cases hg : G.goesOn <;> simp_all [Same, mapTexts, CursorDeclaration.mapTexts]
  · refine .bind .consumeKeyword fun constant => .bind .dataType fun type => ?_
    refine .bind .notNull fun notNull => .bindSame (.initialValue h) fun initial initial' hinitial => ?_
    refine .bindSame (.ret ?_) hrest
    cases hg : G.goesOn <;> simp_all [Same, mapTexts, VariableDeclaration.mapTexts]

/-! ## Blocks -/

/-- The section ends at the end of the text, but not at the word that ends a batch. -/
theorem declarationSection (h : G.Nested N N') :
    G.Kindred P (Grammar.declarationSection N) (Grammar.declarationSection N') (Same G.goesOn)
      fun k _ => k = .eof := by
  refine .bindIf .consumeKeyword ?_ (.ret (.refl []))
  have hend : Production.Ends false .eof
      (do
        if (← Production.checkKeyword .BEGIN) || (← get).atEnd then return none
        else some <$> Grammar.sectionDeclaration N) (· = none) := by
    refine .bind .checkKeyword fun x _ => .bindGet fun p hp => ?_
    rw [Production.Ends.atEnd hp, Bool.or_true]
    exact .ret rfl
  refine .manyOpen (.leaving (hend.mono fun _ _ => rfl) ?_) hend
  refine .bindSeen .checkKeyword fun x => .bindGet fun p q hpq hp => ?_
  have hatEnd : p.atEnd = q.atEnd := (current_kin hpq hp).isEof
  rw [hatEnd]
  refine .ite (fun _ => .ret (.refl none)) fun _ => ?_
  exact .mapSame (.anywhere (.sectionDeclaration h)) fun _ _ => .some

theorem innerDeclarations (h : G.Nested N N') :
    G.Kindred P (Grammar.innerDeclarations N) (Grammar.innerDeclarations N') (Same G.goesOn)
      fun k _ => k = .eof ∨ k = .keyword .WITH := by
  refine (many_rel (R := Same G.goesOn) (V := fun k _ => k = .eof ∨ k = .keyword .WITH) ?_ fun k x hk =>
    ⟨?_, fun _ _ => hk⟩).mono (fun _ => id) (fun _ _ => Same.list) fun _ _ => id
  · refine .bind .skipSemicolons fun _ => (behindOpen (.declaration h)).mono (fun _ => id)
      (fun _ _ => Same.option) fun k x hx => ?_
    obtain ⟨d, -, hd⟩ := hx
    exact hd.closes
  · have hsemicolon : Apart k .semicolon := TokenKind.apart_of_or hk
    have hdeclare : Apart k (.keyword .DECLARE) := TokenKind.apart_of_or hk
    refine .bind .skipSemicolons fun _ _ => .mono .behind fun x hx => ?_
    exact ⟨hx, fun _ _ => hk⟩

theorem exceptionName :
    G.Kindred P Grammar.exceptionName Grammar.exceptionName (Same G.goesOn) := by
  refine .bindKind (fun k => ?_) .name
  split
  · exact .bind .advance fun _ => .same (.map _ .string)
  · exact .ite (fun _ => .name) fun _ => .bind .advance fun _ => .ret (.refl _)
  · exact .name

theorem exceptionHandler? (h : G.Nested N N') :
    G.Kindred P (Grammar.exceptionHandler? N) (Grammar.exceptionHandler? N') (Same G.goesOn)
      fun k _ => k = .eof := by
  refine (behindOpen (T := fun k _ => k = .eof) ?_).mono (fun _ => id) (fun _ _ => id) fun k x hx => ?_
  · refine .bindSame .exceptionName fun first first' hfirst => ?_
    refine .bindSame (.manySame (.behindSame .exceptionName)) fun others others' hothers => ?_
    refine .bind .expectKeyword fun _ => .bindApart (.statements h) (fun body body' hbody => .ret ?_)
      fun k body hbody => .ret hbody.1
    cases hg : G.goesOn <;> simp_all [Same, mapTexts]
  · obtain ⟨_, -, hk⟩ := hx
    exact hk

theorem exceptionHandlers (h : G.Nested N N') :
    G.Kindred P (Grammar.exceptionHandlers N) (Grammar.exceptionHandlers N') (Same G.goesOn)
      fun k _ => k = .eof := by
  refine .bindApart (.manyOpen (.exceptionHandler? h) .behind) (fun handlers handlers' hhandlers => ?_)
    fun k handlers hk => ?_
  · rw [hhandlers.isEmpty]
    exact .ite (fun _ => .expected) fun _ => .ret hhandlers
  · exact .ite (fun _ => .expected) fun _ => .ret hk

/-- Nothing that is left open before it makes the word at the end of a block be there. -/
theorem block (h : G.Nested N N') {label label' : Option String}
    (hlabel : Same G.goesOn label label') :
    G.Kindred P (Grammar.block N label) (Grammar.block N' label') (Same G.goesOn) := by
  refine .bindApart (.declarationSection h) (fun outer outer' houter => .bind .expectKeyword fun _ => ?_)
    fun k _ hk => hk ▸ .fails .expectKeyword
  refine .bindApart (.innerDeclarations h) (fun inner inner' hinner => ?_) fun k inner hk => ?_
  · refine .bindApart (.statements h) (fun body body' hbody => ?_) fun k body hbody => ?_
    · refine .bindApart (behindOpen (.exceptionHandlers h)) (fun handlers handlers' hhandlers => ?_)
        fun k _ hk => ?_
      · refine .bind .expectKeyword fun _ => .bind .trailingName? fun endLabel => .ret ?_
        have hdeclarations := houter.listAppend hinner
        cases hg : G.goesOn <;> simp_all [Same, mapTexts]
      · obtain ⟨_, -, rfl⟩ := hk
        exact .fails .expectKeyword
    · rw [hbody.1]
      exact .bind .behind fun _ _ => .fails .expectKeyword
  · rcases hk with rfl | rfl
    · exact .bind .statements fun _ _ => .bind .behind fun _ _ => .fails .expectKeyword
    · exact .fails (.statementsWith h.needy)

end Kindred

end Kinship

end SqlFrontend
