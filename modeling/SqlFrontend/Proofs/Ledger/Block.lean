import SqlFrontend.Grammar.Block
import SqlFrontend.Proofs.Ledger.Command

/-!
# What blocks are charged for

* `Pays.statements`: a list of statements. A statement that could not be read is none of them.
* `Pays.declaration`, `Pays.block`: declarations and blocks.
-/

namespace SqlFrontend.Ledger.Pays

variable {M : Type} [AddCommMonoid M] [PartialOrder M] [IsOrderedAddMonoid M] {L : Ledger M}
variable {N : Grammar.Nested}

/-! ## Lists of statements -/

theorem atListEnd {terminators : List Keyword} : L.Quiet (Grammar.atListEnd terminators) :=
  .bindGet (fun _ => rfl) fun _ => .stay

theorem statements (h : L.Paying N) {terminators : List Keyword} :
    L.Pays 0 (Grammar.statements N terminators) (L.each .statement) := by
  refine .loop (I := L.each .statement) (fun before => ?_) (le_refl 0)
  refine .bind .skipSemicolons fun _ => .bindIf atListEnd (.ret (by simp [round])) ?_
  refine (recovering h.statement).seq fun s? => ?_
  cases s? with
  | none => exact .ret (by simp [round])
  | some s => exact .ret (by simp [round, add_comm])

theorem statementsToEnd (h : L.Paying N) :
    L.Pays 0 (Grammar.statementsToEnd N) (L.each .statement) := statements h

/-! ## Declarations -/

theorem cursorOption? : L.Quiet Grammar.cursorOption? := by
  refine .bind .checkKeyword fun atFor => .bind .checkKeyword fun atIs => .ite (fun _ => .stay) fun _ => ?_
  exact .bindIf .atName (.bind .takeLiteral fun _ => .stay) .expected

theorem cursorDeclaration (h : L.Paying N) {name : String} :
    L.Pays 0 (Grammar.cursorDeclaration N name) fun d => L.total (.cursor d) := by
  refine .bind (.manyQuiet cursorOption?) fun options => .bind .advance fun _ => ?_
  exact h.query.seq fun q => .ret (total_le rfl rfl (by simp [Component.fields]))

theorem notNull : L.Quiet Grammar.notNull := consumeKeywords

theorem initialValue (h : L.Paying N) {kinds : List TokenKind} :
    L.Pays 0 (Grammar.initialValue N kinds) (L.maybe .expr) :=
  .bindIf .consumeAny h.expression.mapSome .retNone

theorem variableType : L.Pays 0 Grammar.variableType fun type => L.total (.dataType type) :=
  .bindIf .consumeKeyword (.bind .skipParens fun _ => .ret (total_ofName _)) .dataType

theorem variableDeclaration (h : L.Paying N) {first : String} :
    L.Pays 0 (Grammar.variableDeclaration N first) fun d => L.total (.scalars d) := by
  refine .bind (.manyQuiet (.bindIf .consume name.mapQuiet .stay)) fun others => ?_
  refine .bind .skipKeyword fun _ => .bind .consumeKeyword fun constant => variableType.seq fun type => ?_
  refine .bind notNull fun notNull => (initialValue h).seq fun initial => .know .dialect fun d _ => ?_
  have hlast : L.Pays (0 + L.total (.dataType type) + L.maybe .expr initial)
      (Pure.pure ⟨first :: others, type, initial, constant, notNull⟩) fun d => L.total (.scalars d) :=
    .ret (total_le rfl rfl (by simp [Component.fields]))
  refine .ite (fun _ => ?_) fun _ => hlast
  exact .bindIf .check (.bind .span fun place => .failThen trivial nofun) hlast

theorem handlerAction? : L.Quiet Grammar.handlerAction? := by
  refine .bindIf .peekKeyword (.bind .kind fun k => ?_) .stay
  split <;> exact .stay

theorem handlerCondition : L.Quiet Grammar.handlerCondition := by
  refine .bind .kind fun k => ?_
  split
  · exact .bind .advance fun _ => .stay
  · exact .bind .advance fun _ => .stay
  · exact .bind .advance fun _ => .bind .expectKeyword fun _ => .stay
  · exact .bind .advance fun _ => sqlState.mapQuiet
  · exact integer.mapQuiet
  · exact name.mapQuiet

/-- A block that stands as a statement is worth as much as the block. -/
theorem total_block (b : Block) : L.total (.statement (.block b)) ≤ L.total (.block b) :=
  total_statement_le (by simp [Component.ofStatement])

theorem handlerDeclaration (h : L.Paying N) {action : HandlerAction} :
    L.Pays 0 (Grammar.handlerDeclaration N action) fun d => L.total (.declaration d) := by
  refine .bind .advance fun _ => .bind .expectKeyword fun _ => .bind .expectKeyword fun _ => ?_
  refine .bind (.listQuiet handlerCondition) fun conditions => ?_
  refine .bindIfThen .checkKeyword (h.block.map fun b => ?_) h.statement fun body => .ret ?_
  · simpa using total_block b
  · exact total_le rfl rfl (by simp [Component.fields])

theorem declaration (h : L.Paying N) :
    L.Pays 0 (Grammar.declaration N) fun d => L.total (.declaration d) := by
  refine .bind handlerAction? fun action? => ?_
  cases action? with
  | some action => exact handlerDeclaration h
  | none =>
    refine .bind .name fun name => .bindIf .consumeKeyword ((cursorDeclaration h).map fun d => ?_)
      ((variableDeclaration h).map fun d => ?_)
    · exact total_le rfl rfl (by simp [Component.fields])
    · exact total_le rfl rfl (by simp [Component.fields])

theorem sectionDeclaration (h : L.Paying N) :
    L.Pays 0 (Grammar.sectionDeclaration N) fun d => L.total (.declaration d) := by
  have hend {d : Declaration} {budget : M} (hd : L.total (.declaration d) ≤ budget) :
      L.Pays budget (do Production.expect .semicolon; return d) fun d => L.total (.declaration d) :=
    .bind .expect fun _ => .ret hd
  refine .bind .name fun name => .bindIf .consumeKeyword ?_ ?_
  · refine .bindUnless .consumeKeyword .expectKeyword (h.query.seq fun query => .retThen (hend ?_))
    have hcursor : L.total (.cursor ⟨name, [], query⟩) ≤ L.total (.query query) :=
      total_le rfl rfl (by simp [Component.fields])
    exact total_le rfl rfl (by simpa [Component.fields] using hcursor)
  · refine .bind .consumeKeyword fun constant => dataType.seq fun type => ?_
    refine .bind notNull fun notNull => (initialValue h).seq fun initial => .retThen (hend ?_)
    have hscalars : L.total (.scalars ⟨[name], type, initial, constant, notNull⟩) ≤
        L.total (.dataType type) + L.maybe .expr initial :=
      total_le rfl rfl (by simp [Component.fields])
    exact total_le rfl rfl (by simpa [Component.fields] using hscalars)

/-! ## Blocks -/

theorem declarationSection (h : L.Paying N) :
    L.Pays 0 (Grammar.declarationSection N) (L.each .declaration) := by
  refine .bindIf .consumeKeyword (.many ?_) (.ret (le_refl 0))
  exact .bind .checkKeyword fun _ => .bindGet (fun _ => rfl) fun p =>
    .ite (fun _ => .retNone) fun _ => (sectionDeclaration h).mapSome

theorem innerDeclarations (h : L.Paying N) :
    L.Pays 0 (Grammar.innerDeclarations N) (L.each .declaration) :=
  .many (.bind .skipSemicolons fun _ => .behind (declaration h))

theorem exceptionName : L.Quiet Grammar.exceptionName := by
  refine .bind .kind fun k => ?_
  split
  · exact .bind .advance fun _ => string.mapQuiet
  · exact .ite (fun _ => .name) fun _ => .bind .advance fun _ => .stay
  · exact .name

theorem exceptionHandler? (h : L.Paying N) :
    L.Pays 0 (Grammar.exceptionHandler? N) (L.maybe .handler) := by
  refine .behind (.bind exceptionName fun first => ?_)
  refine .bind (.manyQuiet (.behindQuiet exceptionName)) fun others => .bind .expectKeyword fun _ => ?_
  exact (statements h).seq fun body => .ret (total_le rfl rfl (by simp [Component.fields]))

theorem exceptionHandlers (h : L.Paying N) :
    L.Pays 0 (Grammar.exceptionHandlers N) (L.each .handler) := by
  refine (many (exceptionHandler? h)).seq fun handlers => .ite (fun _ => .expected) fun _ => ?_
  exact .ret (zero_add _).ge

theorem block (h : L.Paying N) {label : Option String} :
    L.Pays 0 (Grammar.block N label) fun b => L.total (.block b) := by
  refine (declarationSection h).seq fun outer => .bind .expectKeyword fun _ => ?_
  refine (innerDeclarations h).seq fun inner => (statements h).seq fun body => ?_
  refine (behind (exceptionHandlers h)).seq fun handlers => .bind .expectKeyword fun _ => ?_
  refine .bind .trailingName? fun endLabel => .ret (total_le rfl rfl ?_)
  simp [Component.fields, add_assoc]

/-- A block of statements alone is worth as much as the statements. -/
theorem total_ofBody (body : List Statement) :
    L.total (.block (.ofBody body)) ≤ L.each .statement body :=
  total_le (L := L) rfl rfl (by simp [Component.fields, Block.ofBody])

end SqlFrontend.Ledger.Pays
