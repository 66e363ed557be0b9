import SqlFrontend.Grammar.Block
import SqlFrontend.Proofs.Shape.Query

/-!
# The shape of blocks

* `Yields.statements`: a list of statements.
* `Yields.declaration`, `Yields.block`: declarations and blocks. A handler is declared for some
  condition, and an exception section has handlers, each of them for an exception.
* `YieldsBehind.declaration`: the columns of a table that is declared are skipped.
-/

open Computability

namespace SqlFrontend.Production

namespace Yields

variable {P : Parser → Prop} {N : Grammar.Nested}

/-! ## Lists of statements -/

theorem atListEnd {terminators : List Keyword} :
    Yields P (Grammar.atListEnd terminators) fun _ _ => True := .bind .get fun _ => .stay

theorem statements (h : N.Shaped) {terminators : List Keyword} :
    Yields P (Grammar.statements N terminators) fun body _ => ∀ s ∈ body, s.WellFormed := by
  refine .loop (I := fun body => ∀ s ∈ body, s.WellFormed) (fun before hbefore => ?_) (by simp)
  refine .bind .skipSemicolons fun _ => .bindIf atListEnd (.ret fun _ _ => ?_) ?_
  · exact fun s hs => hbefore s (List.mem_reverse.1 hs)
  refine .seq (.recovering h.statement) fun s? hs => ?_
  cases s? with
  | none => exact .ret fun _ _ => hbefore
  | some s => exact .ret fun _ _ => List.forall_mem_cons.2 ⟨hs s rfl, hbefore⟩

theorem statementsToEnd (h : N.Shaped) :
    Yields P (Grammar.statementsToEnd N) fun body _ => ∀ s ∈ body, s.WellFormed := statements h

/-! ## Declarations -/

/-- The options of a cursor end before a word. -/
theorem cursorOption? : Yields P Grammar.cursorOption?
    fun item p => item.elim (p.current.kind.isProper = true) fun _ => True := by
  refine .bind .checkKeyword fun atFor => .bind .checkKeyword fun atIs =>
    .ite (fun hword => .ret fun p hp => ?_) fun _ => ?_
  · rcases Bool.or_eq_true_iff.1 hword with hfor | his
    · simp [hp.1.2 hfor, TokenKind.isProper]
    · simp [hp.2 his, TokenKind.isProper]
  · exact .bindIf .atName (.bind .takeLiteral fun _ => .ret fun _ _ => trivial) .expected

theorem cursorDeclaration (h : N.Shaped) {name : String} :
    Yields P (Grammar.cursorDeclaration N name) fun d _ => Shapely d.query.parts := by
  refine .bind (.manyTo cursorOption?) fun options => .bind (.pass fun p hp _ => hp.2) fun _ => ?_
  exact .seq h.query fun q hq => .ret fun _ _ => hq

theorem notNull : Yields P Grammar.notNull fun _ _ => True := consumeKeywords

theorem initialValue (h : N.Shaped) {kinds : List TokenKind} [TokenKind.Proper kinds] :
    Yields P (Grammar.initialValue N kinds) fun value _ => ∀ e ∈ value, Shapely e.parts :=
  .bindIf .consumeAny (.mapSome h.expression) .retNone

theorem handlerCondition : Yields P Grammar.handlerCondition fun _ _ => True := by
  refine .bind .kind fun k => ?_
  split
  · exact .bind .advance fun _ => .stay
  · exact .bind .advance fun _ => .stay
  · exact .bind .advance fun _ => .bind .expectKeyword fun _ => .stay
  · exact .bind .advance fun _ => mapQuiet .sqlState
  · exact mapQuiet .integer
  · exact mapQuiet .name

theorem handlerDeclaration (h : N.Shaped) {action : HandlerAction}
    (hword : ∀ p, P p → p.current.kind.isProper) :
    Yields P (Grammar.handlerDeclaration N action) fun d _ => Shapely d.parts := by
  refine .bind (.pass fun p hp _ => hword p hp) fun _ => .bind .expectKeyword fun _ => ?_
  refine .bind .expectKeyword fun _ => .seq (.list handlerCondition) fun conditions hconditions => ?_
  refine .bindIfThen (G := Statement.WellFormed) .checkKeyword (.map ?_) h.statement fun body hbody => ?_
  · exact h.block.mono fun b _ hb => by simpa [Statement.WellFormed] using hb
  · refine .ret fun _ _ => ?_
    rw [Declaration.parts, shapely_cons]
    exact ⟨hconditions.1, hbody⟩

end Yields

namespace YieldsBehind

variable {P : Parser → Prop} {X : Language Token} {N : Grammar.Nested}

theorem variableType (hX : X * Phrase.word .TABLE ≤ ⊤ * Phrase.skipHead) :
    YieldsBehind X P Grammar.variableType (fun _ => ⊤) fun _ _ => True :=
  .bindIf .consumeKeyword (.bind (.skipParens hX) fun _ => .ofYields .stay) (.ofYields .dataType)

/-- The names that are declared with the first one. -/
theorem otherNames : YieldsBehind (⊤ * Phrase.declared) P (Production.many do
    if ← Production.consume .comma then some <$> Production.name else return none)
    (fun _ => ⊤ * Phrase.declared) fun _ _ => True := by
  have hnext : ⊤ * Phrase.declared * Phrase.mark .comma * Phrase.name ≤ ⊤ * Phrase.declared := by
    simp only [Phrase.declared, ← mul_assoc]
    rw [mul_assoc _ (Phrase.mark .comma)]
    exact Phrase.mul_many_le
  have hname : YieldsBehind (⊤ * Phrase.declared * Phrase.mark .comma) (fun _ => True)
      (some <$> Production.name) (fun _ => ⊤ * Phrase.declared) fun _ _ => True :=
    .map (name.leading fun _ => hnext)
  have hround : YieldsBehind (⊤ * Phrase.declared) (fun _ => True)
      (do if ← Production.consume .comma then some <$> Production.name else return none)
      (fun _ => ⊤ * Phrase.declared) fun _ _ => True :=
    .bindIf .consume hname (.ret le_rfl fun _ => id)
  have hmany := YieldsBehind.many (P := P) (G := fun _ => True)
    (hround.mono le_rfl (fun _ => le_rfl) fun _ _ _ _ _ => trivial)
  exact hmany.mono le_rfl (fun _ => le_rfl) fun _ _ _ => trivial

theorem variableDeclaration (h : N.Shaped) {first : String} :
    YieldsBehind (⊤ * (Phrase.word .DECLARE * Phrase.name)) P (Grammar.variableDeclaration N first)
      (fun _ => ⊤) fun d _ => ∀ e ∈ d.initial, Shapely e.parts := by
  have hdeclared : Phrase.declared * (1 + Phrase.word .AS) * (1 + Phrase.word .CONSTANT) *
      Phrase.word .TABLE ≤ Phrase.skipHead := le_add_self.trans le_self_add
  have hhead : ⊤ * Phrase.declared * (1 + Phrase.word .AS) * (1 + Phrase.word .CONSTANT) *
      Phrase.word .TABLE ≤ ⊤ * Phrase.skipHead := by
    simpa only [mul_assoc] using mul_le_mul_right hdeclared ⊤
  refine .bind (otherNames.behind (mul_le_mul_right Phrase.le_mul_many ⊤)) fun others => ?_
  refine .bind .skipKeyword fun _ => .bind .consumeOptional fun constant => ?_
  refine .bind (variableType hhead) fun type => .ofYields (.bind .notNull fun notNull => ?_)
  refine .seq (.initialValue h) fun initial hinitial => .bind .dialect fun d => ?_
  refine .ite (fun _ => ?_) fun _ => .ret fun _ _ => hinitial
  exact .bindIf .check (.bind .span fun place => .failThen) (.ret fun _ _ => hinitial)

theorem handlerAction? : YieldsBehind X P Grammar.handlerAction? (fun _ => X)
    fun action p => action.isSome → p.current.kind.isProper := by
  refine .bindIf (.looks .peekKeyword fun _ => ⟨_, rfl⟩) ?_ (.ret le_rfl fun _ _ => by simp)
  refine .bind (.looks .kind fun _ => ⟨_, rfl⟩) fun k => ?_
  split <;> exact .ret le_rfl fun p hp => by simp [hp.2, TokenKind.isProper]

theorem declaration (h : N.Shaped) : YieldsBehind (⊤ * Phrase.word .DECLARE) P
    (Grammar.declaration N) (fun _ => ⊤) fun d _ => Shapely d.parts := by
  refine .bind handlerAction? fun action? => ?_
  cases action? with
  | some action => exact .ofYields (.handlerDeclaration h fun p hp => hp rfl)
  | none =>
    refine .bind .name fun name => .bindIf .consumeKeyword (.map (.ofYields ?_)) (.map ?_)
    · exact (Yields.cursorDeclaration h).mono fun d _ hd => by simpa using hd
    · refine (variableDeclaration h).mono ?_ (fun _ => le_rfl) fun d _ hd => by simpa using hd
      rw [cond_false, mul_assoc]

end YieldsBehind

namespace Yields

variable {P : Parser → Prop} {N : Grammar.Nested}

theorem sectionDeclaration (h : N.Shaped) :
    Yields P (Grammar.sectionDeclaration N) fun d _ => Shapely d.parts := by
  have hend {d : Declaration} (hd : Shapely d.parts) :
      Yields (fun _ => True) (do Production.expect .semicolon; return d)
        fun d _ => Shapely d.parts := .bind .expect fun _ => .ret fun _ _ => hd
  refine .bind .name fun name => .bindIf .consumeKeyword ?_ ?_
  · refine .bindUnless .consumeKeyword .expectKeyword (.seq h.query fun query hquery => ?_)
    exact .retThen (hend (by simpa using hquery))
  · refine .bind .consumeKeyword fun constant => .bind .dataType fun type => ?_
    refine .bind notNull fun notNull => .seq (initialValue h) fun initial hinitial => ?_
    exact .retThen (hend (by simpa using hinitial))

/-! ## Blocks -/

theorem declarationSection (h : N.Shaped) :
    Yields P (Grammar.declarationSection N) fun ds _ => ∀ d ∈ ds, Shapely d.parts := by
  refine .bindIf .consumeKeyword (.many ?_) (.ret fun _ _ => by simp)
  exact .bind .checkKeyword fun _ => .bind .get fun p =>
    .ite (fun _ => .retNone) fun _ => .mapSome (sectionDeclaration h)

/-- A declaration behind the word for it. -/
theorem declared (h : N.Shaped) : Yields P (Production.behind .DECLARE (Grammar.declaration N))
    fun item _ => ∀ d ∈ item, Shapely d.parts := by
  refine .ofBehind (.bindIf .consumeKeyword (.map ?_) (.ofYields .retNone))
  exact (YieldsBehind.declaration h).mono le_rfl (fun _ => le_rfl) fun _ _ hd _ hb =>
    Option.mem_some_iff.1 hb ▸ hd

theorem innerDeclarations (h : N.Shaped) :
    Yields P (Grammar.innerDeclarations N) fun ds _ => ∀ d ∈ ds, Shapely d.parts :=
  .many (.bind .skipSemicolons fun _ => declared h)

theorem exceptionName : Yields P Grammar.exceptionName fun _ _ => True := by
  refine .bind .kind fun k => ?_
  split
  · exact .bind .advance fun _ => mapQuiet .string
  · exact .ite (fun _ => .name) fun _ => .bind .advance fun _ => .stay
  · exact .name

theorem exceptionHandler? (h : N.Shaped) :
    Yields P (Grammar.exceptionHandler? N) fun item _ => ∀ x ∈ item, Shapely x.parts := by
  refine .behind (.bind exceptionName fun first => ?_)
  refine .bind (.many (.behind exceptionName)) fun others => .bind .expectKeyword fun _ => ?_
  exact .seq (statements h) fun body hbody => .ret fun _ _ => by simpa using hbody

theorem exceptionHandlers (h : N.Shaped) : Yields P (Grammar.exceptionHandlers N)
    fun handlers _ => handlers ≠ [] ∧ ∀ x ∈ handlers, Shapely x.parts := by
  refine .seq (.many (exceptionHandler? h)) fun handlers hhandlers =>
    .ite (fun _ => .expected) fun hsome => .ret fun _ _ => ⟨?_, hhandlers⟩
  simpa using hsome

theorem block (h : N.Shaped) {label : Option String} :
    Yields P (Grammar.block N label) fun b _ => Shapely b.parts := by
  refine .seq (declarationSection h) fun outer houter => .bind .expectKeyword fun _ => ?_
  refine .seq (innerDeclarations h) fun inner hinner => .seq (statements h) fun body hbody => ?_
  refine .seq (.behind (exceptionHandlers h)) fun handlers hhandlers => .bind .expectKeyword fun _ => ?_
  refine .bind .trailingName? fun endLabel => .ret fun _ _ => ?_
  have hsome : handlers ≠ some [] := fun hnil => (hhandlers [] (by simp [hnil])).1 rfl
  have hshapely : ∀ hs ∈ handlers, ∀ x ∈ hs, Shapely x.parts := fun hs hmem => (hhandlers hs hmem).2
  simp only [Block.parts, shapely_cons, shapely_append, Part.Shaped, Declaration.shapely_partsAll,
    Statement.shapely_partsAll, ExceptionHandler.shapely_partsSection]
  exact ⟨hsome, ⟨List.forall_mem_append.2 ⟨houter, hinner⟩, hbody⟩, hshapely⟩

/-- A block of well formed statements alone is well formed. -/
theorem shapely_ofBody {body : List Statement} (h : ∀ s ∈ body, s.WellFormed) :
    Shapely (Block.ofBody body).parts := by
  simpa [Block.ofBody, Declaration.partsAll, ExceptionHandler.partsSection] using h

end Yields

end SqlFrontend.Production
