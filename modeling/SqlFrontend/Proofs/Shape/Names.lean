import SqlFrontend.Grammar.Types
import SqlFrontend.Proofs.Parsing.Skipping

/-!
# What names and types yield

Names, values of options and data types hold no nodes with a shape. Their productions pass proper tokens
only, and a list of names has at least one. Behind a text, they add their tokens to it.
-/

open Computability

namespace SqlFrontend.Production.YieldsBehind

variable {P : Parser → Prop} {X : Language Token}

/-- The qualifiers of a name are passed with it. -/
theorem objectName :
    YieldsBehind X P Grammar.objectName (fun _ => X * Phrase.qualifiedName) fun _ _ => True := by
  rw [Phrase.qualifiedName, ← mul_assoc]
  refine .bind .name fun first => .behind (X := X * Phrase.name * (Phrase.mark .dot * Phrase.name)∗)
    (.loop (I := fun _ => True) (fun n _ => ?_) trivial) Phrase.le_mul_many
  refine .bind (.looks .check fun _ => ⟨_, rfl⟩) fun dot => ?_
  refine .bind (.looks .peekIsName fun _ => ⟨_, rfl⟩) fun named =>
    .ite (fun h => ?_) fun _ => .ret le_rfl fun _ _ => trivial
  obtain ⟨rfl, rfl⟩ := Bool.and_eq_true_iff.1 h
  refine .bind (.advance (k := .dot) fun p hp => hp.1.2 rfl) fun _ => .bind .name fun _ =>
    .ret ?_ fun _ _ => trivial
  rw [mul_assoc _ (Phrase.mark .dot)]
  exact Phrase.mul_many_le

theorem ifExists : YieldsBehind X P Grammar.ifExists
    (fun _ => X * (1 + Phrase.word .IF * Phrase.word .EXISTS)) fun _ _ => True := by
  refine .bindIf .consumeKeyword (.bind .expectKeyword fun _ => .ret ?_ fun _ => id)
    (.ret Phrase.le_mul_optional fun _ => id)
  rw [cond_true, mul_assoc]
  exact Phrase.mul_le_mul_optional

end SqlFrontend.Production.YieldsBehind

namespace SqlFrontend.Production.Yields

variable {P : Parser → Prop}

/-! ## Names -/

theorem objectName : Yields P Grammar.objectName fun _ _ => True := 
  .ofBehind (.leading .objectName fun _ => le_top)

theorem qualifiedName : Yields P Grammar.qualifiedName fun _ _ => True := by
  refine .bind .name fun first => .loop (I := fun _ => True) (fun text _ => ?_) trivial
  exact .bindIf .consume (.bind .name fun _ => .stay) .stay

theorem columnNames : Yields P Grammar.columnNames fun names _ => names ≠ [] :=
  .inParens ((Yields.list .name).mono fun _ _ => And.left)

theorem columnNames? : Yields P Grammar.columnNames? fun _ _ => True :=
  .bindIf .check columnNames.quiet .stay

/-! ## Values of options -/

theorem optionValue : Yields P Grammar.optionValue fun _ _ => True := by
  refine .bind .kind fun k => ?_
  split
  · exact .takeLiteral
  · exact .takeLiteral
  · exact .takeLiteral
  · exact .takeLiteral
  · exact .bind .advance fun _ => .stay
  · exact .expected

theorem optionWords : Yields P Grammar.optionWords fun _ _ => True := by
  refine .bind .optionValue fun first => .bind (.many (G := fun _ => True) ?_) fun rest => .stay
  refine .bindIf .atTerminator .retNone ?_
  refine .bind .atName fun _ => .bind .checkKeyword fun _ => .bind .check fun _ => ?_
  exact .bind .check fun _ => .ite (fun _ => optionValue.mapSome) fun _ => .retNone

theorem integer : Yields P Grammar.integer fun _ _ => True := by
  refine .bind .consume fun negative => .bindIf .check ?_ .expectedThen
  refine .bind .span fun place => .bind .takeLiteral fun text => ?_
  split
  · exact .stay
  · exact .fail

theorem string : Yields P Grammar.string fun _ _ => True :=
  .bindIf .check .takeLiteral .expected

theorem sqlState : Yields P Grammar.sqlState fun _ _ => True :=
  .bind .skipWord fun _ => .string

theorem ifNotExists : Yields P Grammar.ifNotExists fun _ _ => True := by
  refine .bindIf .consumeKeyword ?_ .stay
  exact .bind .expectKeyword fun _ => .bind .expectKeyword fun _ => .stay

theorem ifExists : Yields P Grammar.ifExists fun _ _ => True :=
  .ofBehind (.leading .ifExists fun _ => le_top)

/-! ## Types -/

theorem typeNumber : Yields P Grammar.typeNumber fun _ _ => True := by
  refine .bindIf .check ?_ .expectedThen
  refine .bind .span fun place => .bind .takeLiteral fun text => ?_
  split
  · exact .stay
  · exact .fail

theorem typeModifier : Yields P Grammar.typeModifier fun _ _ => True := by
  refine .inParens (.bindIf .consumeWord .stay (.bind .typeNumber fun precision => ?_))
  exact .bindIf .consume (.bind .typeNumber fun _ => .stay) .stay

theorem typeName (h : ∀ p, P p → p.current.kind.isProper) :
    Yields P Grammar.typeName fun _ _ => True := by
  refine .bind (.take fun p hp _ => h p hp) fun text => ?_
  refine .ite (fun _ => ?_) fun _ => .ite (fun _ => ?_) fun _ => .stay
  · exact .bind .consumeWord fun _ => .stay
  · exact .bind .consumeWord fun _ => .stay

theorem timeZone {name : String} : Yields P (Grammar.timeZone name) fun _ _ => True := by
  refine .ite (fun _ => ?_) fun _ => .stay
  refine .bind .checkKeyword fun atWith => .bind .get fun p => .ite (fun h => ?_) fun _ => ?_
  · have hpeek : p.peek.kind.isProper := by
      rw [Bool.and_eq_true] at h
      exact Parser.isProper_of_isWord h.2
    have hboth (q : Parser) (hq : (P q ∧ (atWith = true → q.current.kind = .keyword .WITH)) ∧ p = q)
        (_ : q.Steady) : q.current.kind.isProper ∧ q.peek.kind.isProper := by
      obtain ⟨⟨-, hwith⟩, rfl⟩ := hq
      rw [hwith (Bool.and_eq_true_iff.1 h).1]
      exact ⟨rfl, hpeek⟩
    exact .bind (.passTo hboth) fun _ => .bind .advance fun _ => .bind .expectWord fun _ => .stay
  · refine .bindIf .consumeWord ?_ .stay
    exact .bind .expectWord fun _ => .bind .expectWord fun _ => .stay

theorem typeDimensions : Yields P Grammar.typeDimensions fun _ _ => True := by
  refine (Yields.many (G := fun _ => True) ?_).quiet
  refine .bind .dialect fun d => .ite (fun _ => .bindIf .consume ?_ .retNone) fun _ => .retNone
  extract_lets rest
  have hrest (size : Option ℕ) :
      Yields (fun _ => True) (rest size) fun item _ => ∀ a ∈ item, True :=
    .bind .expect fun _ => .ret fun _ _ _ _ => trivial
  exact .bindIf .check (.bind typeNumber.mapQuiet hrest) (.retThen (hrest none))

theorem dataType : Yields P Grammar.dataType fun _ _ => True := by
  refine .bind .consumeWord fun isSet => .bindIf .atName ?_ .expectedThen
  refine .bind (.typeName (by simp +contextual)) fun name => ?_
  extract_lets rest
  have hrest (modifier : Option TypeModifier) :
      Yields (fun _ => True) (rest modifier) fun _ _ => True :=
    .bind .timeZone fun name => .bind .typeDimensions fun dimensions =>
      .bind .consumeWord fun isUnsigned => .stay
  exact .bindIf .check (.bind typeModifier.mapQuiet hrest) (.retThen (hrest none))

end SqlFrontend.Production.Yields
