import SqlFrontend.Grammar.Types
import SqlFrontend.Proofs.Parsing.Ledger

/-!
# What names and types are charged for

Names and the values of options are no components, and nothing is charged for them. A data type is
charged for where it has dimensions that the dialect does not know.
-/

namespace SqlFrontend.Ledger.Pays

variable {M : Type} [AddCommMonoid M] [PartialOrder M] [IsOrderedAddMonoid M] {L : Ledger M}

/-! ## Names -/

theorem objectName : L.Quiet Grammar.objectName := by
  refine .bind .name fun first => .loopQuiet fun n => .bind .check fun dot => .bind .peekIsName fun named => ?_
  exact .ite (fun _ => .bind .advance fun _ => .bind .name fun _ => .stay) fun _ => .stay

theorem qualifiedName : L.Quiet Grammar.qualifiedName :=
  .bind .name fun _ => .loopQuiet fun _ => .bindIf .consume (.bind .name fun _ => .stay) .stay

theorem columnNames : L.Quiet Grammar.columnNames := .inParens (.listQuiet .name)

theorem columnNames? : L.Quiet Grammar.columnNames? := .bindIf .check columnNames .stay

/-! ## Values of options -/

theorem optionValue : L.Quiet Grammar.optionValue := by
  refine .bind .kind fun k => ?_
  split
  · exact .takeLiteral
  · exact .takeLiteral
  · exact .takeLiteral
  · exact .takeLiteral
  · exact .bind .advance fun _ => .stay
  · exact .expected

theorem optionWords : L.Quiet Grammar.optionWords := by
  refine .bind .optionValue fun first => .bind (.manyQuiet ?_) fun rest => .stay
  refine .bindIf .atTerminator .stay ?_
  refine .bind .atName fun _ => .bind .checkKeyword fun _ => .bind .check fun _ => ?_
  exact .bind .check fun _ => .ite (fun _ => optionValue.mapQuiet) fun _ => .stay

theorem integer : L.Quiet Grammar.integer := by
  refine .bind .consume fun negative => .bindIf .check ?_ .expectedThen
  refine .bind .span fun place => .bind .takeLiteral fun text => ?_
  split
  · exact .stay
  · exact .fail trivial nofun

theorem string : L.Quiet Grammar.string := .bindIf .check .takeLiteral .expected

theorem sqlState : L.Quiet Grammar.sqlState := .bind .skipWord fun _ => .string

theorem ifNotExists : L.Quiet Grammar.ifNotExists :=
  .bindIf .consumeKeyword (.bind .expectKeyword fun _ => .bind .expectKeyword fun _ => .stay) .stay

theorem ifExists : L.Quiet Grammar.ifExists :=
  .bindIf .consumeKeyword (.bind .expectKeyword fun _ => .stay) .stay

/-! ## Types -/

theorem typeNumber : L.Quiet Grammar.typeNumber := by
  refine .bindIf .check ?_ .expectedThen
  refine .bind .span fun place => .bind .takeLiteral fun text => ?_
  split
  · exact .stay
  · exact .fail trivial nofun

theorem typeModifier : L.Quiet Grammar.typeModifier := by
  refine .inParens (.bindIf .consumeWord .stay (.bind .typeNumber fun precision => ?_))
  exact .bindIf .consume (.bind .typeNumber fun _ => .stay) .stay

theorem typeName : L.Quiet Grammar.typeName := by
  refine .bind .takeLiteral fun text => ?_
  refine .ite (fun _ => ?_) fun _ => .ite (fun _ => ?_) fun _ => .stay
  · exact .bind .consumeWord fun _ => .stay
  · exact .bind .consumeWord fun _ => .stay

theorem timeZone {name : String} : L.Quiet (Grammar.timeZone name) := by
  refine .ite (fun _ => ?_) fun _ => .stay
  refine .bind .checkKeyword fun atWith => .bindGet (fun _ => rfl) fun p => ?_
  refine .ite (fun _ => ?_) fun _ => ?_
  · exact .bind .advance fun _ => .bind .advance fun _ => .bind .expectWord fun _ => .stay
  · exact .bindIf .consumeWord (.bind .expectWord fun _ => .bind .expectWord fun _ => .stay) .stay

/-- There are dimensions in one dialect only. -/
theorem typeDimensions :
    L.Quiet Grammar.typeDimensions fun sizes => ∀ size ∈ sizes, L.dialect = .postgreSql := by
  have hitem : L.Quiet
      (do
        if (← Production.dialect) = .postgreSql then
          if ← Production.consume .leftBracket then
            let size ← if ← Production.check .number then some <$> Grammar.typeNumber else pure none
            Production.expect .rightBracket
            return some size
          else return none
        else return none)
      fun item => ∀ size ∈ item, L.dialect = .postgreSql := by
    refine .know .dialect fun d hd => .ite (fun hpostgreSql => ?_) fun _ => .found nofun
    refine .bindIf .consume ?_ (.found nofun)
    extract_lets rest
    have hrest (size : Option ℕ) :
        L.Quiet (rest size) fun item => ∀ size ∈ item, L.dialect = .postgreSql :=
      .bind .expect fun _ => .found fun _ _ => hd ▸ hpostgreSql
    exact .bindIf .check (.bind typeNumber.mapQuiet hrest) (.retThen (hrest none))
  refine (manyWith (P := fun _ => 0) (hitem.tail fun item => ?_)).tail fun items => ?_
  · cases item <;> simp
  · simp

theorem dataType : L.Pays 0 Grammar.dataType fun type => L.total (.dataType type) := by
  refine .bind .consumeWord fun isSet => .bindIf .atName ?_ .expectedThen
  refine .bind .typeName fun name => ?_
  extract_lets rest
  have hrest (modifier : Option TypeModifier) :
      L.Pays 0 (rest modifier) fun type => L.total (.dataType type) := by
    refine .bind .timeZone fun name => .know .typeDimensions fun dimensions hdimensions => ?_
    refine .bind .consumeWord fun isUnsigned => .ret (total_le rfl ?_ (le_refl 0))
    cases dimensions with
    | nil => rfl
    | cons size sizes =>
      have hdialect := hdimensions size List.mem_cons_self
      simp [Component.isSupported, hdialect]
  exact .bindIf .check (.bind typeModifier.mapQuiet hrest) (.retThen (hrest none))

/-- A type of a name alone. -/
theorem total_ofName (name : String) : L.total (.dataType (.ofName name)) ≤ 0 :=
  total_le rfl rfl (le_refl 0)

end SqlFrontend.Ledger.Pays
