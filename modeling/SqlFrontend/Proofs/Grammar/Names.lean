import SqlFrontend.Grammar.Types
import SqlFrontend.Proofs.Parsing.Lockstep

/-!
# Names and types in lockstep

Productions that hold no nested constructs: names, values of options and data types.
-/

namespace SqlFrontend.Likeness.Lockstep

variable {L : Likeness} {b : Parser × Parser} {l : Level}

/-! ## Names -/

theorem objectName :
    L.Lockstep b l Grammar.objectName Grammar.objectName fun _ => .moved := by
  refine .bind .name fun first => .loop fun n => ?_
  exact .bindAnd .check
    (.bind .advance fun _ => .bind .name fun _ => .ret) .ret

theorem qualifiedName :
    L.Lockstep b l Grammar.qualifiedName Grammar.qualifiedName fun _ => .moved := by
  refine .bind .name fun first => .loop fun text => ?_
  exact .bindIf .consume (.bind .name fun _ => .ret) .ret

theorem columnNames :
    L.Lockstep b l Grammar.columnNames Grammar.columnNames fun _ => .moved :=
  .inParens (.list .name)

theorem columnNames? :
    L.Lockstep b l Grammar.columnNames? Grammar.columnNames? fun _ => l.any :=
  .weak (.bindIf .check (.mono .columnNames (.refl _) fun _ => .start _) .stay)

theorem optionValue :
    L.Lockstep b l Grammar.optionValue Grammar.optionValue fun _ => .moved := by
  refine .strict (.bind .kind fun k => ?_)
  split
  · exact .takeLiteral
  · exact .takeLiteral
  · exact .takeLiteral
  · exact .takeLiteral
  · exact .bind .advance fun _ => .stay
  · exact .expected (by decide)

theorem optionWords :
    L.Lockstep b l Grammar.optionWords Grammar.optionWords fun _ => .moved := by
  refine .bind .optionValue fun first => .bind (.many ?_) fun rest => .stay
  refine .bindIf .atTerminator .ret ?_
  refine .bind .atName fun _ => .bind .checkKeyword fun _ => .bind .check fun _ =>
    .bind .check fun _ => ?_
  exact .ite (fun _ => .mapSome .optionValue) fun _ => .ret

theorem integer : L.Lockstep b l Grammar.integer Grammar.integer fun _ => .moved := by
  refine .strict (.bind .consume fun negative => .bindIf .check ?_ (.expected (by decide)))
  refine .bindSpan fun t t' => .bind .takeTested fun text => ?_
  split
  · exact .stay
  · exact .fail

theorem string : L.Lockstep b l Grammar.string Grammar.string fun _ => .moved :=
  .strict (.bindIf .check .takeLiteral (.expected (by decide)))

theorem sqlState : L.Lockstep b l Grammar.sqlState Grammar.sqlState fun _ => .moved :=
  .bind .skipWord fun _ => .string

theorem ifNotExists :
    L.Lockstep b l Grammar.ifNotExists Grammar.ifNotExists fun _ => l.any := by
  refine .weak (.bindIf .consumeKeyword ?_ .stay)
  exact .bind .expectKeyword fun _ => .bind .expectKeyword fun _ => .ret

theorem ifExists : L.Lockstep b l Grammar.ifExists Grammar.ifExists fun _ => l.any :=
  .weak (.bindIf .consumeKeyword (.bind .expectKeyword fun _ => .ret) .ret)

/-! ## Types -/

theorem typeNumber : L.Lockstep b l Grammar.typeNumber Grammar.typeNumber fun _ => .moved := by
  refine .strict (.bindIf .check ?_ (.expected (by decide)))
  refine .bindSpan fun t t' => .bind .takeLiteral fun text => ?_
  split
  · exact .stay
  · exact .fail

theorem typeModifier :
    L.Lockstep b l Grammar.typeModifier Grammar.typeModifier fun _ => .moved := by
  refine .inParens (.bindIf .consumeWord .ret (.bind .typeNumber fun precision => ?_))
  exact .bindIf .consume (.bind .typeNumber fun _ => .stay) .stay

theorem typeName :
    L.Lockstep b (l.test true) Grammar.typeName Grammar.typeName fun _ => .moved := by
  refine .bind .takeTested fun text => .ite (fun _ => ?_) fun _ => .ite (fun _ => ?_) fun _ => .stay
  · exact .bind .consumeWord fun _ => .stay
  · exact .bind .consumeWord fun _ => .stay

theorem timeZone {name : String} :
    L.Lockstep b l (Grammar.timeZone name) (Grammar.timeZone name) fun _ => l.any := by
  refine .weak (.ite (fun _ => ?_) fun _ => .stay)
  have hwithout : L.Lockstep b .start
      (do if ← Production.consumeWord "WITHOUT" then
            Production.expectWord "TIME"
            Production.expectWord "ZONE"
            return name ++ " WITHOUT TIME ZONE"
          else return name)
      (do if ← Production.consumeWord "WITHOUT" then
            Production.expectWord "TIME"
            Production.expectWord "ZONE"
            return name ++ " WITHOUT TIME ZONE"
          else return name) fun _ => .start := by
    refine .bindIf .consumeWord ?_ .ret
    exact .bind (.expectWord (by decide)) fun _ => .bind (.expectWord (by decide)) fun _ => .ret
  refine .bindCheckAt (.bindGet fun p q hpq hk => ?_) (.bindGet fun _ _ _ => hwithout)
  rw [((L.alike hpq).peek (Token.closes_of_isOpen (hk ▸ rfl))).isWord]
  refine .of (.ite (fun _ => ?_) fun _ => hwithout.mono (.start _) fun _ => .refl _)
  exact .bind .advance fun _ => .bind .advance fun _ => .bind (.expectWord (by decide)) fun _ => .ret

theorem typeDimensions :
    L.Lockstep b l Grammar.typeDimensions Grammar.typeDimensions l.items := by
  refine .many (.bind .dialect fun d => .ite (fun _ => .bindIf .consume ?_ .ret) fun _ => .ret)
  refine .bindIfThen .check (.map _ .typeNumber) .ret fun size => ?_
  exact .bind .expect fun _ => .ret

/-- A type, behind the word for a set of values where there is one. -/
def typeBehindSet (isSet : Bool) : Production DataType := do
  unless ← Production.atName do
    Production.expected "data type"
  let name ← Grammar.typeName
  let modifier ← if ← Production.check .leftParen then some <$> Grammar.typeModifier else pure none
  let name ← Grammar.timeZone name
  let dimensions ← Grammar.typeDimensions
  let isUnsigned ← Production.consumeWord "UNSIGNED"
  return { name := if isSet then "SETOF " ++ name else name, modifier, isUnsigned, dimensions }

theorem dataType_eq : Grammar.dataType = Production.consumeWord "SETOF" >>= typeBehindSet := rfl

theorem typeBehindSet_moved {isSet : Bool} :
    L.Lockstep b l (typeBehindSet isSet) (typeBehindSet isSet) fun _ => .moved := by
  refine .strict (.bindUnless .atName (.expected (by decide)) (.bind .typeName fun name => ?_))
  refine .bindIfThen .check (.map _ .typeModifier) .ret fun modifier => ?_
  exact .bind .timeZone fun name => .bind .typeDimensions fun dimensions =>
    .bind .consumeWord fun isUnsigned => .stay

theorem dataType : L.Lockstep b l Grammar.dataType Grammar.dataType fun _ => .moved :=
  .strict (.bind .consumeWord fun _ => typeBehindSet_moved)

end SqlFrontend.Likeness.Lockstep
