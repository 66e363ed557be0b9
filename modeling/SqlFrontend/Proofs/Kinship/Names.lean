import SqlFrontend.Grammar.Types
import SqlFrontend.Proofs.Parsing.Kindred

/-!
# Names and types of texts that are kin

Productions that hold no nested constructs: names, values of options and data types. Names can be
keywords, whose letters are kept as they are spelt; types and values of options are kept in capitals.

* `Ends.dataType`, `Ends.optionValue` and others: these productions need text.
* `Kindred.objectName`: a name ends before a point that no name follows. At the end of a text such a
  point is never passed.
-/

namespace SqlFrontend

/-! ## Texts put together -/

section

variable {exact : Bool}

theorem Same.qualified {qualifier qualifier' : Option String} {name name' : String}
    (hqualifier : Same exact qualifier qualifier') (hname : Same exact name name') :
    Same exact (qualified qualifier name) (SqlFrontend.qualified qualifier' name') := by
  cases hqualifier.option with
  | none => exact hname
  | some hschema => exact (hschema.append (.refl ".")).append hname

theorem Same.summary {n n' : ObjectName} (h : Same exact n n') :
    Same exact n.summary n'.summary := by
  cases exact with
  | true => exact congrArg ObjectName.summary h
  | false =>
    obtain ⟨hschema, hname⟩ := ObjectName.mk.inj h
    have hqualifier : Same false n.schema n'.schema := hschema
    exact hqualifier.qualified hname

end

/-! ## The end of the text -/

namespace Production.Ends

variable {stopped : Bool}

theorem objectName {S : ObjectName → Prop} : Ends stopped .eof Grammar.objectName S := name.fails

theorem qualifiedName {S : String → Prop} : Ends stopped .eof Grammar.qualifiedName S := name.fails

theorem columnNames {S : List String → Prop} : Ends stopped .eof Grammar.columnNames S := inParens

theorem optionValue {S : String → Prop} : Ends stopped .eof Grammar.optionValue S := bindKind .expected

theorem dataType {S : DataType → Prop} : Ends stopped .eof Grammar.dataType S :=
  bind consumeWord fun _ _ => bindIf atName expected

end Production.Ends

namespace Kinship.Kindred

variable {G : Kinship} {P : Parser → Prop} {α : Type} {R : α → α → Prop}
  {T : TokenKind → α → Prop} {m m' n n' : Production α}

/-! ## Names -/

/-- A choice by a token with a name behind it. Where that token is the last one of the first text, the
word that ends the batch is such a name. -/
theorem bindBeforeName {k : TokenKind} (hthen : G.Kindred (G.At k) m m' R T)
    (helse : G.Kindred P n n' R T)
    (hlast : ∀ p q r', G.goesOn = true → G.state p q → p.Last k → G.Outcome p R T (n p) r')
    [hk : Certain k.isFixed] :
    G.Kindred P
      (Production.check k >>= fun x => Production.peekIsName >>= fun y =>
        if (x && y) = true then m else n)
      (Production.check k >>= fun x => Production.peekIsName >>= fun y =>
        if (x && y) = true then m' else n') R T := by
  intro p q hpq hp
  obtain ⟨x, hleft, hright, hpass, -⟩ := Test.check (k := k) (P := P) p q hpq hp
  have hpeek (p : Parser) : Production.peekIsName p = .ok p.peek.isName p := rfl
  simp only [Production.run_bind, hleft, hright, hpeek, Production.run_ite]
  cases x with
  | false => exact helse p q hpq hp
  | true =>
    have hat := hpass rfl
    rw [Bool.true_and, Bool.true_and]
    rcases peek_kin hpq hat.1 with hkin | ⟨hg, heof, -⟩
    · rw [← hkin.isName]
      by_cases hname : p.peek.isName = true
      · rw [if_pos hname, if_pos hname]
        exact hthen p q hpq hat
      · rw [if_neg hname, if_neg hname]
        exact helse p q hpq hp
    · have hname : p.peek.isName = false := by rw [Token.isName, heof]
      rw [hname]
      exact hlast p q _ hg hpq ⟨hat.2, beq_iff_eq.2 heof, ((G.shown hpq).batch hg).2.1⟩

theorem objectName :
    G.Kindred P Grammar.objectName Grammar.objectName (Same G.goesOn) := by
  refine .bindSame .name fun first first' hfirst => .loop (W := Same G.goesOn) ?_ ?_
  · intro n n' hn
    refine .bindBeforeName ?_ (.ret (.done hn)) fun p q r' hg hpq hlast => ?_
    · refine .bindPass Production.Ends.name.fails (.bindSame .name fun name name' hname => ?_)
      refine .ret (.more ?_)
      have hsummary := hn.summary
      cases hg : G.goesOn <;> simp_all [Same, mapTexts, ObjectName.mapTexts]
    · exact .stuck hg hpq (.done hn) hlast
  · simp_all [Same, mapTexts, ObjectName.mapTexts]

theorem qualifiedName :
    G.Kindred P Grammar.qualifiedName Grammar.qualifiedName (Same G.goesOn) := by
  refine .bindSame .name fun first first' hfirst => .loop (W := Same G.goesOn) ?_ hfirst
  intro text text' htext
  refine .bindDot (.bindSame .name fun name name' hname => ?_) Production.Ends.name.fails
    (.ret (.done htext))
  exact .ret (.more ((htext.append (.refl ".")).append hname))

theorem columnNames :
    G.Kindred P Grammar.columnNames Grammar.columnNames (Same G.goesOn) :=
  .inParens (.listSame .name)

theorem columnNames? :
    G.Kindred P Grammar.columnNames? Grammar.columnNames? (Same G.goesOn) :=
  .bindTest .check .columnNames (.ret (.refl []))

theorem optionValue : G.Kindred P Grammar.optionValue Grammar.optionValue Eq := by
  refine .needing .optionValue (.bindKindHere fun k => ?_)
  split
  · exact .takeLiteral
  · exact .takeLiteral
  · exact .takeLiteral
  · exact .takeLiteral
  · exact .bind .advance fun _ => .stay
  · exact .expected

theorem optionWords : G.Kindred P Grammar.optionWords Grammar.optionWords Eq := by
  refine .bind .optionValue fun first => .bind (.many ?_) fun rest => .stay
  refine .bindTest .atTerminator .stay ?_
  refine .bind (Test.kindred (.atName fun p hp => hp.2)) fun _ => ?_
  refine .bind (Test.kindred .checkKeyword) fun _ => .bind (Test.kindred .check) fun _ => ?_
  refine .bind (Test.kindred .check) fun _ => ?_
  exact .ite (fun _ => .map some .optionValue) fun _ => .stay

theorem integer : G.Kindred P Grammar.integer Grammar.integer Eq := by
  refine .bind .consume fun negative => .bindTest .check ?_ .expected
  refine .bindSpan fun s s' hs => .bind .takeLiteral fun text => ?_
  split
  · exact .stay
  · exact .fail hs (.refl _)

theorem string : G.Kindred P Grammar.string Grammar.string Eq :=
  .bindTest .check .takeLiteral .expected

theorem sqlState : G.Kindred P Grammar.sqlState Grammar.sqlState Eq :=
  .bind .skipWord fun _ => .string

theorem ifNotExists : G.Kindred P Grammar.ifNotExists Grammar.ifNotExists Eq :=
  .bindIf .consumeKeyword (.bind .expectKeyword fun _ => .bind .expectKeyword fun _ => .stay) .stay

theorem ifExists : G.Kindred P Grammar.ifExists Grammar.ifExists Eq :=
  .bindIf .consumeKeyword (.bind .expectKeyword fun _ => .stay) .stay

/-! ## Types -/

theorem typeNumber : G.Kindred P Grammar.typeNumber Grammar.typeNumber Eq := by
  refine .bindTest .check ?_ .expected
  refine .bindSpan fun s s' hs => .bind .takeLiteral fun text => ?_
  split
  · exact .stay
  · exact .fail hs (.refl _)

theorem typeModifier : G.Kindred P Grammar.typeModifier Grammar.typeModifier Eq := by
  refine .inParens (.bindIf .consumeWord .stay (.bind .typeNumber fun precision => ?_))
  exact .bindIf .consume (.bind .typeNumber fun _ => .stay) .stay

theorem typeName : G.Kindred G.Named Grammar.typeName Grammar.typeName Eq := by
  refine .bindSame .takeNamed fun text text' htext => ?_
  rw [htext.upper]
  refine .ite (fun _ => ?_) fun _ => .ite (fun _ => ?_) fun _ => .stay
  · exact .bind .consumeWord fun _ => .stay
  · exact .bind .consumeWord fun _ => .stay

/-- Before the end of the first text, the word that ends the batch is not one about time zones. -/
theorem timeZone {name : String} :
    G.Kindred P (Grammar.timeZone name) (Grammar.timeZone name) Eq := by
  refine .ite (fun _ => ?_) fun _ => .stay
  have hpeek : G.Looks (G.At (.keyword .WITH)) get get (fun p => p.peek.isWord "TIME")
      (G.Before (.keyword .WITH) .identifier) := by
    refine fun p q hpq => ⟨p, q, rfl, rfl, fun hp => ⟨?_, fun h => ⟨hp, identifier_of_isWord h⟩⟩⟩
    rcases peek_kin hpq hp.1 with hkin | ⟨-, heof, hword⟩
    · exact hkin.isWord "TIME"
    · have hleft : p.peek.isWord "TIME" = false := by rw [Token.isWord, heof]; rfl
      have hright : q.peek.isWord "TIME" = false := by
        rw [isWord_of_isWord hword]
        decide +kernel
      exact hleft.trans hright.symm
  refine .bindAnd .checkKeyword hpeek ?_ ?_
  · exact .bindAdvance (.bind .advance fun _ => .bind .expectWord fun _ => .stay)
  · refine .bindIf .consumeWord ?_ .stay
    exact .bind .expectWord fun _ => .bind .expectWord fun _ => .stay

theorem typeDimensions : G.Kindred P Grammar.typeDimensions Grammar.typeDimensions Eq := by
  refine .many (.bindDialect fun d => .ite (fun _ => .bindIf .consume ?_ .stay) fun _ => .stay)
  refine .bindIfThen (Test.kindred .check) (.map _ .typeNumber) .stay fun size _ heq => ?_
  subst heq
  exact .bind .expect fun _ => .stay

theorem dataType : G.Kindred P Grammar.dataType Grammar.dataType Eq := by
  refine .bind .consumeWord fun isSet => .needing (.bindIf .atName .expected) ?_
  refine .bindTest (.atName fun _ => id) ?_ .expected
  refine .bind .typeName fun name => ?_
  refine .bindIfThen (Test.kindred .check) (.map _ .typeModifier) .stay fun modifier _ heq => ?_
  subst heq
  exact .bind .timeZone fun name => .bind .typeDimensions fun dimensions =>
    .bind .consumeWord fun isUnsigned => .stay

end Kinship.Kindred

end SqlFrontend
