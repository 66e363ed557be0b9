import SqlFrontend.Proofs.Grammar.Routine
import SqlFrontend.Proofs.Kinship.Control

/-!
# Routines of texts that are kin

* `Kindred.parameters`: a list of parameters is left open if the last one has no name, for its type is
  then taken for a name once another word follows.
* `Kindred.routineBody`: bodies. Quoted bodies are sources of their own, the same in both texts.
* `Kindred.createProcedure`: a procedure is left open if its parameters are, and it has no body.
* `Kindred.createFunction`: a function is left open only if its body is, for its type has to follow its
  parameters.
-/

namespace SqlFrontend

/-! ## The end of the text -/

namespace Production

namespace Ends

variable {N : Grammar.Nested} {stopped : Bool}

theorem timeZone {name : String} : Ends stopped .eof (Grammar.timeZone name) fun _ => True := by
  refine ite (fun _ => bind checkKeyword fun x hx => bindGet fun p _ => ?_) fun _ => ret trivial
  rw [hx, Bool.false_and]
  exact bindIf consumeWord (ret trivial)

theorem typeDimensions : Ends stopped .eof Grammar.typeDimensions fun _ => True :=
  (many (bind dialect fun _ _ => ite (fun _ => bindIf consume (ret rfl)) fun _ => ret rfl)).mono
    fun _ _ => trivial

theorem initialValue {kinds : List TokenKind} [Outside .eof kinds] :
    Ends stopped .eof (Grammar.initialValue N kinds) fun _ => True := bindIf consumeAny (ret trivial)

theorem parameterIsOutput : Ends stopped .eof Grammar.parameterIsOutput fun _ => True :=
  bindIf consumeWord (bindIf consumeKeyword (bind skipWord fun _ _ => ret trivial))

theorem parameterName? : Ends stopped .eof Grammar.parameterName? (· = none) :=
  bindAnd atName (peekIsName.mono fun _ _ => trivial) (ret rfl)

theorem returnType {S : DataType → Prop} : Ends stopped .eof Grammar.returnType S := by
  refine bind current fun t _ => bind peekKeyword fun y hy => ?_
  rw [hy, Bool.and_false]
  exact bindIf consumeKeyword dataType

/-- Before the end of the text or a last `WITH`, no further characteristic of a routine is read. -/
theorem routineOptions {k : TokenKind} {options : RoutineOptions} (hk : k = .eof ∨ k = .keyword .WITH) :
    Ends stopped k (Grammar.routineOptions options) fun _ => True := by
  have hnone {options : RoutineOptions} : Ends stopped k (Grammar.routineOption? options) (· = none) := by
    refine bind kind fun k' hk' => bind peekKind fun next hnext => ?_
    rcases hk with rfl | rfl
    · rw [hk', hnext]
      exact ret rfl
    · rw [hk', hnext]
      refine bind dialect fun _ _ => bind peekIsName fun y hy => ?_
      rw [hy, Bool.and_false]
      exact ret rfl
  refine loop (hnone.bind fun x hx => ?_)
  rw [hx]
  exact ret trivial

theorem atBlockStart {k : TokenKind} (hk : k = .eof ∨ k = .keyword .WITH) :
    Ends stopped k Grammar.atBlockStart (· = false) := by
  refine bind kind fun k' hk' => bind peekKind fun next hnext => ?_
  rcases hk with rfl | rfl
  · rw [hk', hnext]
    exact ret rfl
  · rw [hk', hnext]
    exact ret rfl

/-- What a body starts with is not there. -/
theorem routineStart {k : TokenKind} {S : Block → Prop} (hk : k = .eof ∨ k = .keyword .WITH)
    (hbatch : Ends stopped k (Grammar.statements N []) fun body => S (.ofBody body))
    (hstatement : Ends stopped k N.statement fun _ => False) : Ends stopped k (Grammar.routineBody N) S := by
  have hother {kind : TokenKind} [heof : Apart .eof kind] [hwith : Apart (.keyword .WITH) kind] :
      Apart k kind := TokenKind.apart_of_or hk
  refine bindIf consumeKeyword (bind skipKeyword fun _ _ => ?_)
  refine bind dialect fun d _ => bindIf check (bind check fun x hx => ?_)
  rw [hx, Bool.and_false]
  refine bindIf (atBlockStart hk) (ite (fun _ => ?_) fun _ => ?_)
  · exact map (inRoutine hbatch) fun _ => id
  · exact fails (inRoutine hstatement)

/-- Before the end of the text, the body of a routine is empty or missing. -/
theorem routineBody (h : Kinship.Needy stopped N) :
    Ends stopped .eof (Grammar.routineBody N) (· = .ofBody []) :=
  routineStart (.inl rfl) (statements.mono fun _ hbody => congrArg _ hbody) h.statement

theorem routineBodyWith (h : Kinship.Needy false N) {S : Block → Prop} :
    Ends false (.keyword .WITH) (Grammar.routineBody N) S :=
  routineStart (.inr rfl) (statementsWith h) h.statementWith

end Ends

namespace Finishes

theorem typeName : Finishes Grammar.typeName fun _ => True := by
  refine takeLiteral.bind fun _ _ => .ite (fun _ => ?_) fun _ => .ite (fun _ => ?_) fun _ => ?_
  · exact .bind .consumeWord fun _ _ => .ret trivial
  · exact .bind .consumeWord fun _ _ => .ret trivial
  · exact .ret trivial

/-- A type of one word. -/
theorem dataType : Finishes Grammar.dataType fun _ => True := by
  refine .bindWord (Ends.bindIf .atName .expected) (.ifName ?_ ?_)
  · refine typeName.bind fun name _ => .bindIf .check (.bind (S := fun _ => True) (.ret trivial) fun _ _ => ?_)
    refine .bind .timeZone fun _ _ => ?_
    exact .bind .typeDimensions fun _ _ => .bind .consumeWord fun _ _ => .ret trivial
  · exact (expected (S := fun _ => False)).bind fun _ => False.elim

end Finishes

end Production

namespace Kinship.Kindred

variable {G : Kinship} {P : Parser → Prop} {N N' : Grammar.Nested} {p q : Parser}

/-! ## Parameters -/

theorem parameterMode : G.Kindred P Grammar.parameterMode Grammar.parameterMode Eq := by
  refine .bindKind (fun k => ?_) .stay
  split
  · exact .bind .advance fun _ => .stay
  · exact .bind .advance fun _ => .stay
  · exact .bind .advance fun _ => .stay
  · exact .stay

theorem variadic : G.Kindred P Grammar.variadic Grammar.variadic Eq := by
  refine .bindTest .checkKeyword (.bindSpan fun s s' hs => .bindRequire hs ?_) .stay
  exact .bind .advance fun _ => .stay

theorem isWord_of_isName {t : Token} (h : t.isName) : t.kind.isWord := by
  unfold Token.isName at h
  split at h <;> first | (next hk => rw [hk]; rfl) | cases h

/-- Whether a name is one of a parameter shows in what follows it. At the end of the first text, it is
taken for a type. -/
theorem bindParameterName {β : Type} {f f' : Option String → Production β} {S : β → β → Prop}
    {U : TokenKind → β → Prop}
    (h : ∀ x x', Same G.goesOn x x' → G.Kindred Anywhere (f x) (f' x') S U)
    (hend : Production.Ends false .eof (f none) fun _ => False)
    (hlast : G.last.isWord → Production.Finishes (f none) (U .eof)) :
    G.Kindred P (Grammar.parameterName? >>= f) (Grammar.parameterName? >>= f') S U := by
  refine .needing (.bind .parameterName? fun x hx => hx ▸ hend) fun p q hpq hp => ?_
  have hrun (f : Option String → Production β) (p : Parser) : (Grammar.parameterName? >>= f) p =
      if (p.current.isName && p.peek.isName) = true then f (some p.current.literal) p.advance
      else f none p := by
    by_cases hname : p.current.isName = true
    · by_cases hnext : p.peek.isName = true <;>
        simp [Grammar.parameterName?, Production.peekIsName, Production.name, hname, hnext]
    · simp [Grammar.parameterName?, Production.peekIsName, Production.name, hname]
  rw [hrun, hrun, ← (current_kin hpq hp).isName]
  by_cases hname : p.current.isName = true
  · rw [hname, Bool.true_and, Bool.true_and]
    rcases peek_kin hpq hp with hkin | ⟨hg, hleft, hright⟩
    · rw [← hkin.isName]
      split
      · have hout := h _ _ (current_kin hpq hp).same.some _ _ (G.advance hpq hp) trivial
        exact hout.after fun _ hl => absurd hl.kind (not_dot_of_isName hname)
      · exact h none none (.refl none) p q hpq trivial
    · have hpeek : p.peek.isName = false := by rw [Token.isName, hleft]
      have hkind := ((G.shown hpq).follows hg (hp hg) (beq_iff_eq.2 hleft)).2
      rw [hpeek]
      exact .ofFinishes hg hpq (beq_iff_eq.2 hleft) (hlast (hkind ▸ isWord_of_isName hname))
  · rw [Bool.eq_false_iff.2 hname, Bool.false_and, Bool.false_and]
    exact h none none (.refl none) p q hpq trivial

theorem parameterIsOutput :
    G.Kindred P Grammar.parameterIsOutput Grammar.parameterIsOutput Eq :=
  .bindIf .consumeWord .stay (.bindIf .consumeKeyword .stay (.bind .skipWord fun _ => .stay))

theorem parameter (h : G.Nested N N') :
    G.Kindred P (Grammar.parameter N) (Grammar.parameter N') (Same G.goesOn)
      fun k parameter => k = .eof ∧ parameter.name = none ∧ G.last.isWord := by
  refine .bind .parameterMode fun mode => .bind .variadic fun variadic => ?_
  refine .bindParameterName (fun name name' hname => ?_) (.fails .dataType) fun hlast => ?_
  · refine .bind .dataType fun type => .bindSame (.initialValue h) fun initial initial' hinitial => ?_
    refine .bind .parameterIsOutput fun _ => .ret ?_
    cases hg : G.goesOn <;> simp_all [Same, mapTexts, Parameter.mapTexts]
  · refine Production.Finishes.dataType.bind fun type _ => .bind .initialValue fun initial _ => ?_
    exact .bind .parameterIsOutput fun _ _ => .ret ⟨rfl, rfl, hlast⟩

theorem parameters (h : G.Nested N N') :
    G.Kindred P (Grammar.parameters N) (Grammar.parameters N') (Same G.goesOn)
      fun k parameters => k = .eof ∧
        ∃ parameter ∈ parameters.getLast?, parameter.name = none ∧ G.last.isWord := by
  refine .bindTest .check (.anywhere (.inParensOpen (.bindIf (Test.kindred .check) (.ret (.refl []))
    (.listOpen (.parameter h))) ?_)) ?_
  · rintro k _ ⟨rfl, -⟩
    nofun
  intro p q hpq _
  rcases here_or_ended G p with hp | hp
  · refine bindCurrent (P := G.Here) (fun _ => id) (fun t t' ht => ?_) p q hpq hp
    rw [ht.kind, Text.startsWith_of_lower_eq ht.same.lower]
    exact .ite (fun _ => (listOpen (.parameter h)).anywhere) fun _ => .ret (.refl [])
  · have hsign : q.current.literal.startsWith "@" = false := by
      have hword := (Bool.and_eq_true_iff.1 (hp.isWord hpq)).2
      rw [Text.startsWith_of_lower_eq (beq_iff_eq.1 hword)]
      decide +kernel
    have hrun (N : Grammar.Nested) (x : Parser)
        (hx : ¬(x.current.kind = .identifier ∧ x.current.literal.startsWith "@")) :
        (do
          let token ← Production.current
          if token.kind = TokenKind.identifier ∧ token.literal.startsWith "@" then
            Production.list (Grammar.parameter N)
          else return []) x = .ok [] x := by
      rw [Production.run_bind, Production.run_current]
      dsimp only
      rw [if_neg hx]
      rfl
    have hleft : ¬(p.current.kind = .identifier ∧ p.current.literal.startsWith "@") :=
      fun h => nomatch hp.kind.symm.trans h.1
    have hright : ¬(q.current.kind = .identifier ∧ q.current.literal.startsWith "@") := by
      rw [hsign]
      exact fun h => nomatch h.2
    rw [hrun N p hleft, hrun N' q hright]
    exact .ok hpq (.refl []) fun _ => id

theorem returnType : G.Kindred P Grammar.returnType Grammar.returnType Eq := by
  refine .needing .returnType (.bindCurrent (fun _ => id) fun t t' ht => ?_)
  rw [Text.startsWith_of_lower_eq ht.same.lower]
  extract_lets done rest
  have hrest (u : Unit) {Q : Parser → Prop} : G.Kindred Q (rest u) (rest u) Eq := by
    refine .bindIf .consumeKeyword (.bindIf (Test.kindred .check) ?_ .stay) .dataType
    exact .bind .skipParens fun _ => .stay
  cases t'.literal.startsWith "@" with
  | false => exact .bind (Test.kindred (.peekKeyword fun _ => id)) fun _ => hrest ()
  | true => exact .bindTest (.peekKeyword fun _ => id) (.bindAdvanceTo (hrest ())) (hrest ())

/-! ## Characteristics -/

theorem language : G.Kindred P Grammar.language Grammar.language Eq := by
  refine .bindSpan fun s s' hs => .bindSame .name fun name name' hname => ?_
  rw [hname.upper]
  exact .ite (fun _ => .bindRequire hs .stay) fun _ => .stay

theorem securityMode : G.Kindred P Grammar.securityMode Grammar.securityMode Eq :=
  .bindIf .consumeKeyword .stay (.bind .expectKeyword fun _ => .stay)

/-- The options that a last `WITH` would start are never read. -/
theorem routineOption? {options : RoutineOptions} :
    G.Kindred P (Grammar.routineOption? options) (Grammar.routineOption? options) Eq
      fun k x => k = .keyword .WITH ∧ x = none := by
  have hwith : G.Kindred (G.At (.keyword .WITH))
      (do
        if (← Production.dialect) = .sqlServer && (← Production.peekIsName) then
          Production.advance
          Functor.discard (Production.list Production.name)
          return some options
        else return none)
      (do
        if (← Production.dialect) = .sqlServer && (← Production.peekIsName) then
          Production.advance
          Functor.discard (Production.list Production.name)
          return some options
        else return none) Eq fun k x => k = .keyword .WITH ∧ x = none := by
    refine .bindDialect fun d => .bindPeekIsName (fun p hp => hp.1) (fun y => .ite (fun _ => ?_) fun _ => ?_)
      fun p q hg hpq hp hpeek => ?_
    · exact .bind .advance fun _ => .bind (.discard (.listSame .name)) fun _ => .stay
    · exact .stay
    · rw [Bool.and_false]
      exact .apart hg ⟨hp.2, hpeek, ((G.shown hpq).batch hg).2.1⟩ ⟨rfl, rfl⟩
  refine .bindKind (fun k => .bindPeekKind (fun p hp => hp.1) ?_ fun next => ?_)
    (.bindPeekAny fun _ _ => .stay)
  · cases k with
    | keyword word => cases word <;> rfl
    | _ => rfl
  · split
    · exact .bind (.stage .advance fun p hp => hp.1) fun _ => .bind .language fun _ => .stay
    · exact .bind (.stage .advance fun p hp => hp.1) fun _ => .stay
    · exact .bind (.stage .advance fun p hp => hp.1) fun _ => .bind .securityMode fun _ => .stay
    · exact .bind (.stage .advance fun p hp => hp.1) fun _ => .stay
    · exact .stage (.bindAdvance (.bind .advance fun _ => .stay)) fun p hp => ⟨hp.1, hp.2 nofun⟩
    · exact .bind (.stage .advance fun p hp => hp.1) fun _ => .bind .expectKeyword fun _ => .stay
    · exact .stage (.bindAdvance (.bind .advance fun _ => .stay)) fun p hp => ⟨hp.1, hp.2 nofun⟩
    · refine .bind (.stage .advance fun p hp => hp.1) fun _ => .bind .expectKeyword fun _ => ?_
      exact .bind .expectKeyword fun _ => .stay
    · refine .bind (.stage .advance fun p hp => hp.1) fun _ => .bind .expectKeyword fun _ => ?_
      exact .bind .expectKeyword fun _ => .stay
    · exact .stage (.bindAdvance (.bind .takeLiteral fun _ => .stay)) fun p hp => ⟨hp.1, hp.2 nofun⟩
    · exact .bind (.stage .advance fun p hp => hp.1) fun _ => .stay
    · exact .bind (.stage .advance fun p hp => hp.1) fun _ => .stay
    · exact .bind (.stage .advance fun p hp => hp.1) fun _ => .stay
    · exact .stage hwith fun p hp => hp.1
    · exact .stay

theorem routineOptions {options : RoutineOptions} :
    G.Kindred P (Grammar.routineOptions options) (Grammar.routineOptions options) Eq
      fun k _ => k = .keyword .WITH := by
  refine .loopApart (W := Eq) (V := fun k step => k = .keyword .WITH ∧ ∃ options, step = .done options)
    (fun options _ heq => ?_) (fun k options hk => ?_) (fun k options hk => hk.1) rfl
  · subst heq
    refine .bindApart .routineOption? (fun x _ heq => ?_) fun k x hk => ?_
    · subst heq
      cases x with
      | none => exact .ret (.done rfl)
      | some options => exact .ret (.more rfl)
    · obtain ⟨hk, rfl⟩ := hk
      exact .ret ⟨hk, options, rfl⟩
  · obtain ⟨-, _, hk⟩ := hk
    cases hk

/-! ## Bodies -/

theorem atBlockStart : G.Kindred P Grammar.atBlockStart Grammar.atBlockStart Eq := by
  refine .bindKind (fun k => .bindPeekKind (fun p hp => hp.1) ?_ fun next => ?_)
    (.bindPeekAny fun _ _ => .stay)
  · cases k with
    | keyword word => cases word <;> rfl
    | _ => rfl
  · split
    · exact .stay
    · exact .stay
    · exact .stay
    · exact .stay
    · exact .stay
    · exact .bindDialect fun _ => .stay
    · exact .stay
    · exact .stay

theorem labelledBlock (h : G.Nested N N') :
    G.Kindred P (Grammar.labelledBlock N) (Grammar.labelledBlock N') (Same G.goesOn) := by
  refine .bindIfThen (R := Same G.goesOn) (Test.kindred .check) (.mapSame .angleLabel fun _ _ => .some)
    (.ret (.refl none)) fun label label' hlabel => ?_
  exact .block h hlabel

theorem ofBody_same {body body' : List Statement} (h : Same G.goesOn body body') :
    Same G.goesOn (Block.ofBody body) (.ofBody body') := by
  cases hg : G.goesOn <;> simp_all [Same, mapTexts, Block.ofBody]

/-- Only a text that goes on nowhere holds quoted ones. -/
theorem quotedText (h : G.Nested N N') (hg : G.goesOn = false) :
    G.Kindred P (Grammar.quotedText N) (Grammar.quotedText N') (Same G.goesOn) fun _ _ => True := by
  refine .bind .atBlockStart fun _ => ?_
  extract_lets rest
  have hrest (body body' : Block) (hbody : Same G.goesOn body body') :
      G.Kindred Anywhere (rest body) (rest body') (Same G.goesOn) fun _ _ => True := by
    refine .bind .skipSemicolons fun _ => .bindGetIf (fun p q hpq _ => ?_) (.ret hbody) .expected
    exact (current_kin hpq fun hon => nomatch hg.symm.trans hon).isEof
  refine .ite (fun _ => .bindSame (.labelledBlock h) hrest) fun _ => ?_
  refine .bindApart (.mapApart (.statements h) (fun _ _ => ofBody_same) (U := fun k _ => k = .eof) ?_)
    hrest fun k body hk => ?_
  · exact fun k body hbody => hbody.1
  · rw [hk]
    refine .bind .skipSemicolons fun _ _ => .bindGet fun p _ => ?_
    exact .ite (fun _ => .ret trivial) fun _ => .expected

/-- A quoted body is the same in both texts, and so are the errors in it but for the case of letters. -/
theorem quotedBody (h : G.Nested N N') (hg : G.goesOn = false) {k : TokenKind}
    [hk : Certain k.isNoKeyword] :
    G.Kindred (G.At k) (Grammar.quotedBody N) (Grammar.quotedBody N') (Same G.goesOn) := by
  intro p q hpq hp
  have hcurrent := current_kin hpq hp.1
  have hliteral : p.current.literal = q.current.literal :=
    hcurrent.literal fun word hword => by
      have hnone := hk.holds
      rw [hp.2.symm.trans hword] at hnone
      cases hnone
  have hadvance := G.advance hpq hp.1
  have hquoted := quotedText h hg (P := Anywhere) _ _ (G.nested p.current.literal hg hpq) trivial
  rw [Likeness.quotedBody_eq, Likeness.quotedBody_eq, ← hcurrent.span, ← hliteral]
  revert hquoted
  generalize Grammar.quotedText N (p.nested p.current.literal) = r,
    Grammar.quotedText N' (q.nested p.current.literal) = r'
  intro hquoted
  cases hquoted with
  | stuck hon => exact nomatch hg.symm.trans hon
  | apart hon => exact nomatch hg.symm.trans hon
  | lost hon => exact nomatch hg.symm.trans hon
  | @ok body body' inner inner' hs hv hd =>
    have hshown := G.shown hs
    have hpools := G.withPools hadvance hshown.pools.1 hshown.pools.2
    have herrors := G.errors hg hs
    rw [Likeness.quotedOutcome_ok, Likeness.quotedOutcome_ok, hshown.running.1, hshown.running.2]
    revert herrors
    generalize inner.errors.toList = es, inner'.errors.toList = es'
    intro herrors
    cases herrors with
    | nil => exact .ok hpools hv fun hon => nomatch hg.symm.trans hon
    | cons hfirst hothers => exact .error hg (G.defers hg hpools hfirst.cause hothers)
  | @error e e' inner inner' hstops hf =>
    have hshown := G.failed_shown hf
    have hpools := G.withPools hadvance hshown.pools.1 hshown.pools.2
    obtain ⟨he, herrors⟩ := G.failed_kin hf
    rw [Likeness.quotedOutcome_error, Likeness.quotedOutcome_error, hshown.running.1,
      hshown.running.2]
    revert herrors
    generalize inner.errors.toList = es, inner'.errors.toList = es'
    intro herrors
    cases herrors with
    | nil => exact .error hg (G.defers hg hpools he.cause .nil)
    | cons hfirst hothers =>
      refine .error hg (G.defers hg hpools hfirst.cause ?_)
      exact List.rel_append hothers (.cons he .nil)

/-- A quoted body that is read where its token was seen. A text that goes on has none. -/
theorem ifQuoted (h : G.Nested N N') {k : TokenKind} {f : Bool → Bool} {n n' : Production Block}
    {T : TokenKind → Block → Prop} (hf : ∀ x, f x = true → x = true)
    (hnone : G.goesOn = true → ∀ p q, G.state p q → f (p.current.kind == k) = false)
    (helse : G.Kindred P n n' (Same G.goesOn) T)
    [hk : Certain k.isFixed] [hword : Certain k.isNoKeyword] :
    G.Kindred P (Production.check k >>= fun x => if f x = true then Grammar.quotedBody N else n)
      (Production.check k >>= fun x => if f x = true then Grammar.quotedBody N' else n')
      (Same G.goesOn) T := by
  intro p q hpq hp
  change G.Outcome p _ _ ((if f (p.current.kind == k) = true then Grammar.quotedBody N else n) p)
    ((if f (q.current.kind == k) = true then Grammar.quotedBody N' else n') q)
  have hright : (q.current.kind == k) = (p.current.kind == k) := by
    rw [Bool.eq_iff_iff, beq_iff_eq, beq_iff_eq, kind_iff hpq hk.holds]
  rw [hright]
  by_cases hg : G.goesOn = true
  · rw [hnone hg p q hpq]
    exact helse p q hpq hp
  · by_cases hcheck : f (p.current.kind == k) = true
    · rw [if_pos hcheck, if_pos hcheck]
      have hat : G.At k p := ⟨fun hon => absurd hon hg, beq_iff_eq.1 (hf _ hcheck)⟩
      exact (quotedBody h (Bool.eq_false_iff.2 hg)).mono (fun _ => id) (fun _ _ => id)
        (fun _ _ => False.elim) p q hpq hat
    · rw [if_neg hcheck, if_neg hcheck]
      exact helse p q hpq hp

theorem routineBody (h : G.Nested N N') :
    G.Kindred P (Grammar.routineBody N) (Grammar.routineBody N') (Same G.goesOn)
      fun k body => Leaving k (body.LeftOpen G.last) := by
  refine .bindUnless .consumeKeyword .skipKeyword (.bindDialectIn fun d hd => ?_)
  refine .ifQuoted h (f := id) (fun _ => id) (fun hg p q hpq => ?_)
    (.ifQuoted h (fun x hx => (Bool.and_eq_true_iff.1 hx).2) (fun hg p q hpq => ?_) ?_)
  · exact beq_eq_false_iff_ne.2 ((G.shown hpq).batch hg).2.2
  · rw [hd hg]
    rfl
  refine .bindIf .atBlockStart ?_ (.ite (fun _ => ?_) fun _ => ?_)
  · exact .closed (.inRoutine (.labelledBlock h))
  · exact .mapApart (.inRoutine (.statements h)) (fun _ _ => ofBody_same) fun k body => Trailing.leaving
  · refine .bindApart (.inRoutine h.statement) (fun s s' hs => .ret ?_) fun k s hs => .ret ?_
    · exact ofBody_same (hs.cons (.refl []))
    · exact hs.place.imp fun hopen => ⟨[], s, rfl, hopen⟩

/-! ## Definitions of routines -/

theorem routineEnd (h : G.Nested N N') {orReplace : Bool} {name name' : ObjectName}
    {parameters parameters' : List Parameter} (hname : Same G.goesOn name name')
    (hparameters : Same G.goesOn parameters parameters') :
    G.Kindred P (Grammar.routineEnd N orReplace name parameters)
      (Grammar.routineEnd N' orReplace name' parameters') (Same G.goesOn)
      fun k node => Leaving k (node.body.LeftOpen G.last) := by
  refine .bindApart .routineOptions (fun options _ heq => ?_)
    fun k options hk => hk ▸ .fails (.routineBodyWith h.needy)
  subst heq
  refine .bindApart (.routineBody h) (fun body body' hbody => ?_) fun k body hbody => ?_
  · refine .bindApart .routineOptions (fun options _ heq => .ret ?_) fun k options hk => .ret (.inr hk)
    subst heq
    cases hg : G.goesOn <;> simp_all [Same, mapTexts]
  · exact .bind (.routineOptions hbody.closes) fun _ _ => .ret hbody

theorem createProcedure (h : G.Nested N N') {orReplace : Bool} :
    G.Kindred P (Grammar.createProcedure N orReplace) (Grammar.createProcedure N' orReplace)
      (Same G.goesOn) G.Dangling := by
  refine .bindUnless .consumeKeyword .expectWord (.bindSame .objectName fun name name' hname => ?_)
  refine .bindApart (.parameters h) (fun parameters parameters' hparameters => ?_) fun k parameters hk => ?_
  · refine .bindApart (.routineEnd h hname hparameters) (fun node node' hnode => .ret ?_)
      fun k node hnode => .ret ⟨rfl, hnode.imp Statement.leftOpen_createProcedure⟩
    cases hg : G.goesOn <;> simp_all [Same, mapTexts]
  · obtain ⟨rfl, hunnamed⟩ := hk
    have hend : Production.Ends false .eof (Grammar.routineEnd N orReplace name parameters)
        fun node => node.body = .ofBody [] ∧ node.parameters = parameters := by
      refine .bind (.routineOptions (.inl rfl)) fun _ _ => .bind (.routineBody h.needy) fun body hbody => ?_
      exact .bind (.routineOptions (.inl rfl)) fun _ _ => .ret ⟨hbody, rfl⟩
    obtain ⟨parameter, hparameter, hname, hlast⟩ := hunnamed
    refine hend.bind fun node hnode => .ret (.ofOpen rfl ⟨hnode.1, ?_, hlast⟩)
    rw [hnode.2]
    exact ⟨parameter, hparameter, hname⟩

theorem createFunction (h : G.Nested N N') {orReplace : Bool} :
    G.Kindred P (Grammar.createFunction N orReplace) (Grammar.createFunction N' orReplace)
      (Same G.goesOn) G.Dangling := by
  refine .bind .expectKeyword fun _ => .bindSame .objectName fun name name' hname => ?_
  refine .bindApart (.parameters h) (fun parameters parameters' hparameters => ?_) fun k parameters hk => ?_
  · extract_lets rest rest'
    have hrest (u : Unit) : G.Kindred Anywhere (rest u) (rest' u) (Same G.goesOn) G.Dangling := by
      refine .bind .returnType fun returns => .bindApart (.routineEnd h hname hparameters)
        (fun node node' hnode => .ret ?_) fun k node hnode => .ret ?_
      · cases hg : G.goesOn <;> simp_all [Same, mapTexts]
      · exact ⟨rfl, hnode.imp Statement.leftOpen_createFunction⟩
    refine .bindIf .consumeKeyword (hrest ()) (.bindSpan fun s s' hs => ?_)
    exact .bind (.fail hs (.refl _)) hrest
  · rw [hk.1]
    exact .bindIf .consumeKeyword (.bind .span fun _ _ => .fails .fail)

end Kinship.Kindred

end SqlFrontend
