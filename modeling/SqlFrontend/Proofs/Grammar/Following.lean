import SqlFrontend.Proofs.Parsing.Following
import SqlFrontend.Proofs.Summary.RoundTrip

/-!
# Types and expressions that follow

What stands before a clause that no type and no expression goes on with is read the same as before any
other such clause.

Results:
* `Junction.Quiet`: what follows goes on with no type and no expression.
* `Follows.dataType`, `Follows.expression`: types and expressions. The induction for expressions is on what
  is left, since operands hold operands.
* `Follows.objectName`: names of objects. A point that a name may follow has to be left aside.
-/

namespace SqlFrontend

/-! ## The circles of the grammar -/

namespace Likeness

variable {L : Likeness} {b : Parser × Parser} {l : Level} {α : Type} {m : Grammar.Nested → Production α}

/-- With all that is nested in it, a construct is read the same by parsers that are alike. -/
theorem outcome_tied (hm : ∀ {b N N'}, L.Nested b N N' → L.Lockstep b .start (m N) (m N') fun _ => .moved)
    {p q : Parser} (hpq : L.state p q) : Outcome L (p, q) p q (fun _ => .moved)
      (m (.below p.remaining) p) (m (.below q.remaining) q) :=
  hm (L.nested_below (b := (p, q)) le_rfl le_rfl) (p, q) ⟨.refl p, .refl q⟩ p q hpq
    ⟨.refl p, .refl q⟩

theorem Lockstep.tied
    (hm : ∀ {b N N'}, L.Nested b N N' → L.Lockstep b .start (m N) (m N') fun _ => .moved) :
    L.Lockstep b l (fun p => m (.below p.remaining) p) (fun p => m (.below p.remaining) p)
      fun _ => .moved := by
  refine .strict fun e _ p q hpq hlevel => (outcome_tied hm hpq).relevel hpq ?_
  exact fun _ _ _ _ _ h => h.of_later hlevel

theorem readsAll_tied (L : Likeness) : L.ReadsAll b .tied .tied :=
  ⟨fun _ _ h _ => outcome_tied .expression h, fun _ _ h _ => outcome_tied .primary h,
    fun _ _ h _ => outcome_tied .selections h, fun _ _ h _ => outcome_tied .query h,
    fun _ _ h _ => outcome_tied .statement h, 
    fun _ _ h _ => outcome_tied (m := fun N => Grammar.block N none) (fun h => .block h) h⟩

theorem nested_tied (L : Likeness) : L.Nested b .tied .tied :=
  ⟨L.readsAll_tied, (same L.how #[]).readsAll_tied⟩

theorem Lockstep.expression_tied :
    L.Lockstep b l Grammar.Nested.tied.expression Grammar.Nested.tied.expression fun _ => .moved := tied .expression

theorem Lockstep.primary_tied :
    L.Lockstep b l Grammar.Nested.tied.primary Grammar.Nested.tied.primary fun _ => .moved := tied .primary

theorem Lockstep.binaryOperand_tied {left : Expr} {op : BinaryOperator} :
    L.Lockstep b l (Grammar.binaryOperand .tied left op) (Grammar.binaryOperand .tied left op)
      fun _ => .moved :=
  .bind .acquireBinary fun node =>
    .bind (.onFailure .primary_tied (.given (.binary { node with left, op }))) fun _ => .stay

end Likeness

/-! ## What does not go on -/

/-- Tokens with which a name, a type, an expression or a clause about a column may go on, if what is read
so far could be all of it. -/
def TokenKind.continues : TokenKind → Bool
  | .identifier | .leftParen | .leftBracket | .comma | .dot | .star | .number | .string => true
  | .keyword .WITH | .keyword .OVER | .keyword .EXISTS => true
  | .keyword .LIKE | .keyword .IN | .keyword .BETWEEN => true
  | .keyword .ON | .keyword .DELETE | .keyword .UPDATE | .keyword .ALWAYS => true
  | .keyword .KEY | .keyword .CLUSTERED | .keyword .NONCLUSTERED => true
  | _ => false

/-! ## Words and operators -/

namespace Grammar

open Production

/-- What follows an operand, from the operator on. -/
def operatorThen (nested : Nested) (left : Expr) : Option (Operator × ℕ) → Production (Step Expr Expr)
  | some (op, width) => do
    advanceBy width
    return .more (← applyOperator nested left op)
  | none => return .done left

/-- A token with which nothing goes on takes part in no operator behind another token. -/
theorem operator?_of_not_continues {k next : TokenKind} (h : next.continues = false) :
    operator? k next = operator? k .eof := by
  unfold operator?
  split <;> try rfl
  split <;> first | rfl | cases h

/-- The words about a time zone, from the first one on. -/
def zoneWords (name : String) (found : Bool) : Production String := do
  if found then
    advance
    advance
    expectWord "ZONE"
    return name ++ " WITH TIME ZONE"
  else if ← consumeWord "WITHOUT" then
    expectWord "TIME"
    expectWord "ZONE"
    return name ++ " WITHOUT TIME ZONE"
  else return name

theorem timeZone_eq (name : String) : timeZone name =
    if name = "TIMESTAMP" || name = "TIME" then
      (do return (← checkKeyword .WITH) && (← get).peek.isWord "TIME") >>= zoneWords name
    else return name := rfl

end Grammar

namespace Junction

open Production (many list)

/-- What follows goes on with no type and no expression. -/
structure Quiet (J : Junction) : Prop where
  here : J.here.kind.continues = false
  there : J.there.kind.continues = false
  named : J.here.isName → J.there.isName
  /-- More than a token follows. -/
  behind : J.behind ≠ []
  beyond : J.beyond ≠ []
  operator (next next' : Token) : J.behind.head? = some next → J.beyond.head? = some next' →
    Grammar.operator? J.here.kind next.kind = none → Grammar.operator? J.there.kind next'.kind = none

variable {J : Junction} {s : Spot} {n : ℕ} {p q p' : Parser} {k : TokenKind} {α β : Type}

theorem Quiet.lacks (h : J.Quiet) (hk : k.continues) : J.Lacks k :=
  ⟨fun heq => Bool.false_ne_true (h.here.symm.trans (heq ▸ hk)),
    fun heq => Bool.false_ne_true (h.there.symm.trans (heq ▸ hk))⟩

theorem Quiet.isWord (h : J.Quiet) {word : String} :
    J.here.isWord word = false ∧ J.there.isWord word = false := by
  have hlacks : J.Lacks .identifier := h.lacks rfl
  rw [Token.isWord, Token.isWord, beq_false_of_ne hlacks.here, beq_false_of_ne hlacks.there]
  exact ⟨rfl, rfl⟩

/-- Parsers that stand before the same tokens see the same operator, and none at what follows if the left
one sees none there. -/
theorem Quiet.operator?_eq {xs : List Token} (h : J.Quiet) (hat : J.At xs p q)
    (hnone : xs = [] → Grammar.operator? p.current.kind p.peek.kind = none) :
    Grammar.operator? p.current.kind p.peek.kind = Grammar.operator? q.current.kind q.peek.kind := by
  rcases hat.sight with ⟨rfl, -, -⟩ | ⟨hcurrent, hp, hq⟩ | ⟨hcurrent, hpeek⟩
  · obtain ⟨t, ts, hbehind⟩ := List.exists_cons_of_ne_nil h.behind
    obtain ⟨u, us, hbeyond⟩ := List.exists_cons_of_ne_nil h.beyond
    have hleft := hat.left
    have hright := hat.right
    rw [left, hbehind, List.nil_append] at hleft
    rw [right, hbeyond, List.nil_append] at hright
    have hnone := hnone rfl
    rw [hleft.current, hleft.peek] at hnone
    rw [hleft.current, hleft.peek, hright.current, hright.peek, hnone,
      h.operator t u (by rw [hbehind]; rfl) (by rw [hbeyond]; rfl) hnone]
  · rw [hcurrent, hp, hq, Grammar.operator?_of_not_continues h.here,
      Grammar.operator?_of_not_continues h.there]
  · rw [hcurrent, hpeek]

namespace Follows

variable {m m' : Production α}

/-- Productions that give the same to parsers that read a statement. -/
theorem ofEq {l : α → Level} (hm : ∀ b, (Likeness.junction J).Lockstep b .start m m l)
    (heq : ∀ p : Parser, p.Underway → m p = m' p) (h : J.Follows s n m') : J.Follows s n m := by
  intro p q hpq hless a p' hp
  rcases hpq.near with hpast | ⟨xs, hat⟩
  · have hreaches := (reaches_of_lockstep (hm (p, p)) ⟨.refl p, .refl p⟩ hpast.spent.sees hp).1
    exact ⟨hreaches, .inl (hpast.reaches hreaches)⟩
  · rw [heq p hat.left.underway] at hp
    rw [heq q hat.right.underway]
    exact h p q hpq hless a p' hp

/-! ## Types -/

theorem typeNumber : J.Follows .any n Grammar.typeNumber := by
  refine ofStrict (fun _ => .typeNumber) (bindTestInside (g := fun t => t.kind == .number)
    (fun _ => rfl) fun isNumber => ite (fun _ => ?_) fun _ => expectedThen)
  refine bindTestInside (g := Token.span) (fun _ => rfl) fun place => takeLiteral.bind fun text => ?_
  split
  · exact ret
  · exact fail

theorem typeModifier : J.Follows .any n Grammar.typeModifier := by
  refine Closes.inParens fun b => .bindIf .consumeWord .ret (.bind .typeNumber fun precision => ?_)
  exact .bindIf .consume (.bind .typeNumber fun _ => .stay) .stay

theorem typeName (hJ : J.Quiet) : J.Follows .inside n Grammar.typeName := by
  refine takeLiteral.bind fun text => ite (fun _ => ?_) fun _ => ite (fun _ => ?_) fun _ => ret
  · exact (consumeWord (hJ.lacks rfl)).bind fun _ => ret
  · exact (consumeWord (hJ.lacks rfl)).bind fun _ => ret

theorem timeZone (hJ : J.Quiet) {name : String} : J.Follows .any n (Grammar.timeZone name) := by
  rw [Grammar.timeZone_eq]
  refine ite (fun _ => bindCheckBoth (g := fun t => t.isWord "TIME") (fun _ => rfl) (hJ.lacks rfl)
    (hJ.isWord.1.trans hJ.isWord.2.symm) fun found => ?_) fun _ => ret
  refine ite (fun _ => ?_) fun _ => (consumeWord (hJ.lacks rfl)).bind fun _ => ite (fun _ => ?_) fun _ => ret
  · refine (advanceAny hJ.behind).bind fun _ => (advanceAny hJ.behind).bind fun _ => ?_
    exact (expectWord (by decide)).bind fun _ => ret
  · exact (expectWord (by decide)).bind fun _ => (expectWord (by decide)).bind fun _ => ret

theorem typeDimensions (hJ : J.Quiet) : J.Follows .any n Grammar.typeDimensions := by
  refine many (bindDialect fun d => ite (fun _ => (consume (hJ.lacks rfl)).bind fun opens => ?_) fun _ => ret)
  refine ite (fun _ => ?_) fun _ => ret
  extract_lets rest
  have hrest (size : Option ℕ) : J.Follows .any n (rest size) := expect.bind fun _ => ret
  exact bindCheck (hJ.lacks rfl) fun _ => ite (fun _ => (typeNumber.map _).bind hrest) fun _ => ret.bind hrest

theorem dataType (hJ : J.Quiet) : J.Follows .any n Grammar.dataType := by
  rw [Likeness.Lockstep.dataType_eq]
  refine (consumeWord (hJ.lacks rfl)).bind fun isSet => ofStrict (fun _ => .typeBehindSet_moved) ?_
  refine bindTestInside (g := Token.isName) (fun _ => rfl) fun named => ite (fun _ => ?_) fun _ => expectedThen
  refine (typeName hJ).bind fun name => bindCheck (hJ.lacks rfl) fun _ => ?_
  extract_lets rest
  have hrest (modifier : Option TypeModifier) : J.Follows .any n (rest modifier) :=
    (timeZone hJ).bind fun name => (typeDimensions hJ).bind fun dimensions =>
      (consumeWord (hJ.lacks rfl)).bind fun isUnsigned => ret
  exact ite (fun _ => (typeModifier.map _).bind hrest) fun _ => ret.bind hrest

/-! ## Expressions -/

theorem binaryOperand (h : J.Follows .any n Grammar.Nested.tied.primary) {left : Expr}
    {op : BinaryOperator} : J.Follows .any n (Grammar.binaryOperand .tied left op) :=
  acquireBinary.bind fun _ => (onFailure h _).bind fun _ => ret

theorem candidates : J.Follows .any n (Grammar.candidates .tied) :=
  Closes.inParens fun _ => .bindIf .checkKeyword (.map _ (Likeness.nested_tied _).selections)
    (.map _ (.list .expression_tied))

theorem advanceBy (hJ : J.Quiet) {width : ℕ} : J.Follows .any n (Grammar.advanceBy width) := by
  induction width with
  | zero => exact ret
  | succ width ih => exact (advanceAny hJ.behind).bind fun _ => ih

theorem applyOperator (hJ : J.Quiet) (h : J.Follows .any n Grammar.Nested.tied.primary) {left : Expr}
    {op : Grammar.Operator} : J.Follows .any n (Grammar.applyOperator .tied left op) := by
  cases op with
  | binary op => exact binaryOperand h
  | among negated => exact candidates.bind fun _ => ret
  | between negated => exact h.bind fun low => expectKeyword.bind fun _ => h.bind fun high => ret
  | truth =>
    refine ofStrict (fun b => .strict (.bind .consumeKeyword fun negated => .binaryOperand_tied)) ?_
    exact consumeInside.bind fun negated => binaryOperand h
  | cast => exact (dataType hJ).bind fun _ => ret

theorem window : J.Follows .any n (Grammar.window .tied) := by
  have h (b : Parser × Parser) := (Likeness.junction J).nested_tied (b := b)
  refine expectKeyword.bind fun _ => Closes.inParens fun b => ?_
  refine .bind (.behind (.bind .expectKeyword fun _ => .list .expression_tied)) fun partitionBy => ?_
  refine .bind (.behind (.bind .expectKeyword fun _ => .sortItems (h b))) fun orderBy => ?_
  refine .bind .checkKeyword fun _ => .bind .checkKeyword fun _ => ?_
  exact .ite (fun _ => .bind (.map _ (.windowFrame (h b))) fun _ => .stay) fun _ =>
    .bind .stay fun _ => .stay

theorem callArguments : J.Follows .any n (Grammar.callArguments .tied) := by
  refine Closes.inParens fun b => .bindIf .check .ret (.bind .consumeKeyword fun distinct => ?_)
  extract_lets rest
  have hrest (u : Unit) : (Likeness.junction J).Lockstep b .moved (rest u) (rest u) fun _ => .moved :=
    .bind (.list .expression_tied) fun _ => .stay
  exact .ite (fun _ => hrest ()) fun _ => .bind .skipKeyword hrest

theorem functionCall (hJ : J.Quiet) {name : String} :
    J.Follows .any n (Grammar.functionCall .tied name) := by
  refine callArguments.bind fun call => bindCheck (hJ.lacks rfl) fun _ => ite (fun _ => ?_) fun _ => ret
  exact window.bind fun _ => ret

theorem nameExpression (hJ : J.Quiet) : J.Follows .inside n (Grammar.nameExpression .tied) := by
  refine takeLiteral.bind fun first => loop fun (qualifier, name) => (consume (hJ.lacks rfl)).bind fun _ => ?_
  refine ite (fun _ => (consume (hJ.lacks rfl)).bind fun _ => ite (fun _ => ret) fun _ => ?_) fun _ => ?_
  · exact Follows.name.bind fun _ => ret
  · refine bindCheck (hJ.lacks rfl) fun _ => ite (fun _ => (functionCall hJ).bind fun _ => ret) fun _ => ?_
    exact acquireColumn.bind fun node => ret

theorem number : J.Follows .inside n Grammar.number := by
  refine bindTestInside (g := Token.span) (fun _ => rfl) fun place => takeLiteral.bind fun text => ?_
  split
  · exact ret
  · exact fail

theorem grouped : J.Follows .any n (Grammar.grouped .tied) :=
  Closes.inParens fun _ => .bindIf .checkKeyword (.map _ (Likeness.nested_tied _).selections)
    .expression_tied

theorem rowTest {negated : Bool} : J.Follows .any n (Grammar.rowTest .tied negated) :=
  expectKeyword.bind fun _ =>
    (Closes.inParens fun _ => (Likeness.nested_tied _).selections).bind fun _ => ret

theorem castCall : J.Follows .any n (Grammar.castCall .tied) := by
  refine expectKeyword.bind fun _ => Closes.inParens fun b => .bind .expression_tied fun expr => ?_
  exact .bind .expectKeyword fun _ => .bind .dataType fun _ => .stay

theorem choice : J.Follows .any n (Grammar.choice .tied) := by
  refine expectKeyword.bind fun _ => Closes.follows (.bind (fun b => .checkKeyword) fun _ => ?_)
  extract_lets rest
  have hrest (input : Option Expr) : J.Closes (rest input) := by
    refine .bind (fun b => .many (.behind (.bind .expression_tied fun condition => ?_)))
      fun branches => .ite (fun _ => .never fun p a p' heq => ?_) fun _ => ?_
    · exact .bind .expectKeyword fun _ => .bind .expression_tied fun _ => .stay
    · rw [Production.run_bind] at heq
      change (if p.cancelled then _ else _ : Production Expr) p = _ at heq
      split at heq <;> cases heq
    · refine .bind (fun b => .behind .expression_tied) fun otherwise => ?_
      exact (Closes.expectKeyword rfl).bindRet fun _ => Expr.choice input branches otherwise
  refine .ite (fun _ => ?_) fun _ => ?_
  · exact .bind (m := Pure.pure none) (fun b => .ret (k := fun _ => .moved)) hrest
  · exact .bind (fun b => .map _ .expression_tied) hrest

theorem primary (hJ : J.Quiet) (hexpression : J.Follows .any n Grammar.Nested.tied.expression)
    (hprimary : J.Follows .any n Grammar.Nested.tied.primary) :
    J.Follows .any (n + 1) (Grammar.primary .tied) := by
  refine ofStrict (fun _ => .primary (Likeness.nested_tied _)) (bindKind fun k => ?_)
  have hname : J.Follows .inside (n + 1) (Grammar.nameExpression .tied) := nameExpression hJ
  have hsign {f : Expr → Expr} (hk : k ≠ .eof) : J.Follows (.facing k) (n + 1)
      (Production.advance >>= fun _ => f <$> Grammar.Nested.tied.primary) :=
    advanceThen hk (hprimary.map f)
  split
  · exact number.facing
  · exact (takeLiteral.bind fun _ => ret).facing
  · exact (takeLiteral.bind fun _ => ret).facing
  · exact (advance.bind fun _ => ret).facing
  · exact grouped.inside.facing
  · exact hsign (f := .unary .minus) (by decide)
  · exact hsign (f := .unary .plus) (by decide)
  · exact (advance.bind fun _ => ret).facing
  · exact (advance.bind fun _ => ret).facing
  · exact (advance.bind fun _ => ret).facing
  · exact choice.inside.facing
  · exact rowTest.inside.facing
  · refine bindCheckPeek (hJ.lacks rfl) Stands.inside fun y => ite (fun _ => ?_) fun _ => ?_
    · exact (advance.bind fun _ => rowTest).facing
    · exact advanceThen (by decide) (hexpression.bind fun _ => ret)
  · exact castCall.inside.facing
  · exact bindCheckPeek (hJ.lacks rfl) Stands.inside fun y => ite (fun _ => hname.facing) fun _ => expected
  · exact bindCheckPeek (hJ.lacks rfl) Stands.inside fun y => ite (fun _ => hname.facing) fun _ => expected
  · exact bindCheckPeek (hJ.lacks rfl) Stands.inside fun y => ite (fun _ => hname.facing) fun _ => expected
  · refine facing (bindTestInside (g := Token.isName) (fun _ => rfl) fun y => ?_)
    exact ite (fun _ => hname) fun _ => expected

theorem operatorRound (hJ : J.Quiet) (hprimary : J.Follows .any n Grammar.Nested.tied.primary)
    {left : Expr} : J.Follows .any (n + 1) (Grammar.operatorRound .tied left) := by
  intro p q hpq hless a p' heq
  change Grammar.operatorThen .tied left (Grammar.operator? p.current.kind p.peek.kind) p = _ at heq
  change _ ∧ (_ ∨ ∃ q', Grammar.operatorThen .tied left (Grammar.operator? q.current.kind q.peek.kind) q
    = _ ∧ _)
  cases hop : Grammar.operator? p.current.kind p.peek.kind with
  | none =>
    rw [hop] at heq
    obtain ⟨hreaches, hto⟩ := ret (J := J) (n := n + 1) p q hpq hless a p' heq
    refine ⟨hreaches, ?_⟩
    rcases hpq with hpast | ⟨xs, hat⟩
    · exact .inl (hpast.reaches hreaches)
    · rw [← hJ.operator?_eq hat fun _ => hop, hop]
      exact hto
  | some spelt =>
    obtain ⟨op, width⟩ := spelt
    rw [hop] at heq
    obtain ⟨hk, hwidth⟩ := Likeness.Lockstep.operator?_some hop
    obtain ⟨width, rfl⟩ := Nat.exists_eq_succ_of_ne_zero hwidth
    let behind : Production (Production.Step Expr Expr) := do
      Grammar.advanceBy width
      return .more (← Grammar.applyOperator .tied left op)
    have hbehind : J.Follows .any n behind :=
      (advanceBy hJ).bind fun _ => (applyOperator hJ hprimary).bind fun _ => ret
    have hend : ¬p.atEnd := by
      rw [Parser.atEnd, Token.isEof, beq_iff_eq]
      exact hk
    refine (advanceThen_at hpq hend hless hbehind heq).imp_right (Or.imp_right ?_)
    rintro ⟨⟨x, xs, hat⟩, hto⟩
    rw [← hJ.operator?_eq hat fun hnil => absurd hnil (List.cons_ne_nil x xs), hop]
    exact hto

theorem expression_succ (hJ : J.Quiet) (hexpression : J.Follows .any n Grammar.Nested.tied.expression)
    (hprimary : J.Follows .any n Grammar.Nested.tied.primary) :
    J.Follows .any (n + 1) (Grammar.expression .tied) := by
  rw [Grammar.expression_eq]
  exact (primary hJ hexpression hprimary).bind fun first => loop fun left => operatorRound hJ hprimary

/-- Expressions follow, whatever is nested in them. The induction is on what is left. -/
theorem expressions (hJ : J.Quiet) (n : ℕ) :
    J.Follows .any n Grammar.Nested.tied.expression ∧ J.Follows .any n Grammar.Nested.tied.primary := by
  induction n with
  | zero =>
    exact ⟨fun p q _ hless => absurd hless (Nat.not_lt_zero _),
      fun p q _ hless => absurd hless (Nat.not_lt_zero _)⟩
  | succ n ih =>
    refine ⟨ofEq (fun _ => .expression_tied) (fun p hp => ?_) (expression_succ hJ ih.1 ih.2),
      ofEq (fun _ => .primary_tied) (fun p hp => ?_) (primary hJ ih.1 ih.2)⟩
    · exact (Grammar.Nested.tied_agreesAt hp).expression.symm
    · exact (Grammar.Nested.tied_agreesAt hp).primary.symm

theorem expression (hJ : J.Quiet) : J.Follows .any n Grammar.Nested.tied.expression :=
  (expressions hJ n).1

/-! ## Names of objects -/

/-- The name of an object may go on behind a point, so nothing is said where it stops before one. -/
theorem objectName (hJ : J.Quiet) :
    J.FollowsUnless (fun _ p => p.current.kind = .dot) .any n Grammar.objectName := by
  refine .bind (E := fun _ _ => False) name.anyway (fun first => .loop fun a => ?_) fun _ _ _ _ h _ => h.elim
  intro p q hpq hless step p' heq hend
  let more : Production (Production.Step ObjectName ObjectName) := do
    Production.advance
    return .more ⟨some a.summary, ← Production.name⟩
  have hmore : J.Follows .inside n more := advance.bind fun _ => Follows.name.bind fun _ => ret
  change (if (p.current.kind == .dot && p.peek.isName) = true then more else Pure.pure (.done a)) p = _ at heq
  change _ ∧ (_ ∨ ∃ q', (if (q.current.kind == .dot && q.peek.isName) = true then more
    else Pure.pure (.done a)) q = _ ∧ _)
  by_cases hdot : p.current.kind = .dot
  · have hname : p.peek.isName := by
      by_contra hname
      rw [if_neg (by simp [hname])] at heq
      cases heq
      exact hend ⟨a, rfl, hdot⟩
    have hinside : J.Stands .inside p q := by
      refine hpq.imp_right fun ⟨xs, hat⟩ => ?_
      cases xs with
      | nil => exact absurd (hat.left.current ▸ hdot) (hJ.lacks (k := .dot) rfl).here
      | cons x xs => exact ⟨x, xs, hat⟩
    rw [if_pos (by simp [hdot, hname])] at heq
    obtain ⟨hreaches, hto⟩ := hmore p q hinside hless step p' heq
    refine ⟨hreaches, ?_⟩
    rcases hinside with hpast | ⟨x, xs, hat⟩
    · exact .inl (hpast.reaches hreaches)
    have hdot' : q.current.kind = .dot := by rw [hat.current.2, ← hat.current.1, hdot]
    have hname' : q.peek.isName := by
      cases xs with
      | nil => rw [hat.left.peek] at hname; rw [hat.right.peek]; exact hJ.named hname
      | cons y ys => rw [hat.right.peek, ← hname, hat.left.peek]
    rw [if_pos (by simp [hdot', hname'])]
    exact hto
  · rw [if_neg (by simp [hdot])] at heq
    obtain ⟨hreaches, hto⟩ := ret (J := J) (n := n) p q hpq hless step p' heq
    refine ⟨hreaches, ?_⟩
    rcases hpq with hpast | ⟨xs, hat⟩
    · exact .inl (hpast.reaches hreaches)
    have hdot' : q.current.kind ≠ .dot := by
      cases xs with
      | nil => rw [hat.right.current]; exact (hJ.lacks (k := .dot) rfl).there
      | cons x xs => rwa [hat.current.2, ← hat.current.1]
    rw [if_neg (by simp [hdot'])]
    exact hto

end Follows

end Junction

end SqlFrontend
