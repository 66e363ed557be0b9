import SqlFrontend.Grammar.Expression
import SqlFrontend.Proofs.Grammar.Names
import SqlFrontend.Proofs.Grammar.Nested

/-!
# Expressions in lockstep

* `Lockstep.expression`, `Lockstep.primary`: expressions and operands, for readings of the constructs
  nested in them that are in lockstep.
-/

namespace SqlFrontend.Likeness.Lockstep

variable {L : Likeness} {b : Parser × Parser} {l : Level} {N N' : Grammar.Nested}

/-! ## Operators -/

theorem advanceBy {n : ℕ} :
    L.Lockstep b .moved (Grammar.advanceBy n) (Grammar.advanceBy n) fun _ => .moved := by
  induction n with
  | zero => exact .stay
  | succ n ih => exact .bind .advance fun _ => ih

theorem binaryOperand (h : L.Nested b N N') {left : Expr} {op : BinaryOperator} :
    L.Lockstep b .moved (Grammar.binaryOperand N left op) (Grammar.binaryOperand N' left op)
      fun _ => .moved := by
  exact .bind .acquireBinary fun node =>
    .bind (.onFailure h.primary (.given (.binary { node with left, op }))) fun _ => .stay

theorem candidates (h : L.Nested b N N') :
    L.Lockstep b l (Grammar.candidates N) (Grammar.candidates N') fun _ => .moved :=
  .inParens (.bindIf .checkKeyword (.map _ h.selections) (.map _ (.list h.expression)))

theorem applyOperator (h : L.Nested b N N') {left : Expr} {op : Grammar.Operator} :
    L.Lockstep b .moved (Grammar.applyOperator N left op) (Grammar.applyOperator N' left op)
      fun _ => .moved := by
  cases op with
  | binary op => exact .binaryOperand h
  | among negated => exact .bind (.candidates h) fun _ => .stay
  | between negated =>
    exact .bind h.primary fun low => .bind .expectKeyword fun _ => .bind h.primary fun high => .stay
  | truth => exact .bind .consumeKeyword fun negated => .binaryOperand h
  | cast => exact .bind .dataType fun _ => .stay

/-! ## Calls -/

theorem sortItems (h : L.Nested b N N') :
    L.Lockstep b .moved (Grammar.sortItems N) (Grammar.sortItems N') fun _ => .moved := by
  refine .list (.bind h.expression fun expr => .bind .consumeKeyword fun descending => ?_)
  extract_lets rest
  have hrest (direction : SortDirection) :
      L.Lockstep b .moved (rest direction) (rest direction) fun _ => .moved := by
    refine .bind (.behind (.bindIf .consumeKeyword .ret ?_)) fun nulls => .stay
    exact .bind .expectKeyword fun _ => .stay
  exact .ite (fun _ => .bind .stay hrest) fun _ => .bind .skipKeyword fun _ => .bind .stay hrest

theorem frameDirection :
    L.Lockstep b .moved Grammar.frameDirection Grammar.frameDirection fun _ => .moved :=
  .bindIf .consumeKeyword .ret (.bindIf .consumeKeyword .stay (.expected (by decide)))

theorem frameBound (h : L.Nested b N N') :
    L.Lockstep b .moved (Grammar.frameBound N) (Grammar.frameBound N') fun _ => .moved := by
  refine .bindIf .consumeKeyword (.bind .frameDirection fun _ => .stay) ?_
  refine .bindIf .consumeKeyword (.bind .expectKeyword fun _ => .stay) ?_
  exact .bind h.primary fun count => .bind .frameDirection fun _ => .stay

theorem windowFrame (h : L.Nested b N N') :
    L.Lockstep b .moved (Grammar.windowFrame N) (Grammar.windowFrame N') fun _ => .moved := by
  refine .bind .consumeKeyword fun rows => ?_
  extract_lets rest rest'
  have hrest (unit : FrameUnit) :
      L.Lockstep b .moved (rest unit) (rest' unit) fun _ => .moved := by
    refine .bindIf .consumeKeyword (.bind (.frameBound h) fun start => ?_)
      (.bind (.frameBound h) fun _ => .stay)
    exact .bind .expectKeyword fun _ => .bind (.frameBound h) fun _ => .stay
  exact .ite (fun _ => .bind .stay hrest) fun _ => .bind .expectKeyword fun _ => .bind .stay hrest

theorem window (h : L.Nested b N N') :
    L.Lockstep b l (Grammar.window N) (Grammar.window N') fun _ => .moved := by
  refine .bind .expectKeyword fun _ => .inParens ?_
  refine .bind (.behind (.bind .expectKeyword fun _ => .list h.expression)) fun partitionBy => ?_
  refine .bind (.behind (.bind .expectKeyword fun _ => .sortItems h)) fun orderBy => ?_
  refine .bind .checkKeyword fun _ => .bind .checkKeyword fun _ => ?_
  extract_lets rest
  have hrest (frame : Option WindowFrame) :
      L.Lockstep b .moved (rest frame) (rest frame) fun _ => .moved := .stay
  exact .ite (fun _ => .bind (.map _ (.windowFrame h)) hrest) fun _ => .bind .stay hrest

theorem callArguments (h : L.Nested b N N') :
    L.Lockstep b l (Grammar.callArguments N) (Grammar.callArguments N') fun _ => .moved := by
  refine .inParens (.bindIf .check .ret (.bind .consumeKeyword fun distinct => ?_))
  extract_lets rest rest'
  have hrest (u : Unit) : L.Lockstep b .moved (rest u) (rest' u) fun _ => .moved :=
    .bind (.list h.expression) fun _ => .stay
  exact .ite (fun _ => hrest ()) fun _ => .bind .skipKeyword hrest

theorem functionCall (h : L.Nested b N N') {name : String} :
    L.Lockstep b l (Grammar.functionCall N name) (Grammar.functionCall N' name) fun _ => .moved := by
  refine .bind (.callArguments h) fun call => ?_
  exact .bindIf .checkKeyword (.bind (.window h) fun _ => .stay) .stay

theorem nameExpression (h : L.Nested b N N') :
    L.Lockstep b (l.test true) (Grammar.nameExpression N) (Grammar.nameExpression N')
      fun _ => .moved := by
  refine .bind .takeTested fun first => .loop fun (qualifier, name) => ?_
  refine .bindIf .consume ?_ ?_
  · exact .bindIf .consume .ret (.bind .name fun _ => .ret)
  · refine .bindIf .check (.bind (.functionCall h) fun _ => .ret) ?_
    exact .bind .acquireColumn fun node => .ret

/-! ## Operands -/

theorem number_eq (p : Parser) :
    Grammar.number p = match Literal.ofNumeral? p.current.literal with
      | some value => .ok (.literal value) p.advance
      | none => .error ⟨.invalidNumeral p.current.literal, p.current.span⟩ p.advance := by
  change (match Literal.ofNumeral? p.current.literal with
    | some value => (return .literal value : Production Expr)
    | none => Production.fail (.invalidNumeral p.current.literal) p.current.span) p.advance = _
  cases Literal.ofNumeral? p.current.literal <;> rfl

/-- A number that stands for no constant has two points. -/
theorem number_outcome {e : Parser × Parser} {p q : Parser} (hpq : L.state p q)
    (hlevel : Level.token.Holds e p q) (hk : p.current.kind = .number) :
    Outcome L e p q (fun _ => .moved) (Grammar.number p) (Grammar.number q) := by
  have hp := L.left hpq
  have hself (hpast : L.limit.past p.advance) : Level.moved.Holds e p.advance p.advance :=
    (hlevel.self (L.limit.shorter hpast hpq)).advance hp hp
  rw [number_eq, number_eq, ← (L.alike hpq).current.literal]
  cases hvalue : Literal.ofNumeral? p.current.literal with
  | some value =>
    rcases L.advance hpq with hs | hpast
    · exact .ok hs (.advance p) (.advance q) (hlevel.advance hp (L.right hpq))
    · exact .past (.ok hpast (.advance p) (hself hpast))
  | none =>
    have hpoints : Numeral.HasTwoPoints p.current.literal.toList := by
      refine ((L.left hpq).current.numeric hk).resolve_left fun hnumeral => ?_
      obtain ⟨value, hsome⟩ := Literal.ofNumeral?_of_isNumeral hnumeral
      rw [hvalue] at hsome
      cases hsome
    have hseen := (L.seen_current hpq).later (L.left hpq).notBefore_advance
      (L.right hpq).notBefore_advance
    rcases L.advance hpq with hs | hpast
    · exact .error (L.fails hs hseen rfl (ParseCause.due_invalidNumeral hpoints _)) (.advance p)
        (.advance q)
    · exact .past (.error hpast (.advance p))

theorem grouped (h : L.Nested b N N') :
    L.Lockstep b l (Grammar.grouped N) (Grammar.grouped N') fun _ => .moved :=
  .inParens (.bindIf .checkKeyword (.map _ h.selections) h.expression)

theorem rowTest (h : L.Nested b N N') {negated : Bool} :
    L.Lockstep b l (Grammar.rowTest N negated) (Grammar.rowTest N' negated) fun _ => .moved :=
  .bind .expectKeyword fun _ => .bind (.inParens h.selections) fun _ => .stay

theorem castCall (h : L.Nested b N N') :
    L.Lockstep b l (Grammar.castCall N) (Grammar.castCall N') fun _ => .moved := by
  refine .bind .expectKeyword fun _ => .inParens (.bind h.expression fun expr => ?_)
  exact .bind .expectKeyword fun _ => .bind .dataType fun _ => .stay

theorem choice (h : L.Nested b N N') :
    L.Lockstep b l (Grammar.choice N) (Grammar.choice N') fun _ => .moved := by
  refine .bind .expectKeyword fun _ => ?_
  refine .bindIfThen .checkKeyword .ret (.map _ h.expression) fun input => ?_
  refine .bind (.many (.behind ?_)) fun branches => .ite (fun _ => ?_) fun _ => ?_
  · refine .bind h.expression fun condition => .bind .expectKeyword fun _ => ?_
    exact .bind h.expression fun _ => .stay
  · refine .bindGet fun p q hpq => ?_
    rw [(L.alike hpq).cancelled]
    exact .ite (fun _ => .expected (by decide)) fun _ => .bindSpan fun t t' => .fail
  · exact .bind (.behind h.expression) fun otherwise => .bind .expectKeyword fun _ => .stay

theorem primary (h : L.Nested b N N') :
    L.Lockstep b l (Grammar.primary N) (Grammar.primary N') fun _ => .moved := by
  refine .strict (.bindKinds fun k => ?_)
  split
  case h_1 => exact fun _ _ _ _ hpq hlevel hk => number_outcome hpq hlevel hk
  case h_13 =>
    refine .bindIfPeek (.of (.bind .advance fun _ => .rowTest h)) (.of ?_)
    exact .bind .advance fun _ => .bind h.expression fun _ => .stay
  case h_15 | h_16 | h_17 =>
    exact .bindIfPeek (.of (.nameExpression (l := .start) h)) (.of (.expected (by decide)))
  all_goals refine .of ?_
  · exact .bind .takeLiteral fun _ => .stay
  · exact .bind .takeLiteral fun _ => .stay
  · exact .bind .advance fun _ => .stay
  · exact .grouped h
  · exact .bind .advance fun _ => .bind h.primary fun _ => .stay
  · exact .bind .advance fun _ => .bind h.primary fun _ => .stay
  · exact .bind .advance fun _ => .stay
  · exact .bind .advance fun _ => .stay
  · exact .bind .advance fun _ => .stay
  · exact .choice h
  · exact .rowTest h
  · exact .castCall h
  · exact .bindIf .atName (.nameExpression h) (.expected (by decide))

/-- Every operator is spelt with a token at least, and no operator is the end of the text. -/
theorem operator?_some {current next : TokenKind} {op : Grammar.Operator} {n : ℕ}
    (h : Grammar.operator? current next = some (op, n)) : current ≠ .eof ∧ n ≠ 0 := by
  refine ⟨fun hk => ?_, ?_⟩
  · rw [hk] at h
    cases h
  · unfold Grammar.operator? at h
    split at h <;> try cases h <;> nofun
    · split at h <;> cases h <;> nofun
    · simp only [Option.map_eq_some_iff, Prod.mk.injEq] at h
      obtain ⟨_, _, _, rfl⟩ := h
      nofun

/-- What closes a construct is no operator. -/
theorem operator?_closing {current next : TokenKind} (h : current.isOpen = false) :
    Grammar.operator? current next = none := by
  rcases TokenKind.eq_of_isOpen h with rfl | rfl <;> rfl

theorem expression (h : L.Nested b N N') :
    L.Lockstep b l (Grammar.expression N) (Grammar.expression N') fun _ => .moved := by
  refine .bind (.primary h) fun first => .loop fun left => ?_
  refine .bindNextKinds (fun k next => .of ?_) fun k _ _ hk => ?_
  split
  · next op width hop =>
    obtain ⟨hk, hwidth⟩ := operator?_some hop
    obtain ⟨n, rfl⟩ := Nat.exists_eq_succ_of_ne_zero hwidth
    rw [Level.before_of_ne hk]
    have hspelt : L.Lockstep b .token (Grammar.advanceBy (n + 1)) (Grammar.advanceBy (n + 1))
        fun _ => .moved := .bind .advance fun _ => .advanceBy
    exact .bind hspelt fun _ => .bind (.applyOperator h) fun _ => .ret
  · exact .ret
  · rw [operator?_closing hk, operator?_closing hk]

theorem atExpressionStart :
    L.Lockstep b l Grammar.atExpressionStart Grammar.atExpressionStart fun _ => l.any := by
  refine .weak (.bindKinds fun k => ?_)
  split
  all_goals first | exact .of .ret | exact .bindPeek fun _ => .of .ret | refine .of ?_
  refine .bind .atName fun isName => .bindGet fun p q hpq => ?_
  rw [(L.alike hpq).atBatchSeparator]
  exact .ret

end SqlFrontend.Likeness.Lockstep
