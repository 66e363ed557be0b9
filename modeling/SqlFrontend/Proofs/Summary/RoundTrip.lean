import SqlFrontend.Proofs.Parsing.Pieces
import SqlFrontend.Proofs.Summary.Expression

/-!
# Reading canonical expressions

A canonical expression is read from its pieces. On the left of an operator it is read like this: the
reading of an expression goes on as if the whole of it had been the first operand.

Results:
* `Expr.Canonical.starts`: with what kinds of pieces a canonical expression starts.
* `Expr.Canonical.reads`: a canonical expression is read from its pieces, before whatever may follow it
  at the place where it stands.
-/

namespace SqlFrontend

/-! ## What may follow, and what comes first -/

namespace TokenKind

/-- Decides whether an operand can stand before a kind. -/
def endsOperand : TokenKind → Bool
  | .dot | .leftParen | .keyword .OVER => false
  | _ => true

/-- Decides whether a kind ends the expression before it. -/
def endsExpression : TokenKind → Bool
  | .eof | .comma | .rightParen | .keyword .WHEN | .keyword .THEN | .keyword .ELSE
  | .keyword .END => true
  | _ => false

/-- Decides whether an operand that is not in parentheses can start with a kind. -/
def startsOperand : TokenKind → Bool
  | .number | .string | .identifier | .minus | .plus | .keyword .NULL | .keyword .TRUE
  | .keyword .FALSE | .keyword .CASE => true
  | _ => false

/-- Decides whether an expression that is not in parentheses can start with a kind. -/
def startsExpression (k : TokenKind) : Bool := k.startsOperand || k == .keyword .NOT

theorem endsOperand_of_endsExpression {k : TokenKind} (h : k.endsExpression) : k.endsOperand := by
  unfold endsExpression at h
  split at h <;> first | rfl | cases h

end TokenKind

/-- The first of the pieces is of a kind that passes a test. -/
def Starts (test : TokenKind → Bool) (ps : List Piece) : Prop :=
  ∃ t us, ps = t :: us ∧ test t.kind

theorem Starts.cons {test : TokenKind → Bool} {t : Piece} (us : List Piece) (h : test t.kind) :
    Starts test (t :: us) := ⟨t, us, rfl, h⟩

theorem Starts.append {test : TokenKind → Bool} {ps : List Piece} (h : Starts test ps)
    (qs : List Piece) : Starts test (ps ++ qs) := by
  obtain ⟨t, us, rfl, ht⟩ := h
  exact ⟨t, us ++ qs, rfl, ht⟩

theorem Starts.mono {test test' : TokenKind → Bool} {ps : List Piece} (h : Starts test ps)
    (himp : ∀ k, test k → test' k) : Starts test' ps := by
  obtain ⟨t, us, rfl, ht⟩ := h
  exact ⟨t, us, rfl, himp _ ht⟩

namespace Expr

variable {r : Rank} {e : Expr}

/-- A canonical expression starts like an operand, or it is a negation. -/
theorem Canonical.starts (h : Canonical r e) :
    Starts (fun k => k.startsOperand || r = .full && k = .keyword .NOT) e.pieces := by
  induction h with
  | null => exact .cons _ rfl
  | boolean value => cases value <;> exact .cons _ rfl
  | integer h => exact .cons _ rfl
  | string value => exact .cons _ rfl
  | @column table column htable hcolumn => cases table <;> exact .cons _ rfl
  | call hname hargs hdistinct ih => exact .cons _ rfl
  | choice hinput hbranches hconditions hresults hotherwise => exact .cons _ rfl
  | unsigned h ih => exact ih
  | @sign op e hop h ih => cases op <;> first | exact .cons _ rfl | exact absurd rfl hop
  | plainLeft h ih => exact ih
  | binary hleft hright ihl ihr => exact ihl.append _
  | among h hne hvalues ih ihvalues => exact ih.append _
  | between h hlow hhigh ih ihlow ihhigh => exact ih.append _
  | plainRight h ih => exact ih
  | grouped h ih => exact ih
  | positive h ih =>
    refine ih.mono fun k hk => ?_
    simp only [Bool.or_eq_true] at hk ⊢
    exact .inl (by simpa using hk)
  | negation h ih => exact .cons _ rfl

theorem Canonical.isBinary_prim (h : Canonical .prim e) : e.isBinary = false := by
  cases h with
  | unsigned h => cases h <;> rfl
  | sign hop h => rfl

/-- The pieces of an expression on the right of an operator. -/
def rightPieces (e : Expr) : List Piece :=
  if e.isBinary then .of .leftParen :: (e.pieces ++ [.of .rightParen]) else e.pieces

end Expr

namespace Grammar

open Production

/-! ## Nested readings -/

/-- One operator behind an operand. -/
def operatorRound (nested : Nested) (left : Expr) : Production (Step Expr Expr) := do
  match operator? (← kind) (← peekKind) with
  | some (op, width) =>
    advanceBy width
    return .more (← applyOperator nested left op)
  | none => return .done left

theorem expression_eq (nested : Nested) :
    expression nested = primary nested >>= loop (operatorRound nested) := rfl

namespace Nested

theorem tied_agreesAt {p : Parser} (hp : p.Underway) : tied.unfolded.AgreesAt p tied :=
  unfolded_agreesAt hp fun _ _ _ => ⟨rfl, rfl, rfl, rfl, rfl, rfl⟩

theorem parses_expression {d? : Option Dialect} {ps qs : List Piece} {e : Expr} :
    ParsesIn d? tied.expression ps e qs ↔ ParsesIn d? (Grammar.expression tied) ps e qs := by
  have heq (p : Parser) (hp : p.Ahead ps) : Grammar.expression tied p = tied.expression p :=
    (tied_agreesAt hp.underway).expression
  exact forall₂_congr fun p hp => by rw [heq p hp]

theorem parses_primary {d? : Option Dialect} {ps qs : List Piece} {e : Expr} :
    ParsesIn d? tied.primary ps e qs ↔ ParsesIn d? (Grammar.primary tied) ps e qs := by
  have heq (p : Parser) (hp : p.Ahead ps) : Grammar.primary tied p = tied.primary p :=
    (tied_agreesAt hp.underway).primary
  exact forall₂_congr fun p hp => by rw [heq p hp]

end Nested

/-! ## Operands -/

theorem parses_number {n : ℕ} (h : n < 2 ^ 63) (rest : List Piece) :
    Parses number (⟨.number, Literal.summary (.integer n)⟩ :: rest) (.literal (.integer n)) rest := by
  intro p hp hd
  obtain ⟨q, hq, hqs, hle⟩ := ParsesIn.takeLiteral (by simp) p hp hd
  refine ⟨q, ?_, hqs, hle⟩
  rw [number, run_bind, run_span]
  dsimp only
  rw [run_bind, hq]
  dsimp only
  rw [Literal.ofNumeral?_summary h]
  rfl

/-- What stands behind a name: a point and another name, the arguments of a call, or nothing. -/
def nameRound (nested : Nested) :
    Option String × String → Production (Step (Option String × String) Expr) :=
  fun (qualifier, name) => do
    if ← consume .dot then
      if ← consume .star then return .done (.star (some (qualified qualifier name)))
      else return .more (some (qualified qualifier name), ← Production.name)
    else if ← check .leftParen then
      return .done (← functionCall nested (qualified qualifier name))
    else
      let node ← acquireColumn
      return .done (.column { node with table := qualifier, column := name })

theorem nameExpression_eq (nested : Nested) : nameExpression nested =
    takeLiteral >>= fun first => loop (nameRound nested) (none, first) := rfl

theorem ne_of_endsOperand {t : Piece} (h : t.kind.endsOperand) :
    t.kind ≠ .dot ∧ t.kind ≠ .leftParen ∧ t.kind ≠ .keyword .OVER := by
  refine ⟨?_, ?_, ?_⟩ <;>
  · intro hk
    rw [hk] at h
    cases h

/-- A name with no point and no parenthesis behind it is a column. -/
theorem parses_column {d? : Option Dialect} (table : Option String) (column : String)
    {rest : List Piece} (hrest : Starts TokenKind.endsOperand rest) :
    ParsesIn d? (nameExpression .tied) ((Expr.column ⟨table, column⟩).pieces ++ rest)
      (.column ⟨table, column⟩) rest := by
  obtain ⟨t, us, rfl, ht⟩ := hrest
  obtain ⟨hdot, hparen, -⟩ := ne_of_endsOperand ht
  have hdone : ParsesIn d? (nameRound .tied (table, column)) (t :: us)
      (.done (.column ⟨table, column⟩)) (t :: us) :=
    .bindIfFalse (.consumeFalse hdot) (.bindIfFalse (.checkFalse hparen) (.bind .acquireColumn .ret))
  rw [nameExpression_eq]
  cases table with
  | none => exact .bind (.takeLiteral (by simp)) (.loopDone hdone)
  | some table =>
    have hmore : ParsesIn d? (nameRound .tied (none, table)) (.of .dot :: ⟨.identifier, column⟩ :: t :: us)
        (.more (some table, column)) (t :: us) :=
      .bindIfTrue (.consumeTrue rfl (by decide)) <|
        .bindIfFalse (.consumeFalse (by simp)) (.bind (.name rfl) .ret)
    exact .bind (.takeLiteral (by simp)) (.loopMore hmore (by simp) (.loopDone hdone))

/-! ## Lists -/

/-- Before everything that ends an expression, one is read from its pieces. -/
structure ReadsWhole (e : Expr) : Prop where
  starts : Starts TokenKind.startsExpression e.pieces
  reads : ∀ rest, Starts TokenKind.endsExpression rest →
    Parses Nested.tied.expression (e.pieces ++ rest) e rest

theorem tailPieces_eq (exprs : List Expr) :
    Expr.tailPieces exprs = exprs.flatMap fun e => .of .comma :: e.pieces := by
  induction exprs with
  | nil => rfl
  | cons e es ih => rw [Expr.tailPieces, ih, List.flatMap_cons]; rfl

theorem parses_list {exprs : List Expr} (h : ∀ e ∈ exprs, ReadsWhole e) (hne : exprs ≠ [])
    (rest : List Piece) : Parses (list Nested.tied.expression)
      (Expr.listPieces exprs ++ .of .rightParen :: rest) exprs (.of .rightParen :: rest) := by
  cases exprs with
  | nil => exact absurd rfl hne
  | cons e es =>
    have hlist := ParsesIn.list (fun x hx => (h x hx).reads) (fun rest => .cons _ rfl)
      (.cons rest (t := .of .rightParen) rfl) (by decide)
    rw [Expr.listPieces, Expr.tailPieces, List.tail_cons, List.append_assoc, tailPieces_eq]
    exact hlist

/-! ## Calls and choices -/

theorem ne_of_startsExpression {t : Piece} {k : TokenKind} (h : t.kind.startsExpression)
    (hk : k.startsExpression = false) : t.kind ≠ k := by
  rintro rfl
  rw [h] at hk
  cases hk

/-- The arguments of a call. -/
theorem parses_callArguments {args : List Expr} {distinct : Bool} {rest : List Piece}
    (hargs : ∀ e ∈ args, ReadsWhole e) (hdistinct : distinct → args ≠ []) :
    Parses (callArguments .tied) (.of .leftParen ::
      ((if distinct then [.of (.keyword .DISTINCT)] else []) ++
        (Expr.listPieces args ++ .of .rightParen :: rest))) (distinct, args) rest := by
  refine .inParens ?_
  cases args with
  | nil =>
    cases distinct with
    | true => exact absurd rfl (hdistinct rfl)
    | false => exact .bindIfTrue (.checkTrue rfl) .ret
  | cons e es =>
    have hlist := parses_list hargs (by simp) rest
    cases distinct with
    | true =>
      refine .bindIfFalse (.checkFalse (by decide)) (.bind (.consumeTrue rfl (by decide)) ?_)
      exact .ifTrue rfl (hlist.bind .ret)
    | false =>
      obtain ⟨u, us, hpieces, hu⟩ := (hargs e List.mem_cons_self).starts
      have hcons : Expr.listPieces (e :: es) = u :: (us ++ Expr.tailPieces es) := by
        rw [Expr.listPieces, Expr.tailPieces, List.tail_cons, hpieces, List.cons_append]
      rw [hcons] at hlist ⊢
      refine .bindIfFalse (.checkFalse (ne_of_startsExpression hu rfl)) ?_
      refine .bind (.consumeFalse (ne_of_startsExpression hu rfl)) ?_
      refine .ifFalse Bool.false_ne_true ?_
      exact .bind (.skipKeyword (ne_of_startsExpression hu rfl)) (hlist.bind .ret)

/-- A name with arguments behind it, and no window, is a call. -/
theorem parses_call (name : String) {args : List Expr} {distinct : Bool} {rest : List Piece}
    (hargs : ∀ e ∈ args, ReadsWhole e) (hdistinct : distinct → args ≠ [])
    (hrest : Starts TokenKind.endsOperand rest) :
    Parses (nameExpression .tied) ((Expr.call ⟨name, args, distinct⟩).pieces ++ rest)
      (.call ⟨name, args, distinct⟩) rest := by
  obtain ⟨t, us, rfl, ht⟩ := hrest
  obtain ⟨-, -, hover⟩ := ne_of_endsOperand ht
  have hcall : Parses (functionCall .tied name) (.of .leftParen ::
      ((if distinct then [.of (.keyword .DISTINCT)] else []) ++
        (Expr.listPieces args ++ .of .rightParen :: t :: us)))
      (.call ⟨name, args, distinct⟩) (t :: us) :=
    (parses_callArguments hargs hdistinct).bind (.bindIfFalse (.checkFalse hover) .ret)
  have hround : Parses (nameRound .tied (none, name)) (.of .leftParen ::
      ((if distinct then [.of (.keyword .DISTINCT)] else []) ++
        (Expr.listPieces args ++ .of .rightParen :: t :: us)))
      (.done (.call ⟨name, args, distinct⟩)) (t :: us) :=
    .bindIfFalse (.consumeFalse (by decide)) (.bindIfTrue (.checkTrue rfl) (hcall.bind .ret))
  have hpieces : (Expr.call ⟨name, args, distinct⟩).pieces ++ t :: us = ⟨.identifier, name⟩ ::
      .of .leftParen :: ((if distinct then [.of (.keyword .DISTINCT)] else []) ++
        (Expr.listPieces args ++ .of .rightParen :: t :: us)) := by
    simp [Expr.pieces, Call.pieces, Expr.listPieces]
  rw [hpieces, nameExpression_eq]
  exact .bind (.takeLiteral (by simp)) (.loopDone hround)

theorem listPieces_branches_eq (branches : List Branch) :
    Branch.listPieces branches = branches.flatMap fun b =>
      .of (.keyword .WHEN) :: (b.condition.pieces ++ .of (.keyword .THEN) :: b.result.pieces) := by
  induction branches with
  | nil => rfl
  | cons b bs ih =>
    obtain ⟨condition, result⟩ := b
    simp [Branch.listPieces, ih]

/-- The branches of a choice, before what ends the last of them. -/
theorem parses_branches {branches : List Branch} {t : Piece}
    (hconditions : ∀ b ∈ branches, ReadsWhole b.condition)
    (hresults : ∀ b ∈ branches, ReadsWhole b.result) (ht : t.kind.endsExpression)
    (hwhen : t.kind ≠ .keyword .WHEN) (rest : List Piece) :
    Parses (many <| behind .WHEN do
      let condition ← Nested.tied.expression
      expectKeyword .THEN
      return Branch.mk condition (← Nested.tied.expression))
      (Branch.listPieces branches ++ t :: rest) branches (t :: rest) := by
  rw [listPieces_branches_eq]
  refine .many (I := Starts TokenKind.endsExpression) (fun b hb rest hrest => ?_)
    (fun b _ rest => ⟨nofun, .cons _ rfl⟩) (.cons _ ht) (.behindNone hwhen)
  have hcondition := (hconditions b hb).reads (.of (.keyword .THEN) :: (b.result.pieces ++ rest))
    (.cons _ rfl)
  have hresult := (hresults b hb).reads rest hrest
  obtain ⟨condition, result⟩ := b
  rw [List.cons_append, List.append_assoc, List.cons_append]
  exact .behindSome rfl (hcondition.bind (.bind (.expectKeyword rfl) (hresult.bind .ret)))

/-- A choice. -/
theorem parses_choice {input otherwise : Option Expr} {branches : List Branch}
    (hinput : ∀ e ∈ input, ReadsWhole e) (hbranches : branches ≠ [])
    (hconditions : ∀ b ∈ branches, ReadsWhole b.condition)
    (hresults : ∀ b ∈ branches, ReadsWhole b.result) (hotherwise : ∀ e ∈ otherwise, ReadsWhole e)
    (rest : List Piece) :
    Parses (choice .tied) ((Expr.choice input branches otherwise).pieces ++ rest)
      (.choice input branches otherwise) rest := by
  let final := Expr.clausePieces [.of (.keyword .ELSE)] otherwise ++ .of (.keyword .END) :: rest
  have hfinal : ∃ t us, final = t :: us ∧ t.kind.endsExpression ∧ t.kind ≠ .keyword .WHEN := by
    cases otherwise with
    | none => exact ⟨_, _, rfl, rfl, by decide⟩
    | some e => exact ⟨_, _, rfl, rfl, by decide⟩
  have hlast : Parses (behind .ELSE Nested.tied.expression) final otherwise
      (.of (.keyword .END) :: rest) := by
    cases otherwise with
    | none => exact .behindNone (by decide)
    | some e => exact .behindSome rfl ((hotherwise e rfl).reads _ (.cons _ rfl))
  obtain ⟨t, us, hcons, ht, hwhen⟩ := hfinal
  have hall := parses_branches hconditions hresults ht hwhen us
  rw [← hcons] at hall
  have hsome : ¬branches.isEmpty := by simpa using hbranches
  have hpieces : (Expr.choice input branches otherwise).pieces ++ rest = .of (.keyword .CASE) ::
      (Expr.clausePieces [] input ++ (Branch.listPieces branches ++ final)) := by
    simp [Expr.pieces, final]
  rw [hpieces]
  have hcheck : Parses (checkKeyword .WHEN) (Expr.clausePieces [] input ++
      (Branch.listPieces branches ++ final)) input.isNone (Expr.clausePieces [] input ++
      (Branch.listPieces branches ++ final)) := by
    cases input with
    | none =>
      obtain ⟨⟨condition, result⟩, bs, rfl⟩ := List.exists_cons_of_ne_nil hbranches
      exact .checkTrue rfl
    | some e =>
      obtain ⟨u, vs, hu, hstarts⟩ := (hinput e rfl).starts
      have hclause : Expr.clausePieces [] (some e) = u :: vs := hu
      rw [hclause]
      exact .checkFalse (ne_of_startsExpression hstarts rfl)
  refine .bind (.expectKeyword rfl) (.bind hcheck ?_)
  extract_lets rest'
  have hrest : Parses (rest' input) (Branch.listPieces branches ++ final)
      (.choice input branches otherwise) rest :=
    .bind hall (.ifFalse hsome (.bind hlast (.bind (.expectKeyword rfl) .ret)))
  cases input with
  | none => exact .ifTrue rfl (.bind .ret hrest)
  | some e =>
    have hstarts : Starts TokenKind.endsExpression (Branch.listPieces branches ++ final) := by
      obtain ⟨⟨condition, result⟩, bs, rfl⟩ := List.exists_cons_of_ne_nil hbranches
      exact .cons _ rfl
    exact .ifFalse Bool.false_ne_true (.bind ((hinput e rfl).reads _ hstarts).map hrest)

/-! ## Operators -/

section Rounds

variable {t u : Piece} {ps rest : List Piece} {left : Expr}

/-- Behind an operand, no operator is read where none starts. -/
theorem parses_operatorRound_none {d? : Option Dialect} (h : ∀ next, operator? t.kind next = none) :
    ParsesIn d? (operatorRound .tied left) (t :: ps) (.done left) (t :: ps) := by
  intro p hp _
  refine ⟨p, ?_, hp, le_refl _, .refl p⟩
  rw [operatorRound, run_bind, run_kind]
  dsimp only
  rw [run_bind, run_peekKind]
  dsimp only
  rw [hp.kind, h]
  rfl

/-- No operator stands behind an expression that is ended. -/
theorem parses_operatorRound_done {d? : Option Dialect} (hrest : Starts TokenKind.endsExpression rest) :
    ParsesIn d? (operatorRound .tied left) rest (.done left) rest := by
  obtain ⟨t, us, rfl, ht⟩ := hrest
  refine parses_operatorRound_none fun next => ?_
  revert ht
  cases t.kind with
  | keyword word => cases word <;> first | exact fun _ => rfl | exact fun h => nomatch h
  | _ => first | exact fun _ => rfl | exact fun h => nomatch h

/-- The pieces of an operator are passed, and what follows them is read. -/
theorem parses_operatorRound (op : Operator) {n : ℕ} {e : Expr} {qs : List Piece}
    (hop : operator? t.kind u.kind = some (op, n))
    (hpass : Parses (advanceBy n) (t :: u :: ps) () qs)
    (h : Parses (applyOperator .tied left op) qs e rest) :
    Parses (operatorRound .tied left) (t :: u :: ps) (.more e) rest := by
  refine .bind .kind (.bind .peekKind ?_)
  rw [hop]
  exact .bind hpass (.bind h .ret)

theorem parses_advanceBy_one (h : t.kind ≠ .eof) : Parses (advanceBy 1) (t :: ps) () ps :=
  .bind (.advance h) .ret

theorem parses_advanceBy_two (ht : t.kind ≠ .eof) (hu : u.kind ≠ .eof) :
    Parses (advanceBy 2) (t :: u :: ps) () ps :=
  .bind (.advance ht) (parses_advanceBy_one hu)

/-- An operator between two operands. -/
theorem parses_binary {op : BinaryOperator} {right : Expr}
    (hright : Parses Nested.tied.primary ps right rest)
    (hstarts : Starts (fun k => k != .keyword .NOT) ps) :
    Parses (operatorRound .tied left) (op.kinds.map Piece.of ++ ps)
      (.more (.binary ⟨left, op, right⟩)) rest := by
  obtain ⟨u, us, rfl, hu⟩ := hstarts
  have hnot : u.kind ≠ .keyword .NOT := by simpa using hu
  have hoperand (op : BinaryOperator) :
      Parses (binaryOperand .tied left op) (u :: us) (.binary ⟨left, op, right⟩) rest :=
    .bind .acquireBinary (.bind (.onFailure hright _) .ret)
  have hone {k : TokenKind} (hop : operator? k u.kind = some (.binary op, 1)) (hk : k ≠ .eof) :
      Parses (operatorRound .tied left) (.of k :: u :: us) (.more (.binary ⟨left, op, right⟩)) rest :=
    parses_operatorRound _ hop (parses_advanceBy_one hk) (hoperand op)
  cases op with
  | is =>
    refine parses_operatorRound .truth rfl (parses_advanceBy_one (by decide)) ?_
    exact .bind (.consumeFalse hnot) (hoperand .is)
  | isNot =>
    refine parses_operatorRound .truth rfl (parses_advanceBy_one (by decide)) ?_
    exact .bind (.consumeTrue rfl (by decide)) (hoperand .isNot)
  | notLike =>
    exact parses_operatorRound _ rfl (parses_advanceBy_two (by decide) (by decide)) (hoperand .notLike)
  | _ => exact hone rfl nofun

/-- A test that may be negated, with what stands behind its word. -/
theorem parses_negated (op : Bool → Operator) {k : TokenKind} {negated : Bool} {e : Expr}
    (hplain : ∀ next, operator? k next = some (op false, 1))
    (hnegated : operator? (.keyword .NOT) k = some (op true, 2)) (hk : k ≠ .eof)
    (h : Parses (applyOperator .tied left (op negated)) (t :: ps) e rest) :
    Parses (operatorRound .tied left) (negationPieces negated ++ .of k :: t :: ps) (.more e) rest := by
  cases negated with
  | false => exact parses_operatorRound _ (hplain t.kind) (parses_advanceBy_one hk) h
  | true => exact parses_operatorRound _ hnegated (parses_advanceBy_two (by decide) hk) h

/-- A test for membership in a list. -/
theorem parses_among (negated : Bool) {values : List Expr} (hvalues : ∀ e ∈ values, ReadsWhole e)
    (hne : values ≠ []) :
    Parses (operatorRound .tied left)
      (negationPieces negated ++ .of (.keyword .IN) :: ((Candidates.list values).pieces ++ rest))
      (.more (.among left negated (.list values))) rest := by
  have hlist := parses_list hvalues hne rest
  have hselect : Parses (checkKeyword .SELECT) (Expr.listPieces values ++ .of .rightParen :: rest)
      false (Expr.listPieces values ++ .of .rightParen :: rest) := by
    obtain ⟨e, es, rfl⟩ := List.exists_cons_of_ne_nil hne
    obtain ⟨u, us, hu, hstarts⟩ := (hvalues e List.mem_cons_self).starts
    rw [Expr.listPieces, Expr.tailPieces, List.tail_cons, hu]
    exact .checkFalse (ne_of_startsExpression hstarts rfl)
  have hcandidates : Parses (candidates .tied) (.of .leftParen :: (Expr.listPieces values ++
      .of .rightParen :: rest)) (.list values) rest :=
    .inParens (.bindIfFalse hselect hlist.map)
  have hpieces : (Candidates.list values).pieces ++ rest = .of .leftParen ::
      (Expr.listPieces values ++ .of .rightParen :: rest) := by
    simp [Candidates.pieces, Expr.listPieces]
  rw [hpieces]
  exact parses_negated .among (fun _ => rfl) rfl (by decide) (hcandidates.bind .ret)

/-- A test for a range. -/
theorem parses_between (negated : Bool) {low high : Expr} {qs : List Piece}
    (hlow : Parses Nested.tied.primary (t :: ps) low (.of (.keyword .AND) :: qs))
    (hhigh : Parses Nested.tied.primary qs high rest) :
    Parses (operatorRound .tied left) (negationPieces negated ++ .of (.keyword .BETWEEN) :: t :: ps)
      (.more (.between left negated low high)) rest := by
  have hrange : Parses (applyOperator .tied left (.between negated)) (t :: ps)
      (.between left negated low high) rest :=
    .bind hlow (.bind (.expectKeyword rfl) (.bind hhigh .ret))
  exact parses_negated .between (fun _ => rfl) rfl nofun hrange

end Rounds

/-! ## Expressions -/

/-- How a canonical expression is read at a place, before what may stand there behind it. -/
def ReadsAt (e : Expr) : Expr.Rank → Prop
  | .atom | .prim => ∀ rest, Starts TokenKind.endsOperand rest →
    Parses Nested.tied.primary (e.pieces ++ rest) e rest
  | .right => ∀ rest, Starts TokenKind.endsOperand rest →
    Parses Nested.tied.primary (e.rightPieces ++ rest) e rest
  | .left => ∀ rest b qs, Starts TokenKind.endsOperand rest →
    Parses (loop (operatorRound .tied) e) rest b qs →
      Parses Nested.tied.expression (e.pieces ++ rest) b qs
  | .full => ∀ rest, Starts TokenKind.endsExpression rest →
    Parses Nested.tied.expression (e.pieces ++ rest) e rest

theorem ReadsAt.whole {e : Expr} (hreads : ReadsAt e .full) (h : Expr.Canonical .full e) :
    ReadsWhole e := by
  refine ⟨h.starts.mono fun k hk => ?_, hreads⟩
  simpa [TokenKind.startsExpression] using hk

theorem starts_of_operator (op : BinaryOperator) (ps : List Piece) :
    Starts TokenKind.endsOperand (op.kinds.map Piece.of ++ ps) := by
  cases op <;> exact .cons _ rfl

theorem starts_of_negated {k : TokenKind} (hk : k.endsOperand) (negated : Bool) (ps : List Piece) :
    Starts TokenKind.endsOperand (negationPieces negated ++ .of k :: ps) := by
  cases negated with
  | false => exact .cons _ hk
  | true => exact .cons _ rfl

theorem ReadsAt.alone {e : Expr} (h : ReadsAt e .left) {rest : List Piece}
    (hrest : Starts TokenKind.endsExpression rest) :
    Parses Nested.tied.expression (e.pieces ++ rest) e rest := by
  have hdone : Parses (loop (operatorRound .tied) e) rest e rest :=
    .loopDone (parses_operatorRound_done hrest)
  exact h rest e rest (hrest.mono fun _ => TokenKind.endsOperand_of_endsExpression) hdone

/-- What can stand on the left of an operator can do so with one more operator behind it. -/
theorem ReadsAt.extend {e f : Expr} (h : ReadsAt e .left) {ps : List Piece}
    (hps : Starts TokenKind.endsOperand ps) (hpieces : f.pieces = e.pieces ++ ps)
    (hround : ∀ rest, Starts TokenKind.endsOperand rest →
      Parses (operatorRound .tied e) (ps ++ rest) (.more f) rest) : ReadsAt f .left := by
  intro rest b qs hrest hloop
  rw [hpieces, List.append_assoc]
  refine h (ps ++ rest) b qs (hps.append rest) (.loopMore (hround rest hrest) ?_ hloop)
  obtain ⟨t, us, rfl, -⟩ := hps
  simp only [List.cons_append, List.length_cons, List.length_append]
  omega

theorem starts_rightPieces {e : Expr} (h : Expr.Canonical .right e) :
    Starts (fun k => k != .keyword .NOT) e.rightPieces := by
  cases h with
  | plainRight h =>
    rw [Expr.rightPieces, h.isBinary_prim, if_neg Bool.false_ne_true]
    refine h.starts.mono fun k hk => ?_
    rw [bne_iff_ne]
    rintro rfl
    cases hk
  | grouped h => exact .cons _ rfl

namespace ReadsAt

variable {e : Expr}

theorem binary {op : BinaryOperator} {left right : Expr} (hleft : ReadsAt left .left)
    (hright : ReadsAt right .right) (h : Expr.Canonical .right right) :
    ReadsAt (.binary ⟨left, op, right⟩) .left := by
  have hround (rest : List Piece) (hrest : Starts TokenKind.endsOperand rest) :
      Parses (operatorRound .tied left) (op.kinds.map Piece.of ++ right.rightPieces ++ rest)
        (.more (.binary ⟨left, op, right⟩)) rest := by
    rw [List.append_assoc]
    exact parses_binary (hright rest hrest) ((starts_rightPieces h).append rest)
  exact hleft.extend (starts_of_operator op _) rfl hround

theorem among {negated : Bool} {values : List Expr} (he : ReadsAt e .left)
    (hvalues : ∀ value ∈ values, ReadsWhole value) (hne : values ≠ []) :
    ReadsAt (.among e negated (.list values)) .left := by
  have hround (rest : List Piece) (_ : Starts TokenKind.endsOperand rest) :
      Parses (operatorRound .tied e) (negationPieces negated ++
        .of (.keyword .IN) :: (Candidates.list values).pieces ++ rest)
        (.more (.among e negated (.list values))) rest := by
    rw [List.append_assoc]
    exact parses_among negated hvalues hne
  exact he.extend (starts_of_negated rfl negated _) rfl hround

theorem between {negated : Bool} {low high : Expr} (he : ReadsAt e .left) (hlow : ReadsAt low .prim)
    (hhigh : ReadsAt high .prim) (h : Expr.Canonical .prim low) :
    ReadsAt (.between e negated low high) .left := by
  have hround (rest : List Piece) (hrest : Starts TokenKind.endsOperand rest) :
      Parses (operatorRound .tied e) (negationPieces negated ++ .of (.keyword .BETWEEN) ::
        (low.pieces ++ .of (.keyword .AND) :: high.pieces) ++ rest)
        (.more (.between e negated low high)) rest := by
    obtain ⟨t, us, hcons, -⟩ := h.starts
    have hread := hlow (.of (.keyword .AND) :: (high.pieces ++ rest)) (.cons _ rfl)
    rw [List.append_assoc, List.cons_append, List.append_assoc, List.cons_append]
    rw [hcons] at hread ⊢
    exact parses_between negated hread (hhigh rest hrest)
  exact he.extend (starts_of_negated rfl negated _) rfl hround

/-- An operator with its operands, in parentheses. -/
theorem grouped {node : Binary} (hread : ReadsAt (.binary node) .left)
    (h : Expr.Canonical .left (.binary node)) : ReadsAt (.binary node) .right := by
  intro rest _
  have halone : Parses Nested.tied.expression ((Expr.binary node).pieces ++ .of .rightParen :: rest)
      (.binary node) (.of .rightParen :: rest) := hread.alone (.cons _ rfl)
  have hpieces : (Expr.binary node).rightPieces ++ rest =
      .of .leftParen :: ((Expr.binary node).pieces ++ .of .rightParen :: rest) := by
    simp [Expr.rightPieces, Expr.isBinary]
  obtain ⟨t, us, hcons, hstarts⟩ := h.starts
  have hselect : t.kind ≠ .keyword .SELECT := by
    intro hk
    rw [hk] at hstarts
    cases hstarts
  rw [hpieces]
  rw [hcons] at halone ⊢
  exact Nested.parses_primary.2
    (.bind .kind (.inParens (.bindIfFalse (.checkFalse hselect) halone)))

theorem sign {op : UnaryOperator} (hop : op ≠ .not) (he : ReadsAt e .atom) :
    ReadsAt (.unary op e) .prim := by
  intro rest hrest
  cases op with
  | not => exact absurd rfl hop
  | minus =>
    exact Nested.parses_primary.2
      (.bind .kind (.bind (.advance (by decide)) (.bind (he rest hrest) .ret)))
  | plus =>
    exact Nested.parses_primary.2
      (.bind .kind (.bind (.advance (by decide)) (.bind (he rest hrest) .ret)))

theorem negation (h : ReadsWhole e) : ReadsAt (.unary .not e) .full := by
  intro rest hrest
  obtain ⟨t, us, hcons, hstarts⟩ := h.starts
  have hreads := h.reads rest hrest
  have hexists : t.kind ≠ .keyword .EXISTS := ne_of_startsExpression hstarts rfl
  have hpieces : (Expr.unary .not e).pieces ++ rest = .of (.keyword .NOT) :: t :: (us ++ rest) := by
    rw [Expr.pieces, hcons]
    rfl
  rw [hcons] at hreads
  rw [hpieces]
  refine Nested.parses_expression.2 ?_
  rw [expression_eq]
  refine .bind ?_ (.loopDone (parses_operatorRound_done hrest))
  exact .bind .kind (.bindIfFalse (.checkPeekFalse hexists)
    (.bind (.advance (by decide)) (.bind hreads .ret)))

end ReadsAt

/-- A canonical expression is read from its pieces, wherever it stands. -/
theorem readsAt_of_canonical {r : Expr.Rank} {e : Expr} (h : Expr.Canonical r e) : ReadsAt e r := by
  induction h with
  | null =>
    intro rest hrest
    exact Nested.parses_primary.2 (.bind .kind (.bind (.advance (by decide)) .ret))
  | boolean value =>
    intro rest hrest
    cases value <;> exact Nested.parses_primary.2 (.bind .kind (.bind (.advance (by decide)) .ret))
  | integer hn =>
    intro rest hrest
    exact Nested.parses_primary.2 (.bind .kind (parses_number hn rest))
  | string value =>
    intro rest hrest
    exact Nested.parses_primary.2 (.bind .kind (.bind (.takeLiteral (by simp)) .ret))
  | @column table column htable hcolumn =>
    intro rest hrest
    have hname : Parses _ _ _ _ := parses_column table column hrest
    cases table with
    | none => exact Nested.parses_primary.2 (.bind .kind (.bindIfTrue (.atName rfl) hname))
    | some table => exact Nested.parses_primary.2 (.bind .kind (.bindIfTrue (.atName rfl) hname))
  | @call name args distinct hname hargs hdistinct ih =>
    intro rest hrest
    have hcall := parses_call name (fun e he => (ih e he).whole (hargs e he)) hdistinct hrest
    exact Nested.parses_primary.2 (.bind .kind (.bindIfTrue (.atName rfl) hcall))
  | choice hinput hbranches hconditions hresults hotherwise ihinput ihconditions ihresults
      ihotherwise =>
    intro rest hrest
    have hchoice := parses_choice (fun e he => (ihinput e he).whole (hinput e he)) hbranches
      (fun b hb => (ihconditions b hb).whole (hconditions b hb))
      (fun b hb => (ihresults b hb).whole (hresults b hb))
      (fun e he => (ihotherwise e he).whole (hotherwise e he)) rest
    exact Nested.parses_primary.2 (.bind .kind hchoice)
  | unsigned h ih => exact ih
  | sign hop h ih => exact ih.sign hop
  | plainLeft h ih =>
    intro rest b qs hrest hloop
    exact Nested.parses_expression.2 (.bind (Nested.parses_primary.1 (ih rest hrest)) hloop)
  | binary hleft hright ihleft ihright => exact ihleft.binary ihright hright
  | among h hne hvalues ih ihvalues =>
    exact ih.among (fun value hvalue => (ihvalues value hvalue).whole (hvalues value hvalue)) hne
  | between h hlow hhigh ih ihlow ihhigh => exact ih.between ihlow ihhigh hlow
  | plainRight h ih =>
    intro rest hrest
    rw [Expr.rightPieces, h.isBinary_prim, if_neg Bool.false_ne_true]
    exact ih rest hrest
  | grouped h ih => exact ih.grouped h
  | positive h ih => exact fun rest hrest => ih.alone hrest
  | negation h ih => exact .negation (ih.whole h)

end Grammar

end SqlFrontend
