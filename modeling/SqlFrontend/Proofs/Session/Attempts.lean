import Mathlib.Data.Nat.PSub
import SqlFrontend.Proofs.Grammar.Descent
import SqlFrontend.Proofs.Lexing.SlicedTokens
import SqlFrontend.Proofs.Parsing.Skipping
import SqlFrontend.Proofs.Session.Expiry

/-!
# Steps that may fail

Some steps of the reading have no result everywhere: a slice of a text, the difference of two numbers, the
first of several errors, the opposite of a 64-bit integer. Here they are attempts that may fail. In a
session none of them does.

Results:
* `Attempt`: productions with such steps. `Attempt.Agrees` says that an attempt does what a production
  does.
* `Lexer.Sound.next?_eq`, `Parser.Sound.advance?_eq`: tokens are read, and passed, without fail.
* `Attempt.integer_agrees`, `Attempt.skipParens_agrees`, `Attempt.quotedBody_agrees`,
  `Attempt.routineBody_agrees`: so are the constructs in which other steps may fail.
* `Parser.Regular`: what holds between statements, with a limit of time or without.
-/

namespace SqlFrontend

/-! ## Attempts -/

/-- A production that may fail without an error. -/
def Attempt (α : Type) := Parser → Option (EStateM.Result ParseError Parser α)

namespace Attempt

instance : Monad Attempt where
  pure a := fun p => some (.ok a p)
  bind x f := fun p =>
    (x p).bind fun
      | .ok a q => f a q
      | .error e q => some (.error e q)

/-- A production in which no step may fail. -/
def lift {α : Type} (x : Production α) : Attempt α := fun p => some (x p)

/-- A single step that may fail. -/
def step {α : Type} (x : Option α) : Attempt α := fun p => x.map (.ok · p)

/-- An attempt does not fail, and does what a production does. -/
def Agrees {α : Type} (x : Attempt α) (y : Production α) (p : Parser) : Prop := x p = some (y p)

variable {α β : Type} {p : Parser}

theorem agrees_lift (y : Production α) (p : Parser) : Agrees (lift y) y p := rfl

theorem agrees_pure (a : α) (p : Parser) : Agrees (pure a) (pure a) p := rfl

theorem Agrees.bind {x : Attempt α} {y : Production α} {f : α → Attempt β} {g : α → Production β}
    (h : Agrees x y p) (hf : ∀ a q, y p = .ok a q → Agrees (f a) (g a) q) :
    Agrees (x >>= f) (y >>= g) p := by
  have hx : (x >>= f) p = (some (y p)).bind fun
      | .ok a q => f a q
      | .error e q => some (.error e q) := congrArg (Option.bind · _) h
  rw [Agrees, hx, Option.bind_some]
  change _ = some (EStateM.bind y g p)
  rw [EStateM.bind]
  cases hy : y p with
  | ok a q => exact hf a q hy
  | error e q => rfl

theorem Agrees.map {x : Attempt α} {y : Production α} (h : Agrees x y p) (f : α → β) :
    Agrees (f <$> x) (f <$> y) p := by
  have hx : Agrees (f <$> x) (y >>= fun a => pure (f a)) p := h.bind fun a q _ => agrees_pure (f a) q
  rwa [← map_eq_pure_bind] at hx

/-- A step that gives a result goes on with it. -/
theorem Agrees.of_step {x : Option α} {a : α} {f : α → Attempt β} {y : Production β}
    (hx : x = some a) (hf : Agrees (f a) y p) : Agrees (step x >>= f) y p := by
  subst hx
  exact hf

end Attempt

/-! ## Tokens -/

/-- The length of a span, unless it ends before it starts. -/
def Span.length? (s : Span) : Option ℕ := Nat.psub s.stop s.start

theorem Span.length?_eq {s : Span} (h : s.start ≤ s.stop) : s.length? = some s.length :=
  Nat.psub_eq_some.2 (Nat.sub_add_cancel h)

namespace Lexer

/-- The next token, read by slices, and the lexer behind it. -/
def next? (lexer : Lexer) : Option (Token × Lexer) := do
  let (token, there) ← Slicing.next? lexer.source.toList lexer.dialect lexer.cursor.place
  let rest ← Slicing.sliceFrom? lexer.source.toList there.offset
  return (token, { lexer with cursor := ⟨rest, there.offset, there.line, there.column⟩ })

theorem Sound.next?_eq {lexer : Lexer} (h : lexer.Sound) : lexer.next? = some lexer.next := by
  have hnext : lexer.next.2.cursor.In lexer.source.toList := by
    have hsound := h.next
    rw [Sound, next_source] at hsound
    exact hsound
  have hlexer : { lexer with cursor := lexer.next.2.cursor } = lexer.next.2 := by
    have hsource : lexer.source = lexer.next.2.source := lexer.next_source.symm
    have hdialect : lexer.dialect = lexer.next.2.dialect := lexer.next_dialect.symm
    rw [hsource, hdialect]
  rw [next?, Slicing.next?_eq h, Option.bind_eq_bind, Option.bind_some]
  dsimp only
  rw [hnext.sliceFrom?]
  exact congrArg (fun l => some (lexer.next.1, l)) hlexer

/-- The lexers of a text: tokens are read, and the dialect may change. -/
inductive InUse (source : String) : Lexer → Prop
  | start (d : Dialect) : InUse source (.ofSource source d)
  | next {lexer : Lexer} (h : InUse source lexer) : InUse source lexer.next.2
  | setDialect {lexer : Lexer} (h : InUse source lexer) (d : Dialect) :
    InUse source (lexer.setDialect d)

theorem InUse.sound {source : String} {lexer : Lexer} (h : lexer.InUse source) : lexer.Sound := by
  induction h with
  | start d => exact sound_ofSource source d
  | next _ ih => exact ih.next
  | setDialect _ d ih => exact ih

end Lexer

namespace Parser

/-- Goes on to the next token, which is read by slices. -/
def advance? (p : Parser) : Option Parser :=
  if p.cancelled then some p
  else if p.expired then some p.cancel
  else do
    let (next, lexer) ← p.lexer.next?
    return { p with lexer, current := p.peek, peek := next }.countCurrent

/-- A parser at the first token of a source. -/
def ofSource? (source : String) (dialect : Dialect) (expired : Bool) (pools : Pools) :
    Option Parser := do
  let (current, lexer) ← (Lexer.ofSource source dialect).next?
  let (peek, lexer) ← lexer.next?
  let p : Parser :=
    { lexer, current, peek, expired, pools, cancelled := false, errors := #[], deferred := #[],
      recovering := false, tokenCount := 0, endCounted := false, routineDepth := 0 }
  return p.countCurrent

/-- A parser for a body that is quoted in the source of `p`. -/
def nested? (p : Parser) (body : String) : Option Parser := do
  let inner ← ofSource? body p.dialect p.expired p.pools
  return { inner with recovering := true, routineDepth := 1 }

variable {p : Parser}

theorem Sound.advance?_eq (hp : p.Sound) : p.advance? = some p.advance := by
  rw [Parser.advance?, Parser.advance, hp.lexer.next?_eq]
  split
  · rfl
  split <;> rfl

theorem ofSource?_eq (source : String) (d : Dialect) (expired : Bool) (pools : Pools) :
    ofSource? source d expired pools = some (ofSource source d expired pools) := by
  have hstart := Lexer.sound_ofSource source d
  rw [ofSource?, hstart.next?_eq, Option.bind_eq_bind, Option.bind_some]
  dsimp only
  rw [hstart.next.next?_eq]
  rfl

theorem nested?_eq (p : Parser) (body : String) : p.nested? body = some (p.nested body) := by
  rw [nested?, ofSource?_eq]
  rfl

end Parser

/-! ## Constructs -/

namespace Attempt

open Production (check span expected fail)

/-- Goes on to the next token. -/
def advance : Attempt Unit := fun p => p.advance?.map (.ok ())

/-- Goes past a token of a kind, if it stands here. -/
def consume (k : TokenKind) : Attempt Bool := do
  if ← lift (check k) then
    advance
    return true
  else return false

/-- Goes past a token of a kind, which has to stand here. -/
def expect (k : TokenKind) : Attempt Unit := do
  unless ← consume k do
    lift (expected k.describe)

/-- The literal of the current token, which is used up. -/
def takeLiteral : Attempt String := do
  let token ← lift Production.current
  advance
  return token.literal

/-- The opposite of an integer of 64 bits. -/
def opposite? (value : Int) : Option Int :=
  if -9223372036854775808 ≤ -value ∧ -value ≤ 9223372036854775807 then some (-value) else none

/-- A whole number of 64 bits with an optional minus sign. -/
def integer : Attempt Int := do
  let negative ← consume .minus
  unless ← lift (check .number) do
    lift (expected "integer")
  let place ← lift span
  let text ← takeLiteral
  match Numeral.integer? text with
  | some value => if negative then step (opposite? value) else return value
  | none => lift (fail (.invalidInteger text) place)

/-- Goes on up to the end of a text in parentheses. Its rounds are counted, and too many have no result. -/
def skipNested : ℕ → ℕ → Attempt Unit
  | 0, _ => fun _ => none
  | rounds + 1, depth => fun p => do
    if depth = 0 then return .ok () p
    else match p.current.kind with
    | .eof => return .error (p.expectedError ")") p
    | .leftParen => skipNested rounds (depth + 1) (← p.advance?)
    | .rightParen => skipNested rounds (← depth.ppred) (← p.advance?)
    | _ => skipNested rounds depth (← p.advance?)

/-- Skips a text in parentheses, with the parentheses in it. A round passes a token, and the last one
none. -/
def skipParens : Attempt Unit := do
  expect .leftParen
  skipNested ((← lift get).remaining + 1) 1

/-- Runs a production inside the body of a routine. -/
def inRoutine {α : Type} (production : Production α) : Attempt α := fun p =>
  match production { p with routineDepth := p.routineDepth + 1 } with
  | .ok value p' => p'.routineDepth.ppred.map fun n => .ok value { p' with routineDepth := n }
  | .error e p' => p'.routineDepth.ppred.map fun n => .error e { p' with routineDepth := n }

/-- Fails with the first of the errors of a quoted body, and defers the others. -/
def failWith {α : Type} (place : Span) (errors : List ParseError) : Attempt α := do
  let first ← step errors.head?
  lift (Grammar.failAt place first errors.tail)

/-- What comes of a quoted body whose text was read. It is in order only if no error was met on the
way; otherwise one is removed from those that were met. -/
def quotedOutcome (place : Span) : EStateM.Result ParseError Parser Block → Attempt Block
  | .ok body inner => do
    lift (Grammar.leaveQuoted place inner)
    if inner.errors.isEmpty then return body else failWith place inner.errors.toList
  | .error e inner => do
    lift (Grammar.leaveQuoted place inner)
    failWith place (inner.errors.toList ++ [e])

variable (nested : Grammar.Nested)

/-- A quoted body. Its text is read by a parser of its own, with the same pools. -/
def quotedBody : Attempt Block := do
  let place ← lift span
  let text ← takeLiteral
  let inner ← step ((← lift get).nested? text)
  quotedOutcome place (Grammar.quotedText nested inner)

/-- The body of a routine. -/
def routineBody : Attempt Block := do
  unless ← consume (.keyword .AS) do
    discard (consume (.keyword .IS))
  let dialect ← lift Production.dialect
  if ← lift (check .dollarQuote) then quotedBody nested
  else if dialect = .postgreSql && (← lift (check .string)) then quotedBody nested
  else if ← lift Grammar.atBlockStart then inRoutine (Grammar.labelledBlock nested)
  else if dialect = .sqlServer then .ofBody <$> inRoutine (Grammar.statements nested [])
  else
    let statement ← inRoutine nested.statement
    return .ofBody [statement]

/-- What a trigger does. -/
def triggerBody : Attempt TriggerBody := do
  if ← consume (.keyword .EXECUTE) then lift (Grammar.triggerCall nested)
  else if ← lift (check (.keyword .BEGIN)) then .block <$> inRoutine (Grammar.block nested none)
  else .statement <$> inRoutine nested.statement

/-- What a trigger does, where it goes on to the end of the batch. -/
def batchTriggerBody : Attempt TriggerBody := do
  if (← lift (check (.keyword .BEGIN))) && !(← lift (Production.peekKeyword .TRY)) then
    .block <$> inRoutine (Grammar.block nested none)
  else
    let body ← inRoutine (Grammar.statements nested [])
    return .block (.ofBody body)

/-! ## No step fails -/

section

variable {p : Parser}

theorem advance_agrees (hp : p.Sound) : Agrees advance Production.advance p := by
  rw [Agrees, advance, hp.advance?_eq]
  rfl

theorem consume_agrees (hp : p.Sound) (k : TokenKind) :
    Agrees (consume k) (Production.consume k) p := by
  refine (agrees_lift (check k) p).bind fun found q hq => ?_
  obtain rfl : p = q := by cases hq; rfl
  cases found with
  | false => exact agrees_pure false p
  | true => exact (advance_agrees hp).bind fun _ q _ => agrees_pure true q

theorem expect_agrees (hp : p.Sound) (k : TokenKind) : Agrees (expect k) (Production.expect k) p := by
  refine (consume_agrees hp k).bind fun found q _ => ?_
  cases found with
  | false => exact agrees_lift _ q
  | true => exact agrees_pure () q

theorem takeLiteral_agrees (hp : p.Sound) : Agrees takeLiteral Production.takeLiteral p := by
  refine (agrees_lift Production.current p).bind fun token q hq => ?_
  obtain rfl : p = q := by cases hq; rfl
  exact (advance_agrees hp).bind fun _ q _ => agrees_pure _ q

/-- A number has no sign. -/
theorem sign_of_isNumeric {t : Token} (ht : t.IsNumeric) :
    Numeral.sign t.literal.toList = (false, t.literal.toList) := by
  have hpoint {text behind : List Char} (h : Numeral.IsFraction text) :
      Numeral.sign (text ++ behind) = (false, text ++ behind) := by
    obtain ⟨digits, rfl, -⟩ := h
    rfl
  rcases ht with ⟨whole, fraction, exponent, htext, hform, -⟩ | ⟨first, second, exponent, htext, hfirst, -⟩
  · rw [htext]
    rcases hform with ⟨⟨hne, hdigits⟩, -⟩ | ⟨rfl, hfraction⟩
    · obtain ⟨c, cs, rfl⟩ := List.exists_cons_of_ne_nil hne
      exact Numeral.sign_of_isDigit (hdigits c List.mem_cons_self)
    · exact hpoint hfraction
  · rw [htext, List.append_assoc]
    exact hpoint hfirst

/-- So the opposite of what is read of it is an integer of 64 bits. -/
theorem opposite?_eq {t : Token} {value : Int} (ht : t.IsNumeric)
    (h : Numeral.integer? t.literal = some value) : opposite? value = some (-value) := by
  have hbounds : 0 ≤ value ∧ value ≤ 9223372036854775807 := by
    rw [Numeral.integer?, sign_of_isNumeric ht] at h
    cases hdigits : Numeral.digits? t.literal.toList with
    | none => simp [hdigits] at h
    | some n =>
      simp [hdigits] at h
      omega
  exact if_pos ⟨by omega, by omega⟩

theorem integer_agrees (hp : p.Sound) : Agrees integer Grammar.integer p := by
  refine (consume_agrees hp .minus).bind fun negative q hq => ?_
  have hsound : q.Sound := by
    rw [Production.run_consume] at hq
    split at hq <;> cases hq
    · exact hp.advance
    · exact hp
  refine (agrees_lift (check .number) q).bind fun found r hr => ?_
  obtain ⟨rfl, hfound⟩ : q = r ∧ (q.current.kind == .number) = found := by cases hr; exact ⟨rfl, rfl⟩
  cases found with
  | false => exact (agrees_lift (expected "integer") q).bind fun _ _ h => by cases h
  | true =>
    have hnumeric := hsound.current.numeric (eq_of_beq hfound)
    simp only [if_true]
    refine (agrees_lift Production.span q).bind fun place r hr => ?_
    cases hr
    refine (takeLiteral_agrees hsound).bind fun text r hr => ?_
    obtain ⟨rfl, rfl⟩ : q.current.literal = text ∧ q.advance = r := by cases hr; exact ⟨rfl, rfl⟩
    cases hvalue : Numeral.integer? q.current.literal with
    | none => exact agrees_lift _ _
    | some value =>
      cases negative with
      | false => exact agrees_pure value _
      | true => exact congrArg (Option.map _) (opposite?_eq hnumeric hvalue)

/-- The depth is counted from one here, so it is one more than that of a round. -/
theorem skipNested_eq (hp : p.Sound) (depth : ℕ) {rounds : ℕ} (hrounds : p.remaining < rounds) :
    skipNested rounds (depth + 1) p = some (Production.loop Production.skipRound depth p) := by
  induction rounds generalizing p depth with
  | zero => cases hrounds
  | succ rounds ih =>
    rw [skipNested]
    dsimp only
    rw [if_neg (Nat.succ_ne_zero depth), hp.advance?_eq]
    by_cases hend : p.current.kind = .eof
    · rw [Production.loop.eq_def, hend]
      simp [Production.skipRound, hend]
    have hless : p.advance.remaining < p.remaining :=
      (hp.beyond_advance (by simpa [Parser.atEnd, Token.isEof] using hend)).remaining
    have hmore (depth' : ℕ) (h : Production.skipRound depth p = .ok (.more depth') p.advance) :
        skipNested rounds (depth' + 1) p.advance =
          some (Production.loop Production.skipRound depth p) := by
      rw [Production.run_loop_more h hless]
      exact ih hp.advance depth' (by omega)
    split
    · next h => exact absurd h hend
    · next h => exact hmore (depth + 1) (by simp [Production.skipRound, h])
    · next h =>
      cases depth with
      | zero =>
        rw [Production.run_loop_done (a := ()) (q := p.advance) (by simp [Production.skipRound, h])]
        change skipNested rounds 0 p.advance = _
        obtain ⟨rounds, rfl⟩ := Nat.exists_eq_add_one_of_ne_zero (n := rounds) (by omega)
        rfl
      | succ depth => exact hmore depth (by simp [Production.skipRound, h])
    · next h h' h'' =>
      refine hmore depth ?_
      rw [Production.skipRound, Production.run_bind, Production.run_kind]
      dsimp only
      revert h h' h''
      generalize p.current.kind = k
      intro h h' h''
      cases k <;> first | rfl | contradiction

theorem skipParens_agrees (hp : p.Sound) : Agrees skipParens Production.skipParens p := by
  refine (expect_agrees hp .leftParen).bind fun _ q hq => ?_
  rw [Production.run_expect] at hq
  split at hq <;> cases hq
  exact skipNested_eq hp.advance 0 (Nat.lt_succ_self _)

theorem quotedOutcome_agrees (place : Span) (result : EStateM.Result ParseError Parser Block)
    (p : Parser) : Agrees (quotedOutcome place result) (Grammar.quotedOutcome place result) p := by
  cases result with
  | ok body inner =>
    refine (agrees_lift (Grammar.leaveQuoted place inner) p).bind fun _ q _ => ?_
    cases hlog : inner.errors.toList with
    | nil =>
      rw [if_pos (by simpa using hlog)]
      exact agrees_pure body q
    | cons first others =>
      rw [if_neg (by intro h; simp_all)]
      rfl
  | error e inner =>
    refine (agrees_lift (Grammar.leaveQuoted place inner) p).bind fun _ q _ => ?_
    cases inner.errors.toList <;> rfl

theorem quotedBody_agrees (nested : Grammar.Nested) (hp : p.Sound) :
    Agrees (quotedBody nested) (Grammar.quotedBody nested) p := by
  refine (agrees_lift Production.span p).bind fun place q hq => ?_
  obtain rfl : p = q := by cases hq; rfl
  refine (takeLiteral_agrees hp).bind fun text q _ => ?_
  refine (agrees_lift get q).bind fun r q' _ => ?_
  exact .of_step (Parser.nested?_eq r text) (quotedOutcome_agrees place _ q')

end

/-! ## Bodies of routines -/

open Likeness in
/-- A production leaves the number of bodies around it as it finds it. -/
theorem routineDepth_eq {α : Type} {b : Parser × Parser} {x x' : Production α} {k : α → Level}
    {p : Parser} (hp : p.Underway) (hx : (same .equal p.errors).Lockstep b .moved x x' k)
    (hb : Level.moved.Holds b p p) :
    match x p with
    | .ok _ q | .error _ q => q.routineDepth = p.routineDepth := by
  have houtcome := hx b ⟨.refl _, .refl _⟩ p p hp.same hb
  revert houtcome
  generalize x p = r, x' p = r'
  intro houtcome
  cases houtcome with
  | ok _ hl _ _ => exact hl.routineDepth
  | error _ hl _ => exact hl.routineDepth
  | past h => cases h <;> contradiction

/-- So the number that was raised at the beginning of a body can be lowered at its end. -/
theorem inRoutine_agrees {α : Type} {x : Production α} {p : Parser}
    (h : match x { p with routineDepth := p.routineDepth + 1 } with
      | .ok _ q | .error _ q => q.routineDepth = p.routineDepth + 1) :
    Agrees (inRoutine x) (Production.inRoutine x) p := by
  rw [Agrees, inRoutine, Production.inRoutine]
  revert h
  cases x { p with routineDepth := p.routineDepth + 1 } <;> (intro h; dsimp only at h ⊢; rw [h]; rfl)

section

variable {p : Parser}

open Likeness in
/-- What stands in the body of a routine leaves the number of bodies as it finds it. -/
theorem bodies_agree (hp : p.Underway) :
    Agrees (inRoutine (Grammar.labelledBlock .tied))
        (Production.inRoutine (Grammar.labelledBlock .tied)) p ∧
      Agrees (inRoutine (Grammar.block .tied none)) (Production.inRoutine (Grammar.block .tied none)) p ∧
      Agrees (inRoutine (Grammar.statements .tied []))
        (Production.inRoutine (Grammar.statements .tied [])) p ∧
      Agrees (inRoutine Grammar.Nested.tied.statement)
        (Production.inRoutine Grammar.Nested.tied.statement) p := by
  obtain ⟨b, hb⟩ := Parser.exists_beyond { p with routineDepth := p.routineDepth + 1 }
  have hdeeper := hp.atDepth (p.routineDepth + 1)
  have hnested := Grammar.Nested.nested_of_agreesAt (N := .tied) (p := b) p.errors
    fun _ _ _ => ⟨rfl, rfl, rfl, rfl, rfl, rfl⟩
  have hlevel : Level.moved.Holds (b, b) _ _ := ⟨hb, hb⟩
  exact ⟨inRoutine_agrees (routineDepth_eq hdeeper (.labelledBlock hnested) hlevel),
    inRoutine_agrees (routineDepth_eq hdeeper (.block hnested) hlevel),
    inRoutine_agrees (routineDepth_eq hdeeper (.statements hnested) hlevel),
    inRoutine_agrees (routineDepth_eq hdeeper hnested.statement hlevel)⟩

theorem underway_of_consume (hp : p.Underway) {k : TokenKind} {found : Bool} {q : Parser}
    (h : Production.consume k p = .ok found q) : q.Underway := by
  rw [Production.run_consume] at h
  split at h <;> cases h
  · exact hp.advance
  · exact hp

theorem triggerBody_agrees (hp : p.Underway) :
    Agrees (triggerBody .tied) (Grammar.triggerBody .tied) p := by
  refine (consume_agrees hp.sound (.keyword .EXECUTE)).bind fun found q hq => ?_
  obtain ⟨-, hblock, -, hstatement⟩ := bodies_agree (underway_of_consume hp hq)
  cases found with
  | true => exact agrees_lift _ q
  | false =>
    refine (agrees_lift (check (.keyword .BEGIN)) q).bind fun begins r hr => ?_
    obtain rfl : q = r := by cases hr; rfl
    cases begins with
    | true => exact hblock.map _
    | false => exact hstatement.map _

theorem batchTriggerBody_agrees (hp : p.Underway) :
    Agrees (batchTriggerBody .tied) (Grammar.batchTriggerBody .tied) p := by
  obtain ⟨-, hblock, hstatements, -⟩ := bodies_agree hp
  refine (agrees_lift (check (.keyword .BEGIN)) p).bind fun begins q hq => ?_
  cases hq
  refine (agrees_lift (Production.peekKeyword .TRY) p).bind fun tries q hq => ?_
  cases hq
  split
  · exact hblock.map _
  · exact hstatements.bind fun body q _ => agrees_pure _ q

theorem exists_run_atBlockStart (p : Parser) : ∃ starts, Grammar.atBlockStart p = .ok starts p := by
  rw [Grammar.atBlockStart, Production.run_bind, Production.run_kind]
  dsimp only
  rw [Production.run_bind, Production.run_peekKind]
  dsimp only
  -- The match gives a production, which is run behind it.
  change (fun x : Production Bool => ∃ starts, x p = .ok starts p) _
  split <;> exact ⟨_, rfl⟩

theorem routineBody_agrees (hp : p.Underway) :
    Agrees (routineBody .tied) (Grammar.routineBody .tied) p := by
  have hbody {q : Parser} (hq : q.Underway) :
      Agrees (do
        let dialect ← lift Production.dialect
        if ← lift (check .dollarQuote) then quotedBody .tied
        else if dialect = .postgreSql && (← lift (check .string)) then quotedBody .tied
        else if ← lift Grammar.atBlockStart then inRoutine (Grammar.labelledBlock .tied)
        else if dialect = .sqlServer then .ofBody <$> inRoutine (Grammar.statements .tied [])
        else
          let statement ← inRoutine Grammar.Nested.tied.statement
          return Block.ofBody [statement])
      (do
        let dialect ← Production.dialect
        if ← check .dollarQuote then Grammar.quotedBody .tied
        else if dialect = .postgreSql && (← check .string) then Grammar.quotedBody .tied
        else if ← Grammar.atBlockStart then Production.inRoutine (Grammar.labelledBlock .tied)
        else if dialect = .sqlServer then
          .ofBody <$> Production.inRoutine (Grammar.statements .tied [])
        else
          let statement ← Production.inRoutine Grammar.Nested.tied.statement
          return Block.ofBody [statement]) q := by
    obtain ⟨hblock, -, hstatements, hstatement⟩ := bodies_agree hq
    have hquoted := quotedBody_agrees .tied hq.sound
    refine (agrees_lift Production.dialect q).bind fun dialect r hr => ?_
    cases hr
    refine (agrees_lift (check .dollarQuote) q).bind fun dollar r hr => ?_
    cases hr
    split
    · exact hquoted
    refine (agrees_lift (check .string) q).bind fun string r hr => ?_
    cases hr
    split
    · exact hquoted
    refine (agrees_lift Grammar.atBlockStart q).bind fun begins r hr => ?_
    obtain ⟨starts, hstarts⟩ := exists_run_atBlockStart q
    obtain rfl : q = r := by
      rw [hstarts] at hr
      cases hr
      rfl
    split
    · exact hblock
    split
    · exact hstatements.map _
    · exact hstatement.bind fun statement r _ => agrees_pure _ r
  refine (consume_agrees hp.sound (.keyword .AS)).bind fun found q hq => ?_
  have hq' := underway_of_consume hp hq
  cases found with
  | true => exact hbody hq'
  | false =>
    have hskip : Agrees (discard (consume (.keyword .IS))) (Production.skipKeyword .IS) q :=
      (consume_agrees hq'.sound (.keyword .IS)).map _
    refine hskip.bind fun _ r hr => hbody ?_
    rw [Production.run_skipKeyword] at hr
    cases hr
    split
    · exact hq'.advance
    · exact hq'

end

end Attempt

/-! ## Sessions -/

namespace Parser

/-- What holds between statements, whether time is limited or not: each recorded error was due. -/
structure Regular (p : Parser) : Prop where
  sound : p.Sound
  due : ∀ e ∈ p.errors, e.cause.Due p

variable {p q : Parser}

theorem Underway.regular (hp : p.Underway) : p.Regular := ⟨hp.sound, hp.due⟩

theorem regular_ofSource (source : String) (d : Dialect) (expired : Bool) (pools : Pools) :
    (ofSource source d expired pools).Regular := by
  have hsound := sound_ofSource source d expired pools
  rw [ofSource_eq, countCurrent_eq] at hsound ⊢
  exact ⟨hsound, Array.forall_mem_empty _⟩

namespace Regular

/-- The errors that were deferred do not matter to those that were recorded. -/
theorem cleared (hp : p.Regular) : Underway { p with deferred := #[] } :=
  ⟨hp.sound.congr rfl rfl rfl rfl rfl, rfl, fun e he => (hp.due e he).mono id⟩

theorem setDialect (hp : p.Regular) (d : Dialect) : (p.setDialect d).Regular :=
  ⟨hp.sound.setDialect d, fun e he => (hp.due e he).mono id⟩

theorem advance (hp : p.Regular) : p.advance.Regular :=
  ⟨hp.sound.advance, Likeness.Same.due_advance hp.due⟩

theorem skipWhile (hp : p.Regular) (condition : Parser → Bool) : (p.skipWhile condition).Regular := by
  fun_induction Parser.skipWhile p condition with
  | case1 p _ _ ih => exact ih hp.advance
  | case2 p => exact hp.advance
  | case3 p => exact hp

theorem skipSeparators (hp : p.Regular) : p.skipSeparators.Regular := hp.skipWhile _

theorem synchronize (hp : p.Regular) : p.synchronize.Regular := (hp.skipWhile _).skipWhile _

theorem record {e : ParseError} {errors : Array ParseError}
    (hf : Likeness.SameFailure .equal errors e p e p) : (p.record e).Regular := by
  by_cases he : e.isCancelled
  · rw [Parser.record, if_pos he]
    exact ⟨hf.same.sound, hf.same.due⟩
  · exact (Underway.record hf he).regular

/-- A statement starts behind what separates statements, with no error deferred. -/
theorem underway (hp : p.Regular) :
    Underway (Parser.skipSeparators { p with deferred := #[] }) := by
  refine .of_same ((Likeness.Lockstep.skipWhile (L := .same .equal p.errors) (fun x y h => ?_)
    (show (Likeness.same .equal p.errors).state _ _ from hp.cleared.same)).resolve_right id)
  rw [h.cancelled, h.current.kind, h.atBatchSeparator]

theorem statement (hp : p.Regular) : p.statement.2.Regular := by
  have houtcome := Likeness.parse_outcome hp.underway.same
  rw [Parser.statement]
  revert houtcome
  cases Grammar.parse (Parser.skipSeparators { p with deferred := #[] }) with
  | ok s q =>
    intro houtcome
    cases houtcome with
    | ok hs _ _ _ => exact (Underway.of_same hs).regular.skipWhile _
    | past h => cases h; contradiction
  | error e q =>
    intro houtcome
    cases houtcome with
    | error hf _ _ =>
      dsimp only
      split
      · exact record hf
      · exact (record hf).synchronize
    | past h => cases h; contradiction

theorem next? (hp : p.Regular) : p.next?.2.Regular := by
  rw [Parser.next?]
  split
  · exact hp.skipSeparators
  · exact hp.skipSeparators.statement

theorem statements (hp : p.Regular) : p.statements.2.Regular := by
  fun_induction Parser.statements p with
  | case1 p q hq =>
    have hnext := hp.next?
    rwa [hq] at hnext
  | case2 p e q hq =>
    have hnext := hp.next?
    rwa [hq] at hnext
  | case3 p s q hq _ others last hrest ih =>
    have hnext := hp.next?
    rw [hq] at hnext
    have hlast := ih hnext
    rwa [hrest] at hlast
  | case4 p s q hq =>
    have hnext := hp.next?
    rwa [hq] at hnext

theorem run (hp : p.Regular) (op : Operation) : (op.run p).Regular := by
  cases op with
  | statement => exact hp.statement
  | next => exact hp.next?
  | all => exact hp.statements

theorem continues (hp : p.Regular) (h : p.Continues q) : q.Regular := by
  induction h with
  | refl => exact hp
  | run _ op ih => exact ih.run op
  | setDialect _ d ih => exact ih.setDialect d

end Regular

/-- No step of a session fails, whatever is asked of a lexer or a parser, with a limit of time or
without. Tokens are read without a slice that is missing and end no sooner than they start, so every
parser is opened and every token passed.

A statement is read by parsers that are under way, in its source or in the text of a quoted body. They stay
so where nodes are taken or given back, a body is entered or left, and where the reading goes on behind an
error. The constructs in which other steps may fail are read from all of them: the opposite of a number, the
depth of a text in parentheses, the number of bodies around a body, and the first error of a quoted body. -/
theorem steps_succeed (source : String) (d : Dialect) (expired : Bool) (pools : Pools) :
    (∀ lexer : Lexer, lexer.InUse source → lexer.next? = some lexer.next ∧
        lexer.next.1.span.length? = some lexer.next.1.span.length) ∧
      ofSource? source d expired pools = some (ofSource source d expired pools) ∧
      (∀ p : Parser, (ofSource source d expired pools).Continues p →
        p.Regular ∧ Underway (skipSeparators { p with deferred := #[] })) ∧
      (∀ p : Parser, p.Regular → p.advance? = some p.advance ∧ p.advance.Regular ∧
        p.current.span.length? = some p.current.span.length ∧
        p.peek.span.length? = some p.peek.span.length) ∧
      ∀ p : Parser, p.Underway → p.Regular ∧ p.advance.Underway ∧
        (p.nested? p.current.literal = some (p.nested p.current.literal) ∧
          (p.nested p.current.literal).Underway) ∧
        Attempt.integer.Agrees Grammar.integer p ∧
        Attempt.skipParens.Agrees Production.skipParens p ∧
        (Attempt.quotedBody .tied).Agrees (Grammar.quotedBody .tied) p ∧
        (Attempt.routineBody .tied).Agrees (Grammar.routineBody .tied) p ∧
        (Attempt.triggerBody .tied).Agrees (Grammar.triggerBody .tied) p ∧
        (Attempt.batchTriggerBody .tied).Agrees (Grammar.batchTriggerBody .tied) p ∧
        (∀ pools depth, Underway { p with pools, routineDepth := depth }) ∧
        (∀ found q, Production.recovering Grammar.parse p = .ok found q → q.Underway) ∧
        match Grammar.parse p with
          | .ok _ q => q.Underway ∧ q.routineDepth = p.routineDepth
          | .error e q => (q.record e).Regular ∧ q.routineDepth = p.routineDepth := by
  refine ⟨fun lexer h => ⟨h.sound.next?_eq, Span.length?_eq lexer.next_fits.ordered⟩,
    ofSource?_eq source d expired pools, fun p h => ?_, fun p hp => ?_, fun p hp => ?_⟩
  · have hp := (regular_ofSource source d expired pools).continues h
    exact ⟨hp, hp.underway⟩
  · exact ⟨hp.sound.advance?_eq, hp.advance, Span.length?_eq hp.sound.current.ordered,
      Span.length?_eq hp.sound.peek.ordered⟩
  · refine ⟨hp.regular, hp.advance, ⟨nested?_eq p _, hp.nested _⟩, Attempt.integer_agrees hp.sound,
      Attempt.skipParens_agrees hp.sound, Attempt.quotedBody_agrees .tied hp.sound,
      Attempt.routineBody_agrees hp, Attempt.triggerBody_agrees hp,
      Attempt.batchTriggerBody_agrees hp, fun pools depth => (hp.withPools pools).atDepth depth,
      fun found q => hp.recovering, ?_⟩
    have houtcome := Likeness.parse_outcome hp.same
    revert houtcome
    generalize Grammar.parse p = r
    intro houtcome
    cases houtcome with
    | ok hs hl _ _ => exact ⟨.of_same hs, hl.routineDepth⟩
    | error hf hl _ => exact ⟨.record hf, hl.routineDepth⟩
    | past h => cases h <;> contradiction

end Parser

end SqlFrontend
