import SqlFrontend.Proofs.Grammar.Body
import SqlFrontend.Proofs.Grammar.Heading

/-!
# Bodies that close

A block closes with a word of its own, and a body in quotes with the quote. What stands behind such a body
does not change how it is read, as long as it does not start with a name, which could be one for the block.

Results:
* `Grammar.closedBody`: a body that is a block, or one in quotes. `Grammar.opens_routineBody`: where it is
  read, the body of a routine is.
* `Junction.Follows.closedBody`: at the end of the text, it is read the same as before characteristics.
-/

namespace SqlFrontend

/-- Decides whether a block starts with a token before another one. -/
def TokenKind.startsBlock (d : Dialect) (first second : TokenKind) : Bool :=
  match first with
  | .keyword .BEGIN =>
    second ∉ [.keyword .TRY, .keyword .TRAN, .keyword .TRANSACTION, .keyword .WORK]
  | .keyword .DECLARE => d = .postgreSql
  | .lt => second == .lt
  | _ => false

theorem TokenKind.eq_of_startsBlock {d : Dialect} {first second : TokenKind}
    (h : startsBlock d first second) :
    first = .keyword .BEGIN ∨ first = .keyword .DECLARE ∨ first = .lt := by
  unfold startsBlock at h
  split at h <;> simp at h ⊢

/-- What stands behind a body does not make it a block or anything else. -/
theorem TokenKind.startsBlock_of_startsOption {d : Dialect} {first second : TokenKind}
    (h : second.startsOption) : startsBlock d first second = startsBlock d first .eof := by
  unfold startsOption at h
  split at h <;> first | rfl | cases h

namespace Grammar

open Production

section

variable (nested : Nested)

/-- A block that is the body of a routine. -/
def ownBlock : Production Block := do
  if ← atBlockStart then inRoutine (labelledBlock nested) else expected "BEGIN"

/-- The body of a routine, if it is a block or in quotes. -/
def closedBody : Production Block := do
  if ← consumeKeyword .AS then
    let dialect ← dialect
    if ← check .dollarQuote then quotedBody nested
    else if dialect = .postgreSql && (← check .string) then quotedBody nested
    else ownBlock nested
  else
    skipKeyword .IS
    ownBlock nested

end

variable {N N' : Nested} {p q : Parser} {body : Block}

theorem run_atBlockStart_eq (p : Parser) :
    atBlockStart p = .ok (p.current.kind.startsBlock p.dialect p.peek.kind) p := by
  obtain ⟨k, hk⟩ : ∃ k, p.current.kind = k := ⟨_, rfl⟩
  obtain ⟨k', hk'⟩ : ∃ k, p.peek.kind = k := ⟨_, rfl⟩
  rw [atBlockStart, run_bind, run_kind]
  dsimp only
  rw [run_bind, run_peekKind, hk, hk']
  dsimp only
  split
  case h_5 hother => simp_all [TokenKind.startsBlock]
  case h_8 hbegin hdeclare hlt =>
    unfold TokenKind.startsBlock
    split <;> simp_all
  all_goals rfl

/-- A block starts with one of three tokens. -/
theorem eq_of_ownBlock (h : ownBlock N p = .ok body q) :
    p.current.kind = .keyword .BEGIN ∨ p.current.kind = .keyword .DECLARE ∨ p.current.kind = .lt := by
  rw [ownBlock, run_bind, run_atBlockStart_eq] at h
  dsimp only at h
  split at h
  · exact TokenKind.eq_of_startsBlock ‹_›
  · cases h

theorem startsBody_of_closedBody (h : closedBody N p = .ok body q) : p.current.kind.startsBody := by
  rw [closedBody, run_bind, run_consumeKeyword] at h
  by_cases has : p.current.kind = .keyword .AS
  · rw [has]
    rfl
  rw [if_neg has] at h
  change (skipKeyword .IS >>= fun _ => ownBlock N) p = .ok body q at h
  rw [run_bind, run_skipKeyword] at h
  by_cases his : p.current.kind = .keyword .IS
  · rw [his]
    rfl
  rw [if_neg his] at h
  rcases eq_of_ownBlock h with hk | hk | hk <;> rw [hk] <;> rfl

/-- A body that is a block or in quotes is the body of a routine. -/
theorem opens_routineBody : Opens (closedBody N) pure (routineBody N) := by
  have hblock {otherwise : Production Block} : Opens (ownBlock N) pure (do
      if ← atBlockStart then inRoutine (labelledBlock N) else otherwise) :=
    .bind fun _ => .ite (fun _ => .self) fun _ => .expected _
  refine .bind fun found => .ite (fun _ => ?_) fun _ => .bind fun _ => ?_
  · refine .bind fun dialect => .bind fun isDollar => .ite (fun _ => .self) fun _ => ?_
    exact .bind fun isString => .ite (fun _ => .self) fun _ => hblock
  · intro p body q h
    have hstart := eq_of_ownBlock h
    have hdollar : p.current.kind ≠ .dollarQuote := by
      rcases hstart with hk | hk | hk <;> rw [hk] <;> decide
    have hstring : p.current.kind ≠ .string := by
      rcases hstart with hk | hk | hk <;> rw [hk] <;> decide
    simpa [hdollar, hstring] using hblock p body q h

end Grammar

/-! ## Bodies that are read alike -/

namespace Likeness

variable {L : Likeness} {b : Parser × Parser} {l : Level} {N N' : Grammar.Nested}

theorem Lockstep.ownBlock (h : L.Nested b N N') :
    L.Lockstep b l (Grammar.ownBlock N) (Grammar.ownBlock N') fun _ => .moved :=
  .bindIf .atBlockStart (.inRoutine (.labelledBlock h)) (.expected (by decide))

theorem Lockstep.closedBody (h : L.Nested b N N') :
    L.Lockstep b l (Grammar.closedBody N) (Grammar.closedBody N') fun _ => .moved := by
  refine .strict (.bindIf .consumeKeyword (.bind .dialect fun d => ?_) (.bind .skipKeyword fun _ => .ownBlock h))
  refine .ifQuoted h rfl (f := id) (fun _ => id) (.ifQuoted h rfl (fun x hx => ?_) (.ownBlock h))
  exact (Bool.and_eq_true_iff.1 hx).2

/-- A quoted body that is in order is in order wherever its text stands. -/
theorem quotedOutcome_elsewhere {place : Span} (place' : Span) {r : EStateM.Result ParseError Parser Block}
    {body : Block} {p p' : Parser} (q : Parser) (h : Grammar.quotedOutcome place r p = .ok body p') :
    p' = { p with pools := p'.pools } ∧
      Grammar.quotedOutcome place' r q = .ok body { q with pools := p'.pools } := by
  cases r with
  | error e inner =>
    rw [quotedOutcome_error] at h
    split at h
    · cases h
    · split at h <;> cases h
  | ok other inner =>
    rw [quotedOutcome_ok] at h ⊢
    by_cases hc : inner.cancelled
    · rw [if_pos hc] at h
      cases h
    rw [if_neg hc] at h ⊢
    cases herrors : inner.errors.toList with
    | cons first others =>
      rw [herrors] at h
      cases h
    | nil =>
      rw [herrors] at h
      cases h
      exact ⟨rfl, rfl⟩

end Likeness

/-! ## Bodies before what may follow them -/

namespace Junction

variable {J : Junction} {n : ℕ} {α : Type} {s : Spot} {k : TokenKind}

/-- A body stands at the end of the shorter text and before characteristics in the longer one. -/
structure BehindBody (J : Junction) : Prop where
  ends : J.here.kind = .eof
  starts : J.there.kind.startsOption

theorem BehindBody.lacks (hJ : J.BehindBody) (hk : (k.startsOption || k == .eof) = false) : J.Lacks k := by
  obtain ⟨hoption, hend⟩ := Bool.or_eq_false_iff.1 hk
  refine ⟨fun h => ?_, fun h => ?_⟩
  · rw [← h, hJ.ends] at hend
    cases hend
  · rw [← h, hJ.starts] at hoption
    cases hoption

namespace Follows

theorem bindBlockStart (hJ : J.BehindBody) {f : Bool → Production α} (h : ∀ y, J.Follows s n (f y)) :
    J.Follows s n (Grammar.atBlockStart >>= f) := by
  refine bindRead (g := fun p => p.current.kind.startsBlock p.dialect p.peek.kind)
    Grammar.run_atBlockStart_eq (fun xs p q hat _ => ?_) h
  rw [hat.dialect]
  rcases hat.sight with ⟨-, hp, hq⟩ | ⟨hcurrent, hp, hq⟩ | ⟨hcurrent, hpeek⟩
  · have hnone (d : Dialect) (next : TokenKind) : J.there.kind.startsBlock d next = false := by
      refine Bool.eq_false_iff.2 fun hblock => ?_
      have hstarts := hJ.starts
      rcases TokenKind.eq_of_startsBlock hblock with hk | hk | hk <;> rw [hk] at hstarts <;> cases hstarts
    rw [hp, hq, hJ.ends, hnone]
    rfl
  · rw [hcurrent, hp, hq, hJ.ends, TokenKind.startsBlock_of_startsOption hJ.starts]
  · rw [hcurrent, hpeek]

/-- A text in quotes is read by a parser of its own, which is the same for both texts. -/
theorem quotedBody : J.Follows .inside n (Grammar.quotedBody .tied) := by
  intro p q hpq _ body p' heq
  rw [Likeness.quotedBody_eq] at heq
  obtain ⟨hp', hagain⟩ := Likeness.quotedOutcome_elsewhere q.current.span q.advance heq
  generalize p'.pools = pools at hp' hagain
  subst hp'
  have hreaches : p.Reaches { p.advance with pools } := (Parser.Reaches.advance p).trans (.of_course rfl)
  refine ⟨hreaches, hpq.imp (·.reaches hreaches) ?_⟩
  rintro ⟨x, xs, hat⟩
  have hnested : q.nested q.current.literal = p.nested p.current.literal := by
    rw [Parser.nested, Parser.nested, hat.current.1, hat.current.2, hat.dialect, hat.pools, hat.left.live,
      hat.right.live]
  refine ⟨{ q.advance with pools }, ?_, (Parser.Reaches.advance q).trans (.of_course rfl), xs, ?_⟩
  · rw [Likeness.quotedBody_eq, hnested]
    exact hagain
  · exact hat.advance.congr rfl rfl hat.advance.depth rfl

theorem angleLabel : J.Follows .any n Grammar.angleLabel :=
  expect.bind fun _ => expect.bind fun _ => name.bind fun _ =>
    expect.bind fun _ => expect.bind fun _ => ret

end Follows

/-- A block is enclosed by its words, but for a name behind the last of these. -/
theorem Closes.block (hJ : J.BehindBody) {label : Option String} : J.Closes (Grammar.block .tied label) := by
  have hnested (b : Parser × Parser) := (Likeness.junction J).nested_tied (b := b)
  have hhere : J.here.isIdentifier = false := by rw [Token.isIdentifier, hJ.ends]
  have hthere : J.there.isIdentifier = false := by
    have hstarts := hJ.starts
    rw [Token.isIdentifier]
    split <;> simp_all [TokenKind.startsOption]
  refine .bind (fun b => .declarationSection (hnested b)) fun outer => ?_
  refine .bind (fun b => .expectKeyword) fun _ => ?_
  refine .bind (fun b => .innerDeclarations (hnested b)) fun inner => ?_
  refine .bind (fun b => .statements (hnested b)) fun body => ?_
  refine .bind (fun b => .behind (.exceptionHandlers (hnested b))) fun handlers => ?_
  refine (expectKeyword rfl).bindFollows fun _ n => .bind ?_ fun endLabel => .ret
  exact Follows.trailingName? hhere hthere (hJ.lacks rfl) (hJ.lacks rfl)

namespace Follows

theorem labelledBlock (hJ : J.BehindBody) : J.Follows .any n (Grammar.labelledBlock .tied) := by
  refine bindCheck (hJ.lacks rfl) fun hasLabel => ite (fun _ => ?_) fun _ => ?_
  · exact (angleLabel.map _).bind fun label => (Closes.block hJ).follows
  · exact ret.bind fun label => (Closes.block hJ).follows

theorem ownBlock (hJ : J.BehindBody) : J.Follows .any n (Grammar.ownBlock .tied) :=
  bindBlockStart hJ fun _ => ite (fun _ => inRoutine fun _ => labelledBlock hJ) fun _ => expected

/-- A body that closes is read the same at the end of the text and before characteristics. -/
theorem closedBody (hJ : J.BehindBody) : J.Follows .inside n (Grammar.closedBody .tied) := by
  refine bindConsumeKeyword (bindDialect fun d => ?_)
    ((skipKeyword (hJ.lacks rfl)).bind fun _ => ownBlock hJ).inside
  refine bindCheckIf (hJ.lacks rfl) quotedBody ?_
  cases d with
  | postgreSql => exact bindCheckIf (hJ.lacks rfl) quotedBody (ownBlock hJ)
  | _ => exact bindCheck (hJ.lacks rfl) fun _ => ownBlock hJ

end Follows

end Junction

end SqlFrontend
