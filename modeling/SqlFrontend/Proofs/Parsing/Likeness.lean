import SqlFrontend.Parsing.Production
import SqlFrontend.Proofs.Lexing.Kinds
import SqlFrontend.Proofs.Parsing.Course
import SqlFrontend.Proofs.Tree.Pool

/-!
# Parsers that are alike

Two parsers that show the same tokens to a production, at places that may differ, are treated alike by
it. What else has to correspond, and what is known of an error, depends on what is to be shown; a
`Likeness` is one choice.

Results:
* `Parser.AlikeHere`: what two parsers have to agree on for a production to treat them alike.
* `Likeness`: a relation between parsers that productions preserve, and one between failures.
* `Likeness.same`: equal parsers, but for their pools. Errors are kept in order, deferred ones belong
  to the error before them, and no error comes from a guard of a recursion.
-/

namespace SqlFrontend

/-! ## Tokens and parsers -/

/-- Decides whether a token closes a construct. No production looks behind such a token before it is
passed. -/
def Token.closes (t : Token) : Bool :=
  (t.kind == .rightParen || t.kind == .keyword .END) && !t.literal.startsWith "@"

theorem Token.closes_of_ne {t : Token} (hparen : t.kind ≠ .rightParen) (hend : t.kind ≠ .keyword .END) :
    t.closes = false := by
  rw [Token.closes, beq_false_of_ne hparen, beq_false_of_ne hend]
  rfl

theorem Token.closes_of_isOpen {t : Token} (h : t.kind.isOpen) : t.closes = false :=
  Token.closes_of_ne (TokenKind.ne_of_isOpen h).1 (TokenKind.ne_of_isOpen h).2

theorem Token.closes_of_isIdentifier {t : Token} (h : t.isIdentifier) : t.closes = false := by
  refine Token.closes_of_ne (fun hk => ?_) fun hk => ?_ <;>
  · rw [Token.isIdentifier, hk] at h
    cases h

theorem Token.closes_of_isName {t : Token} (h : t.isName) : t.closes = false := by
  refine Token.closes_of_ne (fun hk => ?_) fun hk => ?_ <;>
  · rw [Token.isName, hk] at h
    cases h

theorem Token.closes_of_startsWith {t : Token} (h : t.literal.startsWith "@") : t.closes = false := by
  rw [Token.closes, h]
  exact Bool.and_false _

theorem Token.not_startsWith_of_closes {t : Token} (h : t.closes) : t.literal.startsWith "@" = false :=
  Bool.eq_false_iff.2 fun hstarts => by cases h.symm.trans (closes_of_startsWith hstarts)

/-- Tokens that differ in their places only. -/
structure Token.Alike (place : Span → Span → Prop) (t t' : Token) : Prop where
  kind : t.kind = t'.kind
  literal : t.literal = t'.literal
  span : place t.span t'.span

section

variable {place : Span → Span → Prop} {t t' : Token}

theorem Token.Alike.isEof (h : t.Alike place t') : t.isEof = t'.isEof := by
  rw [Token.isEof, Token.isEof, h.kind]

theorem Token.Alike.isName (h : t.Alike place t') : t.isName = t'.isName := by
  rw [Token.isName, Token.isName, h.kind]

theorem Token.Alike.isIdentifier (h : t.Alike place t') : t.isIdentifier = t'.isIdentifier := by
  rw [Token.isIdentifier, Token.isIdentifier, h.kind]

theorem Token.Alike.isWord (h : t.Alike place t') (word : String) :
    t.isWord word = t'.isWord word := by
  rw [Token.isWord, Token.isWord, h.kind, h.literal]

end

namespace Parser

/-- What two parsers agree on for productions to treat them alike. The tokens behind the current ones
need not agree where these close a construct. -/
structure AlikeHere (place : Span → Span → Prop) (how : Pools.Comparison) (p q : Parser) : Prop where
  current : p.current.Alike place q.current
  peek : p.current.closes = false → p.peek.Alike place q.peek
  dialect : p.dialect = q.dialect
  expired : p.expired = q.expired
  cancelled : p.cancelled = q.cancelled
  recovering : p.recovering = q.recovering
  routineDepth : p.routineDepth = q.routineDepth
  pools : p.pools.Alike how q.pools

/-- The same, with tokens that agree behind the current ones as well. -/
structure Alike (place : Span → Span → Prop) (how : Pools.Comparison) (p q : Parser) : Prop where
  current : p.current.Alike place q.current
  peek : p.peek.Alike place q.peek
  dialect : p.dialect = q.dialect
  expired : p.expired = q.expired
  cancelled : p.cancelled = q.cancelled
  recovering : p.recovering = q.recovering
  routineDepth : p.routineDepth = q.routineDepth
  pools : p.pools.Alike how q.pools

variable {place : Span → Span → Prop} {how : Pools.Comparison} {p q : Parser}

theorem Alike.here (h : p.Alike place how q) : p.AlikeHere place how q :=
  ⟨h.current, fun _ => h.peek, h.dialect, h.expired, h.cancelled, h.recovering, h.routineDepth, h.pools⟩

namespace AlikeHere

theorem atEnd (h : p.AlikeHere place how q) : p.atEnd = q.atEnd := h.current.isEof

theorem isBatchSeparator (h : p.AlikeHere place how q) {t t' : Token}
    (ht : t.Alike place t') : p.isBatchSeparator t = q.isBatchSeparator t' := by
  rw [Parser.isBatchSeparator, Parser.isBatchSeparator, h.dialect]
  split
  · exact ht.isWord _
  · rfl

theorem atBatchSeparator (h : p.AlikeHere place how q) :
    p.atBatchSeparator = q.atBatchSeparator := h.isBatchSeparator h.current

theorem atTerminator (h : p.AlikeHere place how q) : p.atTerminator = q.atTerminator := by
  rw [Parser.atTerminator, Parser.atTerminator, h.current.kind, h.atEnd, h.atBatchSeparator]

theorem atTrailingName (h : p.AlikeHere place how q) :
    p.atTrailingName = q.atTrailingName := by
  rw [Parser.atTrailingName, Parser.atTrailingName, ← h.current.isIdentifier, ← h.atBatchSeparator]
  cases hname : p.current.isIdentifier with
  | false => rfl
  | true => rw [(h.peek (Token.closes_of_isIdentifier hname)).kind]

end AlikeHere

end Parser

/-! ## Errors -/

/-- An error of a guard, which is there to let a recursion end. -/
def ParseCause.IsGuard : ParseCause → Prop
  | .unexpected what _ => what = "more input" ∨ what = "shorter text"
  | _ => False

/-- A cause that a production may have to fail: no guard, cancellation only if it happened, and a numeral
only if it has two points. -/
structure ParseCause.Due (p : Parser) (cause : ParseCause) : Prop where
  genuine : ¬cause.IsGuard
  cancelled : cause = .cancelled → p.cancelled
  numeral : ∀ text, cause = .invalidNumeral text → Numeral.HasTwoPoints text.toList

/-- Decides whether a cause is neither an unexpected token nor cancellation. -/
@[reducible] def ParseCause.isOwn : ParseCause → Bool
  | .unexpected .. | .cancelled => false
  | _ => true

/-- Decides whether a cause is one that is always due: it is none of the numerals either. -/
@[reducible] def ParseCause.isPlain : ParseCause → Bool
  | .unexpected .. | .cancelled | .invalidNumeral _ => false
  | _ => true

theorem ParseCause.isOwn_of_isPlain {cause : ParseCause} (h : cause.isPlain) : cause.isOwn := by
  cases cause <;> first | rfl | cases h

theorem ParseCause.due_of_isPlain {cause : ParseCause} (h : cause.isPlain) (p : Parser) :
    cause.Due p where
  genuine hguard := by
    cases cause with
    | unexpected => cases h
    | _ => exact hguard
  cancelled hc := by
    rw [hc] at h
    cases h
  numeral text hc := by
    rw [hc] at h
    cases h

theorem ParseCause.due_invalidNumeral {text : String} (h : Numeral.HasTwoPoints text.toList)
    (p : Parser) : (ParseCause.invalidNumeral text).Due p :=
  ⟨id, nofun, fun _ heq => ParseCause.invalidNumeral.inj heq ▸ h⟩

theorem ParseCause.due_cancelled {p : Parser} (h : p.cancelled) : ParseCause.cancelled.Due p :=
  ⟨id, fun _ => h, nofun⟩

theorem ParseCause.Due.mono {p q : Parser} {cause : ParseCause} (h : cause.Due p)
    (hc : p.cancelled → q.cancelled) : cause.Due q :=
  ⟨h.genuine, fun he => hc (h.cancelled he), h.numeral⟩

theorem Parser.due_expectedError (p : Parser) {what : String} (hmore : what ≠ "more input")
    (hshorter : what ≠ "shorter text") : (p.expectedError what).cause.Due p := by
  by_cases hc : p.cancelled
  · rw [Parser.expectedError, if_pos hc]
    exact ParseCause.due_cancelled hc
  · rw [Parser.expectedError, if_neg hc]
    exact ⟨fun h => h.elim hmore hshorter, nofun, nofun⟩

/-! ## Likenesses -/

/-- Others of several errors, at the place of the first. -/
def atPlace (place : Span) (errors : List ParseError) : List ParseError :=
  errors.map fun e => { e with span := place }

/-- Two tokens that two parsers have come to: they were the current ones of two parsers in a state that
these do not stand before. -/
def Parser.Seen (state : Parser → Parser → Prop) (t t' : Token) (p q : Parser) : Prop :=
  ∃ x y, state x y ∧ x.current = t ∧ y.current = t' ∧ Parser.NotBefore x p ∧ Parser.NotBefore y q

theorem Parser.Seen.later {state : Parser → Parser → Prop} {t t' : Token} {p q p' q' : Parser}
    (h : Parser.Seen state t t' p q) (hp : Parser.NotBefore p p') (hq : Parser.NotBefore q q') :
    Parser.Seen state t t' p' q' := by
  obtain ⟨x, y, hxy, hx, hy, hbefore, hbefore'⟩ := h
  exact ⟨x, y, hxy, hx, hy, hbefore.trans hp, hbefore'.trans hq⟩

theorem Parser.Seen.imp {state state' : Parser → Parser → Prop} {t t' : Token} {p q : Parser}
    (h : Parser.Seen state t t' p q) (hstate : ∀ {x y}, state x y → state' x y) :
    Parser.Seen state' t t' p q := by
  obtain ⟨x, y, hxy, hseen⟩ := h
  exact ⟨x, y, hstate hxy, hseen⟩

/-- How far two texts correspond. A parser that is past what they have in common corresponds to itself,
and no parser is past it if the texts correspond as a whole. -/
structure Parser.Limit (state : Parser → Parser → Prop) where
  past : Parser → Prop
  self : ∀ {p}, past p → state p p
  reaches : ∀ {p q}, past p → p.Reaches q → past q
  atDepth : ∀ {p} (n : ℕ), past p → past { p with routineDepth := n }
  /-- If the texts have ends of their own, the left one is the shorter one. -/
  shorter : ∀ {x p q}, past x → state p q → Parser.NotBefore q p

/-- Texts that correspond as a whole. -/
def Parser.Limit.none {state : Parser → Parser → Prop} : Parser.Limit state where
  past _ := False
  self := False.elim
  reaches h _ := h
  atDepth _ h := h
  shorter := False.elim

/-- A way for two parsers to correspond that productions preserve. `failed` says how the errors of a
production correspond, and the parsers that are left then. A production fails for a cause of its own at
a token that it has come to, and relays the errors of a quoted body at the token of that. -/
structure Likeness where
  /-- How places correspond. -/
  place : Span → Span → Prop
  /-- How pools correspond. -/
  how : Pools.Comparison
  state : Parser → Parser → Prop
  failed : ParseError → Parser → ParseError → Parser → Prop
  limit : Parser.Limit state := .none
  left : ∀ {p q}, state p q → p.Sound
  right : ∀ {p q}, state p q → q.Sound
  alike : ∀ {p q}, state p q → p.AlikeHere place how q
  advance : ∀ {p q}, state p q → state p.advance q.advance ∨ limit.past p.advance
  withPools : ∀ {p q} {P Q : Pools}, state p q → P.Alike how Q →
    state { p with pools := P } { q with pools := Q }
  atDepth : ∀ {p q} (n : ℕ), state p q →
    state { p with routineDepth := n } { q with routineDepth := n }
  failed_alike : ∀ {e p e' q}, failed e p e' q → p.AlikeHere place how q
  failed_withPools : ∀ {e p e' q} {P Q : Pools}, failed e p e' q → P.Alike how Q →
    failed e { p with pools := P } e' { q with pools := Q }
  failed_atDepth : ∀ {e p e' q} (n : ℕ), failed e p e' q →
    failed e { p with routineDepth := n } e' { q with routineDepth := n }
  expects : ∀ {p q what}, state p q → what ≠ "more input" → what ≠ "shorter text" →
    failed (p.expectedError what) p (q.expectedError what) q
  fails : ∀ {p q t t' cause}, state p q → Parser.Seen state t t' p q → cause.isOwn → cause.Due p →
    failed ⟨cause, t.span⟩ p ⟨cause, t'.span⟩ q
  relays : ∀ {p q t t' cause others}, state p q → Parser.Seen state t t' p q → t.kind.isText →
    cause.Due p → (∀ e ∈ others, e.cause.Due p) →
    failed ⟨cause, t.span⟩ (p.defer (atPlace t.span others)) ⟨cause, t'.span⟩
      (q.defer (atPlace t'.span others))
  record : ∀ {e p e' q}, failed e p e' q → p.recovering → p.cancelled = false →
    state (p.record e) (q.record e')

namespace Likeness

variable (L : Likeness) {p q : Parser}

theorem seen_current (h : L.state p q) : Parser.Seen L.state p.current q.current p q :=
  ⟨p, q, h, rfl, rfl, .refl p, .refl q⟩

/-- A single error of a quoted body. -/
theorem relay {t t' : Token} {cause : ParseCause} (h : L.state p q)
    (hseen : Parser.Seen L.state t t' p q) (htext : t.kind.isText) (hc : cause.Due p) :
    L.failed ⟨cause, t.span⟩ p ⟨cause, t'.span⟩ q := by
  simpa [Parser.defer, atPlace] using L.relays h hseen htext hc (List.forall_mem_nil _)

theorem cancel (h : L.state p q) (he : p.expired) :
    L.state p.cancel q.cancel ∨ L.limit.past p.cancel := by
  have hadvance := L.advance h
  rw [Parser.advance_of_expired he, Parser.advance_of_expired ((L.alike h).expired ▸ he)] at hadvance
  exact hadvance

/-! ## Tokens that were seen -/

/-- What changes neither the place nor what is left keeps the tokens that were seen. -/
theorem seen_update {t t' : Token} {p' q' : Parser} (h : Parser.Seen L.state t t' p q)
    (hp : p'.remaining = p.remaining ∧ p'.extent = p.extent)
    (hq : q'.remaining = q.remaining ∧ q'.extent = q.extent) : Parser.Seen L.state t t' p' q' :=
  h.later ⟨hp.1.le, hp.2.le⟩ ⟨hq.1.le, hq.2.le⟩

/-- The same likeness, between parsers that have come to two tokens. -/
def noting (t t' : Token) : Likeness where
  place := L.place
  how := L.how
  state p q := L.state p q ∧ Parser.Seen L.state t t' p q
  failed e p e' q := L.failed e p e' q ∧ Parser.Seen L.state t t' p q
  left h := L.left h.1
  right h := L.right h.1
  alike h := L.alike h.1
  limit := {
    past := fun p => L.limit.past p ∧ Parser.Seen L.state t t' p p
    self := fun h => ⟨L.limit.self h.1, h.2⟩
    reaches := fun h hreaches =>
      have hbehind := hreaches.notBefore (L.left (L.limit.self h.1))
      ⟨L.limit.reaches h.1 hreaches, h.2.later hbehind hbehind⟩
    atDepth := fun n h => ⟨L.limit.atDepth n h.1, L.seen_update h.2 ⟨rfl, rfl⟩ ⟨rfl, rfl⟩⟩
    shorter := fun h hpq => L.limit.shorter h.1 hpq.1 }
  advance h := by
    have hp := (L.left h.1).notBefore_advance
    have hq := (L.right h.1).notBefore_advance
    exact (L.advance h.1).imp (fun hstate => ⟨hstate, h.2.later hp hq⟩) fun hpast =>
      ⟨hpast, h.2.later hp ((L.limit.shorter hpast h.1).trans hp)⟩
  withPools h hPQ := ⟨L.withPools h.1 hPQ, L.seen_update h.2 ⟨rfl, rfl⟩ ⟨rfl, rfl⟩⟩
  atDepth n h := ⟨L.atDepth n h.1, L.seen_update h.2 ⟨rfl, rfl⟩ ⟨rfl, rfl⟩⟩
  failed_alike h := L.failed_alike h.1
  failed_withPools h hPQ := ⟨L.failed_withPools h.1 hPQ, L.seen_update h.2 ⟨rfl, rfl⟩ ⟨rfl, rfl⟩⟩
  failed_atDepth n h := ⟨L.failed_atDepth n h.1, L.seen_update h.2 ⟨rfl, rfl⟩ ⟨rfl, rfl⟩⟩
  expects h hmore hshorter := ⟨L.expects h.1 hmore hshorter, h.2⟩
  fails h hseen hown hdue := ⟨L.fails h.1 (hseen.imp And.left) hown hdue, h.2⟩
  relays h hseen htext hdue hothers :=
    ⟨L.relays h.1 (hseen.imp And.left) htext hdue hothers, L.seen_update h.2 ⟨rfl, rfl⟩ ⟨rfl, rfl⟩⟩
  record {e p e' q} h hr hc := by
    have hrecord (x : Parser) (e : ParseError) :
        (x.record e).remaining = x.remaining ∧ (x.record e).extent = x.extent := by
      rw [Parser.record]
      split <;> exact ⟨rfl, rfl⟩
    exact ⟨L.record h.1 hr hc, L.seen_update h.2 (hrecord p e) (hrecord q e')⟩

/-! ## The same parser -/

/-- Equal parsers, but for their pools, with what is known of their errors: each was due, and only
a list of statements that goes on behind errors records one, as long as time is left. -/
structure Same (how : Pools.Comparison) (errors : Array ParseError) (p q : Parser) : Prop where
  sound : p.Sound
  eq : q = { p with pools := q.pools }
  pools : p.pools.Alike how q.pools
  due : ∀ e ∈ p.errors, e.cause.Due p
  kept : p.recovering ∨ p.expired ∨ p.errors = errors

namespace Same

variable {how : Pools.Comparison} {errors : Array ParseError}

theorem field {α : Type} (h : Same how errors p q) {f : Parser → α}
    (hf : ∀ pools, f { p with pools } = f p) : f q = f p := by
  rw [h.eq]; exact hf _

theorem right (h : Same how errors p q) : q.Sound := by
  rw [h.eq]; exact h.sound.congr rfl rfl rfl rfl rfl

theorem alike (h : Same how errors p q) : p.Alike Eq how q := by
  refine ⟨⟨?_, ?_, ?_⟩, ⟨?_, ?_, ?_⟩, ?_, ?_, ?_, ?_, ?_, h.pools⟩ <;> rw [h.eq]
  rfl

theorem due_advance (h : ∀ e ∈ p.errors, e.cause.Due p) :
    ∀ e ∈ p.advance.errors, e.cause.Due p.advance := by
  by_cases hc : p.cancelled
  · rw [Parser.advance_of_cancelled hc]; exact h
  by_cases he : p.expired
  · rw [Parser.advance_of_expired he, Parser.cancel, if_neg hc]
    intro e hmem
    rcases Array.mem_push.1 hmem with hmem | rfl
    · exact (h e hmem).mono fun _ => rfl
    · exact ParseCause.due_cancelled rfl
  · rw [Parser.advance_of_live hc he, Parser.countCurrent_eq]
    exact fun e hmem => (h e hmem).mono id

theorem errors_advance (he : ¬p.expired) : p.advance.errors = p.errors := by
  by_cases hc : p.cancelled
  · rw [Parser.advance_of_cancelled hc]
  · rw [Parser.advance_of_live hc he, Parser.countCurrent_eq]

theorem deferred_advance (p : Parser) : p.advance.deferred = p.deferred := by
  by_cases hc : p.cancelled
  · rw [Parser.advance_of_cancelled hc]
  by_cases he : p.expired
  · rw [Parser.advance_of_expired he, Parser.cancel, if_neg hc]
  · rw [Parser.advance_of_live hc he, Parser.countCurrent_eq]

theorem advance (h : Same how errors p q) : Same how errors p.advance q.advance := by
  have hq : q.advance = { p.advance with pools := q.pools } :=
    (congrArg Parser.advance h.eq).trans (Parser.advance_withPools p q.pools)
  refine ⟨h.sound.advance, ?_, ?_, due_advance h.due, ?_⟩
  · rw [hq]
  · rw [hq, Parser.pools_advance]
    exact h.pools
  · have hreaches := Parser.Reaches.advance p
    rw [hreaches.recovering, hreaches.expired]
    rcases h.kept with hr | he | hkept
    · exact .inl hr
    · exact .inr (.inl he)
    · by_cases he : p.expired
      · exact .inr (.inl he)
      · rw [errors_advance he]
        exact .inr (.inr hkept)

theorem withPools {P Q : Pools} (h : Same how errors p q) (hPQ : P.Alike how Q) :
    Same how errors { p with pools := P } { q with pools := Q } := by
  refine ⟨h.sound.congr rfl rfl rfl rfl rfl, ?_, hPQ, fun e he => (h.due e he).mono id, h.kept⟩
  rw [h.eq]

theorem atDepth (h : Same how errors p q) (n : ℕ) :
    Same how errors { p with routineDepth := n } { q with routineDepth := n } := by
  refine ⟨h.sound.congr rfl rfl rfl rfl rfl, ?_, h.pools, fun e he => (h.due e he).mono id,
    h.kept⟩
  rw [h.eq]

theorem withDeferred (h : Same how errors p q) (deferred : Array ParseError) :
    Same how errors { p with deferred } { q with deferred } := by
  refine ⟨h.sound.congr rfl rfl rfl rfl rfl, ?_, h.pools, fun e he => (h.due e he).mono id,
    h.kept⟩
  rw [h.eq]

end Same

/-- Deferred errors are due, and at the place of the error that they are behind. -/
def Deferred (e : ParseError) (p : Parser) : Prop :=
  ∀ d ∈ p.deferred, d.cause.Due p ∧ d.span = e.span

/-- A failure at the same parser with the same error. -/
structure SameFailure (how : Pools.Comparison) (errors : Array ParseError) (e : ParseError) (p : Parser)
    (e' : ParseError) (q : Parser) : Prop where
  same : Same how errors p q
  error : e = e'
  due : e.cause.Due p
  deferred : Deferred e p

variable {how : Pools.Comparison} {errors : Array ParseError}

theorem SameFailure.record {e e' : ParseError} (h : SameFailure how errors e p e' q)
    (hr : p.recovering) (hc : p.cancelled = false) :
    Same how errors (p.record e) (q.record e') ∧ (p.record e).deferred = #[] := by
  obtain ⟨hsame, rfl, hdue, hdeferred⟩ := h
  have hlive : ¬e.isCancelled := fun he => by
    rw [hdue.cancelled (by simpa [ParseError.isCancelled] using he)] at hc
    cases hc
  rw [Parser.record, Parser.record, if_neg hlive, if_neg hlive]
  refine ⟨⟨hsame.sound.congr rfl rfl rfl rfl rfl, ?_, hsame.pools, fun d hmem => ?_, .inl hr⟩, rfl⟩
  · rw [hsame.eq]
  · rcases Array.mem_append.1 hmem with hmem | hmem
    · rcases Array.mem_push.1 hmem with hmem | rfl
      · exact (hsame.due d hmem).mono id
      · exact hdue.mono id
    · exact (hdeferred d hmem).1.mono id

/-- Parsers that are equal but for their pools, between statements and inside of them. -/
def same (how : Pools.Comparison) (errors : Array ParseError) : Likeness where
  place := Eq
  how := how
  state p q := Same how errors p q ∧ p.deferred = #[]
  failed := SameFailure how errors
  left h := h.1.sound
  right h := h.1.right
  alike h := h.1.alike.here
  advance h := .inl ⟨h.1.advance, by rw [Same.deferred_advance]; exact h.2⟩
  withPools h hPQ := ⟨h.1.withPools hPQ, h.2⟩
  atDepth n h := ⟨h.1.atDepth n, h.2⟩
  failed_alike h := h.same.alike.here
  failed_withPools h hPQ :=
    ⟨h.same.withPools hPQ, h.error, h.due.mono id, fun d hd => (h.deferred d hd).imp_left (·.mono id)⟩
  failed_atDepth n h :=
    ⟨h.same.atDepth n, h.error, h.due.mono id, fun d hd => (h.deferred d hd).imp_left (·.mono id)⟩
  expects {p q what} h hmore hshorter := by
    refine ⟨h.1, ?_, p.due_expectedError hmore hshorter, fun d hd => ?_⟩
    · rw [h.1.eq]; rfl
    · rw [h.2] at hd
      exact absurd hd (Array.not_mem_empty d)
  fails h hseen _ hc := by
    obtain ⟨x, y, hxy, rfl, rfl, -, -⟩ := hseen
    refine ⟨h.1, ?_, hc, fun d hd => ?_⟩
    · rw [hxy.1.alike.current.span]
    · rw [h.2] at hd
      exact absurd hd (Array.not_mem_empty d)
  relays {p q t t' cause others} h hseen _ hc ho := by
    obtain ⟨x, y, hxy, rfl, rfl, -, -⟩ := hseen
    rw [← hxy.1.alike.current.span]
    have hdeferred : (p.defer (atPlace x.current.span others)).deferred =
        (atPlace x.current.span others).toArray := by
      rw [Parser.defer, h.2]
      simp
    refine ⟨?_, rfl, hc.mono id, fun d hd => ?_⟩
    · have := h.1.withDeferred (p.deferred ++ (atPlace x.current.span others).toArray)
      rw [Parser.defer, Parser.defer, h.1.field (f := Parser.deferred) fun _ => rfl]
      exact this
    · rw [hdeferred] at hd
      obtain ⟨e, he, rfl⟩ : ∃ e ∈ others, { e with span := x.current.span } = d := by
        simpa [atPlace] using hd
      exact ⟨(ho e he).mono id, rfl⟩
  record h hr hc := h.record hr hc

theorem same_self {P : Pools} {p : Parser} (h : p.Sound) (hP : p.pools.Alike how P)
    (hdue : ∀ e ∈ p.errors, e.cause.Due p) (hd : p.deferred = #[]) :
    (same how p.errors).state p { p with pools := P } :=
  ⟨⟨h, rfl, hP, hdue, .inr (.inr rfl)⟩, hd⟩

/-- The parsers of a quoted body of two parsers that are alike. -/
theorem same_nested {L : Likeness} (h : L.state p q) (body : String) :
    (same L.how #[]).state (p.nested body) (q.nested body) := by
  have halike := L.alike h
  have hq : q.nested body = { p.nested body with pools := q.pools } := by
    rw [Parser.nested, Parser.nested, ← halike.dialect, ← halike.expired, Parser.ofSource_eq,
      Parser.ofSource_eq, Parser.countCurrent_eq, Parser.countCurrent_eq]
    rfl
  have hp : p.nested body = { p.nested body with pools := p.pools, errors := #[], deferred := #[] } := by
    rw [Parser.nested, Parser.ofSource_eq, Parser.countCurrent_eq]
  rw [hq]
  refine ⟨⟨Parser.Sound.nested body, rfl, ?_, ?_, .inl rfl⟩, ?_⟩
  · rw [hp]; exact halike.pools
  · rw [hp]; exact Array.forall_mem_empty _
  · rw [hp]

end Likeness

end SqlFrontend
