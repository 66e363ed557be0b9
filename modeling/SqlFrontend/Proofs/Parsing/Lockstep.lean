import SqlFrontend.Proofs.Parsing.Likeness

/-!
# Productions in lockstep

Two productions are in lockstep if they treat parsers that are alike in the same way: both give the
same value and leave parsers that are alike, or both fail. Neither goes back in its text, and how far
both have gone is part of the statement, since nested constructs are read in less text only. Where the
texts have a front in common only, nothing is said once the left production has passed that.

Results:
* `Level`: how far two parsers have come from the beginning of a construct.
* `Likeness.Lockstep`: productions in lockstep, from one level to another.
* `Lockstep.bind`, `Lockstep.loop`, `Lockstep.many`, `Lockstep.list`: the rules for putting productions
  together. A loop is in lockstep if each round is and a round that is not done goes on.
* `Lockstep.check`, `Lockstep.consume`, `Lockstep.expect`: the rules for the current token.
-/

namespace SqlFrontend

/-! ## Levels -/

/-- How far a parser has come. -/
inductive Level where
  | start
  /-- At the start or behind it, before a token that is not the end of the text. -/
  | token
  /-- Behind the start. -/
  | moved

namespace Level

/-- Two parsers have come as far as a level says from two others. -/
def Holds (l : Level) (b : Parser × Parser) (p q : Parser) : Prop :=
  match l with
  | start => Parser.NotBefore b.1 p ∧ Parser.NotBefore b.2 q
  | token => (Parser.NotBefore b.1 p ∧ Parser.NotBefore b.2 q) ∧ ¬p.atEnd ∧ ¬q.atEnd
  | moved => Parser.Beyond b.1 p ∧ Parser.Beyond b.2 q

/-- What is known of the place is at most what was known before. -/
class inductive Follows : Level → Level → Prop
  | refl (l : Level) : Follows l l
  | start (l : Level) : Follows .start l

attribute [instance] Follows.refl Follows.start

/-- The level before a token of a known kind. -/
@[reducible] def before : Level → TokenKind → Level
  | .moved, _ => .moved
  | _, .eof => .start
  | _, _ => .token

theorem before_of_ne {k : TokenKind} (hk : k ≠ .eof) : Level.before .start k = .token := by
  unfold before
  split
  · contradiction
  · contradiction
  · rfl

/-- The level behind a test that passes at tokens only. -/
@[reducible] def test : Level → Bool → Level
  | .moved, _ => .moved
  | _, true => .token
  | l, false => l

/-- The level behind the current token. -/
@[reducible] def next : Level → Level
  | .start => .start
  | _ => .moved

/-- The level behind a token that may have been passed. -/
@[reducible] def pass : Level → Bool → Level
  | .moved, _ => .moved
  | _, true => .moved
  | l, false => l

theorem pass_true (l : Level) : l.pass true = .moved := by cases l <;> rfl

instance {l : Level} : Follows .moved (l.pass true) := pass_true l ▸ .refl .moved

/-- The level behind any number of tokens. -/
@[reducible] def any : Level → Level
  | .moved => .moved
  | _ => .start

/-- The level behind a production that comes to a level by itself. -/
@[reducible] def after : Level → Level → Level
  | .moved, _ => .moved
  | _, .moved => .moved
  | _, _ => .start

/-- The level behind an item that may be missing. -/
@[reducible] def item {α : Type} : Level → Option α → Level
  | .moved, _ => .moved
  | _, some _ => .moved
  | _, none => .start

/-- The level behind a number of items. -/
@[reducible] def items {α : Type} : Level → List α → Level
  | .moved, _ => .moved
  | _, _ :: _ => .moved
  | _, [] => .start

open scoped Classical in
/-- The level behind a production that goes on unless it gives a value. -/
@[reducible] noncomputable def besides {α : Type} (rest a : α) : Level := if a = rest then .start else .moved

theorem besides_self {α : Type} (rest : α) : Level.besides rest rest = .start := if_pos rfl

theorem besides_of_ne {α : Type} {rest a : α} (h : a ≠ rest) : Level.besides rest a = .moved := if_neg h

instance {α : Type} {rest : α} {l : Level} : Follows (Level.besides rest rest) l :=
  besides_self rest ▸ .start l

instance {α : Type} {rest a : α} : Follows (Level.besides rest a) .moved := by
  unfold Level.besides
  split
  · exact .start .moved
  · exact .refl .moved

variable {b e : Parser × Parser} {p q a c : Parser}

theorem Holds.start {l : Level} (h : l.Holds b p q) : Level.start.Holds b p q :=
  match l, h with
  | .start, h => h
  | .token, h => h.1
  | .moved, h => ⟨h.1.notBefore, h.2.notBefore⟩

theorem Follows.holds {l l' : Level} (hl : l'.Follows l) (h : l.Holds b p q) : l'.Holds b p q :=
  match hl with
  | .refl _ => h
  | .start _ => h.start

theorem Holds.any {l : Level} (h : l.Holds b p q) (ha : Parser.NotBefore p a)
    (hc : Parser.NotBefore q c) : l.any.Holds b a c :=
  match l, h with
  | .start, h => ⟨h.1.trans ha, h.2.trans hc⟩
  | .token, h => ⟨h.1.1.trans ha, h.1.2.trans hc⟩
  | .moved, h => ⟨h.1.trans_notBefore ha, h.2.trans_notBefore hc⟩

theorem Holds.moved {l : Level} (h : l.Holds b p q) (ha : Parser.Beyond p a)
    (hc : Parser.Beyond q c) : Level.moved.Holds b a c :=
  ⟨h.start.1.trans_beyond ha, h.start.2.trans_beyond hc⟩

/-- What holds from a later beginning holds from an earlier one. -/
theorem Holds.of_later {l : Level} (h : l.Holds e p q) (he : Level.start.Holds b e.1 e.2) :
    l.Holds b p q :=
  match l, h with
  | .start, h => ⟨he.1.trans h.1, he.2.trans h.2⟩
  | .token, h => ⟨⟨he.1.trans h.1.1, he.2.trans h.1.2⟩, h.2⟩
  | .moved, h => ⟨he.1.trans_beyond h.1, he.2.trans_beyond h.2⟩

/-- What holds of two parsers holds of the left one alone if it has less before it. -/
theorem Holds.self {l : Level} (h : l.Holds b p q) (hqp : Parser.NotBefore q p) : l.Holds b p p :=
  match l, h with
  | .start, h => ⟨h.1, h.2.trans hqp⟩
  | .token, h => ⟨⟨h.1.1, h.1.2.trans hqp⟩, h.2.1, h.2.1⟩
  | .moved, h => ⟨h.1, h.2.trans_notBefore hqp⟩

theorem Holds.advance {l : Level} (hp : p.Sound) (hq : q.Sound) (h : l.Holds b p q) :
    l.next.Holds b p.advance q.advance := by
  cases l with
  | start => exact h.any hp.notBefore_advance hq.notBefore_advance
  | token => exact h.moved (hp.beyond_advance h.2.1) (hq.beyond_advance h.2.2)
  | moved => exact h.any hp.notBefore_advance hq.notBefore_advance

/-- What changes neither the place nor what is left changes no level. -/
theorem Holds.update {l : Level} {f g : Parser → Parser} (h : l.Holds b p q)
    (hf : ∀ x, (f x).remaining = x.remaining ∧ (f x).extent = x.extent ∧ (f x).atEnd = x.atEnd)
    (hg : ∀ x, (g x).remaining = x.remaining ∧ (g x).extent = x.extent ∧ (g x).atEnd = x.atEnd) :
    l.Holds b (f p) (g q) := by
  have hp : Parser.NotBefore p (f p) := ⟨(hf p).1.le, (hf p).2.1.le⟩
  have hq : Parser.NotBefore q (g q) := ⟨(hg q).1.le, (hg q).2.1.le⟩
  cases l with
  | start => exact h.any hp hq
  | token => exact ⟨h.start.any hp hq, by rw [(hf p).2.2, (hg q).2.2]; exact h.2⟩
  | moved => exact h.any hp hq

end Level

/-- The level behind a round of a loop: a round that is not done goes on. -/
@[reducible] def Production.Step.level {σ α : Type} : Production.Step σ α → Level
  | .more _ => .moved
  | .done _ => .start

/-! ## Tests -/

/-- A test of the current token that fails where this closes a construct. -/
class Production.TestsOpen (t : Production Bool) : Prop where
  reads : ∃ f : Token → Bool, (∀ p : Parser, t p = .ok (f p.current) p) ∧
    ∀ x : Token, f x = true → x.closes = false

/-- What is read from the token behind the current one. -/
class Production.ReadsPeek {α : Type} (s : Production α) : Prop where
  reads : ∃ f : Token → α, (∀ p : Parser, s p = .ok (f p.peek) p) ∧
    ∀ {place : Span → Span → Prop} {x y : Token}, x.Alike place y → f x = f y

namespace Production

instance {k : TokenKind} [h : Certain k.isOpen] : (check k).TestsOpen :=
  ⟨fun x => x.kind == k, fun _ => rfl, fun _ hx => Token.closes_of_isOpen (eq_of_beq hx ▸ h.holds)⟩

instance {word : Keyword} [Certain (TokenKind.keyword word).isOpen] : (checkKeyword word).TestsOpen :=
  inferInstanceAs (check (.keyword word)).TestsOpen

instance : atName.TestsOpen := ⟨Token.isName, fun _ => rfl, fun _ => Token.closes_of_isName⟩

instance : peekKind.ReadsPeek := ⟨Token.kind, fun _ => rfl, Token.Alike.kind⟩

instance {k : TokenKind} : (checkPeek k).ReadsPeek :=
  ⟨fun x => x.kind == k, fun _ => rfl, fun h => congrArg (· == k) h.kind⟩

instance {word : Keyword} : (peekKeyword word).ReadsPeek :=
  inferInstanceAs (checkPeek (.keyword word)).ReadsPeek

instance : peekIsName.ReadsPeek := ⟨Token.isName, fun _ => rfl, Token.Alike.isName⟩

end Production

/-! ## Lockstep -/

namespace Likeness

/-- A production has come, on the left, past what the texts have in common. -/
inductive Passed {α : Type} (L : Likeness) (b : Parser × Parser) (p : Parser) (k : α → Level) :
    EStateM.Result ParseError Parser α → Prop
  | ok {value : α} {p' : Parser} (past : L.limit.past p') (left : p.Reaches p')
      (level : (k value).Holds b p' p') : Passed L b p k (.ok value p')
  | error {e : ParseError} {p' : Parser} (past : L.limit.past p') (left : p.Reaches p') :
      Passed L b p k (.error e p')

/-- The results of two productions correspond, and neither production goes back. -/
inductive Outcome {α : Type} (L : Likeness) (b : Parser × Parser) (p q : Parser)
    (k : α → Level) : EStateM.Result ParseError Parser α → EStateM.Result ParseError Parser α → Prop
  | ok {value : α} {p' q' : Parser} (state : L.state p' q') (left : p.Reaches p')
      (right : q.Reaches q') (level : (k value).Holds b p' q') :
      Outcome L b p q k (.ok value p') (.ok value q')
  | error {e e' : ParseError} {p' q' : Parser} (failed : L.failed e p' e' q')
      (left : p.Reaches p') (right : q.Reaches q') :
      Outcome L b p q k (.error e p') (.error e' q')
  | past {r r' : EStateM.Result ParseError Parser α} (passed : Passed L b p k r) :
      Outcome L b p q k r r'

/-- Two productions do the same at parsers that are alike: from every later place than `b` that is at
the level `l`, they come to the level that `k` gives for their value. -/
def Lockstep {α : Type} (L : Likeness) (b : Parser × Parser) (l : Level) (m m' : Production α)
    (k : α → Level) : Prop :=
  ∀ e : Parser × Parser, Level.start.Holds b e.1 e.2 → ∀ p q, L.state p q → l.Holds e p q →
    Outcome L e p q k (m p) (m' q)

/-- The same, from places at a token of a kind. -/
def LockstepAt {α : Type} (L : Likeness) (b : Parser × Parser) (l : Level) (kind : TokenKind)
    (m m' : Production α) (k : α → Level) : Prop :=
  ∀ e : Parser × Parser, Level.start.Holds b e.1 e.2 → ∀ p q, L.state p q → l.Holds e p q →
    p.current.kind = kind → Outcome L e p q k (m p) (m' q)

variable {L : Likeness} {b : Parser × Parser} {l : Level} {α β : Type}

theorem Passed.trans {e : Parser × Parser} {p a : Parser} {k : α → Level}
    {r : EStateM.Result ParseError Parser α} (hp : p.Reaches a) (h : Passed L e a k r) :
    Passed L e p k r := by
  cases h with
  | ok hpast hl hk => exact .ok hpast (hp.trans hl) hk
  | error hpast hl => exact .error hpast (hp.trans hl)

theorem Outcome.trans {e : Parser × Parser} {p q a c : Parser} {k : α → Level}
    {r r' : EStateM.Result ParseError Parser α} (hp : p.Reaches a) (hq : q.Reaches c)
    (h : Outcome L e a c k r r') : Outcome L e p q k r r' := by
  cases h with
  | ok hs hl hr hk => exact .ok hs (hp.trans hl) (hq.trans hr) hk
  | error hf hl hr => exact .error hf (hp.trans hl) (hq.trans hr)
  | past h => exact .past (h.trans hp)

/-- The level that a production comes to, from what is known of the way. -/
theorem Outcome.relevel {e e' : Parser × Parser} {p q : Parser} {k k' : α → Level}
    {r r' : EStateM.Result ParseError Parser α} (hpq : L.state p q) (h : Outcome L e p q k r r')
    (hk : ∀ a p' q', Parser.NotBefore p p' → Parser.NotBefore q q' → (k a).Holds e p' q' →
      (k' a).Holds e' p' q') : Outcome L e' p q k' r r' := by
  cases h with
  | ok hs hl hr hlevel =>
    exact .ok hs hl hr (hk _ _ _ (hl.notBefore (L.left hpq)) (hr.notBefore (L.right hpq)) hlevel)
  | error hf hl hr => exact .error hf hl hr
  | past h =>
    cases h with
    | ok hpast hl hlevel =>
      have hbehind := hl.notBefore (L.left hpq)
      exact .past (.ok hpast hl (hk _ _ _ hbehind ((L.limit.shorter hpast hpq).trans hbehind) hlevel))
    | error hpast hl => exact .past (.error hpast hl)

/-- What is read behind a parser that is past the limit ends past it as well. -/
theorem Outcome.carry {e : Parser × Parser} {p p' : Parser} {k : α → Level}
    {r r' : EStateM.Result ParseError Parser α} (hpast : L.limit.past p') (hp : p.Reaches p')
    (h : Outcome L e p' p' k r r') : Passed L e p k r := by
  cases h with
  | ok hs hl _ hk =>
    exact .ok (L.limit.reaches hpast hl) (hp.trans hl) (hk.self (L.limit.shorter hpast hs))
  | error _ hl _ => exact .error (L.limit.reaches hpast hl) (hp.trans hl)
  | past h => exact h.trans hp

/-- A production behind a step that may lead past the limit. -/
theorem Outcome.onward {e : Parser × Parser} {p q p' q' : Parser} {k : α → Level}
    {r : EStateM.Result ParseError Parser α} {f : Parser → EStateM.Result ParseError Parser α}
    (hp : p.Reaches p') (hq : q.Reaches q') (hstep : L.state p' q' ∨ L.limit.past p')
    (hlevel : l.Holds e p' q') (hself : L.limit.past p' → l.Holds e p' p')
    (h : ∀ y, L.state p' y → l.Holds e p' y → Outcome L e p' y k r (f y)) :
    Outcome L e p q k r (f q') := by
  rcases hstep with hs | hpast
  · exact (h q' hs hlevel).trans hp hq
  · exact .past ((h p' (L.limit.self hpast) (hself hpast)).carry hpast hp)

theorem Outcome.bind {e : Parser × Parser} {p q : Parser} {m m' : Production α} {k : α → Level}
    {f f' : α → Production β} {j : β → Level} (h : Outcome L e p q k (m p) (m' q))
    (he : Level.start.Holds b e.1 e.2) (hf : ∀ a, L.Lockstep b (k a) (f a) (f' a) j) :
    Outcome L e p q j ((m >>= f) p) ((m' >>= f') q) := by
  change Outcome L e p q j (EStateM.bind m f p) (EStateM.bind m' f' q)
  rw [EStateM.bind, EStateM.bind]
  revert h
  generalize m p = r, m' q = r'
  intro h
  cases h with
  | ok hs hl hr hk => exact (hf _ e he _ _ hs hk).trans hl hr
  | error hf hl hr => exact .error hf hl hr
  | past h =>
    cases h with
    | ok hpast hl hk =>
      exact .past ((hf _ e he _ _ (L.limit.self hpast) hk).carry hpast hl)
    | error hpast hl => exact .past (.error hpast hl)

/-! ## Tokens that are noted -/

section

variable {t t' : Token} {e : Parser × Parser} {p q : Parser} {k : α → Level}
  {r r' : EStateM.Result ParseError Parser α}

/-- What was seen before is seen behind a production as well. -/
theorem Outcome.noting (h : Outcome L e p q k r r') (hpq : (L.noting t t').state p q) :
    Outcome (L.noting t t') e p q k r r' := by
  have hseen {p' q' : Parser} (hl : p.Reaches p') (hr : q.Reaches q') :
      Parser.Seen L.state t t' p' q' :=
    hpq.2.later (hl.notBefore (L.left hpq.1)) (hr.notBefore (L.right hpq.1))
  have hself {p' : Parser} (hpast : L.limit.past p') (hl : p.Reaches p') :
      (L.noting t t').limit.past p' := by
    have hbehind := hl.notBefore (L.left hpq.1)
    exact ⟨hpast, hpq.2.later hbehind ((L.limit.shorter hpast hpq.1).trans hbehind)⟩
  cases h with
  | ok hs hl hr hk => exact .ok ⟨hs, hseen hl hr⟩ hl hr hk
  | error hf hl hr => exact .error ⟨hf, hseen hl hr⟩ hl hr
  | past h =>
    cases h with
    | ok hpast hl hk => exact .past (.ok (hself hpast hl) hl hk)
    | error hpast hl => exact .past (.error (hself hpast hl) hl)

theorem Outcome.of_noting (h : Outcome (L.noting t t') e p q k r r') : Outcome L e p q k r r' := by
  cases h with
  | ok hs hl hr hk => exact .ok hs.1 hl hr hk
  | error hf hl hr => exact .error hf.1 hl hr
  | past h =>
    cases h with
    | ok hpast hl hk => exact .past (.ok hpast.1 hl hk)
    | error hpast hl => exact .past (.error hpast.1 hl)

end

/-! ## At a token of a kind -/

namespace LockstepAt

variable {kind : TokenKind} {m m' n n' : Production α} {k : α → Level}

theorem of (h : L.Lockstep b l m m' k) : L.LockstepAt b l kind m m' k :=
  fun e he p q hpq hlevel _ => h e he p q hpq hlevel

/-- What does the same at such a token. -/
theorem congr (h : L.LockstepAt b l kind m m' k) (hm : ∀ p : Parser, p.current.kind = kind → n p = m p)
    (hm' : ∀ p : Parser, p.current.kind = kind → n' p = m' p) : L.LockstepAt b l kind n n' k := by
  intro e he p q hpq hlevel hk
  rw [hm p hk, hm' q (((L.alike hpq).current.kind).symm.trans hk)]
  exact h e he p q hpq hlevel hk

theorem ite {c : Prop} [Decidable c] (hthen : c → L.LockstepAt b l kind m m' k)
    (helse : ¬c → L.LockstepAt b l kind n n' k) :
    L.LockstepAt b l kind (if c then m else n) (if c then m' else n') k := by
  by_cases hc : c
  · rw [if_pos hc, if_pos hc]; exact hthen hc
  · rw [if_neg hc, if_neg hc]; exact helse hc

theorem bind {f f' : α → Production β} {j : β → Level} (h : L.LockstepAt b l kind m m' k)
    (hf : ∀ a, L.Lockstep b (k a) (f a) (f' a) j) :
    L.LockstepAt b l kind (m >>= f) (m' >>= f') j :=
  fun e he p q hpq hlevel hk => (h e he p q hpq hlevel hk).bind he hf

/-- What is only read leaves the parser at the token. -/
theorem bindRead {γ : Type} {s : Production γ} {g : Parser → γ} {f f' : γ → Production β}
    {j : β → Level} (hs : ∀ p, s p = .ok (g p) p)
    (hg : ∀ p q, L.state p q → p.current.kind = kind → g p = g q)
    (h : ∀ y, L.LockstepAt b l kind (f y) (f' y) j) :
    L.LockstepAt b l kind (s >>= f) (s >>= f') j := by
  have hrun (f : γ → Production β) (x : Parser) : (s >>= f) x = f (g x) x := by
    change EStateM.bind s f x = _
    rw [EStateM.bind, hs]
  intro e he p q hpq hlevel hk
  rw [hrun, hrun, ← hg p q hpq hk]
  exact h _ e he p q hpq hlevel hk

theorem bindKind {f f' : TokenKind → Production β} {j : β → Level}
    (h : L.LockstepAt b l kind (f kind) (f' kind) j) :
    L.LockstepAt b l kind (Production.kind >>= f) (Production.kind >>= f') j := by
  intro e he p q hpq hlevel hk
  change Outcome L e p q j (f p.current.kind p) (f' q.current.kind q)
  rw [← (L.alike hpq).current.kind, hk]
  exact h e he p q hpq hlevel hk

theorem bindGet {f f' : Parser → Production β} {j : β → Level}
    (hf : ∀ p q, L.state p q → p.current.kind = kind → L.LockstepAt b l kind (f p) (f' q) j) :
    L.LockstepAt b l kind (get >>= f) (get >>= f') j :=
  fun e he p q hpq hlevel hk => hf p q hpq hk e he p q hpq hlevel hk

theorem bindDialect {f f' : Dialect → Production β} {j : β → Level}
    (h : ∀ d, L.LockstepAt b l kind (f d) (f' d) j) :
    L.LockstepAt b l kind (Production.dialect >>= f) (Production.dialect >>= f') j :=
  bindRead (g := Parser.dialect) (fun _ => rfl) (fun _ _ hpq _ => (L.alike hpq).dialect) h

/-- A choice by a token behind one that does not close a construct. -/
theorem bindPeek {γ : Type} {s : Production γ} [hopen : Certain kind.isOpen] [hs : s.ReadsPeek]
    {f f' : γ → Production β} {j : β → Level} (h : ∀ y, L.LockstepAt b l kind (f y) (f' y) j) :
    L.LockstepAt b l kind (s >>= f) (s >>= f') j := by
  obtain ⟨read, hread, hsame⟩ := hs.reads
  refine bindRead (g := fun p => read p.peek) hread (fun p q hpq hk => ?_) h
  exact hsame ((L.alike hpq).peek (Token.closes_of_isOpen (hk ▸ hopen.holds)))

theorem bindIfPeek {s : Production Bool} [Certain kind.isOpen] [s.ReadsPeek]
    (hthen : L.LockstepAt b l kind m m' k) (helse : L.LockstepAt b l kind n n' k) :
    L.LockstepAt b l kind (s >>= fun y => if y = true then m else n)
      (s >>= fun y => if y = true then m' else n') k :=
  bindPeek fun _ => .ite (fun _ => hthen) fun _ => helse

/-- What is done by two tests. Where the first one fails, the second one is of no account. -/
theorem bindTests {t s : Production Bool} [ht : t.TestsOpen] [hs : s.ReadsPeek]
    {f f' : Bool → Bool → Production β} {i : Bool → Level} {j : β → Level}
    (htest : L.Lockstep b l t t i) (h : ∀ x y, L.LockstepAt b (i x) kind (f x y) (f' x y) j)
    (hfails : ∀ y y', f false y = f false y') :
    L.LockstepAt b l kind (t >>= fun x => s >>= f x) (t >>= fun x => s >>= f' x) j := by
  obtain ⟨first, hfirst, hopen⟩ := ht.reads
  obtain ⟨second, hsecond, hsame⟩ := hs.reads
  have hrun (g : Bool → Bool → Production β) (x : Parser) :
      (t >>= fun x => s >>= g x) x = g (first x.current) (second x.peek) x := by
    change EStateM.bind t _ x = _
    rw [EStateM.bind, hfirst]
    change EStateM.bind s _ x = _
    rw [EStateM.bind, hsecond]
  intro e he p q hpq hlevel hk
  have hboth (y : Parser) (hy : L.state p y) (hvalue : first p.current = first y.current)
      (hlater : (i (first p.current)).Holds e p y) :
      Outcome L e p y j (f (first p.current) (second p.peek) p)
        (f' (first y.current) (second y.peek) y) := by
    rw [← hvalue]
    cases hx : first p.current with
    | true =>
      rw [hx] at hlater
      rw [← hsame ((L.alike hy).peek (hopen _ hx))]
      exact h true _ e he p y hy hlater hk
    | false =>
      rw [hx] at hlater
      rw [hfails _ (second y.peek)]
      exact h false _ e he p y hy hlater hk
  have hstart : first p.current = first q.current ∧ (i (first p.current)).Holds e p q ∨
      L.limit.past p ∧ (i (first p.current)).Holds e p p := by
    have hread := htest e he p q hpq hlevel
    rw [hfirst, hfirst] at hread
    generalize first p.current = value, first q.current = value' at hread
    cases hread with
    | ok _ _ _ hlater => exact .inl ⟨rfl, hlater⟩
    | past h =>
      cases h with
      | ok hpast _ hlater => exact .inr ⟨hpast, hlater⟩
  rw [hrun, hrun]
  rcases hstart with ⟨hvalue, hlater⟩ | ⟨hpast, hlater⟩
  · exact hboth q hpq hvalue hlater
  · exact .past ((hboth p (L.limit.self hpast) rfl hlater).carry hpast (.refl p))

/-- Two tests that have to pass. -/
theorem bindAnd {t s : Production Bool} [t.TestsOpen] [s.ReadsPeek]
    (ht : L.Lockstep b l t t l.test) (hthen : L.Lockstep b (l.test true) m m' k)
    (helse : L.LockstepAt b l kind n n' k) :
    L.LockstepAt b l kind (t >>= fun x => s >>= fun y => if (x && y) = true then m else n)
      (t >>= fun x => s >>= fun y => if (x && y) = true then m' else n') k := by
  refine bindTests ht (fun x y => .ite (fun hxy => .of ?_) fun _ => ?_) fun _ _ => rfl
  · rw [(Bool.and_eq_true_iff.1 hxy).1]; exact hthen
  · intro e he p q hpq hlevel hk
    refine helse e he p q hpq ?_ hk
    cases l <;> cases x <;> first | exact hlevel | exact hlevel.start

end LockstepAt

namespace Lockstep

/-! ## Levels of a production -/

variable {m m' : Production α} {k : α → Level}

theorem mono {l' : Level} {k' : α → Level} (h : L.Lockstep b l m m' k) (hl : l.Follows l')
    (hk : ∀ a, (k' a).Follows (k a)) : L.Lockstep b l' m m' k' := by
  intro e he p q hpq hlevel
  exact (h e he p q hpq (hl.holds hlevel)).relevel hpq fun a _ _ _ _ hlater => (hk a).holds hlater

/-- What a production comes to by itself. -/
theorem anywhere (h : L.Lockstep b .start m m' k) : L.Lockstep b l m m' fun a => l.after (k a) := by
  intro e he p q hpq hlevel
  have hown := h (p, q) (he.any hlevel.start.1 hlevel.start.2) p q hpq ⟨.refl p, .refl q⟩
  refine hown.relevel hpq fun a p' q' hp hq hk => ?_
  have hany := hlevel.any hp hq
  revert hk
  generalize k a = l'
  intro hk
  cases l' with
  | moved => cases l <;> exact hlevel.moved hk.1 hk.2
  | start => cases l <;> exact hany
  | token => cases l <;> exact hany

/-- A production that always goes on does so from anywhere. -/
theorem strict (h : L.Lockstep b .start m m' fun _ => .moved) :
    L.Lockstep b l m m' fun _ => .moved :=
  h.mono (.start l) fun _ => .refl _

/-- A production that may go on. -/
theorem weak (h : L.Lockstep b .start m m' fun _ => .start) :
    L.Lockstep b l m m' fun _ => l.any :=
  h.anywhere.mono (.refl _) fun _ => by cases l <;> constructor

/-! ## Sequences and choices -/

theorem ret {a : α} {k : α → Level} [h : (k a).Follows l] :
    L.Lockstep b l (Pure.pure a) (Pure.pure a) k :=
  fun _ _ p q hpq hlevel => .ok hpq (.refl p) (.refl q) (h.holds hlevel)

/-- A result without a step keeps the level. -/
theorem stay {a : α} : L.Lockstep b l (Pure.pure a) (Pure.pure a) fun _ => l := ret

/-- The value behind which nothing has to be passed. -/
theorem rest {a : α} : L.Lockstep b l (Pure.pure a) (Pure.pure a) (Level.besides a) := ret

theorem bind {f f' : α → Production β} {j : β → Level} (h : L.Lockstep b l m m' k)
    (hf : ∀ a, L.Lockstep b (k a) (f a) (f' a) j) : L.Lockstep b l (m >>= f) (m' >>= f') j :=
  fun e he p q hpq hlevel => (h e he p q hpq hlevel).bind he hf

theorem map (f : α → β) {l' : Level} (h : L.Lockstep b l m m' fun _ => l') :
    L.Lockstep b l (f <$> m) (f <$> m') fun _ => l' := by
  rw [map_eq_pure_bind, map_eq_pure_bind]
  exact h.bind fun _ => .ret

theorem mapSome {l' : Level} (h : L.Lockstep b l m m' fun _ => .moved) :
    L.Lockstep b l (some <$> m) (some <$> m') l'.item := by
  rw [map_eq_pure_bind, map_eq_pure_bind]
  refine h.bind fun a => .ret (h := ?_)
  cases l' <;> exact .refl _

theorem discard {l' : Level} (h : L.Lockstep b l m m' fun _ => l') :
    L.Lockstep b l (Functor.discard m) (Functor.discard m') fun _ => l' :=
  h.map _

theorem ite {c : Prop} [Decidable c] {n n' : Production α}
    (hthen : c → L.Lockstep b l m m' k) (helse : ¬c → L.Lockstep b l n n' k) :
    L.Lockstep b l (if c then m else n) (if c then m' else n') k := by
  by_cases hc : c
  · rw [if_pos hc, if_pos hc]; exact hthen hc
  · rw [if_neg hc, if_neg hc]; exact helse hc

section

variable {t t' s s' : Production Bool} {n n' : Production α}

theorem bindIf {j : Bool → Level} (ht : L.Lockstep b l t t' j)
    (hthen : L.Lockstep b (j true) m m' k) (helse : L.Lockstep b (j false) n n' k) :
    L.Lockstep b l (t >>= fun x => if x = true then m else n)
      (t' >>= fun x => if x = true then m' else n') k := by
  refine ht.bind fun x => .ite (fun hx => ?_) fun hx => ?_
  · rw [hx]; exact hthen
  · rw [Bool.not_eq_true] at hx
    rw [hx]; exact helse

/-- A choice with more behind it. -/
theorem bindIfThen {j : Bool → Level} {l' : Level} {f f' : α → Production β} {i : β → Level}
    (ht : L.Lockstep b l t t' j) (hthen : L.Lockstep b (j true) m m' fun _ => l')
    (helse : L.Lockstep b (j false) n n' fun _ => l')
    (hf : ∀ a, L.Lockstep b l' (f a) (f' a) i) :
    L.Lockstep b l (t >>= fun x => if x = true then m >>= f else n >>= f)
      (t' >>= fun x => if x = true then m' >>= f' else n' >>= f') i :=
  .bindIf ht (.bind hthen hf) (.bind helse hf)

/-- A choice of doing something only if a test does not pass, with more behind it. -/
theorem bindUnless {j : Bool → Level} {n n' : Production Unit} {f f' : Unit → Production β}
    {i : β → Level} (ht : L.Lockstep b l t t' j)
    (helse : L.Lockstep b (j false) n n' fun _ => j true)
    (hf : L.Lockstep b (j true) (f ()) (f' ()) i) :
    L.Lockstep b l (t >>= fun x => if x = true then f () else n >>= f)
      (t' >>= fun x => if x = true then f' () else n' >>= f') i :=
  .bindIf ht hf (.bind helse fun _ => hf)

/-- Two tests of which one has to pass. -/
theorem bindOr (ht : L.Lockstep b l t t' l.test) (hs : ∀ l', L.Lockstep b l' s s' l'.test)
    (hthen : L.Lockstep b (l.test true) m m' k) (helse : L.Lockstep b l n n' k) :
    L.Lockstep b l (t >>= fun x => s >>= fun y => if (x || y) = true then m else n)
      (t' >>= fun x => s' >>= fun y => if (x || y) = true then m' else n') k := by
  refine ht.bind fun x => (hs _).bind fun y => .ite (fun hxy => ?_) fun _ => ?_
  · rcases Bool.or_eq_true_iff.1 hxy with rfl | rfl
    · cases l <;> cases y <;> exact hthen
    · cases l <;> cases x <;> exact hthen
  · refine helse.mono ?_ fun _ => .refl _
    cases l <;> cases x <;> cases y <;> constructor

end

/-! ## Reading a parser -/

/-- A production that only looks at its parser. -/
theorem read {f : Parser → α} (hm : ∀ p, m p = .ok (f p) p)
    (hf : ∀ p q, L.state p q → f p = f q)
    (hk : ∀ e p q, L.state p q → l.Holds e p q → (k (f p)).Holds e p q) :
    L.Lockstep b l m m k := by
  intro e _ p q hpq hlevel
  rw [hm, hm, ← hf p q hpq]
  exact .ok hpq (.refl p) (.refl q) (hk e p q hpq hlevel)

theorem level_test {e : Parser × Parser} {p q : Parser} {x : Bool} (hlevel : l.Holds e p q)
    (hx : x = true → ¬p.atEnd ∧ ¬q.atEnd) : (l.test x).Holds e p q := by
  cases x with
  | false => cases l <;> exact hlevel
  | true =>
    cases l with
    | start => exact ⟨hlevel, hx rfl⟩
    | token => exact hlevel
    | moved => exact hlevel

/-- A test that passes only where text is left. -/
theorem readTest {t : Production Bool} {f : Parser → Bool} (ht : ∀ p, t p = .ok (f p) p)
    (hf : ∀ p q, p.AlikeHere L.place L.how q → f p = f q) (he : ∀ p, f p = true → ¬p.atEnd) :
    L.Lockstep b l t t l.test := by
  refine read ht (fun p q h => hf p q (L.alike h)) fun e p q h hlevel => level_test hlevel fun hx => ?_
  exact ⟨he p hx, he q ((hf p q (L.alike h)).symm.trans hx)⟩

theorem bindGet {f f' : Parser → Production β} {j : β → Level}
    (hf : ∀ p q, L.state p q → L.Lockstep b l (f p) (f' q) j) :
    L.Lockstep b l (get >>= f) (get >>= f') j :=
  fun e he p q hpq hlevel => hf p q hpq e he p q hpq hlevel

/-- A choice by a test that passes only where text is left. -/
theorem bindGetIf {f : Parser → Bool} {n n' : Production α}
    (hf : ∀ p q, p.AlikeHere L.place L.how q → f p = f q) (he : ∀ p, f p = true → ¬p.atEnd)
    (hthen : L.Lockstep b (l.test true) m m' k) (helse : L.Lockstep b l n n' k) :
    L.Lockstep b l (get >>= fun p => if f p = true then m else n)
      (get >>= fun p => if f p = true then m' else n') k := by
  have ht : L.Lockstep b l (do return f (← get)) (do return f (← get)) l.test :=
    readTest (fun _ => rfl) hf he
  refine ht.bindIf hthen (helse.mono ?_ fun _ => .refl _)
  cases l <;> constructor

theorem bindCurrent {f f' : Token → Production β} {j : β → Level}
    (hf : ∀ t t', t.Alike L.place t' → L.Lockstep b l (f t) (f' t') j) :
    L.Lockstep b l (Production.current >>= f) (Production.current >>= f') j :=
  bindGet fun _ _ hpq => hf _ _ (L.alike hpq).current

/-- What is noted of earlier tokens does not change what productions do. -/
theorem noting (h : L.Lockstep b l m m' k) (t t' : Token) :
    (L.noting t t').Lockstep b l m m' k :=
  fun e he p q hpq hlevel => (h e he p q hpq.1 hlevel).noting hpq

/-- The place of the current token, for an error that may be found behind it. -/
theorem bindSpan {f f' : Span → Production β} {j : β → Level}
    (hf : ∀ t t', (L.noting t t').Lockstep b l (f t.span) (f' t'.span) j) :
    L.Lockstep b l (Production.span >>= f) (Production.span >>= f') j := by
  intro e he p q hpq hlevel
  exact (hf p.current q.current e he p q ⟨hpq, L.seen_current hpq⟩ hlevel).of_noting

theorem level_kind {e : Parser × Parser} {p q : Parser} (h : L.state p q) (hlevel : l.Holds e p q) :
    (l.before p.current.kind).Holds e p q := by
  have hend (r : Parser) (hk : r.current.kind ≠ .eof) : ¬r.atEnd := by
    rwa [Parser.atEnd, Token.isEof, beq_iff_eq]
  by_cases hk : p.current.kind = .eof
  · cases l with
    | start => rw [hk]; exact hlevel
    | token => exact absurd (by rw [Parser.atEnd, Token.isEof, hk]; rfl) hlevel.2.1
    | moved => exact hlevel
  · have hq : q.current.kind ≠ .eof := (L.alike h).current.kind ▸ hk
    have htoken : Level.start.Holds e p q → Level.token.Holds e p q :=
      fun hs => ⟨hs, hend p hk, hend q hq⟩
    cases l with
    | start => revert hk; generalize p.current.kind = k; intro hk; cases k <;> first | contradiction | exact htoken hlevel
    | token => revert hk; generalize p.current.kind = k; intro hk; cases k <;> first | contradiction | exact hlevel
    | moved => exact hlevel

theorem kind : L.Lockstep b l Production.kind Production.kind l.before :=
  read (f := fun p => p.current.kind) (fun _ => rfl) (fun _ _ h => (L.alike h).current.kind)
    fun _ _ _ h hlevel => level_kind h hlevel

/-- A choice by the kind of the current token. -/
theorem bindKinds {f f' : TokenKind → Production β} {j : β → Level}
    (h : ∀ k, L.LockstepAt b (l.before k) k (f k) (f' k) j) :
    L.Lockstep b l (Production.kind >>= f) (Production.kind >>= f') j := by
  intro e he p q hpq hlevel
  change Outcome L e p q j (f p.current.kind p) (f' q.current.kind q)
  rw [← (L.alike hpq).current.kind]
  exact h _ e he p q hpq (level_kind hpq hlevel) rfl

/-- A choice by the kinds of the current token and the one behind it. Where the current one closes
a construct, the one behind it is of no account. -/
theorem bindNextKinds {f f' : TokenKind → TokenKind → Production β} {j : β → Level}
    (h : ∀ k k', L.LockstepAt b (l.before k) k (f k k') (f' k k') j)
    (hcloses : ∀ k k' k'', k.isOpen = false → f k k' = f k k'') :
    L.Lockstep b l (Production.kind >>= fun k => Production.peekKind >>= f k)
      (Production.kind >>= fun k => Production.peekKind >>= f' k) j := by
  intro e he p q hpq hlevel
  have halike := L.alike hpq
  change Outcome L e p q j (f p.current.kind p.peek.kind p) (f' q.current.kind q.peek.kind q)
  have hpeek : f p.current.kind p.peek.kind = f p.current.kind q.peek.kind := by
    cases hk : p.current.kind.isOpen with
    | true => rw [(halike.peek (Token.closes_of_isOpen hk)).kind]
    | false => exact hcloses _ _ _ hk
  rw [hpeek, ← halike.current.kind]
  exact h _ _ e he p q hpq (level_kind hpq hlevel) rfl

theorem dialect : L.Lockstep b l Production.dialect Production.dialect fun _ => l :=
  read (f := fun p => p.dialect) (fun _ => rfl) (fun _ _ h => (L.alike h).dialect)
    fun _ _ _ _ => id

/-! ## Tests of the current token -/

theorem check {k : TokenKind} [h : Certain k.isMore] :
    L.Lockstep b l (Production.check k) (Production.check k) l.test := by
  refine readTest (f := fun p => p.current.kind == k) (fun _ => rfl)
    (fun p q h => by rw [h.current.kind]) fun p hp => ?_
  rw [Parser.atEnd, Token.isEof, eq_of_beq hp, beq_iff_eq]
  exact TokenKind.ne_eof_of_isMore h.holds

theorem checkKeyword {word : Keyword} :
    L.Lockstep b l (Production.checkKeyword word) (Production.checkKeyword word) l.test := check

theorem checkWord {word : String} :
    L.Lockstep b l (Production.checkWord word) (Production.checkWord word) l.test := by
  refine readTest (f := fun p => p.current.isWord word) (fun _ => rfl)
    (fun p q h => h.current.isWord word) fun p hp => ?_
  rw [Parser.atEnd, Token.isEof, eq_of_beq (Bool.and_eq_true_iff.1 hp).1]
  exact Bool.false_ne_true

theorem not_atEnd_of_isName {t : Token} (h : t.isName) : ¬t.isEof := by
  rw [Token.isEof, beq_iff_eq]
  intro hk
  rw [Token.isName, hk] at h
  cases h

theorem atName : L.Lockstep b l Production.atName Production.atName l.test :=
  readTest (f := fun p => p.current.isName) (fun _ => rfl) (fun _ _ h => h.current.isName)
    fun _ => not_atEnd_of_isName

theorem atTerminator :
    L.Lockstep b l Production.atTerminator Production.atTerminator fun _ => l :=
  read (f := fun p => p.atTerminator) (fun _ => rfl) (fun _ _ h => (L.alike h).atTerminator)
    fun _ _ _ _ => id

/-- A choice by a test for a kind of tokens. -/
theorem bindCheckAt {k : TokenKind} {f f' : Bool → Production β} {j : β → Level} [h : Certain k.isMore]
    (hat : L.LockstepAt b (l.test true) k (f true) (f' true) j)
    (helse : L.Lockstep b l (f false) (f' false) j) :
    L.Lockstep b l (Production.check k >>= f) (Production.check k >>= f') j := by
  intro e he p q hpq hlevel
  have hcurrent := (L.alike hpq).current.kind
  change Outcome L e p q j (f (p.current.kind == k) p) (f' (q.current.kind == k) q)
  rw [← hcurrent]
  by_cases hk : p.current.kind = k
  · have hend (x : Parser) (hx : x.current.kind = k) : ¬x.atEnd := by
      rw [Parser.atEnd, Token.isEof, hx, beq_iff_eq]
      exact TokenKind.ne_eof_of_isMore h.holds
    rw [hk, beq_self_eq_true]
    exact hat e he p q hpq (level_test hlevel fun _ => ⟨hend p hk, hend q (hcurrent.symm.trans hk)⟩) hk
  · rw [beq_false_of_ne hk]
    exact helse e he p q hpq hlevel

/-! ## Tests of the next two tokens -/

section

variable {t s : Production Bool} {n n' : Production α} [t.TestsOpen] [hs : s.ReadsPeek]

/-- What is done by two tests. Where the first one fails, the second one is of no account. -/
theorem bindTests {f f' : Bool → Bool → Production β} {i : Bool → Level} {j : β → Level}
    (ht : L.Lockstep b l t t i) (h : ∀ x y, L.Lockstep b (i x) (f x y) (f' x y) j)
    (hfails : ∀ y y', f false y = f false y') :
    L.Lockstep b l (t >>= fun x => s >>= f x) (t >>= fun x => s >>= f' x) j :=
  fun e he p q hpq hlevel =>
    LockstepAt.bindTests ht (fun x y => .of (h x y)) hfails e he p q hpq hlevel rfl

/-- What is done by the next two tokens. Where the first one closes a construct, the second one is of
no account. -/
theorem bindCurrentPeek {f f' : Token → Bool → Production β} {j : β → Level}
    (h : ∀ t t' y, t.Alike L.place t' → L.Lockstep b l (f t y) (f' t' y) j)
    (hcloses : ∀ t y y', t.closes → f t y = f t y') :
    L.Lockstep b l (Production.current >>= fun t => s >>= f t)
      (Production.current >>= fun t => s >>= f' t) j := by
  obtain ⟨read, hread, hsame⟩ := hs.reads
  have hrun (g : Token → Bool → Production β) (x : Parser) :
      (Production.current >>= fun t => s >>= g t) x = g x.current (read x.peek) x := by
    change EStateM.bind s _ x = _
    rw [EStateM.bind, hread]
  intro e he p q hpq hlevel
  have halike := L.alike hpq
  have hpeek : f p.current (read p.peek) = f p.current (read q.peek) := by
    cases hcurrent : p.current.closes with
    | true => exact hcloses _ _ _ hcurrent
    | false => rw [hsame (halike.peek hcurrent)]
  rw [hrun, hrun, hpeek]
  exact h _ _ _ halike.current e he p q hpq hlevel

/-- Two tests that have to pass. -/
theorem bindAnd (ht : L.Lockstep b l t t l.test) (hthen : L.Lockstep b (l.test true) m m' k)
    (helse : L.Lockstep b l n n' k) :
    L.Lockstep b l (t >>= fun x => s >>= fun y => if (x && y) = true then m else n)
      (t >>= fun x => s >>= fun y => if (x && y) = true then m' else n') k :=
  fun e he p q hpq hlevel => LockstepAt.bindAnd ht hthen (.of helse) e he p q hpq hlevel rfl

end

theorem checkKeywords {first second : Keyword} [h : Certain (TokenKind.keyword first).isOpen] :
    L.Lockstep b l (Production.checkKeywords first second)
      (Production.checkKeywords first second) l.test := by
  refine readTest
    (f := fun p => p.current.kind == .keyword first && p.peek.kind == .keyword second)
    (fun p => ?_) (fun p q halike => ?_) fun p hp => ?_
  · change (if (p.current.kind == .keyword first) = true then Production.peekKeyword second
      else Pure.pure false) p = _
    cases p.current.kind == .keyword first <;> rfl
  · cases hk : p.current.kind == .keyword first with
    | false => rw [← halike.current.kind, hk, Bool.false_and, Bool.false_and]
    | true =>
      have hopen : p.current.closes = false := Token.closes_of_isOpen (eq_of_beq hk ▸ h.holds)
      rw [← halike.current.kind, hk, (halike.peek hopen).kind]
  · rw [Parser.atEnd, Token.isEof, eq_of_beq (Bool.and_eq_true_iff.1 hp).1]
    exact Bool.false_ne_true

/-! ## Passing tokens -/

theorem advance : L.Lockstep b l Production.advance Production.advance fun _ => l.next := by
  intro e _ p q hpq hlevel
  have hp := L.left hpq
  rcases L.advance hpq with hs | hpast
  · exact .ok hs (.advance p) (.advance q) (hlevel.advance hp (L.right hpq))
  · have hself := hlevel.self (L.limit.shorter hpast hpq)
    exact .past (.ok hpast (.advance p) (hself.advance hp hp))

theorem consumeIf {t : Production Bool} (ht : L.Lockstep b l t t l.test) :
    L.Lockstep b l (Production.consumeIf t) (Production.consumeIf t) l.pass := by
  refine .bindIf ht (.bind .advance fun _ => .ret (h := ?_)) (.ret (h := ?_)) <;> cases l <;> constructor

theorem consume {k : TokenKind} [h : Certain k.isMore] :
    L.Lockstep b l (Production.consume k) (Production.consume k) l.pass :=
  consumeIf check

theorem consumeKeyword {word : Keyword} :
    L.Lockstep b l (Production.consumeKeyword word) (Production.consumeKeyword word) l.pass :=
  consumeIf checkKeyword

theorem consumeWord {word : String} :
    L.Lockstep b l (Production.consumeWord word) (Production.consumeWord word) l.pass :=
  consumeIf checkWord

theorem consumeAny {kinds : List TokenKind} [h : Outside .eof kinds] :
    L.Lockstep b l (Production.consumeAny kinds) (Production.consumeAny kinds) l.pass := by
  refine consumeIf (readTest (f := fun p => kinds.contains p.current.kind) (fun _ => rfl)
    (fun p q h => by rw [h.current.kind]) fun p hp => ?_)
  rw [Parser.atEnd, Token.isEof, beq_iff_eq]
  intro he
  rw [he] at hp
  exact h.notMem (by simpa using hp)

theorem consumeKeywords {first second : Keyword} [Certain (TokenKind.keyword first).isOpen] :
    L.Lockstep b l (Production.consumeKeywords first second)
      (Production.consumeKeywords first second) l.pass := by
  refine .bindIf .checkKeywords (.bind .advance fun _ => .bind .advance fun _ => .ret (h := ?_))
    (.ret (h := ?_)) <;> cases l <;> constructor

theorem skipKeyword {word : Keyword} :
    L.Lockstep b l (Production.skipKeyword word) (Production.skipKeyword word) fun _ => l.any :=
  .weak (.discard (.mono .consumeKeyword (.refl _) fun _ => .start _))

theorem skipWord {word : String} :
    L.Lockstep b l (Production.skipWord word) (Production.skipWord word) fun _ => l.any :=
  .weak (.discard (.mono .consumeWord (.refl _) fun _ => .start _))

/-! ## Failing -/

theorem expected {what : String} {k : α → Level}
    (hwhat : what ≠ "more input" ∧ what ≠ "shorter text") :
    L.Lockstep b l (Production.expected what) (Production.expected what) k :=
  fun _ _ p q hpq _ => .error (L.expects hpq hwhat.1 hwhat.2) (.refl p) (.refl q)

theorem fail {t t' : Token} {cause : ParseCause} {k : α → Level} [h : Certain cause.isPlain] :
    (L.noting t t').Lockstep b l (Production.fail cause t.span) (Production.fail cause t'.span) k :=
  fun _ _ p q hpq _ => .error ⟨L.fails hpq.1 hpq.2 (ParseCause.isOwn_of_isPlain h.holds)
    (ParseCause.due_of_isPlain h.holds p), hpq.2⟩ (.refl p) (.refl q)

theorem require {feature : Feature} {t t' : Token} :
    (L.noting t t').Lockstep b l (Production.require feature t.span)
      (Production.require feature t'.span) fun _ => l :=
  .bind .dialect fun _ => .ite (fun _ => .ret) fun _ => .fail

theorem spelling_ne_guard (word : Keyword) :
    word.spelling ≠ "more input" ∧ word.spelling ≠ "shorter text" := by
  have hguard (what : String) (h : Keyword.ofString? what = none) : word.spelling ≠ what := by
    rintro rfl
    rw [Keyword.ofString?_spelling] at h
    cases h
  exact ⟨hguard _ (by decide +kernel), hguard _ (by decide +kernel)⟩

theorem describe_ne_guard (k : TokenKind) :
    k.describe ≠ "more input" ∧ k.describe ≠ "shorter text" := by
  cases k with
  | keyword word => exact spelling_ne_guard word
  | _ => decide

theorem expect {k : TokenKind} [h : Certain k.isMore] :
    L.Lockstep b l (Production.expect k) (Production.expect k) fun _ => .moved :=
  .strict (.bindIf .consume .ret
    (.expected (describe_ne_guard k)))

theorem expectKeyword {word : Keyword} :
    L.Lockstep b l (Production.expectKeyword word) (Production.expectKeyword word)
      fun _ => .moved :=
  .strict (.bindIf .consumeKeyword .ret
    (.expected (spelling_ne_guard word)))

theorem expectWord {word : String} (hword : word ≠ "more input" ∧ word ≠ "shorter text") :
    L.Lockstep b l (Production.expectWord word) (Production.expectWord word)
      fun _ => .moved :=
  .strict (.bindIf .consumeWord .ret (.expected hword))

/-! ## Names -/

theorem takeLiteral :
    L.Lockstep b l Production.takeLiteral Production.takeLiteral fun _ => l.next := by
  refine .bindCurrent fun t t' ht => .bind .advance fun _ => ?_
  rw [ht.literal]
  exact .ret

theorem takeTested :
    L.Lockstep b (l.test true) Production.takeLiteral Production.takeLiteral fun _ => .moved := by
  cases l <;> exact takeLiteral

theorem name : L.Lockstep b l Production.name Production.name fun _ => .moved :=
  .strict (.bindIf .atName .takeLiteral (.expected (by decide)))

theorem trailingName? :
    L.Lockstep b l Production.trailingName? Production.trailingName? l.item := by
  refine .bindGetIf (fun _ _ h => h.atTrailingName) (fun p hp => ?_)
    (.bind .takeLiteral fun _ => .ret (h := ?_)) (.ret (h := ?_))
  · have hname : p.current.isIdentifier := by
      simp only [Parser.atTrailingName, Bool.and_eq_true] at hp
      exact hp.1.1.1
    rw [Parser.atEnd, Token.isEof, beq_iff_eq]
    intro hk
    rw [Token.isIdentifier, hk] at hname
    cases hname
  · cases l <;> constructor
  · cases l <;> constructor

/-! ## Repetition -/

section

variable {σ : Type} {round round' : σ → Production (Production.Step σ α)}

/-- Round by round, since a round that is not done leaves less text. -/
theorem loop_outcome (h : ∀ s, L.Lockstep b .start (round s) (round' s) Production.Step.level)
    {p q : Parser} (hpq : L.state p q) (hb : Level.start.Holds b p q) (s : σ) :
    Outcome L (p, q) p q (fun _ => .start) (Production.loop round s p)
      (Production.loop round' s q) := by
  induction hn : p.remaining using Nat.strong_induction_on generalizing p q s with
  | _ n ih =>
    subst hn
    have hround := h s (p, q) hb p q hpq ⟨.refl p, .refl q⟩
    rw [Production.loop, Production.loop]
    revert hround
    generalize round s p = r, round' s q = r'
    intro hround
    have hrest {s' : σ} {p' q' : Parser} (hs : L.state p' q') (hmoved : Level.moved.Holds (p, q) p' q') :
        Outcome L (p, q) p' q' (fun _ => .start) (Production.loop round s' p')
          (Production.loop round' s' q') :=
      (ih _ hmoved.1.remaining hs (hb.any hmoved.1.notBefore hmoved.2.notBefore) s' rfl).relevel hs
        fun _ _ _ _ _ h => h.of_later ⟨hmoved.1.notBefore, hmoved.2.notBefore⟩
    cases hround with
    | error hf hl hr => exact .error hf hl hr
    | @ok step p' q' hs hl hr hk =>
      cases step with
      | done value => exact .ok hs hl hr hk
      | more s' =>
        dsimp only
        rw [if_pos hk.1.remaining, if_pos hk.2.remaining]
        exact (hrest hs hk).trans hl hr
    | past h =>
      cases h with
      | error hpast hl => exact .past (.error hpast hl)
      | @ok step p' hpast hl hk =>
        cases step with
        | done value => exact .past (.ok hpast hl hk)
        | more s' =>
          dsimp only
          rw [if_pos hk.1.remaining]
          exact .past ((hrest (L.limit.self hpast) hk).carry hpast hl)

theorem loop {s : σ}
    (h : ∀ s, L.Lockstep b .start (round s) (round' s) Production.Step.level) :
    L.Lockstep b l (Production.loop round s) (Production.loop round' s) fun _ => l.any := by
  refine .weak fun e he p q hpq hlevel => ?_
  have hloop := loop_outcome h hpq (he.any hlevel.1 hlevel.2) s
  exact hloop.relevel hpq fun _ _ _ _ _ hk => hlevel.any hk.1 hk.2

/-- A loop is its first round, and the rest of the rounds behind it. -/
theorem loop_first {s : σ}
    (h : ∀ s, L.Lockstep b .start (round s) (round' s) Production.Step.level)
    (hfirst : L.Lockstep b .start (round s) (round' s) fun
      | .more _ => .moved
      | .done value => k value)
    (hk : ∀ a, (k a).Follows .moved) :
    L.Lockstep b .start (Production.loop round s) (Production.loop round' s) k := by
  intro e he p q hpq hlevel
  have hb : Level.start.Holds b p q := he.any hlevel.1 hlevel.2
  have hround := hfirst (p, q) hb p q hpq ⟨.refl p, .refl q⟩
  rw [Production.loop, Production.loop]
  revert hround
  generalize round s p = r, round' s q = r'
  intro hround
  have hrest {s' : σ} {p' q' : Parser} (hs : L.state p' q') (hk' : Level.moved.Holds (p, q) p' q') :
      Outcome L e p' q' k (Production.loop round s' p') (Production.loop round' s' q') := by
    have hmoved : Level.moved.Holds e p' q' := hk'.of_later hlevel
    refine (loop_outcome h hs (hb.any hk'.1.notBefore hk'.2.notBefore) s').relevel hs ?_
    exact fun a _ _ _ _ hlater => (hk a).holds (hmoved.any hlater.1 hlater.2)
  cases hround with
  | error hf hl hr => exact .error hf hl hr
  | @ok step p' q' hs hl hr hk' =>
    cases step with
    | done value => exact .ok hs hl hr (hk'.of_later (e := (p, q)) hlevel)
    | more s' =>
      dsimp only
      rw [if_pos hk'.1.remaining, if_pos hk'.2.remaining]
      exact (hrest hs hk').trans hl hr
  | past h =>
    cases h with
    | error hpast hl => exact .past (.error hpast hl)
    | @ok step p' hpast hl hk' =>
      cases step with
      | done value => exact .past (.ok hpast hl (hk'.of_later (e := (p, q)) hlevel))
      | more s' =>
        dsimp only
        rw [if_pos hk'.1.remaining]
        exact .past ((hrest (L.limit.self hpast) hk').carry hpast hl)

end

/-- A production that may find an item, and passes it then. -/
theorem item {item? item?' : Production (Option α)}
    (h : L.Lockstep b .start item? item?' Level.start.item) : L.Lockstep b l item? item?' l.item :=
  h.anywhere.mono (.refl _) fun a => by cases l <;> cases a <;> constructor

/-- A production that may find items, and passes them then. -/
theorem items {items items' : Production (List α)}
    (h : L.Lockstep b .start items items' Level.start.items) : L.Lockstep b l items items' l.items :=
  h.anywhere.mono (.refl _) fun found => by cases l <;> cases found <;> constructor

/-- Where items were found, something was passed. -/
theorem many {item? item?' : Production (Option α)}
    (h : L.Lockstep b .start item? item?' Level.start.item) :
    L.Lockstep b l (Production.many item?) (Production.many item?') l.items := by
  refine .items (loop_first (fun items => h.bind fun x => ?_) (h.bind fun x => ?_) fun items => ?_)
  · cases x <;> exact .ret
  · cases x <;> exact .ret (h := .refl _)
  · cases items <;> constructor

/-- A list of items that can each stand at its beginning. -/
theorem list {item item' : Production α} (h : L.Lockstep b l.any item item' fun _ => .moved) :
    L.Lockstep b l (Production.list item) (Production.list item') fun _ => .moved := by
  have hfirst : L.Lockstep b l item item' fun _ => .moved :=
    h.mono (by cases l <;> constructor) fun _ => .refl _
  have hother : L.Lockstep b .moved item item' fun _ => .moved :=
    h.mono (by cases l <;> constructor) fun _ => .refl _
  exact .bind hfirst fun _ => .bind (.many (.bindIf .consume (.mapSome hother) .ret)) fun _ => .ret

/-! ## Constructs of several tokens -/

theorem behind {word : Keyword} {item item' : Production α}
    (h : L.Lockstep b .moved item item' fun _ => .moved) :
    L.Lockstep b l (Production.behind word item) (Production.behind word item') l.item :=
  .item (.bindIf .consumeKeyword (.mapSome h) .ret)

theorem inParens {item item' : Production α}
    (h : L.Lockstep b .moved item item' fun _ => .moved) :
    L.Lockstep b l (Production.inParens item) (Production.inParens item') fun _ => .moved :=
  .bind .expect fun _ => .bind h fun _ => .bind .expect fun _ => .ret

theorem skipParens :
    L.Lockstep b l Production.skipParens Production.skipParens fun _ => .moved := by
  refine .bind .expect fun _ => .loop fun depth => .bind .kind fun k => ?_
  split
  · exact .expected (by decide)
  · exact .bind .advance fun _ => .ret
  · refine .bind .advance fun _ => .ret (h := ?_)
    split <;> constructor
  · next hk _ _ =>
    rw [Level.before_of_ne hk]
    exact .bind .advance fun _ => .ret

/-! ## Errors, depth and pools -/

theorem skipWhile {condition : Parser → Bool}
    (hc : ∀ p q, p.AlikeHere L.place L.how q → condition p = condition q) {p q : Parser}
    (hpq : L.state p q) :
    L.state (p.skipWhile condition) (q.skipWhile condition) ∨ L.limit.past (p.skipWhile condition) := by
  induction hn : p.remaining using Nat.strong_induction_on generalizing p q with
  | _ n ih =>
    subst hn
    rw [Parser.skipWhile.eq_def p, Parser.skipWhile.eq_def q, hc p q (L.alike hpq)]
    by_cases h : condition q
    · rw [if_pos h, if_pos h]
      by_cases he : p.atEnd
      · have hq : q.atEnd := (L.alike hpq).atEnd ▸ he
        rw [if_neg (by rw [Parser.remaining.eq_def p, if_pos he]; exact Nat.not_lt_zero _),
          if_neg (by rw [Parser.remaining.eq_def q, if_pos hq]; exact Nat.not_lt_zero _)]
        exact L.advance hpq
      · have hq : ¬q.atEnd := (L.alike hpq).atEnd ▸ he
        have hp := ((L.left hpq).beyond_advance he).remaining
        rw [if_pos hp, if_pos ((L.right hpq).beyond_advance hq).remaining]
        rcases L.advance hpq with hs | hpast
        · exact ih _ hp hs rfl
        · exact .inr (L.limit.reaches hpast (.skipWhile _ _))
    · rw [if_neg h, if_neg h]
      exact .inl hpq

theorem state_synchronize {p q : Parser} (hpq : L.state p q) :
    L.state p.synchronize q.synchronize ∨ L.limit.past p.synchronize := by
  have hskip : L.state (p.skipWhile fun p => !p.atTerminator) (q.skipWhile fun p => !p.atTerminator) ∨
      L.limit.past (p.skipWhile fun p => !p.atTerminator) :=
    skipWhile (fun p q h => by rw [h.atTerminator]) hpq
  rcases hskip with hs | hpast
  · exact skipWhile (fun p q h => by rw [h.cancelled, h.current.kind, h.atBatchSeparator]) hs
  · exact .inr (L.limit.reaches hpast (.skipWhile _ _))

/-- The record of an error and the way to the next statement. Before a token that ends no statement,
something is passed even if the production fails at once. -/
theorem recovering_outcome {p q : Parser} {b : Parser × Parser}
    (h : L.Lockstep b .start m m' fun _ => .moved) (hpq : L.state p q)
    (hb : Level.start.Holds b p q) (ht : ¬p.atTerminator) :
    Outcome L (p, q) p q (fun _ => .moved) (Production.recovering m p)
      (Production.recovering m' q) := by
  have hm := h (p, q) hb p q hpq ⟨.refl p, .refl q⟩
  rw [Production.recovering, Production.recovering]
  revert hm
  generalize m p = r, m' q = r'
  intro hm
  have hrecord (x : Parser) (e : ParseError) : x.Reaches (x.record e) :=
    .of_course (by rw [Parser.record]; split <;> rfl)
  have hbehind {x : Parser} (hl : p.Reaches x) : Parser.Beyond p x.synchronize :=
    hl.beyond_synchronize (L.left hpq) ht
  have hself {x : Parser} (hpast : L.limit.past x.synchronize) (hl : p.Reaches x) :
      Level.moved.Holds (p, q) x.synchronize x.synchronize :=
    ⟨hbehind hl, (L.limit.shorter hpast hpq).trans_beyond (hbehind hl)⟩
  cases hm with
  | ok hs hl hr hk => exact .ok hs hl hr hk
  | past h =>
    cases h with
    | ok hpast hl hk => exact .past (.ok hpast hl hk)
    | @error e p' hpast hl =>
      dsimp only
      cases p'.recovering && !p'.cancelled with
      | false => exact .past (.error hpast hl)
      | true =>
        have hleft := hl.trans (hrecord p' e)
        have hpast' := L.limit.reaches hpast ((hrecord p' e).trans (.synchronize _))
        exact .past (.ok hpast' (hleft.trans (.synchronize _)) (hself hpast' hleft))
  | @error e e' p' q' hf hl hr =>
    have halike := L.failed_alike hf
    dsimp only
    rw [← halike.recovering, ← halike.cancelled]
    cases hrc : p'.recovering && !p'.cancelled with
    | false => exact .error hf hl hr
    | true =>
      simp only [Bool.and_eq_true, Bool.not_eq_true'] at hrc
      have hstate := L.record hf hrc.1 hrc.2
      have hleft := hl.trans (hrecord p' e)
      have hright := hr.trans (hrecord q' e')
      have hq : ¬q.atTerminator := (L.alike hpq).atTerminator ▸ ht
      rcases state_synchronize hstate with hs | hpast
      · exact .ok hs (hleft.trans (.synchronize _)) (hright.trans (.synchronize _))
          ⟨hbehind hleft, hright.beyond_synchronize (L.right hpq) hq⟩
      · exact .past (.ok hpast (hleft.trans (.synchronize _)) (hself hpast hleft))

theorem skipSemicolons : L.Lockstep b l Production.skipSemicolons Production.skipSemicolons
    fun _ => l.any := by
  intro e _ p q hpq hlevel
  have hp : p.Reaches p.skipSemicolons := .skipWhile p _
  have hq : q.Reaches q.skipSemicolons := .skipWhile q _
  have hbehind := hp.notBefore (L.left hpq)
  have hskip : L.state p.skipSemicolons q.skipSemicolons ∨ L.limit.past p.skipSemicolons :=
    skipWhile (fun p q h => by rw [h.current.kind]) hpq
  rcases hskip with hs | hpast
  · exact .ok hs hp hq (hlevel.any hbehind (hq.notBefore (L.right hpq)))
  · have hself := hlevel.self (L.limit.shorter hpast hpq)
    exact .past (.ok hpast hp (hself.any hbehind hbehind))

theorem inRoutine (h : L.Lockstep b l m m' k) :
    L.Lockstep b l (Production.inRoutine m) (Production.inRoutine m') k := by
  intro e he p q hpq hlevel
  have hsame (n : ℕ) (x : Parser) :
      Parser.remaining { x with routineDepth := n } = x.remaining ∧
      Parser.extent { x with routineDepth := n } = x.extent ∧
      Parser.atEnd { x with routineDepth := n } = x.atEnd := ⟨rfl, rfl, rfl⟩
  have hm := h e he _ _ (L.atDepth (p.routineDepth + 1) hpq) (hlevel.update (hsame _) (hsame _))
  rw [Production.inRoutine, Production.inRoutine, ← (L.alike hpq).routineDepth]
  -- the depth behind the production is the one inside of it, so one less is the one before it
  have hback {x y : Parser} (hxy : Parser.Reaches { x with routineDepth := p.routineDepth + 1 } y) :
      y.routineDepth - 1 = p.routineDepth := by rw [hxy.routineDepth]; rfl
  revert hm
  generalize m _ = r, m' _ = r'
  intro hm
  cases hm with
  | ok hs hl hr hk =>
    dsimp only
    rw [hback hl, hback hr]
    have hright := hr.atDepth
    rw [← (L.alike hpq).routineDepth] at hright
    exact .ok (L.atDepth _ hs) hl.atDepth hright (hk.update (hsame _) (hsame _))
  | error hf hl hr =>
    dsimp only
    rw [hback hl, hback hr]
    have hright := hr.atDepth
    rw [← (L.alike hpq).routineDepth] at hright
    exact .error (L.failed_atDepth _ hf) hl.atDepth hright
  | past h =>
    cases h with
    | ok hpast hl hk =>
      dsimp only
      rw [hback hl]
      exact .past (.ok (L.limit.atDepth _ hpast) hl.atDepth (hk.update (hsame _) (hsame _)))
    | error hpast hl =>
      dsimp only
      rw [hback hl]
      exact .past (.error (L.limit.atDepth _ hpast) hl.atDepth)

theorem reaches_withPools {p q : Parser} (h : p.Reaches q) (pools : Pools) :
    p.Reaches { q with pools } := h.trans (.of_course rfl)

theorem onFailure {change : Pools → Pools} (h : L.Lockstep b l m m' k)
    (hc : Pools.Steady change) :
    L.Lockstep b l (Production.onFailure m change) (Production.onFailure m' change) k := by
  intro e he p q hpq hlevel
  have hm := h e he p q hpq hlevel
  rw [Production.onFailure, Production.onFailure]
  revert hm
  generalize m p = r, m' q = r'
  intro hm
  cases hm with
  | ok hs hl hr hk => exact .ok hs hl hr hk
  | error hf hl hr =>
    exact .error (L.failed_withPools hf ((L.failed_alike hf).pools.update hc))
      (reaches_withPools hl _) (reaches_withPools hr _)
  | past h =>
    cases h with
    | ok hpast hl hk => exact .past (.ok hpast hl hk)
    | error hpast hl =>
      exact .past (.error (L.limit.reaches hpast (reaches_withPools (.refl _) _))
        (reaches_withPools hl _))

/-- A node is taken from pools that are alike. -/
theorem acquire {α : Type} {f : Pools → α × Pools}
    (hnode : ∀ P Q : Pools, P.Alike L.how Q → (f P).1 = (f Q).1)
    (hpools : Pools.Steady fun pools => (f pools).2) :
    L.Lockstep b l
      (modifyGet fun p => ((f p.pools).1, { p with pools := (f p.pools).2 }))
      (modifyGet fun p => ((f p.pools).1, { p with pools := (f p.pools).2 }))
      fun _ => l := by
  intro e he p q hpq hlevel
  have hpools' := (L.alike hpq).pools
  have hsame (pools : Pools) (x : Parser) : Parser.remaining { x with pools } = x.remaining ∧
      Parser.extent { x with pools } = x.extent ∧ Parser.atEnd { x with pools } = x.atEnd :=
    ⟨rfl, rfl, rfl⟩
  have hok : Outcome L e p q (fun _ => l) (.ok (f p.pools).1 { p with pools := (f p.pools).2 })
      (.ok (f p.pools).1 { q with pools := (f q.pools).2 }) := .ok
    (L.withPools hpq (hpools'.update hpools)) (reaches_withPools (.refl p) (f p.pools).2)
    (reaches_withPools (.refl q) (f q.pools).2) (hlevel.update (hsame _) (hsame _))
  have hvalue := hnode _ _ hpools'
  change Outcome L e p q (fun _ => l) (.ok (f p.pools).1 { p with pools := (f p.pools).2 })
    (.ok (f q.pools).1 { q with pools := (f q.pools).2 })
  rw [← hvalue]
  exact hok

theorem acquireSelect :
    L.Lockstep b l Production.acquireSelect Production.acquireSelect fun _ => l :=
  acquire (f := fun pools =>
      (pools.select.acquire.1, { pools with select := pools.select.acquire.2 }))
    (fun _ _ h => h.node (f := Pools.select) fun _ => Pools.IsFresh.select) (.taken .select)

theorem acquireBinary :
    L.Lockstep b l Production.acquireBinary Production.acquireBinary fun _ => l :=
  acquire (f := fun pools =>
      (pools.binary.acquire.1, { pools with binary := pools.binary.acquire.2 }))
    (fun _ _ h => h.node (f := Pools.binary) fun _ => Pools.IsFresh.binary) (.taken .binary)

theorem acquireColumn :
    L.Lockstep b l Production.acquireColumn Production.acquireColumn fun _ => l :=
  acquire (f := fun pools =>
      (pools.column.acquire.1, { pools with column := pools.column.acquire.2 }))
    (fun _ _ h => h.node (f := Pools.column) fun _ => Pools.IsFresh.column) (.taken .column)

theorem acquireJoin : L.Lockstep b l Production.acquireJoin Production.acquireJoin fun _ => l :=
  acquire (f := fun pools =>
      (pools.join.acquire.1, { pools with join := pools.join.acquire.2 }))
    (fun _ _ h => h.node (f := Pools.join) fun _ => Pools.IsFresh.join) (.taken .join)

end Lockstep

end Likeness

end SqlFrontend
