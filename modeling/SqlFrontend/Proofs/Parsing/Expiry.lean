import SqlFrontend.Proofs.Parsing.Ending

/-!
# Productions when time is over

A parser whose time is over is cancelled by the first token that it would pass. From then on it stands at
the end of the text, and every error says that the time is over.

Results:
* `Parser.Expiring`: time is over, and no token was passed since.
* `Production.Expires`: such a parser fails at its current token, or passes that token and is stopped.
* `Expires.bind`, `Expires.bindLook`: what stands behind the token that is passed, and before it.
-/

namespace SqlFrontend

namespace Parser

/-- Time is over, and the current token, of a kind, was not passed yet. Lists of statements end at an
error. -/
structure Expiring (k : TokenKind) (p : Parser) : Prop where
  kind : p.current.kind = k
  expired : p.expired
  running : p.cancelled = false
  strict : p.recovering = false

variable {k : TokenKind} {p q : Parser}

theorem Expiring.not_cancelled (h : p.Expiring k) : ¬p.cancelled := by
  simp [h.running]

theorem Expiring.advance (h : p.Expiring k) : p.advance = p.cancel := advance_of_expired h.expired

/-- Behind the first token a parser is stopped, and stands at the end of the text. -/
theorem Expiring.cancel (h : p.Expiring k) : p.cancel.cancelled ∧ p.cancel.Last .eof := by
  rw [Parser.cancel, if_neg h.not_cancelled]
  exact ⟨rfl, rfl, rfl, h.strict⟩

theorem Expiring.cancel_withPools (h : p.Expiring k) (pools : Pools) :
    Parser.cancel { p with pools } = { p.cancel with pools } := by
  have hpools : Expiring k { p with pools } := ⟨h.kind, h.expired, h.running, h.strict⟩
  rw [← hpools.advance, ← h.advance, advance_withPools]

theorem Stays.last (h : p.Stays q) (hp : p.Last k) : q.Last k := by
  rw [h]
  exact ⟨hp.kind, hp.peek, hp.strict⟩

end Parser

namespace Production

/-- Behind the token that was passed last, a parser stays. -/
theorem Ends.advance {k : TokenKind} : Ends true k Production.advance fun _ => True := by
  intro p hp hc
  rw [run_advance, Parser.advance_of_cancelled (hc rfl)]
  exact ⟨trivial, hp, fun _ => .refl p⟩

/-- A production that only looks at its parser. -/
def Looks {α : Type} (m : Production α) : Prop := ∀ p, ∃ a, m p = .ok a p

namespace Looks

variable {α β : Type} {m n : Production α} {f : α → Production β}

theorem ret {a : α} : Looks (pure a) := fun _ => ⟨a, rfl⟩

theorem bind (h : Looks m) (hf : ∀ a, Looks (f a)) : Looks (m >>= f) := by
  intro p
  obtain ⟨a, hm⟩ := h p
  obtain ⟨b, hb⟩ := hf a p
  refine ⟨b, ?_⟩
  rw [run_bind, hm]
  exact hb

theorem get : Looks (MonadState.get : Production Parser) := fun p => ⟨p, rfl⟩

theorem kind : Looks Production.kind := fun _ => ⟨_, rfl⟩

theorem peekKind : Looks Production.peekKind := fun _ => ⟨_, rfl⟩

theorem check {k : TokenKind} : Looks (Production.check k) := fun _ => ⟨_, rfl⟩

theorem checkPeek {k : TokenKind} : Looks (Production.checkPeek k) := fun _ => ⟨_, rfl⟩

theorem span : Looks Production.span := fun _ => ⟨_, rfl⟩

theorem atName : Looks Production.atName := fun _ => ⟨_, rfl⟩

theorem dialect : Looks Production.dialect := fun _ => ⟨_, rfl⟩

end Looks

/-- What time has left of a production: it passed the current token and was stopped, or it failed, at that
token or behind it for want of time. -/
def TimedOut {α : Type} (p : Parser) (S : α → Prop) : EStateM.Result ParseError Parser α → Prop
  | .ok a q => S a ∧ p.cancel.Stays q
  | .error e q => e.isCancelled ∧ p.cancel.Stays q ∨
      ¬e.isCancelled ∧ e.span = p.current.span ∧ p.Stays q

/-- When time is over, a production fails at the current token, or passes it and is stopped. -/
def Expires {α : Type} (k : TokenKind) (m : Production α) (S : α → Prop) : Prop :=
  ∀ p : Parser, p.Expiring k → TimedOut p S (m p)

namespace Expires

variable {α β : Type} {k : TokenKind} {m n : Production α} {S S' : α → Prop} {f : α → Production β}
  {T : β → Prop}

/-! ## Sequences -/

theorem mono (h : Expires k m S) (hS : ∀ a, S a → S' a) : Expires k m S' := by
  intro p hp
  have hm := h p hp
  revert hm
  cases m p with
  | ok a p' => exact fun hm => ⟨hS a hm.1, hm.2⟩
  | error e p' => exact id

/-- What stands behind the token that is passed is read at the end of the text. -/
theorem bind (h : Expires k m S) (hf : ∀ a, S a → Ends true .eof (f a) T) :
    Expires k (m >>= f) T := by
  intro p hp
  have hm := h p hp
  rw [run_bind]
  revert hm
  cases m p with
  | error e p' => exact id
  | ok a p' =>
    intro hm
    have hbehind := hf a hm.1 p' (hm.2.last hp.cancel.2) fun _ => hm.2.cancelled.trans hp.cancel.1
    revert hbehind
    dsimp only
    cases f a p' with
    | ok b p'' => exact fun hb => ⟨hb.1, hm.2.trans (hb.2.2 rfl)⟩
    | error e p'' => exact fun hb => .inl ⟨(hb.2 rfl).1, hm.2.trans (hb.2 rfl).2⟩

/-- What is missing behind the token that is passed. -/
theorem fails (h : Expires k m fun _ => True) (hf : ∀ a, Ends true .eof (f a) fun _ => False) :
    Expires k (m >>= f) T := (h.bind fun a _ => hf a).mono fun _ => False.elim

theorem map {g : α → β} (h : Expires k m S) (hg : ∀ a, S a → T (g a)) : Expires k (g <$> m) T := by
  rw [map_eq_pure_bind]
  exact h.bind fun a ha => .ret (hg a ha)

/-- What is looked at before a token is passed. -/
theorem bindLook {S : α → Prop} (h : ∀ p, p.Expiring k → ∃ a, m p = .ok a p ∧ S a)
    (hf : ∀ a, S a → Expires k (f a) T) : Expires k (m >>= f) T := by
  intro p hp
  obtain ⟨a, hm, ha⟩ := h p hp
  rw [run_bind, hm]
  exact hf a ha p hp

/-- What is looked at before a token is passed, where nothing is known of it. -/
theorem bindLooks (h : Looks m) (hf : ∀ a, Expires k (f a) T) : Expires k (m >>= f) T :=
  bindLook (S := fun _ => True) (fun p _ => (h p).imp fun _ hm => ⟨hm, trivial⟩) fun a _ => hf a

theorem expected {what : String} : Expires k (Production.expected what) S := by
  intro p hp
  have herror : p.expectedError what = .unexpected what p.current := if_neg hp.not_cancelled
  rw [run_expected, herror]
  exact .inr ⟨Bool.false_ne_true, rfl, .refl p⟩

theorem ite {c : Prop} [Decidable c] (hthen : c → Expires k m S) (helse : ¬c → Expires k n S) :
    Expires k (if c then m else n) S := by
  split
  · next h => exact hthen h
  · next h => exact helse h

/-! ## The current token -/

theorem advance : Expires k Production.advance fun _ => True := by
  intro p hp
  rw [run_advance, hp.advance]
  exact ⟨trivial, .refl _⟩

theorem takeLiteral : Expires k Production.takeLiteral fun _ => True := by
  intro p hp
  rw [run_takeLiteral, hp.advance]
  exact ⟨trivial, .refl _⟩

/-- What is read by the kind of the current token. -/
theorem bindKind {f : TokenKind → Production β} (h : Expires k (f k) T) :
    Expires k (Production.kind >>= f) T := by
  refine bindLook (S := (· = k)) (fun p hp => ⟨p.current.kind, rfl, hp.kind⟩) fun k' hk => ?_
  rw [hk]
  exact h

theorem bindCheck {kind : TokenKind} {f : Bool → Production β} (h : Expires k (f (k == kind)) T) :
    Expires k (Production.check kind >>= f) T := by
  refine bindLook (S := (· = (k == kind))) (fun p hp => ⟨_, rfl, by rw [hp.kind]⟩) fun x hx => ?_
  rw [hx]
  exact h

theorem consume : Expires k (Production.consume k) (· = true) := by
  intro p hp
  rw [run_consume, if_pos hp.kind, hp.advance]
  exact ⟨rfl, .refl _⟩

/-- A keyword that does not stand here. -/
theorem bindMissed {word : Keyword} {f : Bool → Production β} (hk : k ≠ .keyword word)
    (h : Expires k (f false) T) : Expires k (Production.consumeKeyword word >>= f) T := by
  refine bindLook (S := (· = false)) (fun p hp => ⟨false, ?_, rfl⟩) fun x hx => ?_
  · rw [run_consumeKeyword, hp.kind, if_neg hk]
  · rw [hx]
    exact h

theorem expect : Expires k (Production.expect k) fun _ => True := by
  intro p hp
  rw [run_expect, if_pos hp.kind, hp.advance]
  exact ⟨trivial, .refl _⟩

theorem expectKeyword {word : Keyword} :
    Expires (.keyword word) (Production.expectKeyword word) fun _ => True := by
  intro p hp
  rw [run_expectKeyword, if_pos hp.kind, hp.advance]
  exact ⟨trivial, .refl _⟩

/-- A name, where it is not known whether one stands here. -/
theorem name : Expires k Production.name fun _ => True :=
  bindLooks .atName fun _ => ite (fun _ => takeLiteral) fun _ => expected

theorem list {item : Production α} (h : Expires k item fun _ => False) {S : List α → Prop} :
    Expires k (Production.list item) S := h.bind fun _ => False.elim

/-! ## Pools -/

theorem onFailure {change : Pools → Pools} (h : Expires k m S) :
    Expires k (Production.onFailure m change) S := by
  intro p hp
  have hm := h p hp
  have hchange {p q : Parser} (hs : p.Stays q) : p.Stays { q with pools := change q.pools } := by
    rw [hs]
    rfl
  rw [Production.onFailure]
  revert hm
  cases m p with
  | ok a p' => exact id
  | error e p' =>
    exact fun hm => hm.imp (And.imp_right hchange) (And.imp_right (And.imp_right hchange))

/-- A node is taken from a pool before a token is passed. -/
theorem bindPools {g : Parser → α} {pools : Parser → Pools}
    (hm : ∀ p, m p = .ok (g p) { p with pools := pools p })
    (h : ∀ a, Expires k (f a) T) : Expires k (m >>= f) T := by
  intro p hp
  have hf := h (g p) { p with pools := pools p } ⟨hp.kind, hp.expired, hp.running, hp.strict⟩
  have hstays {q : Parser} (hs : Parser.Stays { p with pools := pools p } q) : p.Stays q := by
    rw [hs]
    rfl
  have hstopped {q : Parser} (hs : Parser.Stays (Parser.cancel { p with pools := pools p }) q) :
      p.cancel.Stays q := by
    rw [hp.cancel_withPools] at hs
    rw [hs]
    rfl
  rw [run_bind, hm]
  revert hf
  dsimp only
  cases f (g p) { p with pools := pools p } with
  | ok b q => exact fun hf => ⟨hf.1, hstopped hf.2⟩
  | error e q =>
    exact fun hf => hf.imp (And.imp_right hstopped) (And.imp_right (And.imp_right hstays))

end Expires

end Production

end SqlFrontend
