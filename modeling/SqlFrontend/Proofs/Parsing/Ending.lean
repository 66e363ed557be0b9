import Mathlib.Data.Nat.Notation
import SqlFrontend.Proofs.Lexing.Kinds
import SqlFrontend.Proofs.Parsing.Course
import SqlFrontend.Proofs.Parsing.Run

/-!
# Productions before the last token

A production that has to read something fails at the end of the text; one that may read something
stays there and gives what stands for nothing. The same holds before a last token that nothing begins
with.

Results:
* `Parser.Last`: the current token is of a kind, and no other is behind it.
* `Production.Ends`: before a last token, a production fails, or stays there and gives a value of a
  kind. A production that has to read something ends with values of any kind.
* `Ends.bind`, `Ends.loop`, `Ends.many`: the rules for putting productions together.
-/

namespace SqlFrontend

/-- The current token is of a kind, and no other is behind it. At the end of the text, that is the
end itself. Lists of statements end at an error. -/
structure Parser.Last (k : TokenKind) (p : Parser) : Prop where
  kind : p.current.kind = k
  peek : p.peek.isEof
  strict : p.recovering = false

/-- Behind a last token is the end of the text; a parser that was cancelled stays. -/
theorem Parser.Last.advance {k : TokenKind} {p : Parser} (h : p.Last k) :
    p.advance.current.kind = k ∨ p.advance.current.kind = .eof := by
  by_cases hcancelled : p.cancelled
  · rw [Parser.advance_of_cancelled hcancelled]
    exact .inl h.kind
  by_cases hexpired : p.expired
  · rw [Parser.advance, if_neg hcancelled, if_pos hexpired, Parser.cancel, if_neg hcancelled]
    exact .inr rfl
  · rw [Parser.advance_of_live hcancelled hexpired, Parser.countCurrent_eq]
    exact .inr (eq_of_beq h.peek)

/-- The same parser, but for its pools and the depth of routines. -/
def Parser.Stays (p q : Parser) : Prop :=
  q = { p with pools := q.pools, routineDepth := q.routineDepth }

theorem Parser.Stays.refl (p : Parser) : p.Stays p := rfl

theorem Parser.Stays.trans {p q r : Parser} (h : p.Stays q) (h' : q.Stays r) : p.Stays r := by
  rw [Parser.Stays, h'] at *
  rw [h]

theorem Parser.Stays.cancelled {p q : Parser} (h : p.Stays q) : q.cancelled = p.cancelled := by
  rw [h]

namespace Production

/-- Before a last token of a kind, a production fails, or stays there and gives a value of a kind. If the
reading was stopped for want of time, it stays there even if it fails, and says so. -/
def Ends {α : Type} (stopped : Bool) (k : TokenKind) (m : Production α) (S : α → Prop) : Prop :=
  ∀ p : Parser, p.Last k → (stopped = true → p.cancelled) → match m p with
    | .ok a p' => S a ∧ p'.Last k ∧ (stopped = true → p.Stays p')
    | .error e p' => p'.recovering = false ∧ (stopped = true → e.isCancelled ∧ p.Stays p')

namespace Ends

variable {α β σ : Type} {stopped : Bool} {k : TokenKind} {m n : Production α} {S : α → Prop}
  {f : α → Production β} {T : β → Prop}

/-! ## Sequences and choices -/

theorem mono {S' : α → Prop} (h : Ends stopped k m S) (hS : ∀ a, S a → S' a) :
    Ends stopped k m S' := by
  intro p hp hc
  have hm := h p hp hc
  revert hm
  cases m p with
  | ok a p' => exact fun hm => ⟨hS a hm.1, hm.2⟩
  | error e p' => exact id

theorem ret {a : α} (h : S a) : Ends stopped k (pure a) S := fun p hp _ => ⟨h, hp, fun _ => .refl p⟩

theorem bind (h : Ends stopped k m S) (hf : ∀ a, S a → Ends stopped k (f a) T) :
    Ends stopped k (m >>= f) T := by
  intro p hp hc
  have hm := h p hp hc
  rw [run_bind]
  revert hm
  cases m p with
  | error e p' => exact id
  | ok a p' =>
    intro hm
    have hbehind := hf a hm.1 p' hm.2.1 fun hs => (hm.2.2 hs).cancelled.trans (hc hs)
    revert hbehind
    dsimp only
    cases f a p' with
    | ok b p'' => exact fun hb => ⟨hb.1, hb.2.1, fun hs => (hm.2.2 hs).trans (hb.2.2 hs)⟩
    | error e p'' =>
      exact fun hb => ⟨hb.1, fun hs => ⟨(hb.2 hs).1, (hm.2.2 hs).trans (hb.2 hs).2⟩⟩

/-- What fails fails with anything behind it. -/
theorem fails (h : Ends stopped k m fun _ => False) : Ends stopped k (m >>= f) T := h.bind fun _ => False.elim

theorem map {g : α → β} (h : Ends stopped k m S) (hg : ∀ a, S a → T (g a)) : Ends stopped k (g <$> m) T := by
  rw [map_eq_pure_bind]
  exact h.bind fun a ha => ret (hg a ha)

theorem discard (h : Ends stopped k m S) : Ends stopped k (Functor.discard m) fun _ => True :=
  h.map fun _ _ => trivial

theorem ite {c : Prop} [Decidable c] (hthen : c → Ends stopped k m S) (helse : ¬c → Ends stopped k n S) :
    Ends stopped k (if c then m else n) S := by
  split
  · next h => exact hthen h
  · next h => exact helse h

theorem expected {what : String} : Ends stopped k (Production.expected what) S := by
  refine fun p hp hc => ⟨hp.strict, fun hs => ⟨?_, .refl p⟩⟩
  rw [Parser.expectedError, if_pos (hc hs)]
  rfl

/-- Where time is left, any error will do. -/
theorem fail {cause : ParseCause} {place : Span} : Ends false k (Production.fail cause place) S :=
  fun _ hp _ => ⟨hp.strict, fun hs => Bool.noConfusion hs⟩

/-- A last token is passed, and what has to follow is missing. -/
theorem ofPassed (what : String)
    (h : ∀ p : Parser, p.Last k → m p = .error (p.advance.expectedError what) p.advance) :
    Ends false k m S := by
  intro p hp _
  rw [h p hp]
  exact ⟨(Parser.Reaches.advance p).recovering.trans hp.strict, fun hs => Bool.noConfusion hs⟩

section

variable {t s : Production Bool}

/-- A choice by a test that does not pass. -/
theorem bindIf (ht : Ends stopped k t (· = false)) (h : Ends stopped k n S) :
    Ends stopped k (t >>= fun x => if x = true then m else n) S :=
  ht.bind fun x hx => by
    rw [hx]
    exact h

/-- A choice by two tests of which the first does not pass. -/
theorem bindAnd {f : Bool → Bool} (ht : Ends stopped k t (· = false)) (hs : Ends stopped k s fun _ => True)
    (h : Ends stopped k n S) : Ends stopped k (t >>= fun x => s >>= fun y => if (x && f y) = true then m else n) S :=
  ht.bind fun x hx => hs.bind fun y _ => by
    rw [hx]
    exact h

/-- A choice by two tests of which none passes. -/
theorem bindOr (ht : Ends stopped k t (· = false)) (hs : Ends stopped k s (· = false)) (h : Ends stopped k n S) :
    Ends stopped k (t >>= fun x => s >>= fun y => if (x || y) = true then m else n) S :=
  ht.bind fun x hx => hs.bind fun y hy => by
    rw [hx, hy]
    exact h

end

/-! ## The current token -/

/-- A production that only looks at its parser. -/
theorem read {g : Parser → α} (hm : ∀ p, m p = .ok (g p) p) (hg : ∀ p, p.Last k → S (g p)) :
    Ends stopped k m S := by
  intro p hp _
  rw [hm]
  exact ⟨hg p hp, hp, fun _ => .refl p⟩

theorem bindGet {f : Parser → Production β} (h : ∀ p, p.Last k → Ends stopped k (f p) T) :
    Ends stopped k (get >>= f) T := fun p hp hc => h p hp p hp hc

theorem kind : Ends stopped k Production.kind (· = k) := read (fun _ => rfl) fun _ hp => hp.kind

/-- What is read by the kind of the current token. -/
theorem bindKind {f : TokenKind → Production β} (h : Ends stopped k (f k) T) :
    Ends stopped k (Production.kind >>= f) T :=
  kind.bind fun k' hk => by
    rw [hk]
    exact h

theorem span : Ends stopped k Production.span fun _ => True := read (fun _ => rfl) fun _ _ => trivial

theorem dialect : Ends stopped k Production.dialect fun _ => True := read (fun _ => rfl) fun _ _ => trivial

theorem current : Ends stopped k Production.current fun t => t.kind = k :=
  read (fun _ => rfl) fun _ hp => hp.kind

theorem peekKind : Ends stopped k Production.peekKind (· = .eof) :=
  read (fun _ => rfl) fun _ hp => eq_of_beq hp.peek

theorem checkPeek {kind : TokenKind} [h : Apart .eof kind] :
    Ends stopped k (Production.checkPeek kind) (· = false) :=
  peekKind.bind fun k' hpeek => by
    rw [hpeek]
    exact ret (beq_eq_false_iff_ne.2 h.ne)

theorem peekKeyword {word : Keyword} : Ends stopped k (Production.peekKeyword word) (· = false) :=
  checkPeek

theorem check {kind : TokenKind} [h : Apart k kind] :
    Ends stopped k (Production.check kind) (· = false) :=
  bindKind (ret (beq_eq_false_iff_ne.2 h.ne))

/-- A test of whatever token is the last one. -/
theorem checkAny {kind : TokenKind} : Ends stopped k (Production.check kind) fun _ => True :=
  bindKind (ret trivial)

theorem peekIsName : Ends stopped k Production.peekIsName (· = false) :=
  read (fun _ => rfl) fun p hp => by
    rw [Token.isName, show p.peek.kind = .eof from eq_of_beq hp.peek]

theorem checkKeyword {word : Keyword} [h : Apart k (.keyword word)] :
    Ends stopped k (Production.checkKeyword word) (· = false) := check

theorem checkKeywords {first second : Keyword} [h : Apart k (.keyword first)] :
    Ends stopped k (Production.checkKeywords first second) (· = false) := checkKeyword.bindIf (ret rfl)

theorem isWord {p : Parser} (hp : p.Last k) (hk : k ≠ .identifier) (word : String) :
    p.current.isWord word = false := by
  rw [Token.isWord, hp.kind, beq_eq_false_iff_ne.2 hk, Bool.false_and]

theorem checkWord {word : String} [h : Apart k .identifier] :
    Ends stopped k (Production.checkWord word) (· = false) :=
  read (fun _ => rfl) fun _ hp => isWord hp h.ne word

theorem consumeIf {t : Production Bool} (h : Ends stopped k t (· = false)) :
    Ends stopped k (Production.consumeIf t) (· = false) := h.bindIf (ret rfl)

theorem consume {kind : TokenKind} [h : Apart k kind] :
    Ends stopped k (Production.consume kind) (· = false) := consumeIf check

theorem consumeKeyword {word : Keyword} [h : Apart k (.keyword word)] :
    Ends stopped k (Production.consumeKeyword word) (· = false) := consume

theorem consumeWord {word : String} [h : Apart k .identifier] :
    Ends stopped k (Production.consumeWord word) (· = false) := consumeIf checkWord

theorem consumeAny {kinds : List TokenKind} [h : Outside k kinds] :
    Ends stopped k (Production.consumeAny kinds) (· = false) := by
  refine consumeIf (bindKind (ret ?_))
  rw [List.contains_eq_mem, decide_eq_false_iff_not]
  exact h.notMem

theorem skipKeyword {word : Keyword} [h : Apart k (.keyword word)] :
    Ends stopped k (Production.skipKeyword word) fun _ => True := consumeKeyword.discard

theorem skipWord {word : String} [h : Apart k .identifier] :
    Ends stopped k (Production.skipWord word) fun _ => True := consumeWord.discard

theorem expect {kind : TokenKind} {S : Unit → Prop} [h : Apart k kind] :
    Ends stopped k (Production.expect kind) S := consume.bindIf .expected

theorem expectKeyword {word : Keyword} {S : Unit → Prop} [h : Apart k (.keyword word)] :
    Ends stopped k (Production.expectKeyword word) S := consumeKeyword.bindIf .expected

theorem skipSemicolons [h : Apart k .semicolon] :
    Ends stopped k Production.skipSemicolons fun _ => True := by
  intro p hp _
  have hstays : p.skipSemicolons = p := by
    rw [Parser.skipSemicolons, Parser.skipWhile, hp.kind, if_neg]
    simpa using h.ne
  change True ∧ p.skipSemicolons.Last k ∧ (stopped = true → p.Stays p.skipSemicolons)
  rw [hstays]
  exact ⟨trivial, hp, fun _ => .refl p⟩

/-! ## The end of the text -/

theorem atEnd {p : Parser} (hp : p.Last .eof) : p.atEnd := beq_iff_eq.2 hp.kind

theorem atName : Ends stopped .eof Production.atName (· = false) :=
  read (fun _ => rfl) fun p hp => by rw [Token.isName, hp.kind]

theorem atTerminator : Ends stopped .eof Production.atTerminator (· = true) :=
  read (fun _ => rfl) fun p hp => by
    rw [Parser.atTerminator, atEnd hp, Bool.or_true, Bool.true_or]

theorem name {S : String → Prop} : Ends stopped .eof Production.name S := atName.bindIf .expected

theorem trailingName? : Ends stopped .eof Production.trailingName? (· = none) := by
  refine bindGet fun p hp => ?_
  have hnone : p.atTrailingName = false := by
    rw [Parser.atTrailingName, Token.isIdentifier, hp.kind]
    rfl
  rw [hnone]
  exact ret rfl

/-! ## Repetition -/

/-- No round goes on. -/
theorem loop {round : σ → Production (Step σ α)} {s : σ}
    (h : Ends stopped k (round s) fun | .done a => S a | .more _ => False) :
    Ends stopped k (Production.loop round s) S := by
  intro p hp hc
  have hround := h p hp hc
  rw [Production.loop]
  revert hround
  cases round s p with
  | error e p' => exact id
  | ok step p' =>
    cases step with
    | done a => exact id
    | more s' => exact fun hround => hround.1.elim

theorem many {item? : Production (Option α)} (h : Ends stopped k item? (· = none)) :
    Ends stopped k (Production.many item?) (· = []) := by
  refine loop (h.bind fun x hx => ?_)
  rw [hx]
  exact ret rfl

theorem list {item : Production α} {S : List α → Prop} (h : Ends stopped k item fun _ => False) :
    Ends stopped k (Production.list item) S := h.fails

theorem behind {word : Keyword} {item : Production α} [h : Apart k (.keyword word)] :
    Ends stopped k (Production.behind word item) (· = none) := consumeKeyword.bindIf (ret rfl)

theorem inParens {item : Production α} [h : Apart k .leftParen] :
    Ends stopped k (Production.inParens item) S := fails expect

/-! ## Errors, depth and pools -/

theorem recovering {S : Option α → Prop} (h : Ends stopped k m fun _ => False) :
    Ends stopped k (Production.recovering m) S := by
  intro p hp hc
  have hm := h p hp hc
  rw [Production.recovering]
  revert hm
  cases m p with
  | ok a p' => exact fun hm => hm.1.elim
  | error e p' =>
    intro hm
    dsimp only
    rw [hm.1]
    exact hm

theorem inRoutine (h : Ends stopped k m S) : Ends stopped k (Production.inRoutine m) S := by
  intro p hp hc
  have hm := h { p with routineDepth := p.routineDepth + 1 } ⟨hp.kind, hp.peek, hp.strict⟩ hc
  have hback {p' : Parser} (hs : Parser.Stays { p with routineDepth := p.routineDepth + 1 } p') :
      p.Stays { p' with routineDepth := p'.routineDepth - 1 } := by
    rw [hs]
    rfl
  rw [Production.inRoutine]
  revert hm
  cases m { p with routineDepth := p.routineDepth + 1 } with
  | ok a p' =>
    exact fun hm => ⟨hm.1, ⟨hm.2.1.kind, hm.2.1.peek, hm.2.1.strict⟩, fun hs => hback (hm.2.2 hs)⟩
  | error e p' => exact fun hm => ⟨hm.1, fun hs => ⟨(hm.2 hs).1, hback (hm.2 hs).2⟩⟩

theorem onFailure {change : Pools → Pools} (h : Ends stopped k m S) :
    Ends stopped k (Production.onFailure m change) S := by
  intro p hp hc
  have hm := h p hp hc
  rw [Production.onFailure]
  revert hm
  cases m p with
  | ok a p' => exact id
  | error e p' =>
    refine fun hm => ⟨hm.1, fun hs => ⟨(hm.2 hs).1, ?_⟩⟩
    rw [(hm.2 hs).2]
    rfl

theorem acquireSelect : Ends stopped k Production.acquireSelect fun _ => True :=
  fun _ hp _ => ⟨trivial, ⟨hp.kind, hp.peek, hp.strict⟩, fun _ => rfl⟩

end Ends

/-! ## The last token -/

/-- A production failed, or gave a value of a kind before a last token of a kind. -/
def Settled {α : Type} (k : TokenKind) (S : α → Prop) : EStateM.Result ParseError Parser α → Prop
  | .ok a p => S a ∧ p.Last k
  | .error _ p => p.recovering = false

theorem Ends.settled {α : Type} {k : TokenKind} {m : Production α} {S : α → Prop}
    (h : Ends false k m S) {p : Parser} (hp : p.Last k) : Settled k S (m p) := by
  have hm := h p hp fun hs => Bool.noConfusion hs
  revert hm
  cases m p with
  | ok a p' => exact fun hm => ⟨hm.1, hm.2.1⟩
  | error e p' => exact And.left

/-- Before the last token, a production fails, or goes past it to the end and gives a value of a kind. -/
def Finishes {α : Type} (m : Production α) (S : α → Prop) : Prop :=
  ∀ p : Parser, p.advance.Last .eof → p.recovering = false → Settled .eof S (m p)

namespace Finishes

variable {α β : Type} {m : Production α} {S : α → Prop} {f : α → Production β} {T : β → Prop}

theorem bind (h : Finishes m S) (hf : ∀ a, S a → Ends false .eof (f a) T) : Finishes (m >>= f) T := by
  intro p hp hstrict
  have hm := h p hp hstrict
  rw [run_bind]
  revert hm
  cases m p with
  | error e p' => exact id
  | ok a p' => exact fun hm => (hf a hm.1).settled hm.2

/-- The last token is used up. -/
theorem takeLiteral : Finishes Production.takeLiteral fun _ => True := fun _ hp _ => ⟨trivial, hp⟩

/-- A word that may be the last token. -/
theorem bindWord {word : String} {f : Bool → Production β} (hthen : Ends false .eof (f true) T)
    (helse : Finishes (f false) T) : Finishes (Production.consumeWord word >>= f) T := by
  intro p hp hstrict
  have hrun : (Production.consumeWord word >>= f) p =
      if p.current.isWord word then f true p.advance else f false p := by
    have hword : Production.checkWord word p = .ok (p.current.isWord word) p := rfl
    by_cases h : p.current.isWord word <;>
      simp [Production.consumeWord, Production.consumeIf, hword, h]
  rw [hrun]
  by_cases h : p.current.isWord word
  · rw [if_pos h]
    exact hthen.settled hp
  · rw [if_neg h]
    exact helse p hp hstrict

theorem expected {what : String} : Finishes (Production.expected what) S :=
  fun _ _ hstrict => hstrict

/-- A choice by whether the last token is a name. -/
theorem ifName {n : Production α} (hthen : Finishes m S) (helse : Finishes n S) :
    Finishes (Production.atName >>= fun x => if x = true then m else n) S := by
  intro p hp hstrict
  change Settled .eof S ((if p.current.isName = true then m else n) p)
  by_cases h : p.current.isName = true
  · rw [if_pos h]
    exact hthen p hp hstrict
  · rw [if_neg h]
    exact helse p hp hstrict

end Finishes

end Production

end SqlFrontend
