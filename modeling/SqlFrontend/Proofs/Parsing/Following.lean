import SqlFrontend.Proofs.Parsing.Junction
import SqlFrontend.Proofs.Parsing.Skipping

/-!
# Productions that follow

`Junction.Follows` says of a production that it reads the same from the longer text as from the shorter
one, and stops before the same tokens, unless it reads more of the shorter text than the two have in common.
Here are the rules for putting such productions together.

Results:
* `Follows.bind`, `Follows.loop`, `Follows.many`, `Follows.list`: sequences and repetition.
* `Follows.consumeIf`, `Follows.check`: a test of the current token has to fail at both of the first tokens
  of what follows.
* `Follows.ofStrict`: where a production uses up text, only what it does before tokens in common counts.
* `Follows.closed`: a production behind a token and before one that closes follows if it is in lockstep.
-/

namespace SqlFrontend.Junction

/-! ## Where parsers stand -/

/-- What is known of where two parsers stand. -/
inductive Spot where
  | any
  /-- Before a token in common. -/
  | inside
  /-- Before a token in common, of a kind. -/
  | facing (kind : TokenKind)

/-- Two parsers stand before the same tokens, or the left one is past these. -/
def Stands (J : Junction) (s : Spot) (p q : Parser) : Prop :=
  match s with
  | .any => J.Past p ∨ ∃ xs, J.At xs p q
  | .inside => J.Past p ∨ ∃ x xs, J.At (x :: xs) p q
  | .facing k => (J.Past p ∨ ∃ x xs, J.At (x :: xs) p q) ∧ p.current.kind = k

/-- What a production gives at a parser of the shorter text is given at one of the longer text as well,
unless the production goes past what the texts have in common. Only parsers with little left count. -/
def Follows {α : Type} (J : Junction) (s : Spot) (n : ℕ) (m : Production α) : Prop :=
  ∀ p q, J.Stands s p q → p.remaining < n → ∀ a p', m p = .ok a p' →
    p.Reaches p' ∧ (J.Past p' ∨ ∃ q', m q = .ok a q' ∧ q.Reaches q' ∧ ∃ xs, J.At xs p' q')

/-- The same, except where a production stops with something else to be said about the end. -/
def FollowsUnless {α : Type} (J : Junction) (E : α → Parser → Prop) (s : Spot) (n : ℕ)
    (m : Production α) : Prop :=
  ∀ p q, J.Stands s p q → p.remaining < n → ∀ a p', m p = .ok a p' → ¬E a p' →
    p.Reaches p' ∧ (J.Past p' ∨ ∃ q', m q = .ok a q' ∧ q.Reaches q' ∧ ∃ xs, J.At xs p' q')

/-- No token of what follows is of a kind, as far as one may be looked at. -/
structure Lacks (J : Junction) (k : TokenKind) : Prop where
  here : J.here.kind ≠ k
  there : J.there.kind ≠ k

variable {J : Junction} {s : Spot} {n : ℕ} {p q p' : Parser} {k : TokenKind} {α β σ : Type}

theorem Stands.near (h : J.Stands s p q) : J.Past p ∨ ∃ xs, J.At xs p q := by
  cases s with
  | any => exact h
  | inside => exact h.imp_right fun ⟨x, xs, h⟩ => ⟨x :: xs, h⟩
  | facing k => exact h.1.imp_right fun ⟨x, xs, h⟩ => ⟨x :: xs, h⟩

theorem Stands.inside (h : J.Stands (.facing k) p q) : J.Stands .inside p q := h.1

theorem Stands.sound (h : J.Stands s p q) : p.Sound :=
  h.near.elim Past.sound fun ⟨_, h⟩ => h.left.sound

/-- The depth of routines does not count for what is past. -/
theorem Past.atDepth (depth : ℕ) (h : J.Past p) : J.Past { p with routineDepth := depth } :=
  ⟨h.sound.congr rfl rfl rfl rfl rfl, h.halting, h.length⟩

/-- Some parser sees what the left one sees. -/
theorem Stands.sees (h : J.Stands s p q) : ∃ y, J.Sees p y := by
  rcases h.near with hpast | ⟨xs, h⟩
  · exact ⟨p, hpast.spent.sees⟩
  · rcases h.sees with hsees | hspent
    · exact ⟨q, hsees⟩
    · exact ⟨p, hspent.sees⟩

/-- What is in lockstep goes on to where its level says. -/
theorem reaches_of_lockstep {b : Parser × Parser} {m : Production α} {l : α → Level} {a : α}
    (hm : (Likeness.junction J).Lockstep b .start m m l) (hb : Level.start.Holds b p q)
    (h : J.Sees p q) (heq : m p = .ok a p') : p.Reaches p' ∧ ∃ y, (l a).Holds (p, q) p' y := by
  have hm := hm (p, q) hb p q h ⟨.refl p, .refl q⟩
  rw [heq] at hm
  generalize m q = r at hm
  cases hm with
  | ok _ hl _ hk => exact ⟨hl, _, hk⟩
  | past h =>
    cases h with
    | ok _ hl hk => exact ⟨hl, _, hk⟩

/-- A round of a loop that leaves less of the shorter text leaves less of the longer one. -/
theorem fewer_of_at {q' : Parser} {xs : List Token} (hpq : J.Stands .any p q) (hp : p.Reaches p')
    (hfewer : p'.remaining < p.remaining) (hq : q.Reaches q') (hat : J.At xs p' q') :
    q'.remaining < q.remaining := by
  have hend : ¬p.atEnd := by
    intro hend
    rw [Parser.remaining.eq_def p, if_pos hend] at hfewer
    exact absurd hfewer (Nat.not_lt_zero _)
  have hless : p'.upcoming.length < p.upcoming.length := by
    rcases hp.eq_or_beyond hpq.sound hend with hcourse | hbeyond
    · rw [Parser.remaining_of_course hcourse] at hfewer
      exact absurd hfewer (lt_irrefl _)
    · exact length_lt_of_beyond hp hbeyond
  rw [hat.left.upcoming, List.length_append] at hless
  rcases hpq with hpast | ⟨ys, hat'⟩
  · have := hpast.length
    omega
  rw [hat'.left.upcoming, List.length_append] at hless
  refine (beyond_of_length_lt hq hat'.right.sound ?_).remaining
  rw [hat.right.upcoming, hat'.right.upcoming, List.length_append, List.length_append]
  omega

variable {m m' : Production α} {f : α → Production β} {E : α → Parser → Prop} {E' : β → Parser → Prop}

/-! ## Sequences and choices -/

theorem Follows.anyway (h : J.Follows s n m) : J.FollowsUnless E s n m :=
  fun p q hpq hless a p' heq _ => h p q hpq hless a p' heq

namespace FollowsUnless

theorem follows (h : J.FollowsUnless (fun _ _ => False) s n m) : J.Follows s n m :=
  fun p q hpq hless a p' heq => h p q hpq hless a p' heq id

theorem bind (h : J.FollowsUnless E s n m) (hf : ∀ a, J.FollowsUnless E' .any n (f a))
    (hE : ∀ a p b p', E a p → f a p = .ok b p' → E' b p') : J.FollowsUnless E' s n (m >>= f) := by
  intro p q hpq hless b p' heq hend
  rw [Production.run_bind] at heq
  cases hm : m p with
  | error e x => rw [hm] at heq; cases heq
  | ok a x =>
    rw [hm] at heq
    obtain ⟨hx, hto⟩ := h p q hpq hless a x hm fun hstop => hend (hE a x b p' hstop heq)
    have hless' : x.remaining < n := (hx.notBefore hpq.sound).remaining.trans_lt hless
    rcases hto with hpast | ⟨y, hy, hqy, xs, hat⟩
    · obtain ⟨hx', -⟩ := hf a x x (.inl hpast) hless' b p' heq hend
      exact ⟨hx.trans hx', .inl (hpast.reaches hx')⟩
    · obtain ⟨hx', hto⟩ := hf a x y (.inr ⟨xs, hat⟩) hless' b p' heq hend
      refine ⟨hx.trans hx', hto.imp_right fun ⟨q', hq', hy', hat'⟩ => ⟨q', ?_, hqy.trans hy', hat'⟩⟩
      rw [Production.run_bind, hy]
      exact hq'

theorem bindKind {f : TokenKind → Production β} (h : ∀ k, J.FollowsUnless E' (.facing k) n (f k)) :
    J.FollowsUnless E' .inside n (Production.kind >>= f) := by
  intro p q hpq hless b p' heq hend
  change f p.current.kind p = _ at heq
  change _ ∧ (_ ∨ ∃ q', f q.current.kind q = _ ∧ _)
  obtain ⟨hreaches, hto⟩ := h _ p q ⟨hpq, rfl⟩ hless b p' heq hend
  refine ⟨hreaches, ?_⟩
  rcases hpq with hpast | ⟨x, xs, hat⟩
  · exact .inl (hpast.reaches hreaches)
  · rw [hat.current.2, ← hat.current.1]
    exact hto

/-- A loop stops as its last round does. -/
theorem loop {round : σ → Production (Production.Step σ α)}
    (h : ∀ x, J.FollowsUnless (fun step p => ∃ a, step = .done a ∧ E a p) .any n (round x)) {x : σ} :
    J.FollowsUnless E .any n (Production.loop round x) := by
  intro p q hpq hless a p' heq hend
  induction hk : p.remaining using Nat.strong_induction_on generalizing p q x with
  | _ k ih =>
    subst hk
    rw [Production.loop] at heq
    cases hround : round x p with
    | error e y => rw [hround] at heq; cases heq
    | ok step y =>
      rw [hround] at heq
      cases step with
      | done value =>
        cases heq
        have hstep := h x p q hpq hless _ _ hround (by
          rintro ⟨_, hdone, hstop⟩
          cases hdone
          exact hend hstop)
        obtain ⟨hreaches, hto⟩ := hstep
        refine ⟨hreaches, hto.imp_right ?_⟩
        rintro ⟨q', hq', hreaches', hat'⟩
        exact ⟨q', Production.run_loop_done hq', hreaches', hat'⟩
      | more x' =>
        dsimp only at heq
        split at heq
        swap
        · cases heq
        next hfewer =>
        obtain ⟨hreaches, hto⟩ := h x p q hpq hless _ _ hround (by
          rintro ⟨_, hdone, -⟩
          cases hdone)
        rcases hto with hpast | ⟨q', hq', hreaches', xs', hat'⟩
        · obtain ⟨hothers, -⟩ := ih _ hfewer y y (.inl hpast) (hfewer.trans hless) heq rfl
          exact ⟨hreaches.trans hothers, .inl (hpast.reaches hothers)⟩
        obtain ⟨hothers, hto'⟩ := ih _ hfewer y q' (.inr ⟨xs', hat'⟩) (hfewer.trans hless) heq rfl
        refine ⟨hreaches.trans hothers, hto'.imp_right ?_⟩
        rintro ⟨z, hz, hz', hatz⟩
        refine ⟨z, ?_, hreaches'.trans hz', hatz⟩
        rw [Production.run_loop_more hq' (fewer_of_at hpq hreaches hfewer hreaches' hat')]
        exact hz

theorem facing (h : J.FollowsUnless E .any n m) : J.FollowsUnless E (.facing k) n m :=
  fun p q hpq => h p q hpq.near

end FollowsUnless

namespace Follows

theorem ret {a : α} : J.Follows s n (Pure.pure a) := by
  intro p q h _ a' p' heq
  cases heq
  exact ⟨.refl p, h.near.imp_right fun ⟨xs, h⟩ => ⟨q, rfl, .refl q, xs, h⟩⟩

theorem bind (h : J.Follows s n m) (hf : ∀ a, J.Follows .any n (f a)) : J.Follows s n (m >>= f) :=
  (FollowsUnless.bind (E := fun _ _ => False) h.anyway (fun a => (hf a).anyway) fun _ _ _ _ h _ => h).follows

theorem map (h : J.Follows s n m) (f : α → β) : J.Follows s n (f <$> m) := by
  rw [map_eq_pure_bind]
  exact h.bind fun _ => ret

theorem ite {c : Prop} [Decidable c] (hthen : c → J.Follows s n m) (helse : ¬c → J.Follows s n m') :
    J.Follows s n (if c then m else m') := by
  split
  · exact hthen ‹_›
  · exact helse ‹_›

theorem inside (h : J.Follows .any n m) : J.Follows .inside n m :=
  fun p q hpq => h p q hpq.near

theorem facing (h : J.Follows .inside n m) : J.Follows (.facing k) n m :=
  fun p q hpq => h p q hpq.inside

/-- Before what follows, a production that uses up text goes past what is in common. -/
theorem ofStrict (hm : ∀ b, (Likeness.junction J).Lockstep b .start m m fun _ => .moved)
    (h : J.Follows .inside n m) : J.Follows .any n m := by
  intro p q hpq hless a p' heq
  rcases hpq.near with hpast | ⟨xs, hat⟩
  · exact h p q (.inl hpast) hless a p' heq
  cases xs with
  | cons x xs => exact h p q (.inr ⟨x, xs, hat⟩) hless a p' heq
  | nil =>
    obtain ⟨y, hsees⟩ := hpq.sees
    obtain ⟨hreaches, _, hmoved⟩ := reaches_of_lockstep (hm (p, y)) ⟨.refl p, .refl y⟩ hsees heq
    exact ⟨hreaches, .inl (hat.past hmoved.1 hreaches)⟩

/-! ## Looking at tokens -/

/-- What is read of two parsers has to be the same. -/
theorem bindRead {γ : Type} {t : Production γ} {g : Parser → γ} {f : γ → Production β}
    (ht : ∀ p, t p = .ok (g p) p) (hg : ∀ xs p q, J.At xs p q → J.Stands s p q → g p = g q)
    (h : ∀ y, J.Follows s n (f y)) : J.Follows s n (t >>= f) := by
  intro p q hpq hless b p' heq
  have hrun (x : Parser) : (t >>= f) x = f (g x) x := by rw [Production.run_bind, ht]
  rw [hrun] at heq ⊢
  obtain ⟨hreaches, hto⟩ := h (g p) p q hpq hless b p' heq
  refine ⟨hreaches, ?_⟩
  rcases hpq.near with hpast | ⟨xs, hat⟩
  · exact .inl (hpast.reaches hreaches)
  · rw [← hg xs p q hat hpq]
    exact hto

theorem bindKind {f : TokenKind → Production β} (h : ∀ k, J.Follows (.facing k) n (f k)) :
    J.Follows .inside n (Production.kind >>= f) :=
  (FollowsUnless.bindKind fun k => (h k).anyway).follows

theorem bindDialect {f : Dialect → Production β} (h : ∀ d, J.Follows s n (f d)) :
    J.Follows s n (Production.dialect >>= f) :=
  bindRead (g := Parser.dialect) (fun _ => rfl) (fun _ _ _ hat _ => hat.dialect) h

/-- A test of the current token has to give the same for both of the first tokens of what follows. -/
theorem bindTest {γ : Type} {t : Production γ} {g : Token → γ} {f : γ → Production β}
    (ht : ∀ p, t p = .ok (g p.current) p) (hsame : g J.here = g J.there)
    (h : ∀ y, J.Follows s n (f y)) : J.Follows s n (t >>= f) := by
  refine bindRead (g := fun p => g p.current) ht (fun xs p q hat _ => ?_) h
  cases xs with
  | nil => rw [hat.left.current, hat.right.current]; exact hsame
  | cons => rw [hat.current.1, hat.current.2]

/-- Before a token in common, such a test is one of that token. -/
theorem bindTestInside {γ : Type} {t : Production γ} {g : Token → γ} {f : γ → Production β}
    (ht : ∀ p, t p = .ok (g p.current) p) (h : ∀ y, J.Follows .inside n (f y)) :
    J.Follows .inside n (t >>= f) := by
  refine bindRead (g := fun p => g p.current) ht (fun xs p q hat hpq => ?_) h
  rcases hpq with hpast | ⟨x, xs, hat'⟩
  · have := hpast.length
    rw [hat.left.upcoming, List.length_append] at this
    omega
  · rw [hat'.current.1, hat'.current.2]

/-- Before a token in common, a test of the token behind it may be one of the first tokens of what
follows. -/
theorem bindPeek {γ : Type} {t : Production γ} {g : Token → γ} {f : γ → Production β}
    (hs : ∀ {p q}, J.Stands s p q → J.Stands .inside p q) (ht : ∀ p, t p = .ok (g p.peek) p)
    (hsame : g J.here = g J.there) (h : ∀ y, J.Follows s n (f y)) : J.Follows s n (t >>= f) := by
  refine bindRead (g := fun p => g p.peek) ht (fun xs p q hat hpq => ?_) h
  rcases hs hpq with hpast | ⟨x, xs, hat'⟩
  · have := hpast.length
    rw [hat.left.upcoming, List.length_append] at this
    omega
  · cases xs with
    | nil => rw [hat'.left.peek, hat'.right.peek]; exact hsame
    | cons => rw [hat'.left.peek, hat'.right.peek]

theorem bindCheck (hk : J.Lacks k) {f : Bool → Production β} (h : ∀ y, J.Follows s n (f y)) :
    J.Follows s n (Production.check k >>= f) :=
  bindTest (g := fun t => t.kind == k) (fun _ => rfl)
    ((beq_false_of_ne hk.here).trans (beq_false_of_ne hk.there).symm) h

theorem bindCheckPeek (hk : J.Lacks k) (hs : ∀ {p q}, J.Stands s p q → J.Stands .inside p q)
    {f : Bool → Production β} (h : ∀ y, J.Follows s n (f y)) :
    J.Follows s n (Production.checkPeek k >>= f) :=
  bindPeek (g := fun t => t.kind == k) hs (fun _ => rfl)
    ((beq_false_of_ne hk.here).trans (beq_false_of_ne hk.there).symm) h

/-- A test that only succeeds before tokens in common. -/
theorem bindTestIf {t : Production Bool} {g : Parser → Bool} (ht : ∀ p, t p = .ok (g p) p)
    (hg : ∀ xs p q, J.At xs p q → g p = g q) (hnone : ∀ p q, J.At [] p q → g p = false)
    (hthen : J.Follows .inside n m) (helse : J.Follows s n m') :
    J.Follows s n (t >>= fun x => if x then m else m') := by
  intro p q hpq hless a p' heq
  have hrun (x : Parser) : (t >>= fun found => if found then m else m') x =
      if g x then m x else m' x := by
    rw [Production.run_bind, ht]
    cases g x <;> rfl
  rw [hrun] at heq ⊢
  cases hgp : g p with
  | true =>
    have hinside : J.Stands .inside p q := by
      refine hpq.near.imp_right fun ⟨xs, hat⟩ => ?_
      cases xs with
      | nil => rw [hnone p q hat] at hgp; cases hgp
      | cons x xs => exact ⟨x, xs, hat⟩
    rw [hgp] at heq
    obtain ⟨hreaches, hto⟩ := hthen p q hinside hless a p' heq
    refine ⟨hreaches, ?_⟩
    rcases hinside with hpast | ⟨x, xs, hat⟩
    · exact .inl (hpast.reaches hreaches)
    · rw [← hg _ p q hat, hgp]
      exact hto
  | false =>
    rw [hgp] at heq
    obtain ⟨hreaches, hto⟩ := helse p q hpq hless a p' heq
    refine ⟨hreaches, ?_⟩
    rcases hpq.near with hpast | ⟨xs, hat⟩
    · exact .inl (hpast.reaches hreaches)
    · rw [← hg xs p q hat, hgp]
      exact hto

/-- A kind that none of the first tokens of what follows is of is found before tokens in common only. -/
theorem bindCheckIf (hk : J.Lacks k) (hthen : J.Follows .inside n m) (helse : J.Follows s n m') :
    J.Follows s n (Production.check k >>= fun x => if x then m else m') := by
  refine bindTestIf (g := fun p => p.current.kind == k) (fun _ => rfl) (fun xs p q hat => ?_)
    (fun p q hat => ?_) hthen helse
  · cases xs with
    | nil => rw [hat.left.current, hat.right.current, beq_false_of_ne hk.here, beq_false_of_ne hk.there]
    | cons => rw [hat.current.1, hat.current.2]
  · rw [hat.left.current]
    exact beq_false_of_ne hk.here

/-! ## Passing tokens -/

theorem advance : J.Follows .inside n Production.advance := by
  intro p q hpq _ a p' heq
  cases heq
  refine ⟨.advance p, hpq.imp (·.reaches (.advance p)) fun ⟨x, xs, hat⟩ => ?_⟩
  exact ⟨q.advance, rfl, .advance q, xs, hat.advance⟩

/-- Where more than a token follows, the first of these tokens leads past what is in common. -/
theorem advanceAny (hmore : J.behind ≠ []) : J.Follows .any n Production.advance := by
  intro p q hpq hless a p' heq
  rcases hpq with hpast | ⟨xs, hat⟩
  · exact advance p q (.inl hpast) hless a p' heq
  cases xs with
  | cons x xs => exact advance p q (.inr ⟨x, xs, hat⟩) hless a p' heq
  | nil =>
    cases heq
    have hend : ¬p.atEnd := by
      obtain ⟨t, ts, hcons⟩ := List.exists_cons_of_ne_nil hmore
      have hleft := hat.left
      rw [left, hcons] at hleft
      exact hleft.not_atEnd
    exact ⟨.advance p, .inl (hat.past (hat.left.sound.beyond_advance hend) (.advance p))⟩

/-- Behind a token less is left than before it, and behind the first token of what follows nothing that the
texts have in common. -/
theorem advanceThen_at {m : Production α} (hpq : J.Stands .any p q) (hend : ¬p.atEnd)
    (hless : p.remaining < n + 1) (h : J.Follows .any n m) {a : α} (heq : m p.advance = .ok a p') :
    p.Reaches p' ∧ (J.Past p' ∨ (∃ x xs, J.At (x :: xs) p q) ∧
      ∃ q', m q.advance = .ok a q' ∧ q.Reaches q' ∧ ∃ xs, J.At xs p' q') := by
  have hbeyond := hpq.sound.beyond_advance hend
  have hless' : p.advance.remaining < n := by
    have := hbeyond.remaining
    omega
  have hpast (hpast : J.Past p.advance) : p.Reaches p' ∧ J.Past p' := by
    obtain ⟨hreaches, -⟩ := h p.advance p.advance (.inl hpast) hless' a p' heq
    exact ⟨.trans (.advance p) hreaches, hpast.reaches hreaches⟩
  rcases hpq with hpq | ⟨_ | ⟨x, xs⟩, hat⟩
  · exact (hpast (hpq.reaches (.advance p))).imp_right .inl
  · exact (hpast (hat.past hbeyond (.advance p))).imp_right .inl
  · obtain ⟨hreaches, hto⟩ := h _ _ (.inr ⟨xs, hat.advance⟩) hless' a p' heq
    refine ⟨.trans (.advance p) hreaches, hto.imp_right fun ⟨q', hq', hreaches', hat'⟩ => ?_⟩
    exact ⟨⟨x, xs, hat⟩, q', hq', .trans (.advance q) hreaches', hat'⟩

theorem advanceThen {m : Production α} (hk : k ≠ .eof) (h : J.Follows .any n m) :
    J.Follows (.facing k) (n + 1) (Production.advance >>= fun _ => m) := by
  intro p q hpq hless a p' heq
  have hend : ¬p.atEnd := by
    rw [Parser.atEnd, Token.isEof, hpq.2, beq_iff_eq]
    exact hk
  exact (advanceThen_at hpq.near hend hless h heq).imp_right (Or.imp_right And.right)

theorem run_consumeIf {t : Production Bool} {g : Token → Bool} (ht : ∀ p, t p = .ok (g p.current) p)
    (p : Parser) : Production.consumeIf t p = if g p.current then .ok true p.advance else .ok false p := by
  rw [Production.consumeIf, Production.run_bind, ht]
  dsimp only
  cases g p.current <;> rfl

/-- A token that may be passed is none of the first tokens of what follows. -/
theorem consumeIf {t : Production Bool} {g : Token → Bool} (ht : ∀ p, t p = .ok (g p.current) p)
    (hhere : g J.here = false) (hthere : g J.there = false) :
    J.Follows .any n (Production.consumeIf t) := by
  intro p q hpq _ a p' heq
  rw [run_consumeIf ht] at heq
  rw [run_consumeIf ht]
  cases hg : g p.current with
  | false =>
    rw [hg] at heq
    cases heq
    refine ⟨.refl p, hpq.imp_right fun ⟨xs, hat⟩ => ⟨q, ?_, .refl q, xs, hat⟩⟩
    have hq : g q.current = false := by
      cases xs with
      | nil => rw [hat.right.current]; exact hthere
      | cons => rw [hat.current.2, ← hat.current.1]; exact hg
    rw [hq]
    rfl
  | true =>
    rw [hg] at heq
    cases heq
    refine ⟨.advance p, hpq.imp (·.reaches (.advance p)) fun ⟨xs, hat⟩ => ?_⟩
    cases xs with
    | nil => rw [hat.left.current, hhere] at hg; cases hg
    | cons x xs =>
      refine ⟨q.advance, ?_, .advance q, xs, hat.advance⟩
      rw [hat.current.2, ← hat.current.1, hg]
      rfl

/-- Before a token in common, either that is passed, or it is still there. -/
theorem bindConsumeIf {t : Production Bool} {g : Token → Bool} (ht : ∀ p, t p = .ok (g p.current) p)
    (hthen : J.Follows .any n m) (helse : J.Follows .inside n m') :
    J.Follows .inside n (Production.consumeIf t >>= fun x => if x then m else m') := by
  intro p q hpq hless a p' heq
  have hrun (x : Parser) : (Production.consumeIf t >>= fun x => if x then m else m') x =
      if g x.current then m x.advance else m' x := by
    rw [Production.run_bind, run_consumeIf ht]
    cases g x.current <;> rfl
  rw [hrun] at heq ⊢
  cases hg : g p.current with
  | false =>
    rw [hg] at heq
    obtain ⟨hreaches, hto⟩ := helse p q hpq hless a p' heq
    refine ⟨hreaches, ?_⟩
    rcases hpq with hpast | ⟨x, xs, hat⟩
    · exact .inl (hpast.reaches hreaches)
    · rw [hat.current.2, ← hat.current.1, hg]
      exact hto
  | true =>
    rw [hg] at heq
    have hless' : p.advance.remaining < n :=
      (hpq.sound.notBefore_advance.remaining).trans_lt hless
    rcases hpq with hpast | ⟨x, xs, hat⟩
    · have hpast' := hpast.reaches (.advance p)
      obtain ⟨hreaches, -⟩ := hthen p.advance p.advance (.inl hpast') hless' a p' heq
      exact ⟨.trans (.advance p) hreaches, .inl (hpast'.reaches hreaches)⟩
    · obtain ⟨hreaches, hto⟩ := hthen _ _ (.inr ⟨xs, hat.advance⟩) hless' a p' heq
      refine ⟨.trans (.advance p) hreaches, hto.imp_right fun ⟨q', hq', hreaches', hat'⟩ => ?_⟩
      rw [hat.current.2, ← hat.current.1, hg]
      exact ⟨q', hq', .trans (.advance q) hreaches', hat'⟩

theorem consume (hk : J.Lacks k) : J.Follows .any n (Production.consume k) :=
  consumeIf (g := fun t => t.kind == k) (fun _ => rfl) (beq_false_of_ne hk.here)
    (beq_false_of_ne hk.there)

theorem consumeInside : J.Follows .inside n (Production.consume k) := by
  have h := bindConsumeIf (J := J) (n := n) (g := fun t => t.kind == k) (fun _ => rfl)
    (ret (a := true)) (ret (a := false))
  have heq : (fun found : Bool => if found = true then (Pure.pure true : Production Bool)
      else Pure.pure false) = Pure.pure := by
    funext found
    cases found <;> rfl
  rwa [heq, bind_pure] at h

theorem consumeKeyword {word : Keyword} (hword : J.Lacks (.keyword word)) :
    J.Follows .any n (Production.consumeKeyword word) := consume hword

theorem consumeAny {kinds : List TokenKind} (h : ∀ k ∈ kinds, J.Lacks k) :
    J.Follows .any n (Production.consumeAny kinds) := by
  have hnone {t : Token} (ht : ∀ k ∈ kinds, t.kind ≠ k) : kinds.contains t.kind = false := by
    rw [List.contains_eq_mem, decide_eq_false_iff_not]
    exact fun hmem => ht _ hmem rfl
  exact consumeIf (g := fun t => kinds.contains t.kind) (fun _ => rfl) (hnone fun k hk => (h k hk).here)
    (hnone fun k hk => (h k hk).there)

theorem bindConsume (hthen : J.Follows .any n m) (helse : J.Follows .inside n m') :
    J.Follows .inside n (Production.consume k >>= fun x => if x then m else m') :=
  bindConsumeIf (g := fun t => t.kind == k) (fun _ => rfl) hthen helse

theorem bindConsumeKeyword {word : Keyword} (hthen : J.Follows .any n m)
    (helse : J.Follows .inside n m') :
    J.Follows .inside n (Production.consumeKeyword word >>= fun x => if x then m else m') :=
  bindConsume hthen helse

theorem skipKeyword {word : Keyword} (hword : J.Lacks (.keyword word)) :
    J.Follows .any n (Production.skipKeyword word) := (consumeKeyword hword).map _

theorem expected {what : String} : J.Follows s n (Production.expected what : Production α) := by
  intro p q _ _ a p' heq
  cases heq

theorem expectedThen {what : String} {f : α → Production β} :
    J.Follows s n ((Production.expected what : Production α) >>= f) := by
  intro p q _ _ b p' heq
  cases heq

theorem fail {cause : ParseCause} {place : Span} :
    J.Follows s n (Production.fail cause place : Production α) := by
  intro p q _ _ a p' heq
  cases heq

/-- What never gives anything follows. -/
theorem never (h : ∀ p a p', m p ≠ .ok a p') : J.Follows s n m :=
  fun p _ _ _ a p' heq => absurd heq (h p a p')

theorem require {feature : Feature} {place : Span} :
    J.Follows s n (Production.require feature place) :=
  bindDialect fun _ => ite (fun _ => ret) fun _ => fail

theorem expect [Certain k.isMore] : J.Follows .any n (Production.expect k) :=
  ofStrict (fun _ => .expect) (bindConsume ret expected)

theorem expectKeyword {word : Keyword} : J.Follows .any n (Production.expectKeyword word) := expect

theorem expectWord {word : String} (hword : word ≠ "more input" ∧ word ≠ "shorter text") :
    J.Follows .any n (Production.expectWord word) :=
  ofStrict (fun _ => .expectWord hword)
    (bindConsumeIf (g := fun t => t.isWord word) (fun _ => rfl) ret expected)

theorem takeLiteral : J.Follows .inside n Production.takeLiteral :=
  bindTestInside (g := id) (fun _ => rfl) fun _ => advance.bind fun _ => ret

theorem name : J.Follows .any n Production.name := by
  refine ofStrict (fun _ => .name) (bindTestInside (g := Token.isName) (fun _ => rfl) fun y => ?_)
  exact ite (fun _ => takeLiteral) fun _ => expected

/-- Words are tested at names without quotes only. -/
theorem consumeWord {word : String} (h : J.Lacks .identifier) :
    J.Follows .any n (Production.consumeWord word) := by
  refine consumeIf (g := fun t => t.isWord word) (fun _ => rfl) ?_ ?_
  · rw [Token.isWord, beq_false_of_ne h.here, Bool.false_and]
  · rw [Token.isWord, beq_false_of_ne h.there, Bool.false_and]

/-- A name that ends a construct is looked for where what follows starts with none. -/
theorem trailingName? (hhere : J.here.isIdentifier = false) (hthere : J.there.isIdentifier = false)
    (hcolon : J.Lacks .colon) (hassign : J.Lacks .colonAssign) :
    J.Follows .any n Production.trailingName? := by
  refine bindTestIf (t := fun p => .ok p.atTrailingName p) (g := Parser.atTrailingName) (fun _ => rfl)
    (fun xs p q hat => ?_) (fun p q hat => ?_) (takeLiteral.bind fun _ => ret) ret
  · have hbatch (x : Token) : p.isBatchSeparator x = q.isBatchSeparator x := by
      rw [Parser.isBatchSeparator, Parser.isBatchSeparator, hat.dialect]
    rw [Parser.atTrailingName, Parser.atTrailingName, Parser.atBatchSeparator, Parser.atBatchSeparator]
    rcases hat.sight with ⟨-, hp, hq⟩ | ⟨hcurrent, hp, hq⟩ | ⟨hcurrent, hpeek⟩
    · rw [hp, hq, hhere, hthere]
      rfl
    · rw [hcurrent, hp, hq, hbatch, bne_iff_ne.2 hcolon.here, bne_iff_ne.2 hcolon.there,
        bne_iff_ne.2 hassign.here, bne_iff_ne.2 hassign.there]
    · rw [hcurrent, hpeek, hbatch]
  · rw [Parser.atTrailingName, hat.left.current, hhere]
    rfl

/-- A test of the current token and of the token behind it. The first part fails at what follows, the
second one gives the same for both of its first tokens. -/
theorem bindCheckBoth {t : Production Bool} {g : Token → Bool} {f : Bool → Production β}
    (ht : ∀ p, t p = .ok (p.current.kind == k && g p.peek) p) (hk : J.Lacks k)
    (hsame : g J.here = g J.there) (h : ∀ y, J.Follows .any n (f y)) :
    J.Follows .any n (t >>= f) := by
  refine bindRead (g := fun p => p.current.kind == k && g p.peek) ht (fun xs p q hat _ => ?_) h
  rcases hat.sight with ⟨-, hp, hq⟩ | ⟨hcurrent, hp, hq⟩ | ⟨hcurrent, hpeek⟩
  · rw [hp, hq, beq_false_of_ne hk.here, beq_false_of_ne hk.there, Bool.false_and, Bool.false_and]
  · rw [hcurrent, hp, hq, hsame]
  · rw [hcurrent, hpeek]

theorem bindCheckKeywords {first second : Keyword} {f : Bool → Production β}
    (hfirst : J.Lacks (.keyword first)) (hsecond : J.Lacks (.keyword second))
    (h : ∀ y, J.Follows .any n (f y)) :
    J.Follows .any n (Production.checkKeywords first second >>= f) :=
  bindCheckBoth (g := fun t => t.kind == .keyword second)
    (fun _ => Production.run_checkKeywords first second) hfirst
    ((beq_false_of_ne hsecond.here).trans (beq_false_of_ne hsecond.there).symm) h

/-- The depth of routines does not count for what is read before what follows. -/
theorem inRoutine (h : ∀ n, J.Follows .any n m) : J.Follows .any n (Production.inRoutine m) := by
  intro p q hpq _ a p' heq
  have hback {x y : Parser} (hxy : Parser.Reaches { x with routineDepth := x.routineDepth + 1 } y) :
      y.routineDepth - 1 = x.routineDepth := by rw [hxy.routineDepth]; rfl
  have hdeeper : J.Stands .any { p with routineDepth := p.routineDepth + 1 }
      { q with routineDepth := q.routineDepth + 1 } :=
    hpq.imp (·.atDepth _) fun ⟨xs, hat⟩ =>
      ⟨xs, hat.congr rfl rfl (congrArg (· + 1) hat.depth) hat.pools⟩
  rw [Production.inRoutine] at heq ⊢
  cases hm : m { p with routineDepth := p.routineDepth + 1 } with
  | error e x => rw [hm] at heq; cases heq
  | ok value x =>
    rw [hm] at heq
    cases heq
    obtain ⟨hx, hto⟩ := h _ _ _ hdeeper (Nat.lt_succ_self _) _ _ hm
    refine ⟨?_, hto.imp (·.atDepth _) ?_⟩
    · rw [hback hx]
      exact hx.atDepth
    · rintro ⟨y, hy, hqy, xs, hat⟩
      refine ⟨{ y with routineDepth := y.routineDepth - 1 }, ?_, ?_, xs, ?_⟩
      · rw [hy]
      · rw [hback hqy]
        exact hqy.atDepth
      · exact hat.congr rfl rfl (congrArg (· - 1) hat.depth) hat.pools

/-! ## Repetition -/

theorem loop {round : σ → Production (Production.Step σ α)} (h : ∀ x, J.Follows .any n (round x)) {x : σ} :
    J.Follows .any n (Production.loop round x) :=
  (FollowsUnless.loop fun x => (h x).anyway).follows

theorem many {item? : Production (Option α)} (h : J.Follows .any n item?) :
    J.Follows .any n (Production.many item?) := by
  refine loop fun items => h.bind fun item => ?_
  cases item <;> exact ret

theorem list {item : Production α} (hcomma : J.Lacks .comma) (h : J.Follows .any n item) :
    J.Follows .any n (Production.list item) := by
  refine h.bind fun first => .bind (many ?_) fun others => ret
  exact (consume hcomma).bind fun found => ite (fun _ => h.map _) fun _ => ret

/-! ## Nodes from pools -/

theorem acquire {f : Pools → α × Pools} : J.Follows s n
    (modifyGet fun p => ((f p.pools).1, { p with pools := (f p.pools).2 })) := by
  intro p q hpq _ a p' heq
  cases heq
  refine ⟨.of_course rfl, hpq.near.imp (·.reaches (.of_course rfl)) fun ⟨xs, hat⟩ => ?_⟩
  refine ⟨{ q with pools := (f q.pools).2 }, ?_, .of_course rfl, xs, hat.congr rfl rfl hat.depth ?_⟩
  · rw [hat.pools]; rfl
  · rw [hat.pools]

theorem acquireBinary : J.Follows s n Production.acquireBinary :=
  acquire (f := fun pools =>
    (pools.binary.acquire.1, { pools with binary := pools.binary.acquire.2 }))

theorem acquireColumn : J.Follows s n Production.acquireColumn :=
  acquire (f := fun pools =>
    (pools.column.acquire.1, { pools with column := pools.column.acquire.2 }))

theorem onFailure (h : J.Follows s n m) (change : Pools → Pools) :
    J.Follows s n (Production.onFailure m change) := by
  intro p q hpq hless a p' heq
  rw [Production.onFailure] at heq ⊢
  cases hm : m p with
  | error e x => rw [hm] at heq; cases heq
  | ok value x =>
    rw [hm] at heq
    cases heq
    obtain ⟨hreaches, hto⟩ := h p q hpq hless _ _ hm
    refine ⟨hreaches, hto.imp_right ?_⟩
    rintro ⟨q', hq', hreaches', hat'⟩
    exact ⟨q', by rw [hq'], hreaches', hat'⟩

end Follows

/-! ## What is enclosed -/

/-- A production that reads up to a token which closes it. What it does before is the same for parsers
that see the same tokens. -/
def Closes (J : Junction) (m : Production α) : Prop :=
  ∀ p q, J.Sees p q → ∀ a p', m p = .ok a p' →
    p.Reaches p' ∧ (J.Past p' ∨ ∃ q', m q = .ok a q' ∧ q.Reaches q' ∧ ∃ xs, J.At xs p' q')

/-- A parser of the shorter text does not stand where one of the longer text stands. -/
theorem past_of_alone {m : Production α} {a : α} (h : p.Reaches p' ∧
    (J.Past p' ∨ ∃ q', m p = .ok a q' ∧ p.Reaches q' ∧ ∃ xs, J.At xs p' q')) :
    p.Reaches p' ∧ J.Past p' := by
  obtain ⟨hreaches, hpast | ⟨q', -, hreaches', xs, hat⟩⟩ := h
  · exact ⟨hreaches, hpast⟩
  · have := hat.shorter
    rw [hreaches.source, hreaches'.source] at this
    exact absurd this (lt_irrefl _)

namespace Closes

variable {m : Production α} {f : α → Production β}

/-- Where the tokens in common have been seen, what closes a construct is behind them. -/
theorem past (h : J.Closes m) (hp : J.Spent p) {a : α} (heq : m p = .ok a p') :
    p.Reaches p' ∧ J.Past p' := past_of_alone (h p p hp.sees a p' heq)

theorem follows (h : J.Closes m) : J.Follows .any n m := by
  intro p q hpq _ a p' heq
  rcases hpq with hpast | ⟨xs, hat⟩
  · exact (h.past hpast.spent heq).imp_right .inl
  · rcases hat.sees with hsees | hspent
    · exact h p q hsees a p' heq
    · exact (h.past hspent heq).imp_right .inl

/-- Behind what closes a construct, what follows is read. -/
theorem bindFollows (h : J.Closes m) (hf : ∀ a n, J.Follows .any n (f a)) : J.Closes (m >>= f) := by
  intro p q hpq b p' heq
  rw [Production.run_bind] at heq
  cases hm : m p with
  | error e x => rw [hm] at heq; cases heq
  | ok a x =>
    rw [hm] at heq
    obtain ⟨hx, hto⟩ := h p q hpq a x hm
    rcases hto with hpast | ⟨y, hy, hqy, xs, hat⟩
    · obtain ⟨hx', -⟩ := hf a _ x x (.inl hpast) (Nat.lt_succ_self _) b p' heq
      exact ⟨hx.trans hx', .inl (hpast.reaches hx')⟩
    · obtain ⟨hx', hto⟩ := hf a _ x y (.inr ⟨xs, hat⟩) (Nat.lt_succ_self _) b p' heq
      refine ⟨hx.trans hx', hto.imp_right fun ⟨q', hq', hy', hat'⟩ => ⟨q', ?_, hqy.trans hy', hat'⟩⟩
      rw [Production.run_bind, hy]
      exact hq'

theorem bindRet (h : J.Closes m) (f : α → β) : J.Closes (m >>= fun a => Pure.pure (f a)) :=
  h.bindFollows fun _ _ => Follows.ret

/-- What stands before the token that closes a construct is in lockstep. -/
theorem bind {l : Level} (hm : ∀ b, (Likeness.junction J).Lockstep b .moved m m fun _ => l)
    (hf : ∀ a, J.Closes (f a)) : J.Closes (m >>= f) := by
  intro p q hpq b p' heq
  obtain ⟨c, hc⟩ := Parser.exists_beyond p
  obtain ⟨d, hd⟩ := Parser.exists_beyond q
  have hout := hm (c, d) (c, d) ⟨.refl c, .refl d⟩ p q hpq ⟨hc, hd⟩
  rw [Production.run_bind] at heq ⊢
  cases hmp : m p with
  | error e x => rw [hmp] at heq; cases heq
  | ok a x =>
    rw [hmp] at heq hout
    generalize m q = r at hout
    cases hout with
    | ok hs hl hr _ =>
      obtain ⟨hreaches, hto⟩ := hf a x _ hs b p' heq
      refine ⟨hl.trans hreaches, hto.imp_right fun ⟨q', hq', hreaches', hat'⟩ => ?_⟩
      exact ⟨q', hq', hr.trans hreaches', hat'⟩
    | past h =>
      cases h with
      | ok hspent hl _ => exact ((hf a).past hspent heq).imp hl.trans .inl

theorem never (h : ∀ p a p', m p ≠ .ok a p') : J.Closes m :=
  fun p _ _ a p' heq => absurd heq (h p a p')

theorem ite {m' : Production α} {c : Prop} [Decidable c] (hthen : c → J.Closes m)
    (helse : ¬c → J.Closes m') : J.Closes (if c then m else m') := by
  split
  · exact hthen ‹_›
  · exact helse ‹_›

/-- A token that closes a construct. -/
theorem expect (hk : k.isOpen = false) : J.Closes (Production.expect k) := by
  have heof : k ≠ .eof := by
    rintro rfl
    cases hk
  intro p q hpq a p' heq
  rw [Production.run_expect] at heq
  split at heq
  swap
  · cases heq
  next hkind =>
  cases heq
  refine ⟨.advance p, ?_⟩
  obtain ⟨x, xs, hat, -⟩ | ⟨hspent, rfl⟩ := hpq
  · refine .inr ⟨q.advance, ?_, .advance q, xs, hat.advance⟩
    rw [Production.run_expect, if_pos]
    rw [hat.current.2, ← hat.current.1, hkind]
  · have hend : ¬q.atEnd := by
      rw [Parser.atEnd, Token.isEof, hkind, beq_iff_eq]
      exact heof
    have hless := length_lt_of_beyond (.advance q) (hspent.sound.beyond_advance hend)
    refine .inl ⟨hspent.sound.advance, ?_, ?_⟩
    · exact (Parser.Reaches.advance q).recovering.trans hspent.halting
    · rcases hspent.length with hle | ⟨-, hopen⟩
      · exact hless.trans_le hle
      · rw [hkind, hk] at hopen
        cases hopen

theorem expectKeyword {word : Keyword} (hword : (TokenKind.keyword word).isOpen = false) :
    J.Closes (Production.expectKeyword word) := expect hword

/-- A production in parentheses. -/
theorem inParens {item : Production α}
    (h : ∀ b, (Likeness.junction J).Lockstep b .moved item item fun _ => .moved) :
    J.Follows .any n (Production.inParens item) :=
  Follows.expect.bind fun _ => follows (bind h fun a => (expect rfl).bindRet fun _ => a)

/-- Tokens are skipped up to the parenthesis that closes what is open. -/
theorem skipRounds (depth : ℕ) : J.Closes (Production.loop Production.skipRound depth) := by
  intro p q hpq a p' heq
  induction hk : p.remaining using Nat.strong_induction_on generalizing p q depth with
  | _ k ih =>
    subst hk
    have hkind : p.current.kind = q.current.kind := hpq.alike.current.kind
    by_cases hend : p.current.kind = .eof
    · rw [Production.loop, Production.skipRound_of_eof hend] at heq
      cases heq
    have hround := Production.skipRound_of_ne hend depth
    have hround' := Production.skipRound_of_ne (hkind ▸ hend) depth
    rw [← hkind] at hround'
    rw [Production.loop, hround] at heq
    cases hstep : Production.skipped depth p.current.kind with
    | done =>
      rw [hstep] at heq hround'
      rw [Production.run_loop_done hround']
      have hparen := Production.eq_of_skipped_done hstep
      have hclosed := expect (J := J) (k := .rightParen) rfl p q hpq ()
      rw [Production.run_expect, if_pos hparen, Production.run_expect,
        if_pos (hkind ▸ hparen)] at hclosed
      exact hclosed p' heq
    | more depth' =>
      rw [hstep] at heq hround'
      dsimp only at heq
      split at heq
      swap
      · cases heq
      next hfewer =>
      rcases hpq.advance with hsees | hspent
      · obtain ⟨hreaches, hto⟩ := ih _ hfewer depth' _ _ hsees heq rfl
        refine ⟨.trans (.advance p) hreaches, hto.imp_right ?_⟩
        rintro ⟨q', hq', hreaches', hat'⟩
        refine ⟨q', ?_, .trans (.advance q) hreaches', hat'⟩
        have hendq : ¬q.atEnd := by
          rw [Parser.atEnd, Token.isEof, ← hkind, beq_iff_eq]
          exact hend
        rw [Production.run_loop_more hround' (hpq.right.beyond_advance hendq).remaining]
        exact hq'
      · obtain ⟨hreaches, hpast⟩ := past_of_alone (ih _ hfewer depth' _ _ hspent.sees heq rfl)
        exact ⟨.trans (.advance p) hreaches, .inl hpast⟩

/-- A text in parentheses that is skipped. -/
theorem skipParens : J.Follows .any n Production.skipParens :=
  Follows.expect.bind fun _ => (skipRounds 0).follows

end Closes

end SqlFrontend.Junction
