import SqlFrontend.Proofs.Grammar.Descent
import SqlFrontend.Proofs.Lexing.Pieces
import SqlFrontend.Proofs.Parsing.Run

/-!
# Reading pieces

Which value a production reads from given pieces, and which pieces it leaves. Where the text ahead is
known, this says that the value is read, and not just what it is like if it is.

Results:
* `Parser.Ahead`: the pieces that stand before a parser. A parser goes on from each to the next.
* `Production.Parses`, `Production.ParsesIn`: before given pieces, a production reads a value and stops
  before other pieces, in every dialect or in one.
* `ParsesIn.bind`, `ParsesIn.loopMore`, `ParsesIn.many`, `ParsesIn.list`: the rules for putting
  productions together.
* `Production.Comes`: before given pieces, a production does what another one does behind the first of
  them.
-/

namespace SqlFrontend

namespace Parser

/-- A parser without time limit and without an error so far, with the given pieces before it. -/
structure Ahead (p : Parser) (ps : List Piece) : Prop where
  sound : p.Sound
  settled : p.deferred = #[]
  errorless : p.errors = #[]
  live : p.expired = false
  running : p.cancelled = false
  pools : p.pools.IsFresh
  pieces : p.upcoming.map Token.piece = ps

namespace Ahead

variable {p : Parser} {t u : Piece} {ps : List Piece}

theorem underway (h : p.Ahead ps) : p.Underway :=
  ⟨h.sound, h.settled, fun e he => by simp [h.errorless] at he⟩

theorem current (h : p.Ahead (t :: ps)) : p.current.piece = t := by
  obtain ⟨token, rest, hupcoming, hpiece, -⟩ := List.map_eq_cons_iff.1 h.pieces
  rw [current_of_upcoming hupcoming]
  exact hpiece

theorem kind (h : p.Ahead (t :: ps)) : p.current.kind = t.kind := congrArg Piece.kind h.current

theorem literal (h : p.Ahead (t :: ps)) : p.current.literal = t.literal :=
  congrArg Piece.literal h.current

theorem peek_piece (h : p.Ahead (t :: u :: ps)) : p.peek.piece = u := by
  obtain ⟨token, rest, hupcoming, -, hpieces⟩ := List.map_eq_cons_iff.1 h.pieces
  obtain ⟨next, rest, rfl, hpiece, -⟩ := List.map_eq_cons_iff.1 hpieces
  rw [peek_of_upcoming hupcoming]
  exact hpiece

theorem peek (h : p.Ahead (t :: u :: ps)) : p.peek.kind = u.kind := congrArg Piece.kind h.peek_piece

/-- A parser goes on to the next piece. -/
theorem advance (h : p.Ahead (t :: ps)) (ht : t.kind ≠ .eof) :
    p.advance.Ahead ps ∧ p.advance.remaining < p.remaining := by
  have hend : ¬p.atEnd := by
    rw [atEnd, Token.isEof, beq_iff_eq, h.kind]
    exact ht
  have hc : ¬p.cancelled := by simp [h.running]
  have he : ¬p.expired := by simp [h.live]
  have hpieces := h.pieces
  rw [upcoming_advance hend hc he, List.map_cons] at hpieces
  refine ⟨⟨h.sound.advance, ?_, ?_, ?_, ?_, ?_, (List.cons.inj hpieces).2⟩,
    (h.sound.beyond_advance hend).remaining⟩
  all_goals rw [advance_of_live hc he, countCurrent_eq]
  · exact h.settled
  · exact h.errorless
  · exact h.live
  · exact h.running
  · exact h.pools

/-- Neither the depth of routines nor whether a parser stops at errors counts for what is ahead. -/
theorem congr {q : Parser} (h : p.Ahead ps)
    (hq : q = { p with routineDepth := q.routineDepth, recovering := q.recovering }) : q.Ahead ps := by
  obtain ⟨hsound, hsettled, herrors, hlive, hrunning, hpools, hpieces⟩ := h
  rw [hq]
  exact ⟨hsound.congr rfl rfl rfl rfl rfl, hsettled, herrors, hlive, hrunning, hpools, hpieces⟩

theorem withPools (h : p.Ahead ps) {pools : Pools} (hpools : pools.IsFresh) :
    Ahead { p with pools } ps :=
  ⟨h.sound.of_course rfl, h.settled, h.errorless, h.live, h.running, hpools, h.pieces⟩

end Ahead

end Parser

namespace Production

/-- Before the pieces `ps`, a production reads a value and goes on to where it stops, before `qs`. This
holds of parsers of one dialect, if one is given. -/
def ParsesIn {α : Type} (d? : Option Dialect) (m : Production α) (ps : List Piece) (a : α)
    (qs : List Piece) : Prop :=
  ∀ p : Parser, p.Ahead ps → (∀ d ∈ d?, p.dialect = d) →
    ∃ q, m p = .ok a q ∧ q.Ahead qs ∧ q.remaining + ps.length ≤ p.remaining + qs.length ∧ p.Reaches q

/-- The same in every dialect. -/
abbrev Parses {α : Type} (m : Production α) (ps : List Piece) (a : α) (qs : List Piece) : Prop :=
  ParsesIn none m ps a qs

namespace ParsesIn

variable {d? : Option Dialect} {α β σ : Type} {m n : Production α} {a : α} {t u : Piece}
  {ps qs rs : List Piece}

/-! ## Sequences and choices -/

theorem ret : ParsesIn d? (Pure.pure a) ps a ps := fun p hp _ => ⟨p, rfl, hp, le_refl _, .refl p⟩

theorem bind {f : α → Production β} {b : β} (hm : ParsesIn d? m ps a qs)
    (hf : ParsesIn d? (f a) qs b rs) : ParsesIn d? (m >>= f) ps b rs := by
  intro p hp hd
  obtain ⟨q, hq, hqs, hle, hreaches⟩ := hm p hp hd
  obtain ⟨r, hr, hrs, hle', hreaches'⟩ := hf q hqs fun d h => hreaches.dialect.trans (hd d h)
  refine ⟨r, ?_, hrs, by omega, hreaches.trans hreaches'⟩
  rw [run_bind, hq]
  exact hr

theorem map {f : α → β} (hm : ParsesIn d? m ps a qs) : ParsesIn d? (f <$> m) ps (f a) qs := by
  rw [map_eq_pure_bind]
  exact hm.bind ret

theorem ifTrue {c : Prop} [Decidable c] (hc : c) (h : ParsesIn d? m ps a qs) :
    ParsesIn d? (if c then m else n) ps a qs := by
  rw [if_pos hc]
  exact h

theorem ifFalse {c : Prop} [Decidable c] (hc : ¬c) (h : ParsesIn d? n ps a qs) :
    ParsesIn d? (if c then m else n) ps a qs := by
  rw [if_neg hc]
  exact h

/-- A choice whose test succeeds. -/
theorem bindIfTrue {test : Production Bool} (ht : ParsesIn d? test ps true qs)
    (h : ParsesIn d? m qs a rs) : ParsesIn d? (test >>= fun b => if b then m else n) ps a rs :=
  ht.bind (ifTrue rfl h)

/-- A choice whose test fails. -/
theorem bindIfFalse {test : Production Bool} (ht : ParsesIn d? test ps false qs)
    (h : ParsesIn d? n qs a rs) : ParsesIn d? (test >>= fun b => if b then m else n) ps a rs :=
  ht.bind (ifFalse Bool.false_ne_true h)

/-! ## Looking at the pieces ahead -/

/-- A production that only looks at what is ahead. -/
theorem look (h : ∀ p : Parser, p.Ahead ps → m p = .ok a p) : ParsesIn d? m ps a ps :=
  fun p hp _ => ⟨p, h p hp, hp, le_refl _, .refl p⟩

/-- A look at what does not count. -/
theorem bindAny {s : Production β} {f : β → Production α} (hs : ∀ p, ∃ x, s p = .ok x p)
    (h : ∀ x, ParsesIn d? (f x) ps a rs) : ParsesIn d? (s >>= f) ps a rs := by
  intro p hp hd
  obtain ⟨x, hx⟩ := hs p
  rw [run_bind, hx]
  exact h x p hp hd

theorem bindGet {f : Parser → Production α}
    (h : ∀ p : Parser, p.Ahead ps → ParsesIn d? (f p) ps a rs) :
    ParsesIn d? (MonadState.get >>= f) ps a rs :=
  fun p hp => h p hp p hp

theorem bindCurrent {f : Token → Production α}
    (h : ∀ x, x.piece = t → ParsesIn d? (f x) (t :: ps) a rs) :
    ParsesIn d? (Production.current >>= f) (t :: ps) a rs :=
  fun p hp => h p.current hp.current p hp

theorem kind : ParsesIn d? Production.kind (t :: ps) t.kind (t :: ps) := by
  intro p hp _
  refine ⟨p, ?_, hp, le_refl _, .refl p⟩
  rw [run_kind, hp.kind]

theorem peekKind : ParsesIn d? Production.peekKind (t :: u :: ps) u.kind (t :: u :: ps) := by
  intro p hp _
  refine ⟨p, ?_, hp, le_refl _, .refl p⟩
  rw [run_peekKind, hp.peek]

theorem checkTrue {k : TokenKind} (h : t.kind = k) :
    ParsesIn d? (check k) (t :: ps) true (t :: ps) := by
  intro p hp _
  refine ⟨p, ?_, hp, le_refl _, .refl p⟩
  rw [run_check, hp.kind, h, beq_self_eq_true]

theorem checkFalse {k : TokenKind} (h : t.kind ≠ k) :
    ParsesIn d? (check k) (t :: ps) false (t :: ps) := by
  intro p hp _
  refine ⟨p, ?_, hp, le_refl _, .refl p⟩
  rw [run_check, hp.kind, beq_false_of_ne h]

theorem checkPeekFalse {k : TokenKind} (h : u.kind ≠ k) :
    ParsesIn d? (checkPeek k) (t :: u :: ps) false (t :: u :: ps) := by
  intro p hp _
  refine ⟨p, ?_, hp, le_refl _, .refl p⟩
  rw [run_checkPeek, hp.peek, beq_false_of_ne h]

theorem checkKeywordsFalse {first second : Keyword} (h : t.kind ≠ .keyword first) :
    ParsesIn d? (checkKeywords first second) (t :: ps) false (t :: ps) :=
  bindIfFalse (checkFalse h) ret

theorem atName (h : t.kind = .identifier) : ParsesIn d? Production.atName (t :: ps) true (t :: ps) := by
  intro p hp _
  refine ⟨p, ?_, hp, le_refl _, .refl p⟩
  rw [run_atName, Token.isName, hp.kind, h]

theorem atNameKeyword {keyword : Keyword} (h : t.kind = .keyword keyword)
    (hkeyword : keyword.isReserved = false) :
    ParsesIn d? Production.atName (t :: ps) true (t :: ps) := by
  intro p hp _
  refine ⟨p, ?_, hp, le_refl _, .refl p⟩
  rw [run_atName, Token.isName, hp.kind, h]
  dsimp only
  rw [hkeyword]
  rfl

theorem dialect {d : Dialect} : ParsesIn (some d) Production.dialect ps d ps := by
  intro p hp hd
  refine ⟨p, ?_, hp, le_refl _, .refl p⟩
  rw [run_dialect, hd d rfl]

/-! ## Going on -/

theorem advance (h : t.kind ≠ .eof) : ParsesIn d? Production.advance (t :: ps) () ps := by
  intro p hp _
  obtain ⟨hps, hless⟩ := hp.advance h
  refine ⟨p.advance, rfl, hps, ?_, .advance p⟩
  rw [List.length_cons]
  omega

theorem takeLiteral (h : t.kind ≠ .eof) : ParsesIn d? Production.takeLiteral (t :: ps) t.literal ps := by
  intro p hp hd
  obtain ⟨q, hq, hps, hle, hreaches⟩ := advance h p hp hd
  cases hq
  refine ⟨p.advance, ?_, hps, hle, hreaches⟩
  rw [run_takeLiteral, hp.literal]

theorem consumeTrue {k : TokenKind} (h : t.kind = k) (hk : k ≠ .eof) :
    ParsesIn d? (consume k) (t :: ps) true ps :=
  bindIfTrue (checkTrue h) ((advance (h ▸ hk)).bind ret)

theorem consumeFalse {k : TokenKind} (h : t.kind ≠ k) :
    ParsesIn d? (consume k) (t :: ps) false (t :: ps) :=
  bindIfFalse (checkFalse h) ret

theorem consumeWordTrue {word : String} (h : t.kind = .identifier) (hword : Text.sameWord t.literal word) :
    ParsesIn d? (consumeWord word) (t :: ps) true ps := by
  refine bindIfTrue (look fun p hp => ?_) ((advance (by rw [h]; nofun)).bind ret)
  change EStateM.Result.ok (p.current.isWord word) p = _
  rw [Token.isWord, hp.kind, hp.literal, h, hword]
  rfl

theorem expectWord {word : String} (h : t.kind = .identifier) (hword : Text.sameWord t.literal word) :
    ParsesIn d? (Production.expectWord word) (t :: ps) () ps :=
  (consumeWordTrue h hword).bind (ifTrue rfl ret)

theorem consumeWordFalse {word : String} (h : t.kind = .identifier → Text.sameWord t.literal word = false) :
    ParsesIn d? (consumeWord word) (t :: ps) false (t :: ps) := by
  refine bindIfFalse (look fun p hp => ?_) ret
  change EStateM.Result.ok (p.current.isWord word) p = _
  rw [Token.isWord, hp.kind, hp.literal]
  by_cases ht : t.kind = .identifier
  · rw [h ht, Bool.and_false]
  · rw [beq_false_of_ne ht, Bool.false_and]

theorem skipKeyword {word : Keyword} (h : t.kind ≠ .keyword word) :
    ParsesIn d? (Production.skipKeyword word) (t :: ps) () (t :: ps) :=
  (consumeFalse h).map

theorem expect {k : TokenKind} (h : t.kind = k) (hk : k ≠ .eof) :
    ParsesIn d? (Production.expect k) (t :: ps) () ps :=
  (consumeTrue h hk).bind (ifTrue rfl ret)

theorem expectKeyword {word : Keyword} (h : t.kind = .keyword word) :
    ParsesIn d? (Production.expectKeyword word) (t :: ps) () ps :=
  (consumeTrue h nofun).bind (ifTrue rfl ret)

theorem name (h : t.kind = .identifier) : ParsesIn d? Production.name (t :: ps) t.literal ps :=
  bindIfTrue (atName h) (takeLiteral (by simp [h]))

theorem trailingNameNone (h : t.kind ≠ .identifier) (h' : t.kind ≠ .quotedIdentifier) :
    ParsesIn d? trailingName? (t :: ps) none (t :: ps) := by
  intro p hp _
  have hnone : p.atTrailingName = false := by
    have hidentifier : p.current.isIdentifier = false := by
      rw [Token.isIdentifier.eq_def, hp.kind]
      split <;> first | rfl | contradiction
    rw [Parser.atTrailingName, hidentifier]
    rfl
  refine ⟨p, ?_, hp, le_refl _, .refl p⟩
  rw [trailingName?, run_bind, run_get]
  dsimp only
  rw [hnone]
  rfl

/-! ## Repetition -/

/-- A round that is not done is followed by the others if it took a piece. -/
theorem loopMore {round : σ → Production (Step σ α)} {s s' : σ}
    (h : ParsesIn d? (round s) ps (.more s') qs) (hless : qs.length < ps.length)
    (hothers : ParsesIn d? (loop round s') qs a rs) : ParsesIn d? (loop round s) ps a rs := by
  intro p hp hd
  obtain ⟨q, hq, hqs, hle, hreaches⟩ := h p hp hd
  obtain ⟨r, hr, hrs, hle', hreaches'⟩ := hothers q hqs fun d h => hreaches.dialect.trans (hd d h)
  refine ⟨r, ?_, hrs, by omega, hreaches.trans hreaches'⟩
  rw [run_loop_more hq (by omega)]
  exact hr

theorem loopDone {round : σ → Production (Step σ α)} {s : σ}
    (h : ParsesIn d? (round s) ps (.done a) qs) : ParsesIn d? (loop round s) ps a qs := by
  intro p hp hd
  obtain ⟨q, hq, hqs, hle⟩ := h p hp hd
  exact ⟨q, run_loop_done hq, hqs, hle⟩

/-- Items are collected one after the other, where each of them is read before what may follow it, and
none is found at the end. -/
theorem many {item : Production (Option α)} {text : α → List Piece} {I : List Piece → Prop}
    {xs : List α} (hitem : ∀ x ∈ xs, ∀ rest, I rest → ParsesIn d? item (text x ++ rest) (some x) rest)
    (hnext : ∀ x ∈ xs, ∀ rest, text x ≠ [] ∧ I (text x ++ rest)) (hrest : I qs)
    (hstop : ParsesIn d? item qs none qs) :
    ParsesIn d? (Production.many item) (xs.flatMap text ++ qs) xs qs := by
  let round (items : List α) : Production (Step (List α) (List α)) :=
    item >>= fun x? => x?.elim (Pure.pure (.done items.reverse)) fun x => Pure.pure (.more (x :: items))
  have hround : Production.many item = loop round [] := by
    refine congrArg (loop · []) (funext fun items => bind_congr fun x? => ?_)
    cases x? <;> rfl
  have hloop : ∀ before : List α,
      ParsesIn d? (loop round before) (xs.flatMap text ++ qs) (before.reverse ++ xs) qs := by
    induction xs with
    | nil =>
      intro before
      rw [List.append_nil]
      exact loopDone (hstop.bind ret)
    | cons x xs ih =>
      intro before
      obtain ⟨hitem, hitems⟩ := List.forall_mem_cons.1 hitem
      obtain ⟨hnext, hnexts⟩ := List.forall_mem_cons.1 hnext
      have hbehind : I (xs.flatMap text ++ qs) := by
        cases xs with
        | nil => exact hrest
        | cons y ys =>
          rw [List.flatMap_cons, List.append_assoc]
          exact (hnexts y List.mem_cons_self _).2
      have hmore : ParsesIn d? (round before) (text x ++ (xs.flatMap text ++ qs)) (.more (x :: before))
          (xs.flatMap text ++ qs) := (hitem _ hbehind).bind ret
      have hpos := List.length_pos_iff.2 (hnext []).1
      have hothers := ih hitems hnexts (x :: before)
      rw [List.reverse_cons, List.append_assoc, List.singleton_append] at hothers
      rw [List.flatMap_cons, List.append_assoc]
      refine loopMore hmore ?_ hothers
      simp only [List.length_append]
      omega
  rw [hround]
  exact hloop []

/-- Items are collected with commas between them. -/
theorem list {item : Production α} {text : α → List Piece} {I : List Piece → Prop} {x : α}
    {xs : List α} (hitem : ∀ y ∈ x :: xs, ∀ rest, I rest → ParsesIn d? item (text y ++ rest) y rest)
    (hcomma : ∀ rest, I (.of .comma :: rest)) (hrest : I (t :: qs)) (hstop : t.kind ≠ .comma) :
    ParsesIn d? (Production.list item)
      (text x ++ (xs.flatMap (fun y => .of .comma :: text y) ++ t :: qs)) (x :: xs) (t :: qs) := by
  obtain ⟨hfirst, hothers⟩ := List.forall_mem_cons.1 hitem
  have hbehind : I (xs.flatMap (fun y => .of .comma :: text y) ++ t :: qs) := by
    cases xs with
    | nil => exact hrest
    | cons y ys => exact hcomma _
  refine (hfirst _ hbehind).bind (bind ?_ ret)
  refine many (I := I) (fun y hy rest hI => ?_) (fun y _ rest => ⟨nofun, hcomma _⟩) hrest ?_
  · exact bindIfTrue (consumeTrue rfl nofun) (hothers y hy rest hI).map
  · exact bindIfFalse (consumeFalse hstop) ret

theorem listOne {item : Production α} (h : ParsesIn d? item ps a (t :: qs)) (hstop : t.kind ≠ .comma) :
    ParsesIn d? (Production.list item) ps [a] (t :: qs) :=
  h.bind (bind (loopDone (bind (bindIfFalse (consumeFalse hstop) ret) ret)) ret)

theorem behindSome {word : Keyword} (h : t.kind = .keyword word) (hm : ParsesIn d? m ps a qs) :
    ParsesIn d? (behind word m) (t :: ps) (some a) qs :=
  bindIfTrue (consumeTrue h nofun) hm.map

theorem behindNone {word : Keyword} (h : t.kind ≠ .keyword word) :
    ParsesIn d? (behind word m) (t :: ps) none (t :: ps) :=
  bindIfFalse (consumeFalse h) ret

theorem inParens (hm : ParsesIn d? m ps a (.of .rightParen :: qs)) :
    ParsesIn d? (Production.inParens m) (.of .leftParen :: ps) a qs :=
  bind (expect (k := .leftParen) rfl nofun) (hm.bind (bind (expect (k := .rightParen) rfl nofun) ret))

/-! ## Nodes from pools -/

theorem onFailure (hm : ParsesIn d? m ps a qs) (change : Pools → Pools) :
    ParsesIn d? (Production.onFailure m change) ps a qs := by
  intro p hp hd
  obtain ⟨q, hq, hqs, hle, hreaches⟩ := hm p hp hd
  refine ⟨q, ?_, hqs, hle, hreaches⟩
  rw [Production.onFailure, hq]

theorem acquireSelect : ParsesIn d? Production.acquireSelect ps Select.fresh ps := by
  intro p hp _
  refine ⟨{ p with pools := { p.pools with select := p.pools.select.acquire.2 } }, ?_, ?_, le_refl _,
    .of_course rfl⟩
  · show EStateM.Result.ok p.pools.select.acquire.1 _ = _
    rw [NodePool.acquire_eq_fresh hp.pools.select]
    rfl
  · exact hp.withPools ⟨NodePool.acquire_isFresh hp.pools.select, hp.pools.binary, hp.pools.column,
      hp.pools.join⟩

theorem acquireBinary : ParsesIn d? Production.acquireBinary ps Binary.fresh ps := by
  intro p hp _
  refine ⟨{ p with pools := { p.pools with binary := p.pools.binary.acquire.2 } }, ?_, ?_, le_refl _,
    .of_course rfl⟩
  · show EStateM.Result.ok p.pools.binary.acquire.1 _ = _
    rw [NodePool.acquire_eq_fresh hp.pools.binary]
    rfl
  · exact hp.withPools ⟨hp.pools.select, NodePool.acquire_isFresh hp.pools.binary, hp.pools.column,
      hp.pools.join⟩

theorem acquireColumn : ParsesIn d? Production.acquireColumn ps ColumnRef.fresh ps := by
  intro p hp _
  refine ⟨{ p with pools := { p.pools with column := p.pools.column.acquire.2 } }, ?_, ?_, le_refl _,
    .of_course rfl⟩
  · show EStateM.Result.ok p.pools.column.acquire.1 _ = _
    rw [NodePool.acquire_eq_fresh hp.pools.column]
    rfl
  · exact hp.withPools ⟨hp.pools.select, hp.pools.binary, NodePool.acquire_isFresh hp.pools.column,
      hp.pools.join⟩

end ParsesIn

/-! ## Productions that come down to others -/

/-- Before the pieces `ps`, a production does what another one does before `qs`, further on. -/
def Comes {α : Type} (m : Production α) (ps : List Piece) (n : Production α) (qs : List Piece) : Prop :=
  ∀ p : Parser, p.Ahead ps →
    ∃ q, m p = n q ∧ q.Ahead qs ∧ q.remaining + ps.length ≤ p.remaining + qs.length ∧ p.Reaches q

namespace Comes

variable {α β : Type} {m n : Production α} {a : α} {t u : Piece} {ps qs rs : List Piece}

theorem refl : Comes m ps m ps := fun p hp => ⟨p, rfl, hp, le_refl _, .refl p⟩

theorem bind {f : α → Production β} {k : Production β} (hm : Parses m ps a qs) (hf : Comes (f a) qs k rs) :
    Comes (m >>= f) ps k rs := by
  intro p hp
  obtain ⟨q, hq, hqs, hle, hreaches⟩ := hm p hp nofun
  obtain ⟨r, hr, hrs, hle', hreaches'⟩ := hf q hqs
  refine ⟨r, ?_, hrs, by omega, hreaches.trans hreaches'⟩
  rw [run_bind, hq]
  exact hr

/-- A sequence whose first production comes down to another one. -/
theorem first {f : α → Production β} (h : Comes m ps n qs) : Comes (m >>= f) ps (n >>= f) qs := by
  intro p hp
  obtain ⟨q, hq, hqs, hle, hreaches⟩ := h p hp
  refine ⟨q, ?_, hqs, hle, hreaches⟩
  rw [run_bind, run_bind, hq]

theorem ifTrue {c : Prop} [Decidable c] {k : Production α} (hc : c) (h : Comes m ps k qs) :
    Comes (if c then m else n) ps k qs := by
  rw [if_pos hc]
  exact h

/-- A look at what does not count. -/
theorem bindAny {s : Production β} {f : β → Production α} {k : Production α}
    (hs : ∀ p, ∃ x, s p = .ok x p) (h : ∀ x, Comes (f x) ps k rs) : Comes (s >>= f) ps k rs := by
  intro p hp
  obtain ⟨x, hx⟩ := hs p
  rw [run_bind, hx]
  exact h x p hp

end Comes

end Production

end SqlFrontend
