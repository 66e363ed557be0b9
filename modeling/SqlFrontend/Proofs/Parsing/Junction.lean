import SqlFrontend.Proofs.Grammar.Descent
import SqlFrontend.Proofs.Parsing.Run

/-!
# Texts that go on differently

A production looks at the token behind what it reads: it may read on there. Two texts that begin with the
same tokens are treated alike as long as it does not come to where they differ. If it stops there, whether
it would have read on depends on the first token of what follows, in each of the texts.

Results:
* `Junction`: what follows the tokens that two texts have in common. `Junction.At` are parsers of the two
  texts before the same tokens of these.
* `Likeness.junction`: productions treat such parsers alike up to the last of the tokens. A last token that
  closes a construct belongs to what they have in common, since nothing is looked at behind it.
* `Junction.Follows`: a production reads the same from the longer text as from the shorter one, or more of
  the shorter one than the tokens in common.
* `Follows.ofStrict`: a production that uses up text needs to be looked at before a token in common only.
* `Follows.closed`: a production between tokens that enclose it follows if it is in lockstep.
-/

namespace SqlFrontend

/-! ## Junctions -/

/-- What follows the tokens that two texts have in common, in each of them: a token and more tokens. -/
structure Junction where
  here : Token
  behind : List Token
  there : Token
  beyond : List Token

/-- A parser before given tokens, without time limit and without an error so far. -/
structure Parser.Before (p : Parser) (ts : List Token) : Prop where
  sound : p.Sound
  settled : p.deferred = #[]
  errorless : p.errors = #[]
  live : p.expired = false
  running : p.cancelled = false
  halting : p.recovering = false
  upcoming : p.upcoming = ts

namespace Parser.Before

variable {p : Parser} {t u : Token} {ts : List Token}

theorem underway (h : p.Before ts) : p.Underway :=
  ⟨h.sound, h.settled, fun e he => by simp [h.errorless] at he⟩

theorem current (h : p.Before (t :: ts)) : p.current = t := current_of_upcoming h.upcoming

theorem peek (h : p.Before (t :: u :: ts)) : p.peek = u := peek_of_upcoming h.upcoming

theorem not_atEnd (h : p.Before (t :: u :: ts)) : ¬p.atEnd := by
  intro hend
  have hupcoming := (upcoming_of_atEnd hend).symm.trans h.upcoming
  cases hupcoming

theorem advance (h : p.Before (t :: u :: ts)) : p.advance.Before (u :: ts) := by
  have hc : ¬p.cancelled := by simp [h.running]
  have he : ¬p.expired := by simp [h.live]
  have hupcoming := h.upcoming
  rw [upcoming_advance h.not_atEnd hc he] at hupcoming
  refine ⟨h.sound.advance, ?_, ?_, ?_, ?_, ?_, (List.cons.inj hupcoming).2⟩
  all_goals rw [advance_of_live hc he, countCurrent_eq]
  · exact h.settled
  · exact h.errorless
  · exact h.live
  · exact h.running
  · exact h.halting

/-- Neither the pools nor the depth of routines count for what is ahead. -/
theorem congr {q : Parser} (h : p.Before ts)
    (hq : q = { p with pools := q.pools, routineDepth := q.routineDepth }) : q.Before ts := by
  obtain ⟨hsound, hsettled, herrors, hlive, hrunning, hhalting, hupcoming⟩ := h
  rw [hq]
  exact ⟨hsound.congr rfl rfl rfl rfl rfl, hsettled, herrors, hlive, hrunning, hhalting, hupcoming⟩

end Parser.Before

namespace Junction

variable (J : Junction)

/-- The end of the shorter text. -/
def left : List Token := J.here :: J.behind

/-- The end of the longer text. -/
def right : List Token := J.there :: J.beyond

/-- Parsers of the two texts before the same tokens, and before what follows these. -/
structure At (xs : List Token) (p q : Parser) : Prop where
  left : p.Before (xs ++ J.left)
  right : q.Before (xs ++ J.right)
  dialect : p.dialect = q.dialect
  depth : p.routineDepth = q.routineDepth
  pools : p.pools = q.pools
  shorter : p.lexer.source.utf8ByteSize < q.lexer.source.utf8ByteSize
  closing : ∀ x ∈ xs, x.kind.isOpen = false → x.closes

/-- Parsers that have read more than what the texts have in common. -/
structure Past (p : Parser) : Prop where
  sound : p.Sound
  halting : p.recovering = false
  length : p.upcoming.length < J.left.length

/-- Parsers that may look behind what the texts have in common. -/
structure Spent (p : Parser) : Prop where
  sound : p.Sound
  halting : p.recovering = false
  length : p.upcoming.length ≤ J.left.length ∨
    p.upcoming.length = J.left.length + 1 ∧ p.current.kind.isOpen

variable {J} {p q p' : Parser} {x y : Token} {xs : List Token}

namespace At

theorem current (h : J.At (x :: xs) p q) : p.current = x ∧ q.current = x :=
  ⟨h.left.current, h.right.current⟩

/-- Parsers before the same tokens see what follows these, the last of these and what follows, or the same
two tokens. -/
theorem sight (h : J.At xs p q) : xs = [] ∧ p.current = J.here ∧ q.current = J.there ∨
    p.current = q.current ∧ p.peek = J.here ∧ q.peek = J.there ∨
    p.current = q.current ∧ p.peek = q.peek := by
  rcases xs with _ | ⟨x, _ | ⟨y, ys⟩⟩
  · exact .inl ⟨rfl, h.left.current, h.right.current⟩
  · exact .inr (.inl ⟨h.current.1.trans h.current.2.symm, h.left.peek, h.right.peek⟩)
  · exact .inr (.inr ⟨h.current.1.trans h.current.2.symm, h.left.peek.trans h.right.peek.symm⟩)

/-- Before a token in common, neither parser is at the end of its text. -/
theorem not_atEnd (h : J.At (x :: xs) p q) : ¬p.atEnd ∧ ¬q.atEnd := by
  have hleft := h.left
  have hright := h.right
  cases xs with
  | nil => exact ⟨hleft.not_atEnd, hright.not_atEnd⟩
  | cons => exact ⟨hleft.not_atEnd, hright.not_atEnd⟩

theorem advance (h : J.At (x :: xs) p q) : J.At xs p.advance q.advance := by
  have hbefore : p.advance.Before (xs ++ J.left) ∧ q.advance.Before (xs ++ J.right) := by
    have hleft := h.left
    have hright := h.right
    cases xs with
    | nil => exact ⟨hleft.advance, hright.advance⟩
    | cons => exact ⟨hleft.advance, hright.advance⟩
  have hp := Parser.Reaches.advance p
  have hq := Parser.Reaches.advance q
  refine ⟨hbefore.1, hbefore.2, ?_, ?_, ?_, ?_, fun y hy => h.closing y (List.mem_cons_of_mem _ hy)⟩
  · rw [hp.dialect, hq.dialect]; exact h.dialect
  · rw [hp.routineDepth, hq.routineDepth]; exact h.depth
  · rw [Parser.pools_advance, Parser.pools_advance]; exact h.pools
  · rw [hp.source, hq.source]; exact h.shorter

/-- What changes neither what is ahead nor the setting. -/
theorem congr {q' : Parser} (h : J.At xs p q)
    (hp : p' = { p with pools := p'.pools, routineDepth := p'.routineDepth })
    (hq : q' = { q with pools := q'.pools, routineDepth := q'.routineDepth })
    (hdepth : p'.routineDepth = q'.routineDepth) (hpools : p'.pools = q'.pools) : J.At xs p' q' := by
  refine ⟨h.left.congr hp, h.right.congr hq, ?_, hdepth, hpools, ?_, h.closing⟩
  · rw [hp, hq]; exact h.dialect
  · rw [hp, hq]; exact h.shorter

/-- The parser of the longer text has more before it. -/
theorem notBefore (h : J.At (x :: xs) p q) : Parser.NotBefore q p := by
  refine ⟨?_, (Prod.Lex.toLex_lt_toLex.2 (.inl h.shorter)).le⟩
  rw [Parser.remaining.eq_def p, if_neg h.not_atEnd.1, Parser.remaining.eq_def q, if_neg h.not_atEnd.2,
    h.current.1, h.current.2]
  have := h.shorter
  omega

end At

/-! ## What the texts have in common -/

theorem Past.spent (h : J.Past p) : J.Spent p := ⟨h.sound, h.halting, .inl h.length.le⟩

theorem length_le_of_reaches (h : p.Reaches p') (hp : p.Sound) :
    p'.upcoming.length ≤ p.upcoming.length := by
  have hextent := (h.notBefore hp).extent
  rw [Parser.extent, Parser.extent, Prod.Lex.toLex_le_toLex] at hextent
  exact (hextent.resolve_left (by rw [h.source]; exact lt_irrefl _)).2

theorem length_lt_of_beyond (h : p.Reaches p') (hbeyond : Parser.Beyond p p') :
    p'.upcoming.length < p.upcoming.length := by
  have hextent := hbeyond.extent
  rw [Parser.extent, Parser.extent, Prod.Lex.toLex_lt_toLex] at hextent
  exact (hextent.resolve_left (by rw [h.source]; exact lt_irrefl _)).2

/-- Where less is left, a parser has gone on. -/
theorem beyond_of_length_lt (h : p.Reaches p') (hp : p.Sound)
    (hless : p'.upcoming.length < p.upcoming.length) : Parser.Beyond p p' := by
  have hend : ¬p.atEnd := by
    intro hend
    have hpositive : 0 < p'.upcoming.length := by
      unfold Parser.upcoming
      split <;> try split
      all_goals exact Nat.succ_pos _
    rw [Parser.upcoming_of_atEnd hend, List.length_singleton] at hless
    omega
  refine (h.eq_or_beyond hp hend).resolve_left fun hcourse => ?_
  have hupcoming : p.upcoming = p'.upcoming :=
    (congrArg Parser.upcoming hcourse : p.course.upcoming = p'.course.upcoming)
  rw [hupcoming] at hless
  exact absurd hless (lt_irrefl _)

theorem Past.reaches (h : J.Past p) (hreaches : p.Reaches p') : J.Past p' :=
  ⟨hreaches.sound h.sound, hreaches.recovering.trans h.halting,
    (length_le_of_reaches hreaches h.sound).trans_lt h.length⟩

theorem Spent.reaches (h : J.Spent p) (hreaches : p.Reaches p') : J.Spent p' := by
  refine ⟨hreaches.sound h.sound, hreaches.recovering.trans h.halting, ?_⟩
  rcases h.length with hle | ⟨hlength, hopen⟩
  · exact .inl ((length_le_of_reaches hreaches h.sound).trans hle)
  · have hend : ¬p.atEnd := by
      intro hend
      rw [Parser.upcoming_of_atEnd hend] at hlength
      simp [left] at hlength
    rcases hreaches.eq_or_beyond h.sound hend with hcourse | hbeyond
    · have hcurrent : p.current = p'.current := (congrArg Parser.current hcourse : p.course.current = _)
      have hupcoming : p.upcoming = p'.upcoming :=
        (congrArg Parser.upcoming hcourse : p.course.upcoming = p'.course.upcoming)
      rw [← hcurrent, ← hupcoming]
      exact .inr ⟨hlength, hopen⟩
    · have := length_lt_of_beyond hreaches hbeyond
      omega

/-- Behind a token in common, or the first token of what follows, parsers are past what is in common. -/
theorem At.past (h : J.At [] p q) (hbeyond : Parser.Beyond p p') (hreaches : p.Reaches p') : J.Past p' := by
  refine ⟨hreaches.sound h.left.sound, hreaches.recovering.trans h.left.halting, ?_⟩
  have := length_lt_of_beyond hreaches hbeyond
  rwa [h.left.upcoming] at this

/-- Parsers that see only tokens in common. A last one of these counts if it closes a construct. -/
def Sees (J : Junction) (p q : Parser) : Prop :=
  (∃ x xs, J.At (x :: xs) p q ∧ (xs = [] → x.closes)) ∨ J.Spent p ∧ q = p

theorem Spent.sees (h : J.Spent p) : J.Sees p p := .inr ⟨h, rfl⟩

theorem At.sees (h : J.At xs p q) : J.Sees p q ∨ J.Spent p := by
  have hlength : p.upcoming.length = xs.length + J.left.length := by
    rw [h.left.upcoming, List.length_append]
  rcases xs with _ | ⟨x, _ | ⟨y, ys⟩⟩
  · exact .inr ⟨h.left.sound, h.left.halting, .inl (by simpa using hlength.le)⟩
  · cases hopen : x.kind.isOpen with
    | true =>
      refine .inr ⟨h.left.sound, h.left.halting, .inr ⟨by simpa [Nat.add_comm] using hlength, ?_⟩⟩
      rw [h.current.1]
      exact hopen
    | false => exact .inl (.inl ⟨x, [], h, fun _ => h.closing x List.mem_cons_self hopen⟩)
  · exact .inl (.inl ⟨x, y :: ys, h, fun hnone => absurd hnone (List.cons_ne_nil y ys)⟩)

namespace Sees

theorem left (h : J.Sees p q) : p.Sound := by
  obtain ⟨x, xs, h, -⟩ | ⟨h, -⟩ := h
  · exact h.left.sound
  · exact h.sound

theorem right (h : J.Sees p q) : q.Sound := by
  obtain ⟨x, xs, h, -⟩ | ⟨h, rfl⟩ := h
  · exact h.right.sound
  · exact h.sound

theorem halting (h : J.Sees p q) : p.recovering = false := by
  obtain ⟨x, xs, h, -⟩ | ⟨h, -⟩ := h
  · exact h.left.halting
  · exact h.halting

theorem alike (h : J.Sees p q) : p.AlikeHere Eq .equal q := by
  obtain ⟨x, xs, h, hlast⟩ | ⟨-, rfl⟩ := h
  · have hcurrent : p.current = q.current := h.current.1.trans h.current.2.symm
    refine ⟨by rw [hcurrent]; exact ⟨rfl, rfl, rfl⟩, fun hcloses => ?_, h.dialect,
      h.left.live.trans h.right.live.symm, h.left.running.trans h.right.running.symm,
      h.left.halting.trans h.right.halting.symm, h.depth, h.pools⟩
    rw [h.current.1] at hcloses
    cases xs with
    | nil => rw [hlast rfl] at hcloses; cases hcloses
    | cons y ys =>
      rw [h.left.peek, h.right.peek]
      exact ⟨rfl, rfl, rfl⟩
  · exact ⟨⟨rfl, rfl, rfl⟩, fun _ => ⟨rfl, rfl, rfl⟩, rfl, rfl, rfl, rfl, rfl, rfl⟩

theorem advance (h : J.Sees p q) : J.Sees p.advance q.advance ∨ J.Spent p.advance := by
  obtain ⟨x, xs, h, -⟩ | ⟨h, rfl⟩ := h
  · exact h.advance.sees
  · exact .inr (h.reaches (.advance _))

/-- Changes of the pools and of the depth of routines. -/
theorem congr (h : J.Sees p q) (pools : Pools) (depth : Parser → ℕ)
    (hdepth : p.routineDepth = q.routineDepth → depth p = depth q) :
    J.Sees { p with pools, routineDepth := depth p } { q with pools, routineDepth := depth q } := by
  obtain ⟨x, xs, h, hlast⟩ | ⟨h, rfl⟩ := h
  · exact .inl ⟨x, xs, h.congr rfl rfl (hdepth h.depth) rfl, hlast⟩
  · exact .inr ⟨⟨h.sound.congr rfl rfl rfl rfl rfl, h.halting, h.length⟩, rfl⟩

end Sees

end Junction

/-- Parsers that see tokens of two texts which these have in common. Of errors nothing is said. -/
def Likeness.junction (J : Junction) : Likeness where
  place := Eq
  how := .equal
  state := J.Sees
  failed _ p _ q := p.AlikeHere Eq .equal q ∧ p.recovering = false
  limit := {
    past := J.Spent
    self := Junction.Spent.sees
    reaches := Junction.Spent.reaches
    atDepth := fun _ h => ⟨h.sound.congr rfl rfl rfl rfl rfl, h.halting, h.length⟩
    shorter := fun _ h => by
      obtain ⟨x, xs, h, -⟩ | ⟨-, rfl⟩ := h
      · exact h.notBefore
      · exact .refl _ }
  left := Junction.Sees.left
  right := Junction.Sees.right
  alike := Junction.Sees.alike
  advance := Junction.Sees.advance
  withPools {p q P Q} h hPQ := by
    obtain rfl : P = Q := hPQ
    exact h.congr P Parser.routineDepth id
  atDepth {p q} n h := by
    have hpools : p.pools = q.pools := h.alike.pools
    have hcongr := h.congr p.pools (fun _ => n) fun _ => rfl
    nth_rewrite 2 [hpools] at hcongr
    exact hcongr
  failed_alike h := h.1
  failed_withPools h hPQ := ⟨⟨h.1.current, h.1.peek, h.1.dialect, h.1.expired, h.1.cancelled,
    h.1.recovering, h.1.routineDepth, hPQ⟩, h.2⟩
  failed_atDepth n h := ⟨⟨h.1.current, h.1.peek, h.1.dialect, h.1.expired, h.1.cancelled,
    h.1.recovering, rfl, h.1.pools⟩, h.2⟩
  expects h _ _ := ⟨h.alike, h.halting⟩
  fails h _ _ _ := ⟨h.alike, h.halting⟩
  relays h _ _ _ _ := ⟨⟨h.alike.current, h.alike.peek, h.alike.dialect, h.alike.expired,
    h.alike.cancelled, h.alike.recovering, h.alike.routineDepth, h.alike.pools⟩, h.halting⟩
  record h hr _ := by
    rw [h.2] at hr
    cases hr

end SqlFrontend
