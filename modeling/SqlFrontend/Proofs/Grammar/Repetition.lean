import Mathlib.Logic.Relation
import SqlFrontend.Grammar.Statement
import SqlFrontend.Proofs.Grammar.Clause
import SqlFrontend.Proofs.Parsing.Course
import SqlFrontend.Proofs.Parsing.Run

/-!
# What is given twice

A column may be given a value or a condition several times, and a selection an offset in two ways. The
last one counts, and what was read before it is in no tree.

Results:
* `Parser.GivesTwice`: a value, a condition or an offset stands here that gives way to another one.
* `Parser.Meets`: the places on the way from one parser to another, in the text and in the texts that are
  quoted in it.
* `Meets.not_givesTwice`: a text in which the words for it stand once gives nothing twice.
-/

namespace SqlFrontend

namespace Grammar

/-- From one parser to another, which stands behind it, a clause of a column is read. -/
structure ReadsClause (p q : Parser) : Prop where
  reaches : p.Reaches q
  behind : q.remaining < p.remaining
  clause : ∃ bound column column', columnProperty? (.below bound) column p = .ok (some column') q

/-- The limits of a selection, and the offset behind them. -/
def limitsAndOffset (nested : Nested) : Production (Option (Expr × Option Expr) × Option Expr) := do
  let limits ← Production.behind .LIMIT (limitAndOffset nested)
  return (limits, ← Production.behind .OFFSET (offsetRows nested))

end Grammar

namespace Parser

/-- A clause of a column stands here, and behind it, in the same column, another one that begins with the
same word. -/
def RepeatsClause (word : Keyword) (p : Parser) : Prop :=
  p.current.kind = .keyword word ∧
    ∃ q, Relation.TransGen Grammar.ReadsClause p q ∧ q.current.kind = .keyword word

/-- Limits with an offset among them stand here, and behind them an offset on its own. -/
def RepeatsOffset (p : Parser) : Prop :=
  ∃ bound limits q,
    Production.behind .LIMIT (Grammar.limitAndOffset (.below bound)) p = .ok limits q ∧
      (limits.bind Prod.snd).isSome ∧ q.current.kind = .keyword .OFFSET

/-- Something is given here that is given once more behind it, and gives way. -/
def GivesTwice (p : Parser) : Prop :=
  p.RepeatsClause .DEFAULT ∨ p.RepeatsClause .CHECK ∨ p.RepeatsOffset

/-! ## Runs that come by -/

theorem kind_of_behind {α : Type} {word : Keyword} {item : Production α} {a : α} {p q : Parser}
    (h : Production.behind word item p = .ok (some a) q) : p.current.kind = .keyword word := by
  obtain ⟨found, r, hfound, h⟩ := Production.ok_of_bind h
  by_contra hkind
  rw [Production.run_consumeKeyword, if_neg hkind] at hfound
  cases hfound
  cases h

theorem readsClause_of_change {bound : ℕ} {c : ColumnChange} {p q : Parser} (hreaches : p.Reaches q)
    (hless : q.remaining < p.remaining)
    (h : Grammar.columnChange? (.below bound) p = .ok (some c) q) : Grammar.ReadsClause p q := by
  let column : ColumnDefinition := { name := "", type := { name := "" } }
  refine ⟨hreaches, hless, bound, column, c.apply column, ?_⟩
  rw [Grammar.columnProperty?_eq, Production.run_map, h]
  rfl

/-- Clauses that begin with the same word give something twice, if they have an expression. -/
theorem givesTwice_of_clause {column : ColumnDefinition} {word : Keyword} {p : Parser}
    (hcolumn : column.hasClause word) (h : p.RepeatsClause word) : p.GivesTwice := by
  cases word
  case DEFAULT => exact .inl h
  case CHECK => exact .inr (.inl h)
  all_goals cases hcolumn

/-- Where limits with an offset and an offset on its own are read, an offset is given twice. -/
theorem givesTwice_of_limits {bound : ℕ} {v : Option (Expr × Option Expr) × Option Expr} {p q : Parser}
    (h : Grammar.limitsAndOffset (.below bound) p = .ok v q) (hlimits : (v.1.bind Prod.snd).isSome)
    (hoffset : v.2.isSome) : p.GivesTwice := by
  obtain ⟨limits, r, hbefore, h⟩ := Production.ok_of_bind h
  obtain ⟨offset, hbehind, rfl⟩ := Production.ok_of_map h
  obtain ⟨e, rfl⟩ := Option.isSome_iff_exists.1 hoffset
  exact .inr (.inr ⟨bound, limits, r, hbefore, hlimits, kind_of_behind hbehind⟩)

/-! ## Places on a way -/

/-- On the way from one parser to another, in the text or in one that is quoted in it, is a third one. The
depth of routines does not count. -/
inductive Meets : Parser → Parser → Parser → Prop
  | here {p q r : Parser} (depth : ℕ) (behind : p.Reaches r) (before : r.Reaches q) :
      Meets p q { r with routineDepth := depth }
  | quoted {p q r s t : Parser} (behind : p.Reaches s) (before : s.Reaches q)
      (text : s.current.kind.isText) (inner : Meets (s.nested s.current.literal) t r) : Meets p q r

variable {p q r s : Parser}

theorem Meets.behind (h : q.Meets r s) (hreaches : p.Reaches q) : p.Meets r s := by
  cases h with
  | here depth hbehind hbefore => exact .here depth (hreaches.trans hbehind) hbefore
  | quoted hbehind hbefore htext hinner =>
    exact .quoted (hreaches.trans hbehind) hbefore htext hinner

theorem Meets.before (h : p.Meets q s) (hreaches : q.Reaches r) : p.Meets r s := by
  cases h with
  | here depth hbehind hbefore => exact .here depth hbehind (hbefore.trans hreaches)
  | quoted hbehind hbefore htext hinner =>
    exact .quoted hbehind (hbefore.trans hreaches) htext hinner

/-- The same places are on the way at another depth of routines. -/
theorem Meets.atDepth {n : ℕ} (h : Meets { p with routineDepth := n } q s) :
    p.Meets { q with routineDepth := p.routineDepth } s := by
  have hsame {x : Parser} (hx : x.Reaches q) :
      Reaches { x with routineDepth := p.routineDepth } { q with routineDepth := p.routineDepth } :=
    Reaches.atDepth (p := { x with routineDepth := p.routineDepth }) (n := x.routineDepth) hx
  cases h with
  | @here _ _ r depth hbehind hbefore =>
    exact .here (r := { r with routineDepth := p.routineDepth }) depth hbehind.atDepth (hsame hbefore)
  | quoted hbehind hbefore htext hinner =>
    exact .quoted hbehind.atDepth (hsame hbefore) htext hinner

/-! ## Words that stand once -/

section

variable {f : TokenKind → Bool}

theorem countP_of_atEnd (h : p.atEnd) (hf : f .eof = false) :
    (p.upcoming.countP fun t => f t.kind) = 0 := by
  have hkind : p.current.kind = .eof := by simpa [Parser.atEnd, Token.isEof] using h
  rw [upcoming_of_atEnd h, List.countP_singleton, hkind, hf, if_neg Bool.false_ne_true]

theorem countP_pos (h : f p.current.kind) : 0 < p.upcoming.countP fun t => f t.kind := by
  refine List.countP_pos_iff.2 ⟨p.current, ?_, h⟩
  unfold upcoming
  split
  · exact List.mem_singleton_self _
  split <;> exact List.mem_cons_self

/-- Where a token is passed, it is not counted any more. -/
theorem countP_advance (hp : p.Sound) (hf : f .eof = false) :
    (p.advance.upcoming.countP fun t => f t.kind) + (if f p.current.kind then 1 else 0) ≤
      (p.upcoming.countP fun t => f t.kind) := by
  by_cases hend : p.atEnd
  · have hkind : p.current.kind = .eof := by simpa [Parser.atEnd, Token.isEof] using hend
    rw [countP_of_atEnd (hp.atEnd_advance hend) hf, hkind, hf]
    exact Nat.zero_le _
  have hlive : ¬p.cancelled := fun hc => hend (hp.stopped hc).2
  by_cases he : p.expired
  · have hstop : p.advance.atEnd := by
      rw [advance_of_expired he, Parser.cancel, if_neg hlive]
      rfl
    rw [countP_of_atEnd hstop hf, zero_add]
    split
    · next hcurrent => exact countP_pos hcurrent
    · exact Nat.zero_le _
  · rw [upcoming_advance hend hlive he, List.countP_cons]

theorem Reaches.countP_le (h : p.Reaches q) (hp : p.Sound) (hf : f .eof = false) :
    (q.upcoming.countP fun t => f t.kind) ≤ p.upcoming.countP fun t => f t.kind := by
  refine (h.invariant (I := fun x => x.Sound ∧
    (x.upcoming.countP fun t => f t.kind) ≤ p.upcoming.countP fun t => f t.kind) ⟨hp, le_refl _⟩
    (fun x hx => ⟨hx.1.advance, ?_⟩) fun x y hxy hx => ⟨hx.1.of_course hxy, ?_⟩).2
  · exact (Nat.le_add_right _ _).trans ((countP_advance hx.1 hf).trans hx.2)
  · have hsame : x.course.upcoming = y.course.upcoming := by rw [hxy]
    exact (congrArg (List.countP fun t => f t.kind) hsame).symm.trans_le hx.2

/-- A token that stands here, and one of the same kind further on, are two. -/
theorem Reaches.two_le_countP (h : p.Reaches q) (hp : p.Sound) (hless : q.remaining < p.remaining)
    (hf : f .eof = false) (hhere : f p.current.kind) (hthere : f q.current.kind) :
    2 ≤ p.upcoming.countP fun t => f t.kind := by
  have hfirst := countP_advance hp hf
  have hrest := (h.of_less hless).countP_le hp.advance hf
  have hlast := countP_pos hthere
  rw [if_pos hhere] at hfirst
  omega

theorem reaches_of_clauses (h : Relation.TransGen Grammar.ReadsClause p q) :
    p.Reaches q ∧ q.remaining < p.remaining := by
  induction h with
  | single hclause => exact ⟨hclause.reaches, hclause.behind⟩
  | tail _ hclause ih => exact ⟨ih.1.trans hclause.reaches, hclause.behind.trans ih.2⟩

theorem RepeatsClause.two_le_countP {word : Keyword} (h : p.RepeatsClause word) (hp : p.Sound) :
    2 ≤ p.upcoming.countP fun t => t.kind == .keyword word := by
  obtain ⟨hhere, q, hclauses, hthere⟩ := h
  obtain ⟨hreaches, hless⟩ := reaches_of_clauses hclauses
  exact hreaches.two_le_countP (f := fun k => k == .keyword word) hp hless rfl (beq_iff_eq.2 hhere)
    (beq_iff_eq.2 hthere)

theorem RepeatsOffset.kind (h : p.RepeatsOffset) : p.current.kind = .keyword .LIMIT := by
  obtain ⟨bound, limits, q, hrun, hlimits, -⟩ := h
  obtain ⟨skipped, hskipped⟩ := Option.isSome_iff_exists.1 hlimits
  obtain ⟨v, rfl, -⟩ := Option.bind_eq_some_iff.1 hskipped
  exact kind_of_behind hrun

/-- Nothing is given twice on any way from a parser before a text without quoted texts and limits, in which
the words before values and conditions stand at most once each. -/
theorem Meets.not_givesTwice (h : p.Meets q r) (hp : p.Sound)
    (hquoted : (p.upcoming.countP fun t => t.kind.isText) = 0)
    (hlimit : (p.upcoming.countP fun t => t.kind == .keyword .LIMIT) = 0)
    (hdefault : (p.upcoming.countP fun t => t.kind == .keyword .DEFAULT) ≤ 1)
    (hcheck : (p.upcoming.countP fun t => t.kind == .keyword .CHECK) ≤ 1) : ¬r.GivesTwice := by
  have hpassed {x : Parser} {f : TokenKind → Bool} (hx : p.Reaches x) (hf : f .eof = false) :=
    hx.countP_le (f := f) hp hf
  cases h with
  | quoted hbehind _ htext _ =>
    have hpos := countP_pos (f := TokenKind.isText) htext
    have hle := hpassed (f := TokenKind.isText) hbehind rfl
    omega
  | @here _ _ x depth hbehind _ =>
    have hsound : Sound { x with routineDepth := depth } :=
      (hbehind.sound hp).congr rfl rfl rfl rfl rfl
    rintro (htwice | htwice | htwice)
    · have htwo := htwice.two_le_countP hsound
      have hle := hpassed (f := fun k => k == .keyword .DEFAULT) hbehind rfl
      exact absurd (htwo.trans (hle.trans hdefault)) (by decide)
    · have htwo := htwice.two_le_countP hsound
      have hle := hpassed (f := fun k => k == .keyword .CHECK) hbehind rfl
      exact absurd (htwo.trans (hle.trans hcheck)) (by decide)
    · have hpos := countP_pos (f := fun k => k == .keyword .LIMIT) (beq_iff_eq.2 htwice.kind)
      have hle := hpassed (f := fun k => k == .keyword .LIMIT) hbehind rfl
      exact absurd (hpos.trans_le (hle.trans hlimit.le)) (by decide)

end

end Parser

end SqlFrontend
