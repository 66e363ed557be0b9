import SqlFrontend.Grammar.Nested
import SqlFrontend.Proofs.Parsing.Lockstep

/-!
# Nested constructs in lockstep

A production is in lockstep with itself for two readings of nested constructs if these readings treat
parsers that are alike in the same way, wherever less text is left than at the beginning of the
production. Quoted bodies are read by parsers of their own, so the readings have to treat equal parsers
in the same way, too.
-/

namespace SqlFrontend.Likeness

/-- Two readings do the same behind `b`, and use up text where they succeed. -/
def Reads {α : Type} (L : Likeness) (b : Parser × Parser) (m m' : Production α) : Prop :=
  ∀ p q, L.state p q → Level.moved.Holds b p q → Outcome L (p, q) p q (fun _ => .moved) (m p) (m' q)

/-- The readings of all nested constructs do the same behind `b`. -/
structure ReadsAll (L : Likeness) (b : Parser × Parser) (N N' : Grammar.Nested) : Prop where
  expression : L.Reads b N.expression N'.expression
  primary : L.Reads b N.primary N'.primary
  selections : L.Reads b N.selections N'.selections
  query : L.Reads b N.query N'.query
  statement : L.Reads b N.statement N'.statement
  block : L.Reads b N.block N'.block

/-- They do the same in the text and in the texts of its quoted bodies. -/
structure Nested (L : Likeness) (b : Parser × Parser) (N N' : Grammar.Nested) : Prop where
  outside : L.ReadsAll b N N'
  inside : (same L.how #[]).ReadsAll b N N'

variable {L : Likeness} {b : Parser × Parser} {N N' : Grammar.Nested}

theorem Reads.lockstep {α : Type} {m m' : Production α} (h : L.Reads b m m') :
    L.Lockstep b .moved m m' fun _ => .moved := by
  intro e he p q hpq hlevel
  exact (h p q hpq (hlevel.of_later he)).relevel hpq fun _ _ _ _ _ hk => hk.of_later hlevel.start

/-- Tokens that are noted of the text around change nothing in what is nested in it. -/
theorem Reads.noting {α : Type} {m m' : Production α} (h : L.Reads b m m') (t t' : Token) :
    (L.noting t t').Reads b m m' :=
  fun p q hpq hlevel => (h p q hpq.1 hlevel).noting hpq

theorem Nested.noting (h : L.Nested b N N') (t t' : Token) : (L.noting t t').Nested b N N' :=
  ⟨⟨h.outside.expression.noting t t', h.outside.primary.noting t t', h.outside.selections.noting t t',
    h.outside.query.noting t t', h.outside.statement.noting t t', h.outside.block.noting t t'⟩,
    h.inside⟩

namespace Nested

theorem expression (h : L.Nested b N N') :
    L.Lockstep b .moved N.expression N'.expression fun _ => .moved := h.outside.expression.lockstep

theorem primary (h : L.Nested b N N') :
    L.Lockstep b .moved N.primary N'.primary fun _ => .moved := h.outside.primary.lockstep

theorem selections (h : L.Nested b N N') :
    L.Lockstep b .moved N.selections N'.selections fun _ => .moved := h.outside.selections.lockstep

theorem query (h : L.Nested b N N') :
    L.Lockstep b .moved N.query N'.query fun _ => .moved := h.outside.query.lockstep

theorem statement (h : L.Nested b N N') :
    L.Lockstep b .moved N.statement N'.statement fun _ => .moved := h.outside.statement.lockstep

theorem block (h : L.Nested b N N') :
    L.Lockstep b .moved N.block N'.block fun _ => .moved := h.outside.block.lockstep

end Nested

end SqlFrontend.Likeness
