import Mathlib.Algebra.Order.Monoid.WithTop
import SqlFrontend.Proofs.Session.Expiry
import SqlFrontend.Proofs.Session.Ownership

/-!
# Nodes of a statement

While a statement is read without an error, no node is given back, and all nodes that it holds are taken
from the pools. Others are taken and lost only where a part of the statement gives way to another one:
the value or the condition of a column to one that is given behind it, or an offset among the limits of a
selection to one that is given on its own. Where nothing is given twice, none are.

Results:
* `acquiredLedger`: the ledgers that charge for the nodes that are taken, a tidy one and another one.
* `Keeps.continues`: a session keeps to its ledgers, also where the dialect changes.
* `Parser.statement_pools`: the counters of the pools behind a statement.
* `Parser.statement_loses`: a value that gives way to another one is lost.
-/

namespace SqlFrontend

/-! ## Nodes that are taken -/

/-- The ledger that takes nodes for a debt, which the nodes of a statement make up for. If it is not tidy,
it makes up for everything where parts may have given way to others. -/
def acquiredLedger (tidy : Bool) (kind : PooledKind) (d : Dialect) : Ledger (WithBot ℤ) where
  dialect := d
  strict := True
  tidy := tidy
  coin other := ((if other = kind then -1 else 0 : ℤ) : WithBot ℤ)
  penalty := 0
  pardon := if tidy then 0 else ⊥
  income s t := (((s.stats kind).acquired - (t.stats kind).acquired : ℤ) : WithBot ℤ)
  Honest _ := True
  honest _ _ := trivial
  income_self s := by rw [sub_self]; rfl
  income_add s t u := by
    rw [← WithBot.coe_add]
    congr 1
    omega
  pardon_le := by
    split
    · exact le_refl 0
    · exact bot_le
  strict_of_tidy _ := trivial
  settled := by
    cases tidy with
    | true => exact .inl rfl
    | false => exact .inr (.inr fun x y => by simp)
  coin_le other s := by
    obtain ⟨hacquired, -, -⟩ := s.stats_taken other kind
    rw [hacquired, WithBot.coe_le_coe]
    split <;> push_cast <;> omega
  fair_taken h := absurd trivial h
  fair_given h := absurd trivial h

namespace acquiredLedger

variable {tidy : Bool} {kind : PooledKind} {d : Dialect}

/-- The charge for a number of nodes. -/
def credit : ℕ →+ WithBot ℤ where
  toFun n := ((-n : ℤ) : WithBot ℤ)
  map_zero' := rfl
  map_add' m n := by
    rw [← WithBot.coe_add]
    congr 1
    push_cast
    omega

theorem own_eq {c : Component} (h : tidy ∨ c.mayHide = false) :
    (acquiredLedger tidy kind d).own c = credit (c.isNode kind) := by
  have hpenalty : (if c.isSupported d then 0 else (acquiredLedger tidy kind d).penalty) = 0 := ite_self 0
  have hpardon : (if c.mayHide then (acquiredLedger tidy kind d).pardon else 0) = 0 := by
    rcases h with rfl | hshown
    · exact ite_self 0
    · rw [hshown, if_neg Bool.false_ne_true]
  rw [Ledger.own, hpardon, add_zero]
  change c.pooledKind?.elim 0 _ +
    (if c.isSupported d then 0 else (acquiredLedger tidy kind d).penalty) = _
  rw [hpenalty, add_zero]
  cases hc : c.pooledKind? with
  | none =>
    rw [Component.isNode, hc]
    rfl
  | some other =>
    rw [Component.isNode_of_pooledKind? hc]
    change ((if other = kind then -1 else 0 : ℤ) : WithBot ℤ) = _
    split <;> rfl

/-- Where no part gave way to another one, a statement makes up for the nodes that it holds. -/
theorem total_eq {s : Statement}
    (h : tidy ∨ (Component.statement s).Throughout fun c => c.mayHide = false) :
    (acquiredLedger tidy kind d).total (.statement s) = ((-s.nodes kind : ℤ) : WithBot ℤ) := by
  rw [Ledger.total, Component.total_congr fun place c hc => own_eq (h.imp_right fun h => h place c hc)]
  exact ((Component.statement s).map_total credit _).symm

end acquiredLedger

/-! ## Sessions -/

section

variable {M : Type} [AddCommMonoid M] [PartialOrder M] [IsOrderedAddMonoid M]
variable {F : Dialect → Ledger M}

/-- A session keeps to ledgers that take any error, one for each dialect. -/
theorem Ledger.Keeps.continues (hdialect : ∀ d, (F d).dialect = d)
    (honest : ∀ d cause, (F d).Honest cause) {p q : Parser} (hp : (F p.dialect).Keeps p)
    (h : p.Continues q) : (F q.dialect).Keeps q ∧ q.recovering = p.recovering := by
  induction h with
  | refl => exact ⟨hp, rfl⟩
  | @run q _ op ih =>
    have hrun := (ih.1.run op).leads
    have hsame := hrun.keeps.dialect
    rw [hdialect] at hsame
    rw [hsame]
    exact ⟨hrun.keeps, hrun.recovering.trans ih.2⟩
  | @setDialect q _ d ih =>
    have hset := ih.1.setDialect (K := F d) (honest d)
    rw [hdialect] at hset
    exact ⟨hset, ih.2⟩

/-- Outside of quoted bodies no parser of a session goes on behind an error. -/
theorem Parser.keeps_continues (hdialect : ∀ d, (F d).dialect = d)
    (honest : ∀ d cause, (F d).Honest cause) {source : String} {d : Dialect} {expired : Bool}
    {pools : Pools} (hpools : pools.IsFresh) {p : Parser}
    (h : (ofSource source d expired pools).Continues p) :
    (F p.dialect).Keeps p ∧ p.recovering = false := by
  have hstart := Ledger.Keeps.ofSource (L := F d) source expired hpools
  have hplain : (ofSource source d expired pools).recovering = false := by
    rw [ofSource_eq, countCurrent_eq]
  rw [hdialect] at hstart
  have hkeeps : (F (ofSource source d expired pools).dialect).Keeps
      (ofSource source d expired pools) := by
    rw [dialect_ofSource]
    exact hstart
  obtain ⟨hp, hrecovering⟩ := hkeeps.continues hdialect honest h
  exact ⟨hp, hrecovering.trans hplain⟩

end

namespace Parser

variable {source : String} {d : Dialect} {expired : Bool} {pools : Pools} {p : Parser}

/-- A counter that stays where nodes are taken, and does not fall where one is given back, is the same
behind a statement. -/
theorem statement_counter (hpools : pools.IsFresh) (h : (ofSource source d expired pools).Continues p)
    {s : Statement} (hs : p.statement.1 = .ok s) {C : Pools → ℕ}
    (htaken : ∀ kind s, C (Pools.taken s kind) = C s)
    (hgiven : ∀ c s, C s ≤ C (Pools.given s c)) :
    C p.statement.2.pools = C p.pools := by
  have hgrows : 0 ≤ (C p.statement.2.pools : ℤ) - C p.pools :=
    (keeps_continues (F := growthLedger C (fun kind s => (htaken kind s).ge) hgiven)
      (fun _ => rfl) (fun _ _ => trivial) hpools h).1.statement.leads.fair id
  obtain ⟨hkeeps, hplain⟩ := keeps_continues
    (F := stillLedger C fun kind s => (htaken kind s).le) (fun _ => rfl)
    (fun _ _ => trivial) hpools h
  have hpaid := hkeeps.statement_ok hplain hs False.elim
  have hnonneg := Ledger.sum_nonneg (L := stillLedger C (fun kind s => (htaken kind s).le) p.dialect)
    ⟨fun _ => le_refl 0, le_refl 0, rfl⟩ [.statement s]
  rw [Ledger.sum_cons, Ledger.sum_nil, add_zero] at hnonneg
  have hstays : 0 ≤ (C p.pools : ℤ) - C p.statement.2.pools := hnonneg.trans hpaid
  omega

/-- Behind a statement that is answered, no node has been given back, and the nodes that it holds were
all taken meanwhile. They are all that was taken, if no column of the statement has a value or a condition
and no selection of it a limit and an offset, or if nothing is given twice on the way. -/
theorem statement_pools (hpools : pools.IsFresh) (h : (ofSource source d expired pools).Continues p)
    {s : Statement} (hs : p.statement.1 = .ok s) (kind : PooledKind) :
    let before := p.pools.stats kind
    let behind := p.statement.2.pools.stats kind
    behind.released = before.released ∧ behind.discarded = before.discarded ∧
      before.acquired + s.nodes kind ≤ behind.acquired ∧
      (((Component.statement s).Throughout fun c => c.mayHide = false) ∨
          (∀ q, p.Meets p.statement.2 q → ¬q.GivesTwice) →
        behind.acquired = before.acquired + s.nodes kind) := by
  intro before behind
  have hreleased : behind.released = before.released :=
    statement_counter hpools h hs (C := fun pools => (pools.stats kind).released)
      (fun other s => (s.stats_taken other kind).2.1) fun c s => by
        rw [(s.stats_given c kind).2.1]
        omega
  have hdiscarded : behind.discarded = before.discarded :=
    statement_counter hpools h hs (C := fun pools => (pools.stats kind).discarded)
      (fun other s => (s.stats_taken other kind).2.2) fun c s => (s.stats_given c kind).2.2
  have htaken : before.acquired + s.nodes kind ≤ behind.acquired := by
    obtain ⟨hkeeps, hplain⟩ := keeps_continues (F := nodeLedger kind) (fun _ => rfl)
      (fun _ _ => trivial) hpools h
    have hpaid := hkeeps.statement_ok hplain hs False.elim
    rw [nodeLedger.total_eq] at hpaid
    change (s.nodes kind : ℤ) ≤ (behind.acquired - behind.released) - (before.acquired - before.released)
      at hpaid
    omega
  have hgiven (tidy : Bool)
      (hshown : tidy ∨ (Component.statement s).Throughout fun c => c.mayHide = false)
      (honce : tidy → ∀ q, p.Meets p.statement.2 q → ¬q.GivesTwice) :
      behind.acquired ≤ before.acquired + s.nodes kind := by
    obtain ⟨hkeeps, hplain⟩ := keeps_continues (F := acquiredLedger tidy kind) (fun _ => rfl)
      (fun _ _ => trivial) hpools h
    have hpaid := hkeeps.statement_ok hplain hs honce
    rw [acquiredLedger.total_eq hshown] at hpaid
    have hlast : (-s.nodes kind : ℤ) ≤ before.acquired - behind.acquired := WithBot.coe_le_coe.1 hpaid
    omega
  refine ⟨hreleased, hdiscarded, htaken, fun hkept => ?_⟩
  rcases hkept with hshown | honce
  · exact (hgiven false (.inr hshown) nofun).antisymm htaken
  · exact (hgiven true (.inl rfl) fun _ => honce).antisymm htaken

/-- A statement that is answered, from what is said of it. -/
theorem exists_answered {α : Type} {f : Statement → α} {a : α}
    (h : p.statement.1.toOption.map f = some a) : ∃ s, p.statement.1 = .ok s ∧ f s = a := by
  cases hs : p.statement.1 with
  | error e =>
    rw [hs] at h
    cases h
  | ok s =>
    rw [hs] at h
    exact ⟨s, rfl, Option.some.inj h⟩

/-- Two columns are taken for a selection, and both are in it. So are those that are taken for the value and
the condition of a column. -/
theorem statement_pools_columns :
    (let p := ofSource "SELECT a FROM t WHERE b" .mySql false {}
      ∃ s, p.statement.1 = .ok s ∧ s.nodes .column = 2 ∧
        ((Component.statement s).Throughout fun c => c.mayHide = false) ∧
        (p.statement.2.pools.stats .column).released = (p.pools.stats .column).released ∧
        (p.statement.2.pools.stats .column).discarded = (p.pools.stats .column).discarded ∧
        (p.statement.2.pools.stats .column).acquired =
          (p.pools.stats .column).acquired + s.nodes .column) ∧
    (let p := ofSource "CREATE TABLE t (a INT DEFAULT b CHECK (c))" .mySql false {}
      ∃ s, p.statement.1 = .ok s ∧ s.nodes .column = 2 ∧
        (∀ q, p.Meets p.statement.2 q → ¬q.GivesTwice) ∧
        (p.statement.2.pools.stats .column).acquired =
          (p.pools.stats .column).acquired + s.nodes .column) := by
  refine ⟨?_, ?_⟩
  · intro p
    obtain ⟨s, hs, heq⟩ := exists_answered (p := p)
      (f := fun s => (s.nodes .column, (Component.statement s).total fun c => if c.mayHide then 1 else 0))
      (a := (2, 0)) (by decide +kernel)
    obtain ⟨hnodes, hzero⟩ := Prod.mk.inj heq
    have hnone : (Component.statement s).Throughout fun c => c.mayHide = false := by
      intro place c hc
      have hc := Component.total_eq_zero.1 hzero place c hc
      simpa using hc
    have hstart : (ofSource "SELECT a FROM t WHERE b" .mySql false {}).Continues p := .refl
    have hpools := statement_pools Pools.isFresh_empty hstart hs .column
    exact ⟨s, hs, hnodes, hnone, hpools.1, hpools.2.1, hpools.2.2.2 (.inl hnone)⟩
  · intro p
    obtain ⟨s, hs, hnodes⟩ := exists_answered (p := p) (f := fun s => s.nodes .column) (a := 2)
      (by decide +kernel)
    have honce (q : Parser) (hq : p.Meets p.statement.2 q) : ¬q.GivesTwice :=
      hq.not_givesTwice (sound_ofSource _ _ _ _) (by decide +kernel) (by decide +kernel)
        (by decide +kernel) (by decide +kernel)
    have hstart : (ofSource "CREATE TABLE t (a INT DEFAULT b CHECK (c))" .mySql false {}).Continues p := .refl
    have hpools := statement_pools Pools.isFresh_empty hstart hs .column
    exact ⟨s, hs, hnodes, honce, hpools.2.2.2 (.inr honce)⟩

/-- The value of a column gives way to another one, and the column in it is in no statement. -/
theorem statement_loses :
    let p := ofSource "CREATE TABLE t (a INT DEFAULT b DEFAULT c)" .mySql false {}
    ∃ s, p.statement.1 = .ok s ∧
      (p.statement.2.pools.stats .column).acquired ≠
        (p.pools.stats .column).acquired + s.nodes .column := by
  intro p
  obtain ⟨s, hs, hnodes⟩ := exists_answered (p := p) (f := fun s => s.nodes .column) (a := 1)
    (by decide +kernel)
  refine ⟨s, hs, ?_⟩
  rw [hnodes]
  decide +kernel

end Parser

end SqlFrontend
