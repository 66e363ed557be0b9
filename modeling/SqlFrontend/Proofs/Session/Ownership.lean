import Mathlib.Algebra.Order.Ring.Int
import Mathlib.Data.Int.ConditionallyCompleteOrder
import Mathlib.Order.ConditionallyCompleteLattice.Basic
import SqlFrontend.Proofs.Session.Ledger

/-!
# Nodes that are owned

A node that is taken from a pool is in a statement, or it was given back, or it is lost. So what was
given back and what the statements at hand hold is no more than what was taken, at any time.

Results:
* `Pools.outstanding`: how many nodes of a kind were taken and not given back.
* `growthLedger`, `stillLedger`: the ledgers that bound a counter of the pools from both sides.
* `nodeLedger`: the ledger that charges for the nodes of a kind.
* `Held`: a thread with its pools and the statements that it keeps, and what it does with them.
* `Held.released_add_nodes_le`: at any time, the nodes that were given back and those that are kept are
  no more than those that were taken.
-/

namespace SqlFrontend

/-! ## Nodes that are outstanding -/

/-- How many nodes of a kind were taken and not given back. -/
def Pools.outstanding (pools : Pools) (kind : PooledKind) : ℤ :=
  (pools.stats kind).acquired - (pools.stats kind).released

namespace Pools

theorem outstanding_taken (pools : Pools) (other kind : PooledKind) :
    (pools.taken other).outstanding kind = pools.outstanding kind + if other = kind then 1 else 0 := by
  obtain ⟨hacquired, hreleased, -⟩ := pools.stats_taken other kind
  rw [outstanding, outstanding, hacquired, hreleased]
  split <;> push_cast <;> omega

theorem outstanding_given (pools : Pools) (c : Component) (kind : PooledKind) :
    (pools.given c).outstanding kind = pools.outstanding kind - c.isNode kind := by
  obtain ⟨hacquired, hreleased, -⟩ := pools.stats_given c kind
  rw [outstanding, outstanding, hacquired, hreleased]
  push_cast
  omega

end Pools

theorem Component.isNode_of_pooledKind? {c : Component} {other kind : PooledKind}
    (h : c.pooledKind? = some other) : c.isNode kind = if other = kind then 1 else 0 := by
  rw [isNode, h]
  simp only [Option.some.injEq]

/-! ## Ledgers of the pools -/

/-- The ledger of a counter that never falls. Nothing is charged for. -/
def growthLedger (counter : Pools → ℕ) (htaken : ∀ kind s, counter s ≤ counter (Pools.taken s kind))
    (hgiven : ∀ c s, counter s ≤ counter (Pools.given s c)) (d : Dialect) : Ledger ℤ where
  dialect := d
  strict := False
  tidy := False
  coin _ := 0
  penalty := 0
  pardon := 0
  income s t := counter t - counter s
  Honest _ := True
  honest _ _ := trivial
  income_self s := sub_self _
  income_add s t u := by omega
  pardon_le := le_refl 0
  strict_of_tidy := False.elim
  settled := .inr (.inl ⟨fun _ => le_refl 0, le_refl 0, rfl⟩)
  coin_le kind s := by
    have := htaken kind s
    omega
  fair_taken _ kind s := by
    have := htaken kind s
    omega
  fair_given _ c kind s t _ := by
    have := htaken kind s
    have := hgiven c t
    omega

/-- The ledger of a counter that does not grow where nodes are taken. It is about readings without an
error, in which no node is given back. -/
def stillLedger (counter : Pools → ℕ) (htaken : ∀ kind s, counter (Pools.taken s kind) ≤ counter s)
    (d : Dialect) : Ledger ℤ where
  dialect := d
  strict := True
  tidy := False
  coin _ := 0
  penalty := 0
  pardon := 0
  income s t := counter s - counter t
  Honest _ := True
  honest _ _ := trivial
  income_self s := sub_self _
  income_add s t u := by omega
  pardon_le := le_refl 0
  strict_of_tidy := False.elim
  settled := .inr (.inl ⟨fun _ => le_refl 0, le_refl 0, rfl⟩)
  coin_le kind s := by
    have := htaken kind s
    omega
  fair_taken h := absurd trivial h
  fair_given h := absurd trivial h

/-- The ledger that charges for the nodes of a kind. Its income are the nodes that are taken and not
given back. -/
def nodeLedger (kind : PooledKind) (d : Dialect) : Ledger ℤ where
  dialect := d
  strict := False
  tidy := False
  coin other := if other = kind then 1 else 0
  penalty := 0
  pardon := 0
  income s t := t.outstanding kind - s.outstanding kind
  Honest _ := True
  honest _ _ := trivial
  income_self s := sub_self _
  income_add s t u := by omega
  pardon_le := le_refl 0
  strict_of_tidy := False.elim
  settled := .inr (.inl ⟨fun other => by split <;> omega, le_refl 0, rfl⟩)
  coin_le other s := by rw [s.outstanding_taken]; omega
  fair_taken _ other s := by rw [s.outstanding_taken]; split <;> omega
  fair_given _ c other s t hc := by
    rw [s.outstanding_taken, t.outstanding_given, Component.isNode_of_pooledKind? hc]
    split <;> push_cast <;> omega

namespace nodeLedger

variable (kind : PooledKind) (d : Dialect)

theorem own_eq (c : Component) : (nodeLedger kind d).own c = (c.isNode kind : ℤ) := by
  have hpenalty : (if c.isSupported d then 0 else (nodeLedger kind d).penalty) = 0 := ite_self 0
  have hpardon : (if c.mayHide then (nodeLedger kind d).pardon else 0) = 0 := ite_self 0
  rw [Ledger.own, hpardon, add_zero]
  change c.pooledKind?.elim 0 _ + (if c.isSupported d then 0 else (nodeLedger kind d).penalty) = _
  rw [hpenalty, add_zero]
  cases hc : c.pooledKind? with
  | none => simp [Component.isNode, hc]
  | some other =>
    rw [Component.isNode_of_pooledKind? hc]
    exact (Nat.cast_ite _ 1 0).symm

/-- A statement is worth the nodes that it holds. -/
theorem total_eq (s : Statement) : (nodeLedger kind d).total (.statement s) = s.nodes kind := by
  rw [Ledger.total, funext (own_eq kind d)]
  exact ((Component.statement s).map_total (Nat.castAddMonoidHom ℤ) _).symm

theorem each_eq (ss : List Statement) :
    (nodeLedger kind d).each .statement ss = ((ss.map fun s => s.nodes kind).sum : ℕ) := by
  induction ss with
  | nil => rfl
  | cons s ss ih =>
    rw [List.map_cons, List.sum_cons, Nat.cast_add, ← ih, ← total_eq kind d]
    exact List.sum_cons

end nodeLedger

/-- The nodes of the statements in a source were all taken while it was read, and are outstanding. -/
theorem Parser.nodes_results (source : String) (d : Dialect) (expired : Bool) {pools : Pools}
    (hpools : pools.IsFresh) (kind : PooledKind) :
    let run := (ofSource source d expired pools).results
    run.2.pools.IsFresh ∧
      (((run.1.filterMap Except.toOption).map fun s => s.nodes kind).sum : ℕ) ≤
        run.2.pools.outstanding kind - pools.outstanding kind := by
  intro run
  have hsettles : (nodeLedger kind d).Settles (ofSource source d expired pools)
      (run.1.filterMap Except.toOption) run.2 :=
    (Ledger.Keeps.ofSource (L := nodeLedger kind d) source expired hpools).results
  have hpaid := hsettles.value id
  have hstart : (ofSource source d expired pools).pools = pools := by
    rw [ofSource_eq, countCurrent_eq]
  rw [nodeLedger.each_eq, hstart] at hpaid
  exact ⟨hsettles.leads.keeps.pools, hpaid⟩

/-! ## Threads -/

/-- The pools of a thread, and the statements that it keeps. -/
structure Held where
  pools : Pools := {}
  kept : List Statement := []

/-- What a thread does with its pools: it reads a source to the end and keeps the statements, gives back
or drops all that it keeps, or takes some nodes and gives at most as many back. -/
inductive PoolAction where
  | parse (source : String) (d : Dialect) (expired : Bool)
  | recycle
  | drop
  | churn (kind : PooledKind) (acquired released : ℕ)

namespace Held

/-- The thread behind an action. -/
def step (held : Held) : PoolAction → Held
  | .parse source d expired =>
    let run := (Parser.ofSource source d expired held.pools).results
    ⟨run.2.pools, held.kept ++ run.1.filterMap Except.toOption⟩
  | .recycle => ⟨held.kept.foldl (fun pools s => s.recycle pools) held.pools, []⟩
  | .drop => ⟨held.pools, []⟩
  | .churn kind acquired released => ⟨held.pools.churn kind acquired released, held.kept⟩

/-- The thread behind several actions. -/
def after (held : Held) (actions : List PoolAction) : Held := actions.foldl step held

/-- How many nodes of a kind the kept statements hold. -/
def nodes (held : Held) (kind : PooledKind) : ℕ := (held.kept.map fun s => s.nodes kind).sum

/-- Nodes that were given back are as good as new, and no node is given back and kept as well. -/
structure Owned (held : Held) : Prop where
  fresh : held.pools.IsFresh
  balanced : ∀ kind, (held.pools.stats kind).released + held.nodes kind ≤
    (held.pools.stats kind).acquired

variable {held : Held}

theorem owned_empty : Owned {} := ⟨Pools.isFresh_empty, fun kind => by cases kind <;> decide⟩

theorem Owned.parse (h : held.Owned) (source : String) (d : Dialect) (expired : Bool) :
    (held.step (.parse source d expired)).Owned := by
  have hread (kind : PooledKind) := Parser.nodes_results source d expired h.fresh kind
  refine ⟨(hread .select).1, fun kind => ?_⟩
  have hnew := (hread kind).2
  have hbefore := h.balanced kind
  rw [Pools.outstanding, Pools.outstanding] at hnew
  rw [nodes] at hbefore
  rw [step, nodes, List.map_append, List.sum_append]
  dsimp only
  omega

/-- Giving back what is kept gives back no more than that. -/
theorem returned_recycleAll (ss : List Statement) (pools : Pools) :
    Pools.Returned (fun kind => (ss.map fun s => s.nodes kind).sum) pools
      (ss.foldl (fun pools s => s.recycle pools) pools) := by
  induction ss generalizing pools with
  | nil => exact .refl pools
  | cons s ss ih => exact (s.returned_recycle pools).trans (ih _)

theorem Owned.recycle (h : held.Owned) : (held.step .recycle).Owned := by
  have hreturned := returned_recycleAll held.kept held.pools
  refine ⟨hreturned.fresh h.fresh, fun kind => ?_⟩
  have hbefore := h.balanced kind
  exact ((hreturned.released kind).trans hbefore).trans_eq (hreturned.acquired kind).symm

theorem Owned.drop (h : held.Owned) : (held.step .drop).Owned :=
  ⟨h.fresh, fun kind => (Nat.le_add_right _ _).trans (h.balanced kind)⟩

theorem Owned.churn (h : held.Owned) (kind : PooledKind) (acquired released : ℕ) :
    (held.step (.churn kind acquired released)).Owned := by
  refine ⟨h.fresh.churn kind acquired released, fun other => ?_⟩
  have hbefore := h.balanced other
  have hchurn := held.pools.stats_churn kind other acquired released
  change ((held.pools.churn kind acquired released).stats other).released + held.nodes other ≤
    ((held.pools.churn kind acquired released).stats other).acquired
  rw [hchurn.1, hchurn.2]
  split <;> omega

theorem Owned.step (h : held.Owned) (action : PoolAction) : (held.step action).Owned := by
  cases action with
  | parse source d expired => exact h.parse source d expired
  | recycle => exact h.recycle
  | drop => exact h.drop
  | churn kind acquired released => exact h.churn kind acquired released

theorem Owned.after (h : held.Owned) (actions : List PoolAction) : (held.after actions).Owned := by
  induction actions generalizing held with
  | nil => exact h
  | cons action actions ih => exact ih (h.step action)

/-- On a thread that starts with empty pools, at any time and for each kind, the nodes that were given
back and those that the kept statements hold are no more than the nodes that were taken. So none is given
back twice. -/
theorem released_add_nodes_le (actions : List PoolAction) (kind : PooledKind) :
    let held := Held.after {} actions
    (held.pools.stats kind).released + (held.kept.map fun s => s.nodes kind).sum ≤
      (held.pools.stats kind).acquired :=
  (owned_empty.after actions).balanced kind

end Held

end SqlFrontend
