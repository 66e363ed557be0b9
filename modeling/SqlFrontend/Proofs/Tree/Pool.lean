import SqlFrontend.Proofs.Tree.Holdings

/-!
# Pools of nodes, one step at a time

Whatever is done with pools is made of two steps: a node is taken, and a node is given back. Both keep
pools that hold only new nodes as they are, and both are counted, whatever the pools hold.

Results:
* `Pools.IsFresh`: pools that hold only new nodes.
* `Pools.taken`, `Pools.given`: the pools behind the taking of a node, and behind the giving back of one.
* `Pools.turnover`: how many nodes of a kind were taken and given back since earlier pools.
* `Pools.Steady`: changes of pools that keep nodes new, and whose turnover does not depend on the pools.
* `Pools.Comparison`, `Pools.Alike`: pools that hand out equal nodes, now and later.
-/

namespace SqlFrontend

/-! ## Counters of one pool -/

namespace NodePool

variable {α : Type} [Pooled α] (pool : NodePool α)

theorem stats_acquire : pool.acquire.2.stats.acquired = pool.stats.acquired + 1 ∧
    pool.acquire.2.stats.released = pool.stats.released ∧
    pool.acquire.2.stats.discarded = pool.stats.discarded := by
  unfold acquire
  dsimp only
  split <;> exact ⟨rfl, rfl, rfl⟩

theorem stats_release (node : α) : (pool.release node).stats.acquired = pool.stats.acquired ∧
    (pool.release node).stats.released = pool.stats.released + 1 ∧
    pool.stats.discarded ≤ (pool.release node).stats.discarded := by
  unfold release
  dsimp only
  split
  · exact ⟨rfl, rfl, Nat.le_succ _⟩
  · exact ⟨rfl, rfl, le_refl _⟩

end NodePool

namespace Pools

/-! ## New nodes -/

/-- Every node that is kept is as good as new. -/
structure IsFresh (pools : Pools) : Prop where
  select : pools.select.IsFresh
  binary : pools.binary.IsFresh
  column : pools.column.IsFresh
  join : pools.join.IsFresh

theorem isFresh_empty : IsFresh {} := ⟨nofun, nofun, nofun, nofun⟩

/-! ## Single nodes -/

/-- The pools behind the taking of a node. -/
def taken (pools : Pools) : PooledKind → Pools
  | .select => { pools with select := pools.select.acquire.2 }
  | .binary => { pools with binary := pools.binary.acquire.2 }
  | .column => { pools with column := pools.column.acquire.2 }
  | .join => { pools with join := pools.join.acquire.2 }

/-- The pools behind the giving back of a node. -/
def given (pools : Pools) : Component → Pools
  | .select node => { pools with select := pools.select.release node }
  | .binary node => { pools with binary := pools.binary.release node }
  | .column node => { pools with column := pools.column.release node }
  | .join node => { pools with join := pools.join.release node }
  | _ => pools

theorem IsFresh.taken {pools : Pools} (h : pools.IsFresh) (kind : PooledKind) :
    (pools.taken kind).IsFresh := by
  cases kind with
  | select => exact ⟨NodePool.acquire_isFresh h.select, h.binary, h.column, h.join⟩
  | binary => exact ⟨h.select, NodePool.acquire_isFresh h.binary, h.column, h.join⟩
  | column => exact ⟨h.select, h.binary, NodePool.acquire_isFresh h.column, h.join⟩
  | join => exact ⟨h.select, h.binary, h.column, NodePool.acquire_isFresh h.join⟩

theorem IsFresh.given {pools : Pools} (h : pools.IsFresh) (c : Component) :
    (pools.given c).IsFresh := by
  cases c with
  | select node => exact ⟨NodePool.release_isFresh h.select _, h.binary, h.column, h.join⟩
  | binary node => exact ⟨h.select, NodePool.release_isFresh h.binary _, h.column, h.join⟩
  | column node => exact ⟨h.select, h.binary, NodePool.release_isFresh h.column _, h.join⟩
  | join node => exact ⟨h.select, h.binary, h.column, NodePool.release_isFresh h.join _⟩
  | _ => exact h

/-- A node that is taken is counted, with the nodes of its kind. -/
theorem stats_taken (pools : Pools) (kind other : PooledKind) :
    ((pools.taken kind).stats other).acquired =
        (pools.stats other).acquired + (if kind = other then 1 else 0) ∧
      ((pools.taken kind).stats other).released = (pools.stats other).released ∧
      ((pools.taken kind).stats other).discarded = (pools.stats other).discarded := by
  cases kind <;> cases other <;> first
    | exact NodePool.stats_acquire _
    | exact ⟨rfl, rfl, rfl⟩

/-- A component that is given back is counted if it is a node. -/
theorem stats_given (pools : Pools) (c : Component) (kind : PooledKind) :
    ((pools.given c).stats kind).acquired = (pools.stats kind).acquired ∧
      ((pools.given c).stats kind).released = (pools.stats kind).released + c.isNode kind ∧
      (pools.stats kind).discarded ≤ ((pools.given c).stats kind).discarded := by
  cases c <;> cases kind <;> first
    | exact NodePool.stats_release _ _
    | exact ⟨rfl, rfl, le_refl _⟩

/-! ## Steady changes -/

/-- How many nodes of a kind were taken and given back between earlier pools and later ones. -/
def turnover (before pools : Pools) (kind : PooledKind) : ℤ × ℤ :=
  ((pools.stats kind).acquired - (before.stats kind).acquired,
    (pools.stats kind).released - (before.stats kind).released)

theorem turnover_self (pools : Pools) (kind : PooledKind) :
    pools.turnover pools kind = (0, 0) := by
  rw [turnover, sub_self, sub_self]

theorem turnover_add (P Q R : Pools) (kind : PooledKind) :
    P.turnover Q kind + Q.turnover R kind = P.turnover R kind := by
  simp [turnover]

/-- A change of pools that keeps nodes new. How many it takes and gives back does not depend on the
pools. -/
structure Steady (change : Pools → Pools) : Prop where
  fresh : ∀ pools : Pools, pools.IsFresh → (change pools).IsFresh
  turnover : ∀ (P Q : Pools) (kind : PooledKind),
    P.turnover (change P) kind = Q.turnover (change Q) kind

theorem Steady.taken (kind : PooledKind) : Steady fun pools => pools.taken kind where
  fresh _ h := h.taken kind
  turnover P Q other := by
    have hP := P.stats_taken kind other
    have hQ := Q.stats_taken kind other
    rw [Pools.turnover, Pools.turnover, hP.1, hP.2.1, hQ.1, hQ.2.1]
    simp

theorem Steady.given (c : Component) : Steady fun pools => pools.given c where
  fresh _ h := h.given c
  turnover P Q kind := by
    have hP := P.stats_given c kind
    have hQ := Q.stats_given c kind
    rw [Pools.turnover, Pools.turnover, hP.1, hP.2.1, hQ.1, hQ.2.1]
    simp

/-! ## Pools that are alike -/

/-- How pools are compared. -/
inductive Comparison where
  /-- They are equal. -/
  | equal
  /-- They hold only new nodes. -/
  | fresh
  /-- They hold only new nodes, and as many were taken and given back since two earlier ones. -/
  | since (P Q : Pools)

/-- Pools that hand out equal nodes: equal pools, or fresh ones where these need not be equal. -/
def Alike : Comparison → Pools → Pools → Prop
  | .equal, pools, pools' => pools = pools'
  | .fresh, pools, pools' => pools.IsFresh ∧ pools'.IsFresh
  | .since P Q, pools, pools' => (pools.IsFresh ∧ pools'.IsFresh) ∧
    ∀ kind, P.turnover pools kind = Q.turnover pools' kind

namespace Alike

variable {how : Comparison} {P Q : Pools}

/-- What is done to both leaves pools alike, if it is steady. -/
theorem update {change : Pools → Pools} (h : P.Alike how Q) (hc : Steady change) :
    (change P).Alike how (change Q) := by
  cases how with
  | equal => exact congrArg change h
  | fresh => exact ⟨hc.fresh P h.1, hc.fresh Q h.2⟩
  | since P₀ Q₀ =>
    obtain ⟨⟨hP, hQ⟩, hsame⟩ := h
    refine ⟨⟨hc.fresh P hP, hc.fresh Q hQ⟩, fun kind => ?_⟩
    rw [← turnover_add P₀ P, ← turnover_add Q₀ Q, hsame kind, hc.turnover P Q]

/-- Nodes of pools that are alike are equal. -/
theorem node {α : Type} [Pooled α] {f : Pools → NodePool α} (h : P.Alike how Q)
    (hf : ∀ pools : Pools, pools.IsFresh → (f pools).IsFresh) :
    (f P).acquire.1 = (f Q).acquire.1 := by
  have hfresh (hboth : P.IsFresh ∧ Q.IsFresh) : (f P).acquire.1 = (f Q).acquire.1 := by
    rw [NodePool.acquire_eq_fresh (hf P hboth.1), NodePool.acquire_eq_fresh (hf Q hboth.2)]
  cases how with
  | equal => exact congrArg (fun pools => (f pools).acquire.1) h
  | fresh => exact hfresh h
  | since P₀ Q₀ => exact hfresh h.1

end Alike

end Pools

end SqlFrontend
