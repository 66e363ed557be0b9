import Mathlib.Tactic.Ring
import SqlFrontend.Tree.Pool

/-!
# The accounts of a pool

A pool that starts empty is used by taking nodes from it and giving nodes back, in any order. Its
counters are set on separate paths, and the number of kept nodes is stored beside the list of them, so
that the accounts are right because every use keeps them right.

Results:
* `NodePool.Accounted`: the counters of a pool agree with the nodes that it keeps, which are new.
* `NodePool.Accounted.use`, `NodePool.Accounted.useAll`: one use keeps the accounts, and so does a run.
* `NodePool.Accounted.discarded_use`: a node is dropped when it is given back to a full pool, and only then.
* `PooledKind.accounts_exact`: the accounts of an empty pool of each kind, after every run.
-/

namespace SqlFrontend

/-- What a pool is used for. -/
inductive PoolUse (α : Type) where
  | acquire
  | release (node : α)

/-- Giving a node back. -/
def PoolUse.isRelease {α : Type} : PoolUse α → Bool
  | acquire => false
  | release _ => true

namespace NodePool

variable {α : Type} [Pooled α]

/-- The pool behind one use. -/
def use (pool : NodePool α) : PoolUse α → NodePool α
  | .acquire => pool.acquire.2
  | .release node => pool.release node

/-- The pool behind uses that follow one another. -/
def useAll (pool : NodePool α) (uses : List (PoolUse α)) : NodePool α := uses.foldl use pool

/-! ## Single uses -/

theorem acquire_of_nil {pool : NodePool α} (h : pool.free = []) :
    pool.acquire = (Pooled.fresh,
      { pool with stats := { pool.stats with acquired := pool.stats.acquired + 1 } }) := by
  rw [acquire, h]

theorem acquire_of_cons {pool : NodePool α} {node : α} {free : List α} (h : pool.free = node :: free) :
    pool.acquire = (node,
      ⟨free, { pool.stats with
        acquired := pool.stats.acquired + 1, reused := pool.stats.reused + 1, idle := free.length }⟩) := by
  rw [acquire, h]

theorem release_of_full {pool : NodePool α} (h : poolCapacity ≤ pool.free.length) (node : α) :
    pool.release node =
      { pool with stats := { pool.stats with
        released := pool.stats.released + 1, discarded := pool.stats.discarded + 1 } } := by
  rw [release, if_pos h]

theorem release_of_room {pool : NodePool α} (h : pool.free.length < poolCapacity) (node : α) :
    pool.release node =
      ⟨Pooled.reset node :: pool.free, { pool.stats with
        released := pool.stats.released + 1, idle := pool.free.length + 1 }⟩ := by
  rw [release, if_neg (Nat.not_le.2 h)]
  rfl

/-! ## The accounts -/

/-- The counters of a pool agree with the nodes that it keeps, and these are new. -/
structure Accounted (pool : NodePool α) : Prop where
  idle : pool.stats.idle = pool.free.length
  /-- Every node that was given back is kept, was dropped or was handed out again. -/
  balance : pool.stats.idle + pool.stats.discarded + pool.stats.reused = pool.stats.released
  capacity : pool.stats.idle ≤ poolCapacity
  reused : pool.stats.reused ≤ pool.stats.acquired
  fresh : pool.IsFresh

theorem accounted_empty : Accounted ({} : NodePool α) :=
  ⟨rfl, rfl, Nat.zero_le _, le_refl _, nofun⟩

namespace Accounted

variable {pool : NodePool α}

theorem acquire (h : pool.Accounted) : pool.acquire.2.Accounted := by
  have hfresh := acquire_isFresh h.fresh
  cases hfree : pool.free with
  | nil =>
    rw [acquire_of_nil hfree] at hfresh ⊢
    exact ⟨h.idle, h.balance, h.capacity, Nat.le_succ_of_le h.reused, hfresh⟩
  | cons node free =>
    -- The node that leaves the list moves from the idle nodes to those in use again.
    have hidle : pool.stats.idle = free.length + 1 := by rw [h.idle, hfree, List.length_cons]
    have hbalance := h.balance
    have hcapacity := h.capacity
    rw [acquire_of_cons hfree] at hfresh ⊢
    refine ⟨rfl, ?_, ?_, Nat.succ_le_succ h.reused, hfresh⟩
    · dsimp only
      omega
    · dsimp only
      omega

theorem release (h : pool.Accounted) (node : α) : (pool.release node).Accounted := by
  have hfresh := release_isFresh h.fresh node
  have hidle := h.idle
  have hbalance := h.balance
  by_cases hfull : poolCapacity ≤ pool.free.length
  · rw [release_of_full hfull] at hfresh ⊢
    refine ⟨hidle, ?_, h.capacity, h.reused, hfresh⟩
    dsimp only
    omega
  · have hroom : pool.free.length < poolCapacity := Nat.not_le.1 hfull
    rw [release_of_room hroom] at hfresh ⊢
    refine ⟨rfl, ?_, hroom, h.reused, hfresh⟩
    dsimp only
    omega

/-- One use keeps the accounts. -/
theorem use (h : pool.Accounted) (next : PoolUse α) : (pool.use next).Accounted := by
  cases next with
  | acquire => exact h.acquire
  | release node => exact h.release node

/-- A run keeps the accounts. -/
theorem useAll (h : pool.Accounted) (uses : List (PoolUse α)) : (pool.useAll uses).Accounted := by
  induction uses generalizing pool with
  | nil => exact h
  | cons next rest ih => exact ih (h.use next)

/-- The idle nodes are those that were given back, less those that left again. -/
theorem idle_eq_sub (h : pool.Accounted) : (pool.stats.idle : ℤ) =
    pool.stats.released - pool.stats.discarded - pool.stats.reused := by
  rw [← h.balance]
  push_cast
  ring

/-- A node is dropped when it is given back to a full pool, and only then. -/
theorem discarded_use (h : pool.Accounted) (next : PoolUse α) :
    (pool.use next).stats.discarded = pool.stats.discarded +
      if next.isRelease ∧ pool.stats.idle = poolCapacity then 1 else 0 := by
  cases next with
  | acquire =>
    cases hfree : pool.free with
    | nil => rw [NodePool.use, acquire_of_nil hfree]; rfl
    | cons node free => rw [NodePool.use, acquire_of_cons hfree]; rfl
  | release node =>
    have hidle := h.idle
    by_cases hfull : poolCapacity ≤ pool.free.length
    · have hat : pool.stats.idle = poolCapacity := Nat.le_antisymm h.capacity (hidle ▸ hfull)
      rw [NodePool.use, release_of_full hfull, if_pos ⟨rfl, hat⟩]
    · have hbelow : pool.stats.idle ≠ poolCapacity := by omega
      rw [NodePool.use, release_of_room (Nat.not_le.1 hfull), if_neg fun hboth => hbelow hboth.2]
      rfl

end Accounted

end NodePool

/-! ## The four kinds of nodes -/

/-- The nodes of a kind. -/
def PooledKind.Node : PooledKind → Type
  | select => Select
  | binary => Binary
  | column => ColumnRef
  | join => Join

instance (kind : PooledKind) : Pooled kind.Node :=
  match kind with
  | .select => inferInstanceAs (Pooled Select)
  | .binary => inferInstanceAs (Pooled Binary)
  | .column => inferInstanceAs (Pooled ColumnRef)
  | .join => inferInstanceAs (Pooled Join)

/-- The accounts of a pool of any kind, at every point of every run that starts with an empty one: as
many nodes are idle as the list holds, which are those given back without those dropped and those handed
out again, and they are never more than the pool has room for. The next use drops a node if it gives one
back while 256 are idle, and otherwise none. Whatever was given back, the pool keeps new nodes only, and
hands out a new one. -/
theorem PooledKind.accounts_exact (kind : PooledKind) (uses : List (PoolUse kind.Node)) :
    let pool := ({} : NodePool kind.Node).useAll uses
    pool.stats.idle = pool.free.length ∧
      (pool.stats.idle : ℤ) = pool.stats.released - pool.stats.discarded - pool.stats.reused ∧
      pool.stats.idle ≤ 256 ∧ pool.stats.reused ≤ pool.stats.acquired ∧
      (∀ next, (pool.use next).stats.discarded = pool.stats.discarded +
        if next.isRelease ∧ pool.stats.idle = 256 then 1 else 0) ∧
      (∀ node ∈ pool.free, node = Pooled.fresh) ∧ pool.acquire.1 = Pooled.fresh := by
  have h := (NodePool.accounted_empty (α := kind.Node)).useAll uses
  exact ⟨h.idle, h.idle_eq_sub, h.capacity, h.reused, h.discarded_use, h.fresh,
    NodePool.acquire_eq_fresh h.fresh⟩

end SqlFrontend
