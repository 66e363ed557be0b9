import SqlFrontend.Tree.Statement

/-!
# Pools of nodes

Four kinds of nodes are taken from free lists and can be given back to them: selections, operators,
columns and joins. A free list counts what happens to it, keeps a bounded number of nodes, and keeps
them as good as new.

* `NodePool.acquire`, `NodePool.release`: one free list. `acquire_eq_fresh` says that a pool which
  holds only new nodes hands out a new node, and `release_isFresh`, `acquire_isFresh` that it stays
  such a pool.
* `Pools`: the four free lists together.
* `Statement.recycle`: gives the nodes of a statement back, as far as a query's columns, conditions
  and joins reach.

Section 5, *Pooling discipline*, of the polysql specification.
-/

namespace SqlFrontend

/-- How many nodes a pool keeps at most. -/
def poolCapacity : Nat := 256

/-- Nodes that a pool can hand out again. -/
class Pooled (α : Type) where
  /-- A node with every part absent. -/
  fresh : α
  /-- Empties a node that was in use. -/
  reset : α → α
  reset_eq_fresh : ∀ node, reset node = fresh

/-- What has happened to a pool. -/
structure PoolStats where
  /-- Nodes handed out. -/
  acquired : Nat := 0
  /-- Those of them that had been in use before. -/
  reused : Nat := 0
  /-- Nodes given back. -/
  released : Nat := 0
  /-- Those of them for which there was no room. -/
  discarded : Nat := 0
  /-- Nodes that are kept now. -/
  idle : Nat := 0
  deriving DecidableEq, Repr

/-- A free list of nodes. -/
structure NodePool (α : Type) where
  free : List α := []
  stats : PoolStats := {}

namespace NodePool

variable {α : Type} [Pooled α]

/-- Hands out a node: the one that was kept last, or a new one. -/
def acquire (pool : NodePool α) : α × NodePool α :=
  let stats := { pool.stats with acquired := pool.stats.acquired + 1 }
  match pool.free with
  | node :: free => (node, ⟨free, { stats with reused := stats.reused + 1, idle := free.length }⟩)
  | [] => (Pooled.fresh, { pool with stats })

/-- Takes a node back and empties it, or drops it when there is no room. -/
def release (pool : NodePool α) (node : α) : NodePool α :=
  let stats := { pool.stats with released := pool.stats.released + 1 }
  if poolCapacity ≤ pool.free.length then
    { pool with stats := { stats with discarded := stats.discarded + 1 } }
  else
    let free := Pooled.reset node :: pool.free
    ⟨free, { stats with idle := free.length }⟩

/-- Hands out a number of nodes. -/
def acquireMany (pool : NodePool α) : Nat → List α × NodePool α
  | 0 => ([], pool)
  | n + 1 =>
    let (node, pool) := pool.acquire
    let (nodes, pool) := pool.acquireMany n
    (node :: nodes, pool)

/-- Takes nodes back one after the other. -/
def releaseAll (pool : NodePool α) (nodes : List α) : NodePool α := nodes.foldl release pool

/-- Every node that is kept is as good as new. -/
def IsFresh (pool : NodePool α) : Prop := ∀ node ∈ pool.free, node = Pooled.fresh

theorem acquire_eq_fresh {pool : NodePool α} (h : pool.IsFresh) :
    pool.acquire.1 = Pooled.fresh := by
  unfold acquire
  dsimp only
  split
  · next node free hf => exact h node (by simp [hf])
  · rfl

theorem acquire_isFresh {pool : NodePool α} (h : pool.IsFresh) : pool.acquire.2.IsFresh := by
  unfold acquire
  dsimp only
  split
  · next node free hf => exact fun n hn => h n (by rw [hf]; exact List.mem_cons_of_mem _ hn)
  · exact h

theorem release_isFresh {pool : NodePool α} (h : pool.IsFresh) (node : α) :
    (pool.release node).IsFresh := by
  unfold release
  dsimp only
  split
  · exact h
  · intro n hn
    rcases List.mem_cons.1 hn with rfl | hn
    · exact Pooled.reset_eq_fresh node
    · exact h n hn

end NodePool

/-! ## The four kinds of nodes -/

instance : Pooled Select := ⟨.fresh, fun _ => .fresh, fun _ => rfl⟩

instance : Pooled Binary := ⟨.fresh, fun _ => .fresh, fun _ => rfl⟩

instance : Pooled ColumnRef :=
  ⟨.fresh, fun node => { node with table := none, column := "" }, fun _ => rfl⟩

instance : Pooled Join := ⟨.fresh, fun _ => .fresh, fun _ => rfl⟩

/-- The free lists of the four kinds of nodes. -/
structure Pools where
  select : NodePool Select := {}
  binary : NodePool Binary := {}
  column : NodePool ColumnRef := {}
  join : NodePool Join := {}

/-- The kinds of nodes that are pooled. -/
inductive PooledKind where
  | select | binary | column | join
  deriving DecidableEq, Repr

namespace Pools

instance : Inhabited Pools := ⟨{}⟩

/-- What has happened to the free list of a kind. -/
def stats (pools : Pools) : PooledKind → PoolStats
  | .select => pools.select.stats
  | .binary => pools.binary.stats
  | .column => pools.column.stats
  | .join => pools.join.stats

end Pools

/-- Hands out a number of nodes and takes back some of them. -/
def NodePool.churn {α : Type} [Pooled α] (pool : NodePool α) (acquired released : Nat) :
    NodePool α :=
  let (nodes, pool) := pool.acquireMany acquired
  pool.releaseAll (nodes.take released)

/-- Hands out a number of nodes and takes back another number, in part of new nodes where more are
taken back than were handed out. -/
def NodePool.churnBeyond {α : Type} [Pooled α] (pool : NodePool α) (acquired released : Nat) :
    NodePool α :=
  let (nodes, pool) := pool.acquireMany acquired
  let nodes := nodes ++ List.replicate (released - acquired) Pooled.fresh
  pool.releaseAll (nodes.take released)

/-- Churns the free list of a kind. -/
def Pools.churn (pools : Pools) (kind : PooledKind) (acquired released : Nat) : Pools :=
  match kind with
  | .select => { pools with select := pools.select.churn acquired released }
  | .binary => { pools with binary := pools.binary.churn acquired released }
  | .column => { pools with column := pools.column.churn acquired released }
  | .join => { pools with join := pools.join.churn acquired released }

/-- What happens to a new pool of a kind that is churned, possibly beyond what it handed out. -/
def PooledKind.churnNew (kind : PooledKind) (acquired released : Nat) : PoolStats :=
  match kind with
  | .select => (({} : NodePool Select).churnBeyond acquired released).stats
  | .binary => (({} : NodePool Binary).churnBeyond acquired released).stats
  | .column => (({} : NodePool ColumnRef).churnBeyond acquired released).stats
  | .join => (({} : NodePool Join).churnBeyond acquired released).stats

/-! ## Giving a statement back -/

mutual

/-- Gives back the operators and columns of an expression, down to the first node of another kind. -/
def Expr.recycle : Expr → Pools → Pools
  | .binary node, pools => node.recycle pools
  | .column ref, pools => { pools with column := pools.column.release ref }
  | .subquery query, pools => query.recycle pools
  | _, pools => pools

/-- Gives back expressions one after the other. -/
def Expr.recycleAll : List Expr → Pools → Pools
  | [], pools => pools
  | expr :: rest, pools => Expr.recycleAll rest (expr.recycle pools)

/-- Gives back an expression, if there is one. -/
def Expr.recycleOption : Option Expr → Pools → Pools
  | none, pools => pools
  | some expr, pools => expr.recycle pools

/-- Gives back an operator with its operands. -/
def Binary.recycle : Binary → Pools → Pools
  | ⟨left, op, right⟩, pools =>
    let pools := right.recycle (left.recycle pools)
    { pools with binary := pools.binary.release ⟨left, op, right⟩ }

/-- Gives back joins with their conditions. -/
def Join.recycleAll : List Join → Pools → Pools
  | [], pools => pools
  | ⟨kind, table, condition, sharedColumns⟩ :: rest, pools =>
    let pools := Expr.recycleOption condition pools
    let pools := { pools with join := pools.join.release ⟨kind, table, condition, sharedColumns⟩ }
    Join.recycleAll rest pools

/-- Gives back a selection with its columns, its condition and its joins. -/
def Select.recycle : Select → Pools → Pools
  | ⟨distinct, top, columns, into, tables, joins, condition, groupBy, having, orderBy, limit, offset,
      fetch⟩, pools =>
    let pools := Expr.recycleAll columns pools
    let pools := Expr.recycleOption condition pools
    let pools := Join.recycleAll joins pools
    { pools with
      select := pools.select.release ⟨distinct, top, columns, into, tables, joins, condition, groupBy,
        having, orderBy, limit, offset, fetch⟩ }

/-- Gives back the selections of a query, but not those that it names. -/
def Query.recycle : Query → Pools → Pools
  | .select node, pools => node.recycle pools
  | .setOperation left _ _ right, pools => right.recycle (left.recycle pools)
  | .withTables _ _ body, pools => body.recycle pools

end

/-- Gives back the nodes of a statement. Only queries have any to give. -/
def Statement.recycle (s : Statement) (pools : Pools) : Pools :=
  match s with
  | .query q => q.recycle pools
  | _ => pools

end SqlFrontend
