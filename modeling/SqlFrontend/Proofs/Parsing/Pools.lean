import Mathlib.Algebra.BigOperators.Group.List.Basic
import Mathlib.Algebra.GroupWithZero.Nat
import SqlFrontend.Proofs.Tree.Pool

/-!
# What happens to pools

Nodes are taken from pools one by one, and given back one by one, also where a whole statement is.

Results:
* `Pools.Returned`: nodes were given back, no more of a kind than some components hold.
* `Statement.returned_recycle`: what is given back of a statement is held by the statement.
* `Pools.stats_churn`: what becomes of pools that are churned.
-/

namespace SqlFrontend

/-! ## Statements that are given back -/

/-- How many nodes of a kind several components hold. -/
def Component.held (cs : List Component) (kind : PooledKind) : ℕ := (cs.map (nodes kind)).sum

namespace Component

variable {kind : PooledKind}

theorem nodes_eq (c : Component) (kind : PooledKind) :
    c.nodes kind = c.isNode kind + held c.fields kind := c.total_eq (isNode kind)

@[simp] theorem held_nil : held [] kind = 0 := rfl

@[simp] theorem held_cons (c : Component) (cs : List Component) :
    held (c :: cs) kind = c.nodes kind + held cs kind := List.sum_cons

@[simp] theorem held_append (cs ds : List Component) :
    held (cs ++ ds) kind = held cs kind + held ds kind := by simp [held]

end Component

open Component

namespace Pools

/-- Nodes were given back, at most a number of each kind, and none was taken. -/
structure Returned (bound : PooledKind → ℕ) (pools pools' : Pools) : Prop where
  fresh : pools.IsFresh → pools'.IsFresh
  acquired : ∀ kind, (pools'.stats kind).acquired = (pools.stats kind).acquired
  released : ∀ kind, (pools'.stats kind).released ≤ (pools.stats kind).released + bound kind

variable {pools pools' pools'' : Pools} {bound bound' : PooledKind → ℕ}

theorem Returned.refl (pools : Pools) : Returned bound pools pools :=
  ⟨id, fun _ => rfl, fun _ => Nat.le_add_right _ _⟩

theorem Returned.mono (h : Returned bound pools pools') (hle : ∀ kind, bound kind ≤ bound' kind) :
    Returned bound' pools pools' :=
  ⟨h.fresh, h.acquired, fun kind => (h.released kind).trans (Nat.add_le_add_left (hle kind) _)⟩

theorem Returned.trans (h : Returned bound pools pools') (h' : Returned bound' pools' pools'') :
    Returned (fun kind => bound kind + bound' kind) pools pools'' := by
  refine ⟨h'.fresh ∘ h.fresh, fun kind => (h'.acquired kind).trans (h.acquired kind), fun kind => ?_⟩
  have hfirst := h.released kind
  have hsecond := h'.released kind
  omega

theorem Returned.given (pools : Pools) (c : Component) :
    Returned (c.isNode ·) pools (pools.given c) :=
  ⟨fun h => h.given c, fun kind => (pools.stats_given c kind).1,
    fun kind => (pools.stats_given c kind).2.1.le⟩

end Pools

open Pools (Returned)

mutual

/-- What is given back of an expression is held by the expression. -/
theorem Expr.returned_recycle (e : Expr) (pools : Pools) :
    Returned ((expr e).nodes ·) pools (e.recycle pools) := by
  match e with
  | .binary node =>
    refine (node.returned_recycle pools).mono fun kind => ?_
    simp [nodes_eq (expr _), fields, ofExpr]
  | .column ref =>
    refine (Returned.given pools (column ref)).mono fun kind => ?_
    simp [nodes_eq, fields, ofExpr]
  | .subquery q =>
    refine (q.returned_recycle pools).mono fun kind => ?_
    simp [nodes_eq (expr _), fields, ofExpr]
  | .literal _ | .star _ | .unary .. | .call _ | .window .. | .aliased .. | .among .. | .hasRows ..
  | .choice .. | .between .. | .cast .. => exact .refl pools

theorem Expr.returned_recycleAll (es : List Expr) (pools : Pools) :
    Returned (held (es.map expr)) pools (Expr.recycleAll es pools) := by
  match es with
  | [] => exact .refl pools
  | e :: es =>
    refine ((e.returned_recycle pools).trans (Expr.returned_recycleAll es _)).mono fun kind => ?_
    simp

theorem Expr.returned_recycleOption (e? : Option Expr) (pools : Pools) :
    Returned (held (e?.toList.map expr)) pools (Expr.recycleOption e? pools) := by
  match e? with
  | none => exact .refl pools
  | some e => exact (e.returned_recycle pools).mono fun kind => by simp

theorem Binary.returned_recycle (node : Binary) (pools : Pools) :
    Returned ((binary node).nodes ·) pools (node.recycle pools) := by
  match node with
  | ⟨left, op, right⟩ =>
    have hoperands := (left.returned_recycle pools).trans (right.returned_recycle _)
    refine (hoperands.trans (.given _ (binary ⟨left, op, right⟩))).mono fun kind => ?_
    rw [nodes_eq (binary _)]
    simp [fields, add_comm]

theorem Join.returned_recycleAll (joins : List Join) (pools : Pools) :
    Returned (held (joins.map join)) pools (Join.recycleAll joins pools) := by
  match joins with
  | [] => exact .refl pools
  | ⟨kind, joined, condition, sharedColumns⟩ :: joins =>
    have hcondition := Expr.returned_recycleOption condition pools
    have hjoin := hcondition.trans (.given _ (join ⟨kind, joined, condition, sharedColumns⟩))
    refine (hjoin.trans (Join.returned_recycleAll joins _)).mono fun kind => ?_
    rw [List.map_cons, held_cons, nodes_eq (join _)]
    simp only [fields, held_cons]
    omega

theorem Select.returned_recycle (node : Select) (pools : Pools) :
    Returned ((select node).nodes ·) pools (node.recycle pools) := by
  match node with
  | ⟨distinct, first, columns, into, tables, joins, condition, groupBy, having, orderBy, limit, offset,
      rows⟩ =>
    have hcolumns := Expr.returned_recycleAll columns pools
    have hcondition := hcolumns.trans (Expr.returned_recycleOption condition _)
    have hjoins := hcondition.trans (Join.returned_recycleAll joins _)
    refine (hjoins.trans (.given _ (select ⟨distinct, first, columns, into, tables, joins, condition,
      groupBy, having, orderBy, limit, offset, rows⟩))).mono fun kind => ?_
    rw [nodes_eq (select _)]
    simp only [fields, held_append]
    omega

theorem Query.returned_recycle (q : Query) (pools : Pools) :
    Returned ((query q).nodes ·) pools (q.recycle pools) := by
  match q with
  | .select node =>
    refine (node.returned_recycle pools).mono fun kind => ?_
    simp [nodes_eq (query _), fields]
  | .setOperation left _ _ right =>
    refine ((left.returned_recycle pools).trans (right.returned_recycle _)).mono fun kind => ?_
    rw [nodes_eq (query (.setOperation ..))]
    simp only [fields, held_cons, held_nil, nodes_eq (query (.select right))]
    omega
  | .withTables _ _ body =>
    refine (body.returned_recycle pools).mono fun kind => ?_
    rw [nodes_eq (query (.withTables ..))]
    simp only [fields, held_append, held_cons, held_nil]
    omega

end

/-- What is given back of a statement is held by the statement. -/
theorem Statement.returned_recycle (s : Statement) (pools : Pools) :
    Returned s.nodes pools (s.recycle pools) := by
  cases s with
  | query q =>
    refine (q.returned_recycle pools).mono fun kind => ?_
    simp [Statement.nodes, nodes_eq (statement _), fields, ofStatement]
  | _ => exact .refl pools

/-! ## Churning -/

namespace NodePool

variable {α : Type} [Pooled α] {pool : NodePool α}

theorem acquireMany_spec (pool : NodePool α) (n : ℕ) : (pool.acquireMany n).1.length = n ∧
    (pool.acquireMany n).2.stats.acquired = pool.stats.acquired + n ∧
    (pool.acquireMany n).2.stats.released = pool.stats.released := by
  induction n generalizing pool with
  | zero => exact ⟨rfl, rfl, rfl⟩
  | succ n ih =>
    obtain ⟨hlength, hacquired, hreleased⟩ := ih pool.acquire.2
    have hone := pool.stats_acquire
    refine ⟨congrArg Nat.succ hlength, ?_, hreleased.trans hone.2.1⟩
    rw [acquireMany]
    dsimp only
    rw [hacquired, hone.1]
    omega

theorem acquireMany_isFresh (h : pool.IsFresh) (n : ℕ) : (pool.acquireMany n).2.IsFresh := by
  induction n generalizing pool with
  | zero => exact h
  | succ n ih => exact ih (acquire_isFresh h)

theorem releaseAll_spec (pool : NodePool α) (nodes : List α) :
    (pool.releaseAll nodes).stats.acquired = pool.stats.acquired ∧
      (pool.releaseAll nodes).stats.released = pool.stats.released + nodes.length := by
  induction nodes generalizing pool with
  | nil => exact ⟨rfl, rfl⟩
  | cons node nodes ih =>
    obtain ⟨hacquired, hreleased⟩ := ih (pool.release node)
    have hone := pool.stats_release node
    refine ⟨hacquired.trans hone.1, hreleased.trans ?_⟩
    rw [hone.2.1, List.length_cons]
    omega

theorem releaseAll_isFresh (h : pool.IsFresh) (nodes : List α) : (pool.releaseAll nodes).IsFresh := by
  induction nodes generalizing pool with
  | nil => exact h
  | cons node nodes ih => exact ih (release_isFresh h node)

/-- No more nodes are given back than were taken. -/
theorem churn_spec (pool : NodePool α) (acquired released : ℕ) :
    (pool.churn acquired released).stats.acquired = pool.stats.acquired + acquired ∧
      (pool.churn acquired released).stats.released = pool.stats.released + min released acquired := by
  obtain ⟨hlength, hacquired, hreleased⟩ := pool.acquireMany_spec acquired
  obtain ⟨hsame, hreturned⟩ :=
    releaseAll_spec (pool.acquireMany acquired).2 ((pool.acquireMany acquired).1.take released)
  refine ⟨hsame.trans hacquired, hreturned.trans ?_⟩
  rw [hreleased, List.length_take, hlength]

theorem churn_isFresh (h : pool.IsFresh) (acquired released : ℕ) :
    (pool.churn acquired released).IsFresh := releaseAll_isFresh (acquireMany_isFresh h acquired) _

end NodePool

namespace Pools

theorem IsFresh.churn {pools : Pools} (h : pools.IsFresh) (kind : PooledKind) (acquired released : ℕ) :
    (pools.churn kind acquired released).IsFresh := by
  cases kind with
  | select => exact ⟨NodePool.churn_isFresh h.select _ _, h.binary, h.column, h.join⟩
  | binary => exact ⟨h.select, NodePool.churn_isFresh h.binary _ _, h.column, h.join⟩
  | column => exact ⟨h.select, h.binary, NodePool.churn_isFresh h.column _ _, h.join⟩
  | join => exact ⟨h.select, h.binary, h.column, NodePool.churn_isFresh h.join _ _⟩

/-- The pool of one kind is churned, and the others are left alone. -/
theorem stats_churn (pools : Pools) (kind other : PooledKind) (acquired released : ℕ) :
    ((pools.churn kind acquired released).stats other).acquired =
        (pools.stats other).acquired + (if kind = other then acquired else 0) ∧
      ((pools.churn kind acquired released).stats other).released =
        (pools.stats other).released + (if kind = other then min released acquired else 0) := by
  cases kind <;> cases other <;> first
    | exact NodePool.churn_spec _ _ _
    | exact ⟨rfl, rfl⟩

end Pools

end SqlFrontend
