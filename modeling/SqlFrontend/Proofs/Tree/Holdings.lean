import Mathlib.Algebra.BigOperators.Group.List.Basic
import Mathlib.Algebra.Order.Group.Nat
import SqlFrontend.Dialect
import SqlFrontend.Proofs.Tree.Component
import SqlFrontend.Tree.Pool

/-!
# What trees hold

Results:
* `Component.total`: a sum over the components at every depth, each counted by itself.
* `Component.pooledKind?`, `Statement.nodes`: the components that are taken from pools, and how many of
  a kind a statement holds.
* `Component.isSupported`: what a dialect says of a component by itself.
* `Component.mayHide`: the components that may have had other parts before.
-/

namespace SqlFrontend

namespace Component

/-! ## Sums -/

section

variable {M : Type} [AddCommMonoid M]

/-- The sum over a component and all components in it, at every depth. -/
def total (own : Component → M) (c : Component) : M :=
  own c + (c.fields.attach.map fun d => total own d.1).sum
termination_by sizeOf c
decreasing_by exact below_fields c d.1 d.2

theorem total_eq (own : Component → M) (c : Component) :
    c.total own = own c + (c.fields.map (total own)).sum := by
  rw [total]
  congr 2
  exact List.attach_map_val (l := c.fields) (f := total own)

/-- A sum of images is the image of the sum. -/
theorem map_total {N : Type} [AddCommMonoid N] (f : M →+ N) (own : Component → M) (c : Component) :
    f (c.total own) = c.total fun d => f (own d) := by
  induction c using induction with
  | _ c ih =>
    rw [total_eq, total_eq, map_add, map_list_sum, List.map_map]
    exact congrArg _ (congrArg List.sum (List.map_congr_left ih))

/-- Only what is counted of the components within counts. -/
theorem total_congr {own own' : Component → M} {c : Component}
    (h : c.Throughout fun d => own d = own' d) : c.total own = c.total own' := by
  induction c using induction with
  | _ c ih =>
    obtain ⟨hc, hfields⟩ := throughout_iff.1 h
    rw [total_eq, total_eq, hc]
    exact congrArg _ (congrArg List.sum (List.map_congr_left fun d hd => ih d hd (hfields d hd)))

end

/-- A sum of natural numbers is zero if and only if each of them is. -/
theorem total_eq_zero {own : Component → Nat} {c : Component} :
    c.total own = 0 ↔ c.Throughout fun d => own d = 0 := by
  induction c using induction with
  | _ c ih =>
    rw [total_eq, throughout_iff, Nat.add_eq_zero_iff, List.sum_eq_zero_iff_forall_eq_nat, List.forall_mem_map]
    exact and_congr_right' (forall₂_congr ih)

/-! ## Nodes from pools -/

/-- The kind of a component that is taken from a pool. -/
def pooledKind? : Component → Option PooledKind
  | select _ => some .select
  | binary _ => some .binary
  | column _ => some .column
  | join _ => some .join
  | _ => none

/-- How many nodes of a kind a component is by itself. -/
def isNode (kind : PooledKind) (c : Component) : Nat := if c.pooledKind? = some kind then 1 else 0

/-- How many nodes of a kind a component holds, itself among them. -/
def nodes (kind : PooledKind) (c : Component) : Nat := c.total (isNode kind)

/-! ## Gated constructs -/

/-- Decides whether a dialect has a component, as far as the component tells by itself. -/
def isSupported (d : Dialect) : Component → Bool
  | top _ => d.supports .top
  | dataType type => !type.isArray || d == .postgreSql
  | createView node => !node.materialized || d.supports .materializedView
  | drop node => node.kind != .materializedView || d.supports .materializedView
  | trigger node => node.timing != .insteadOf || d.supports .insteadOf
  | parameter node => !node.variadic || d.supports .variadic
  | routine node => !node.options.isPlpgsql || d.supports .plpgsql
  | _ => true

/-! ## Parts that give way -/

/-- Decides whether a component may have had other parts before. The value and the condition of a column
give way to others that are given behind them, and an offset among the limits of a selection gives way to
one that is given on its own. -/
def mayHide : Component → Bool
  | columnDefinition node => node.initial.isSome || node.check.isSome
  | select node => node.limit.isSome && node.offset.isSome
  | _ => false

end Component

/-- How many nodes of a kind a statement holds, at every depth. -/
def Statement.nodes (s : Statement) (kind : PooledKind) : Nat := (Component.statement s).nodes kind

end SqlFrontend
