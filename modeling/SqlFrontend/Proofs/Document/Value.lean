import Mathlib.Data.String.Basic
import Mathlib.Order.Lattice.Nat
import SqlFrontend.Document.Value

/-!
# Documents and their parts

Results:
* `Document.induct`: induction over documents.
* `Document.parts`: a document and all that is in it.
* `Document.depth`: how many containers are nested in a document.
* `Member.IsSorted`: members in the order of their keys, each key once. `Member.isSorted_sorted` and
  `Member.sorted_eq_self`: sorting gives such members, and leaves them as they are.
-/

namespace SqlFrontend

namespace Document

/-- What holds of a container if it holds of all that is in it, and of all else, holds of every
document. -/
theorem induct {motive : Document → Prop} (null : motive .null) (boolean : ∀ b, motive (.boolean b))
    (integer : ∀ n, motive (.integer n)) (float : ∀ x, motive (.float x))
    (string : ∀ text, motive (.string text))
    (array : ∀ items, (∀ item ∈ items, motive item) → motive (.array items))
    (object : ∀ members, (∀ member ∈ members, motive member.value) → motive (.object members)) :
    ∀ d, motive d :=
  @Document.rec motive (fun member => motive member.value) (fun items => ∀ item ∈ items, motive item)
    (fun members => ∀ member ∈ members, motive member.value) null boolean integer float string array
    object (fun _ _ h => h)
    (List.forall_mem_nil _) (fun _ _ h hs => List.forall_mem_cons.2 ⟨h, hs⟩)
    (List.forall_mem_nil _) (fun _ _ h hs => List.forall_mem_cons.2 ⟨h, hs⟩)

/-! ## Parts -/

mutual

/-- A document and all that is in it. -/
def parts : Document → List Document
  | array items => .array items :: partsOfItems items
  | object members => .object members :: partsOfMembers members
  | d => [d]

/-- The parts of several documents. -/
def partsOfItems : List Document → List Document
  | [] => []
  | item :: rest => item.parts ++ partsOfItems rest

/-- The parts of the values of several members. -/
def partsOfMembers : List Member → List Document
  | [] => []
  | ⟨_, value⟩ :: rest => value.parts ++ partsOfMembers rest

end

variable {P : Document → Prop}

theorem forall_parts_array {items : List Document} :
    (∀ part ∈ (array items).parts, P part) ↔
      P (.array items) ∧ ∀ item ∈ items, ∀ part ∈ item.parts, P part := by
  rw [parts, List.forall_mem_cons]
  refine and_congr_right' ?_
  induction items with
  | nil => simp [partsOfItems]
  | cons item items ih => rw [partsOfItems, List.forall_mem_append, ih, List.forall_mem_cons]

theorem forall_parts_object {members : List Member} :
    (∀ part ∈ (object members).parts, P part) ↔
      P (.object members) ∧ ∀ member ∈ members, ∀ part ∈ member.value.parts, P part := by
  rw [parts, List.forall_mem_cons]
  refine and_congr_right' ?_
  induction members with
  | nil => simp [partsOfMembers]
  | cons member members ih =>
    obtain ⟨key, value⟩ := member
    rw [partsOfMembers, List.forall_mem_append, ih, List.forall_mem_cons]

/-! ## Nesting -/

mutual

/-- How many containers are nested in a document, itself included. -/
def depth : Document → ℕ
  | array items => depthOfItems items + 1
  | object members => depthOfMembers members + 1
  | _ => 0

/-- How many containers are nested in the deepest of several documents. -/
def depthOfItems : List Document → ℕ
  | [] => 0
  | item :: rest => max item.depth (depthOfItems rest)

/-- How many containers are nested in the deepest of the values of several members. -/
def depthOfMembers : List Member → ℕ
  | [] => 0
  | ⟨_, value⟩ :: rest => max value.depth (depthOfMembers rest)

end

theorem depth_array_le {items : List Document} {k : ℕ} :
    (array items).depth ≤ k + 1 ↔ ∀ item ∈ items, item.depth ≤ k := by
  rw [depth, Nat.add_le_add_iff_right]
  induction items with
  | nil => simp [depthOfItems]
  | cons item items ih => rw [depthOfItems, max_le_iff, ih, List.forall_mem_cons]

theorem depth_object_le {members : List Member} {k : ℕ} :
    (object members).depth ≤ k + 1 ↔ ∀ member ∈ members, member.value.depth ≤ k := by
  rw [depth, Nat.add_le_add_iff_right]
  induction members with
  | nil => simp [depthOfMembers]
  | cons member members ih =>
    obtain ⟨key, value⟩ := member
    rw [depthOfMembers, max_le_iff, ih, List.forall_mem_cons]

end Document

/-! ## Sorted members -/

namespace Member

/-- Members in the order of their keys, each key once. -/
def IsSorted (members : List Member) : Prop := members.Pairwise fun m m' => m.key < m'.key

variable {m : Member} {members : List Member}

theorem mem_insert {x : Member} (h : x ∈ m.insert members) : x = m ∨ x ∈ members := by
  induction members with
  | nil => exact .inl (List.mem_singleton.1 h)
  | cons other rest ih =>
    rw [insert] at h
    split at h
    · exact (List.mem_cons.1 h).imp_right (List.mem_cons_of_mem _)
    · split at h
      · exact List.mem_cons.1 h
      · rcases List.mem_cons.1 h with rfl | h
        · exact .inr List.mem_cons_self
        · exact (ih h).imp_right (List.mem_cons_of_mem _)

theorem isSorted_insert (h : IsSorted members) : IsSorted (m.insert members) := by
  induction members with
  | nil => exact List.pairwise_singleton _ _
  | cons other rest ih =>
    obtain ⟨hother, hrest⟩ := List.pairwise_cons.1 h
    rw [insert]
    split
    · next heq => exact List.pairwise_cons.2 ⟨fun x hx => heq ▸ hother x hx, hrest⟩
    · next hne =>
      split
      · next hlt =>
        refine List.pairwise_cons.2 ⟨fun x hx => ?_, h⟩
        rcases List.mem_cons.1 hx with rfl | hx
        · exact hlt
        · exact String.lt_trans hlt (hother x hx)
      · next hge =>
        have hlt : other.key < m.key := lt_of_le_of_ne (String.not_lt.1 hge) (Ne.symm hne)
        refine List.pairwise_cons.2 ⟨fun x hx => ?_, ih hrest⟩
        rcases mem_insert hx with rfl | hx
        · exact hlt
        · exact hother x hx

/-- A member behind all others is put behind them. -/
theorem insert_eq_append (h : ∀ x ∈ members, x.key < m.key) : m.insert members = members ++ [m] := by
  induction members with
  | nil => rfl
  | cons other rest ih =>
    obtain ⟨hother, hrest⟩ := List.forall_mem_cons.1 h
    rw [insert, if_neg hother.ne', if_neg (String.lt_asymm hother), ih hrest, List.cons_append]

theorem mem_sorted {x : Member} (h : x ∈ sorted members) : x ∈ members := by
  have hfold (before : List Member) : x ∈ members.foldl (fun ms m => m.insert ms) before →
      x ∈ before ∨ x ∈ members := by
    clear h
    induction members generalizing before with
    | nil => exact .inl
    | cons m members ih =>
      intro h
      rcases ih _ h with h | h
      · exact (mem_insert h).elim (fun h => .inr (h ▸ List.mem_cons_self)) .inl
      · exact .inr (List.mem_cons_of_mem _ h)
  exact (hfold [] h).resolve_left List.not_mem_nil

theorem isSorted_sorted (members : List Member) : IsSorted (sorted members) := by
  have hfold (before : List Member) (h : IsSorted before) :
      IsSorted (members.foldl (fun ms m => m.insert ms) before) := by
    induction members generalizing before with
    | nil => exact h
    | cons m members ih => exact ih _ (isSorted_insert h)
  exact hfold [] List.Pairwise.nil

theorem sorted_eq_self (h : IsSorted members) : sorted members = members := by
  have hfold (before : List Member) : IsSorted (before ++ members) →
      members.foldl (fun ms m => m.insert ms) before = before ++ members := by
    clear h
    induction members generalizing before with
    | nil => exact fun _ => (List.append_nil _).symm
    | cons m members ih =>
      intro h
      have hlast : ∀ x ∈ before, x.key < m.key := fun x hx =>
        (List.pairwise_append.1 h).2.2 x hx m List.mem_cons_self
      rw [List.append_cons] at h ⊢
      rw [List.foldl_cons, insert_eq_append hlast]
      exact ih _ h
  exact hfold [] h

end Member

end SqlFrontend
