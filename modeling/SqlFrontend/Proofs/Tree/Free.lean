import SqlFrontend.Tree.Free

/-!
# Walks come by everything once

The walk from a statement lists the statements, expressions and tables among the parts of the statement,
those at every depth and in every field, each once and each before the ones it contains. Nothing is asked of
the statement: it may be one that cannot be read.

* `Free.fields`: the parts in the fields of a tree, in the order of the fields. `Free.induction`: what holds
  of a tree if it holds of its parts holds of all trees.
* `Free.nodeAt?`: the statement, expression or table at a place. A place tells, from the outside in, which
  field to go to.
* `Free.walk_eq`: a walk lists the tree itself, and then walks over its fields.
* `Free.enumerates_tags`: the walk from a statement goes through the places of its nodes in lexicographic
  order.
-/

namespace SqlFrontend.Free

/-! ## Parts -/

/-- A tree of any kind. -/
structure Part where
  {kind : Kind}
  tree : Tree kind

/-- The parts in the fields of a tree, in the order of the fields. Those of a sequence are its items. Texts,
numbers, flags and what is made of them alone are no parts. -/
def fields : {k : Kind} → Tree k → List Part
  | _, .nil | _, .none => []
  | _, .cons head tail => ⟨head⟩ :: fields tail
  | _, .some value => [⟨value⟩]
  -- expressions
  | _, .literal _ | _, .column _ | _, .star _ => []
  | _, .binary left _ right => [⟨left⟩, ⟨right⟩]
  | _, .unary _ operand => [⟨operand⟩]
  | _, .function call => [⟨call⟩]
  | _, .windowed call spec => [⟨call⟩, ⟨spec⟩]
  | _, .aliased expr _ => [⟨expr⟩]
  | _, .among expr _ values => [⟨expr⟩, ⟨values⟩]
  | _, .hasRows _ query => [⟨query⟩]
  | _, .subquery query => [⟨query⟩]
  | _, .choice input branches otherwise => [⟨input⟩, ⟨branches⟩, ⟨otherwise⟩]
  | _, .between expr _ low high => [⟨expr⟩, ⟨low⟩, ⟨high⟩]
  | _, .cast expr _ => [⟨expr⟩]
  -- parts of expressions
  | _, .call _ args _ => [⟨args⟩]
  | _, .candidateList values => [⟨values⟩]
  | _, .candidateQuery query => [⟨query⟩]
  | _, .branch condition result => [⟨condition⟩, ⟨result⟩]
  | _, .window partitionBy orderBy frame => [⟨partitionBy⟩, ⟨orderBy⟩, ⟨frame⟩]
  | _, .frame _ start stop => [⟨start⟩, ⟨stop⟩]
  | _, .frameBound _ _ offset => [⟨offset⟩]
  -- tables and queries
  | _, .table _ _ _ subquery _ => [⟨subquery⟩]
  | _, .join _ table condition _ => [⟨table⟩, ⟨condition⟩]
  | _, .sortItem expr _ _ => [⟨expr⟩]
  | _, .top quantity _ _ => [⟨quantity⟩]
  | _, .select _ top columns _ tables joins condition groupBy having orderBy limit offset fetch =>
    [⟨top⟩, ⟨columns⟩, ⟨tables⟩, ⟨joins⟩, ⟨condition⟩, ⟨groupBy⟩, ⟨having⟩, ⟨orderBy⟩, ⟨limit⟩, ⟨offset⟩,
      ⟨fetch⟩]
  | _, .commonTable _ _ query => [⟨query⟩]
  -- parts of the statements that change rows or define tables
  | _, .assignment _ value => [⟨value⟩]
  | _, .sourceRows rows => [⟨rows⟩]
  | _, .sourceQuery query => [⟨query⟩]
  | _, .sourceDefaults => []
  | _, .columnDefinition _ _ _ _ _ _ initial _ check _ _ => [⟨initial⟩, ⟨check⟩]
  | _, .constraint _ kind => [⟨kind⟩]
  | _, .check condition => [⟨condition⟩]
  | _, .primaryKey _ | _, .unique _ | _, .foreignKey .. | _, .index _ => []
  | _, .addColumn column | _, .modifyColumn column | _, .changeColumn _ column => [⟨column⟩]
  | _, .addConstraint constraint => [⟨constraint⟩]
  | _, .dropColumn .. | _, .dropConstraint _ | _, .alterColumnType .. | _, .renameTable _
  | _, .renameColumn .. => []
  -- parts of routines and of the statements that hold others
  | _, .parameter _ _ _ _ initial => [⟨initial⟩]
  | _, .triggerBlock block => [⟨block⟩]
  | _, .triggerStatement statement => [⟨statement⟩]
  | _, .triggerCall _ args => [⟨args⟩]
  | _, .block _ declarations body handlers _ => [⟨declarations⟩, ⟨body⟩, ⟨handlers⟩]
  | _, .handler _ body => [⟨body⟩]
  | _, .scalars _ _ initial _ _ => [⟨initial⟩]
  | _, .cursor _ _ query => [⟨query⟩]
  | _, .conditionHandler _ _ body => [⟨body⟩]
  | _, .alternative condition body => [⟨condition⟩, ⟨body⟩]
  | _, .numericRange start stop step => [⟨start⟩, ⟨stop⟩, ⟨step⟩]
  | _, .queryRange query => [⟨query⟩]
  | _, .next | _, .prior | _, .first | _, .last => []
  | _, .absolute row => [⟨row⟩]
  | _, .relative count => [⟨count⟩]
  -- statements
  | _, .selection node => [⟨node⟩]
  | _, .insert _ _ source => [⟨source⟩]
  | _, .update table assignments tables condition => [⟨table⟩, ⟨assignments⟩, ⟨tables⟩, ⟨condition⟩]
  | _, .delete table condition => [⟨table⟩, ⟨condition⟩]
  | _, .withTables _ tables body => [⟨tables⟩, ⟨body⟩]
  | _, .setOperation left _ _ right => [⟨left⟩, ⟨right⟩]
  | _, .createTable _ _ _ columns constraints _ => [⟨columns⟩, ⟨constraints⟩]
  | _, .createIndex _ _ _ _ _ _ columns _ condition => [⟨columns⟩, ⟨condition⟩]
  | _, .createView _ _ _ _ _ query _ _ => [⟨query⟩]
  | _, .createProcedure _ _ parameters _ body => [⟨parameters⟩, ⟨body⟩]
  | _, .createFunction _ _ parameters _ _ body => [⟨parameters⟩, ⟨body⟩]
  | _, .createTrigger _ _ _ _ _ _ condition body => [⟨condition⟩, ⟨body⟩]
  | _, .alterTable _ action => [⟨action⟩]
  | _, .declare declaration => [⟨declaration⟩]
  | _, .blockStatement block => [⟨block⟩]
  | _, .conditional condition body elseIfs otherwise => [⟨condition⟩, ⟨body⟩, ⟨elseIfs⟩, ⟨otherwise⟩]
  | _, .whileLoop _ condition body => [⟨condition⟩, ⟨body⟩]
  | _, .loop _ body => [⟨body⟩]
  | _, .forLoop _ _ _ range body => [⟨range⟩, ⟨body⟩]
  | _, .repeatLoop _ body condition => [⟨body⟩, ⟨condition⟩]
  | _, .caseStatement input branches otherwise => [⟨input⟩, ⟨branches⟩, ⟨otherwise⟩]
  | _, .returnValue value => [⟨value⟩]
  | _, .assign assignments => [⟨assignments⟩]
  | _, .openCursor _ query => [⟨query⟩]
  | _, .fetch direction _ _ => [⟨direction⟩]
  | _, .leave _ condition | _, .iterate _ condition => [⟨condition⟩]
  | _, .tryCatch body handler => [⟨body⟩, ⟨handler⟩]
  | _, .raise _ _ message arguments _ options => [⟨message⟩, ⟨arguments⟩, ⟨options⟩]
  | _, .throwing errorNumber message state => [⟨errorNumber⟩, ⟨message⟩, ⟨state⟩]
  | _, .signal _ _ _ properties => [⟨properties⟩]
  | _, .callStatement _ args => [⟨args⟩]
  | _, .explain _ statement => [⟨statement⟩]
  | _, .drop _ | _, .setOption .. | _, .closeCursor _ | _, .deallocate _ | _, .beginTransaction _
  | _, .commit .. | _, .rollback _ | _, .savepoint _ | _, .releaseSavepoint _ => []

/-- The parts in the fields of a tree are smaller than the tree. -/
theorem sizeOf_lt_of_mem_fields {k : Kind} (t : Tree k) : ∀ part ∈ fields t, sizeOf part.tree < sizeOf t := by
  induction t with
  | cons head tail _ ih =>
    intro part hpart
    rw [fields, List.mem_cons] at hpart
    rw [Tree.cons.sizeOf_spec]
    rcases hpart with rfl | hpart
    · change sizeOf head < _
      omega
    · have := ih part hpart
      omega
  | _ =>
    simp [fields]
    try omega

/-- What holds of a tree if it holds of the parts in its fields holds of every tree. -/
theorem induction {P : {k : Kind} → Tree k → Prop}
    (h : ∀ {k : Kind} (t : Tree k), (∀ part ∈ fields t, P part.tree) → P t) {k : Kind} (t : Tree k) : P t :=
  h t fun part hpart =>
    have := sizeOf_lt_of_mem_fields t part hpart
    induction h part.tree
termination_by sizeOf t

/-! ## Walks over parts -/

theorem node?_list {k : Kind} (t : Tree (.list k)) : node? t = none := rfl

/-- A walk lists the tree itself, and then walks over its fields. -/
theorem walk_eq {k : Kind} (t : Tree k) :
    walk t = (node? t).toList ++ (fields t).flatMap fun part => walk part.tree := by
  induction t with
  | cons head tail _ ih =>
    rw [node?_list, Option.toList_none, List.nil_append] at ih ⊢
    rw [walk, node?_list, fields, List.flatMap_cons, ← ih]
    rfl
  | _ => simp [walk, fields]

/-! ## Places of nodes -/

/-- The part at a place, which tells from the outside in which field to go to. -/
def at? : Part → List Nat → Option Part
  | part, [] => some part
  | part, i :: place => (fields part.tree)[i]?.bind fun inner => at? inner place

/-- What a walk lists of the part at a place of a tree. -/
def nodeAt? {k : Kind} (t : Tree k) (place : List Nat) : Option Node :=
  (at? ⟨t⟩ place).bind fun part => node? part.tree

/-- What a walk lists of the part at a place in one of several parts, which the place tells first. -/
def nodeAmong? (parts : List Part) : List Nat → Option Node
  | [] => none
  | i :: place => parts[i]?.bind fun part => nodeAt? part.tree place

/-- A list of nodes that goes once through all places at which there is one, in lexicographic order. -/
def Enumerates (nodes : List Node) (nodeOf? : List Nat → Option Node) : Prop :=
  ∃ places : List (List Nat), (∀ place, place ∈ places ↔ (nodeOf? place).isSome) ∧
    places.Pairwise (· < ·) ∧ nodes.map some = places.map nodeOf?

/-- The place in a list that has one more part before the others. -/
def behindFirst : List Nat → List Nat
  | [] => []
  | i :: place => (i + 1) :: place

theorem behindFirst_lt {a b : List Nat} (h : a < b) : behindFirst a < behindFirst b := by
  cases a <;> cases b <;> simp_all [behindFirst, List.cons_lt_cons_iff]

theorem nodeAt?_cons {k : Kind} (t : Tree k) (i : Nat) (place : List Nat) :
    nodeAt? t (i :: place) = nodeAmong? (fields t) (i :: place) := by
  simp only [nodeAt?, nodeAmong?, at?, Option.bind_assoc]

theorem nodeAmong?_behindFirst (part : Part) (parts : List Part) (place : List Nat) :
    nodeAmong? (part :: parts) (behindFirst place) = nodeAmong? parts place := by
  cases place <;> simp [nodeAmong?, behindFirst]

theorem mem_map_behindFirst {places : List (List Nat)} (h : [] ∉ places) {place : List Nat} :
    place ∈ places.map behindFirst ↔ ∃ i other, place = (i + 1) :: other ∧ i :: other ∈ places := by
  rw [List.mem_map]
  constructor
  · rintro ⟨_ | ⟨i, other⟩, hother, rfl⟩
    · exact absurd hother h
    · exact ⟨i, other, rfl, hother⟩
  · rintro ⟨i, other, rfl, hother⟩
    exact ⟨i :: other, hother, rfl⟩

theorem enumerates_among {parts : List Part}
    (h : ∀ part ∈ parts, Enumerates (walk part.tree) (nodeAt? part.tree)) :
    Enumerates (parts.flatMap fun part => walk part.tree) (nodeAmong? parts) := by
  induction parts with
  | nil => exact ⟨[], by rintro (_ | _) <;> simp [nodeAmong?], List.Pairwise.nil, rfl⟩
  | cons part parts ih =>
    obtain ⟨first, hfirst, hfirstOrder, hfirstNodes⟩ := h part List.mem_cons_self
    obtain ⟨others, hothers, hothersOrder, hothersNodes⟩ :=
      ih fun other hother => h other (List.mem_cons_of_mem _ hother)
    have hsome : [] ∉ others := by simp [hothers, nodeAmong?]
    refine ⟨first.map (0 :: ·) ++ others.map behindFirst, fun place => ?_, ?_, ?_⟩
    · rw [List.mem_append, mem_map_behindFirst hsome]
      rcases place with _ | ⟨_ | i, place⟩
      · simp [nodeAmong?]
      · simp [nodeAmong?, hfirst]
      · have hbehind := nodeAmong?_behindFirst part parts (i :: place)
        rw [behindFirst] at hbehind
        rw [hbehind, ← hothers]
        constructor
        · rintro (h | ⟨_, _, heq, h⟩)
          · simp at h
          · cases heq
            exact h
        · exact fun h => .inr ⟨i, place, rfl, h⟩
    · refine List.pairwise_append.2 ⟨List.pairwise_map.2 (hfirstOrder.imp List.cons_lt_cons_self.2),
        List.pairwise_map.2 (hothersOrder.imp behindFirst_lt), fun a ha b hb => ?_⟩
      obtain ⟨place, -, rfl⟩ := List.mem_map.1 ha
      obtain ⟨i, other, rfl, -⟩ := (mem_map_behindFirst hsome).1 hb
      simp [List.cons_lt_cons_iff]
    · have hrest : (others.map behindFirst).map (nodeAmong? (part :: parts)) =
          others.map (nodeAmong? parts) := by
        rw [List.map_map]
        exact List.map_congr_left fun place _ => nodeAmong?_behindFirst part parts place
      rw [List.flatMap_cons, List.map_append, List.map_append, hrest, hfirstNodes, hothersNodes,
        List.map_map]
      rfl

/-- A walk goes once through the places at which there is a node. -/
theorem enumerates_walk {k : Kind} (t : Tree k) : Enumerates (walk t) (nodeAt? t) := by
  induction t using induction with
  | h t ih =>
    obtain ⟨places, hplaces, horder, hnodes⟩ := enumerates_among ih
    have hsome : [] ∉ places := by simp [hplaces, nodeAmong?]
    have hbehind : places.map (nodeAmong? (fields t)) = places.map (nodeAt? t) := by
      refine List.map_congr_left fun place hplace => ?_
      cases place with
      | nil => exact absurd hplace hsome
      | cons i place => exact (nodeAt?_cons t i place).symm
    have hnil : nodeAt? t [] = node? t := rfl
    rw [walk_eq]
    cases hnode : node? t with
    | none =>
      refine ⟨places, fun place => ?_, horder, hnodes.trans hbehind⟩
      cases place with
      | nil => simp [hsome, hnil, hnode]
      | cons i place => rw [hplaces, nodeAt?_cons]
    | some node =>
      refine ⟨[] :: places, fun place => ?_, List.pairwise_cons.2 ⟨fun place hplace => ?_, horder⟩, ?_⟩
      · cases place with
        | nil => simp [hnil, hnode]
        | cons i place => simp [hplaces, nodeAt?_cons]
      · cases place with
        | nil => exact absurd hplace hsome
        | cons i place => exact List.nil_lt_cons i place
      · rw [List.map_cons, hnil, hnode, ← hbehind, ← hnodes]
        rfl

/-- A place within another one comes behind it. -/
theorem not_prefix_of_lt {a b : List Nat} (h : a < b) : ¬b <+: a := by
  rintro ⟨rest, rfl⟩
  induction b with
  | nil => exact absurd h (List.not_lt_nil _)
  | cons i b ih => exact ih (List.cons_lt_cons_self.1 h)

/-- The walk from a statement goes once through its places, in an order in which none comes before one that
it is within, and there are as many tags as places. -/
theorem enumerates_tags (s : Statement) :
    ∃ places : List (List Nat),
      (∀ place, place ∈ places ↔ (nodeAt? s place).isSome) ∧
      (walk s).map some = places.map (nodeAt? s) ∧
      places.Pairwise (· < ·) ∧ places.Nodup ∧
      places.Pairwise (fun earlier later => ¬later <+: earlier) ∧
      (tags s).length = places.length := by
  obtain ⟨places, hplaces, horder, hnodes⟩ := enumerates_walk s
  refine ⟨places, hplaces, hnodes, horder, ?_, horder.imp not_prefix_of_lt, ?_⟩
  · refine horder.imp ?_
    rintro place _ h rfl
    exact List.lt_irrefl place h
  · have hlength := congrArg List.length hnodes
    rw [List.length_map, List.length_map] at hlength
    rw [tags, List.length_map]
    exact hlength

end SqlFrontend.Free
