import Mathlib.Logic.Function.Basic
import Mathlib.Logic.Relation
import SqlFrontend.Proofs.Document.Written
import SqlFrontend.Proofs.Plan.Reader

/-!
# Forms of plans

A plan can be written in many forms. The members of its objects may stand in any order, among others that
mean nothing; fields that are left to their defaults may be left out; objects may be arrays. All these
forms are read as the same plan.

Results:
* `Written.RecordChange`: a change in the form of a record. `Gives.change`: the record gives the same
  values then.
* `Written.NodeChange`, `Written.PlanChange`: such a change of a node or of one below it, and of a plan or
  a node in it.
* `Written.node?_change`, `Written.plan?_change`: one change keeps what is read.
* `ExecutionPlan.decode_changes`: a text of a plan with any number of changes is read as the same plan.
-/

namespace SqlFrontend

namespace Document.Written

variable {names : List String} {default? value? : String → Option Written}

/-! ## Changes of records -/

/-- Items that give fields their values in order. Fields at the end that have their default may be left
off. -/
inductive Positional (value? default? : String → Option Written) : List String → List Written → Prop
  | item {name : String} {names : List String} {v : Written} {items : List Written} :
    value? name = some v → Positional value? default? names items →
      Positional value? default? (name :: names) (v :: items)
  | leftOff {names : List String} :
    (∀ name ∈ names, value? name = default? name) → Positional value? default? names []

/-- A change in the form of a record with given fields, some of which have defaults. -/
inductive RecordChange (names : List String) (default? : String → Option Written) :
    Written → Written → Prop
  /-- The members of an object may stand in any order. -/
  | permute {members members' : List WrittenMember} : members.Perm members' →
    RecordChange names default? (.object members) (.object members')
  /-- Members that are no fields may stand anywhere. -/
  | insert (before after : List WrittenMember) {key : String} (value : Written) : key ∉ names →
    RecordChange names default? (.object (before ++ after))
      (.object (before ++ ⟨some key, value⟩ :: after))
  /-- A field that has its default may be left out. -/
  | remove (before after : List WrittenMember) {key : String} {value : Written} :
    default? key = some value →
    RecordChange names default? (.object (before ++ ⟨some key, value⟩ :: after))
      (.object (before ++ after))
  /-- The values of the fields may stand in an array, in the order of the fields. -/
  | toArray {members : List WrittenMember} {items : List Written} :
    Positional (fun name => (given? members name).or (default? name)) default? names items →
    RecordChange names default? (.object members) (.array items)

theorem mem_fieldKeys {members : List WrittenMember} {key : String} {v : Written}
    (hkey : key ∈ names) (h : ⟨some key, v⟩ ∈ members) : key ∈ fieldKeys names members :=
  List.mem_filter.2 ⟨List.mem_filterMap.2 ⟨_, h, rfl⟩, List.contains_iff_mem.2 hkey⟩

/-- In a record, the value of a field is the one member with its name. -/
theorem IsRecord.given?_eq_some_iff {members : List WrittenMember} (h : IsRecord names members)
    {name : String} (hname : name ∈ names) {v : Written} :
    given? members name = some v ↔ ⟨some name, v⟩ ∈ members := by
  induction members with
  | nil => simp [given?_nil]
  | cons member members ih =>
    obtain ⟨_ | key, value⟩ := member
    · cases (List.forall_mem_cons.1 h.keyed).1
    obtain ⟨hrecord, hnew⟩ := isRecord_cons.1 h
    rw [given?_cons, List.mem_cons]
    by_cases hkey : key = name
    · subst hkey
      have hother : ⟨some key, v⟩ ∉ members := fun hmem => hnew hname (mem_fieldKeys hname hmem)
      rw [if_pos rfl, or_iff_left hother]
      simp [eq_comm]
    · rw [if_neg fun h => hkey (Option.some.inj h), ih hrecord, or_iff_right]
      rintro ⟨⟩
      exact hkey rfl

theorem gives_perm {members members' : List WrittenMember} (hperm : members.Perm members')
    (h : Gives names default? (.object members) value?) :
    Gives names default? (.object members') value? := by
  obtain ⟨hrecord, hvalue⟩ := gives_object.1 h
  have hrecord' : IsRecord names members' :=
    ⟨fun member hmember => hrecord.keyed member (hperm.mem_iff.2 hmember),
      ((hperm.filterMap _).filter _).nodup_iff.1 hrecord.distinct⟩
  refine gives_object.2 ⟨hrecord', fun name hname => ?_⟩
  have hgiven : given? members' name = given? members name := by
    ext v
    rw [hrecord'.given?_eq_some_iff hname, hrecord.given?_eq_some_iff hname, hperm.mem_iff]
  rw [hgiven, hvalue name hname]

theorem gives_insert {members : List WrittenMember} {key : String} {value : Written}
    (hkey : key ∉ names) (h : Gives names default? (.object members) value?) :
    Gives names default? (.object (⟨some key, value⟩ :: members)) value? := by
  obtain ⟨hrecord, hvalue⟩ := gives_object.1 h
  refine gives_object.2 ⟨isRecord_cons.2 ⟨hrecord, fun h => absurd h hkey⟩, fun name hname => ?_⟩
  have hne : some key ≠ some name := by
    rintro ⟨⟩
    exact hkey hname
  rw [given?_cons, if_neg hne, hvalue name hname]

theorem gives_remove {members : List WrittenMember} {key : String} {value : Written}
    (hdefault : default? key = some value)
    (h : Gives names default? (.object (⟨some key, value⟩ :: members)) value?) :
    Gives names default? (.object members) value? := by
  obtain ⟨hrecord, hvalue⟩ := gives_object.1 h
  obtain ⟨hrest, hnew⟩ := isRecord_cons.1 hrecord
  refine gives_object.2 ⟨hrest, fun name hname => ?_⟩
  rw [← hvalue name hname, given?_cons]
  by_cases hkey : key = name
  · subst hkey
    have hnone : given? members key = none := by
      refine Option.eq_none_iff_forall_not_mem.2 fun v hv => ?_
      exact hnew hname (mem_fieldKeys hname ((hrest.given?_eq_some_iff hname).1 hv))
    rw [if_pos rfl, hnone, hdefault]
    rfl
  · rw [if_neg fun h => hkey (Option.some.inj h)]

theorem Positional.gives {items : List Written} (h : Positional value? default? names items)
    (hnames : names.Nodup) : Gives names default? (.array items) value? := by
  rw [gives_array]
  induction h with
  | @item name names v items hv _ ih =>
    obtain ⟨hnew, hnames⟩ := List.nodup_cons.1 hnames
    obtain ⟨hlength, hvalue⟩ := ih hnames
    refine ⟨Nat.succ_le_succ hlength, List.forall_mem_cons.2 ⟨?_, fun other hother => ?_⟩⟩
    · rw [itemAt?, if_pos rfl, hv]
      rfl
    · have hne : name ≠ other := by
        rintro rfl
        exact hnew hother
      rw [itemAt?, if_neg hne, hvalue other hother]
  | leftOff hdefaults =>
    refine ⟨Nat.zero_le _, fun name hname => ?_⟩
    rw [itemAt?_nil, hdefaults name hname]
    rfl

/-- A record gives the same values behind a change of its form. -/
theorem Gives.change {w w' : Written} (hnames : names.Nodup) (h : Gives names default? w value?)
    (hchange : RecordChange names default? w w') : Gives names default? w' value? := by
  cases hchange with
  | permute hperm => exact gives_perm hperm h
  | insert before after value hkey =>
    exact gives_perm List.perm_middle.symm (gives_insert hkey h)
  | remove before after hdefault => exact gives_remove hdefault (gives_perm List.perm_middle h)
  | @toArray members items hitems =>
    obtain ⟨hlength, hvalue⟩ := gives_array.1 (hitems.gives hnames)
    exact gives_array.2 ⟨hlength, fun name hname =>
      (hvalue name hname).trans ((gives_object.1 h).2 name hname)⟩

/-! ## Changes of fields -/

/-- A change in which a record has another value for a field. -/
inductive FieldChange (names : List String) (field : String) (v v' : Written) :
    Written → Written → Prop
  | member (before after : List WrittenMember) :
    FieldChange names field v v' (.object (before ++ ⟨some field, v⟩ :: after))
      (.object (before ++ ⟨some field, v'⟩ :: after))
  | item (before after : List Written) : names[before.length]? = some field →
    FieldChange names field v v' (.array (before ++ v :: after)) (.array (before ++ v' :: after))

theorem itemAt?_self {before : List Written} {field : String} (hnames : names.Nodup)
    (hfield : names[before.length]? = some field) (v : Written) (after : List Written) :
    itemAt? names (before ++ v :: after) field = some v := by
  induction before generalizing names with
  | nil =>
    cases names with
    | nil => cases hfield
    | cons name names =>
      cases hfield
      exact if_pos rfl
  | cons item before ih =>
    cases names with
    | nil => cases hfield
    | cons name names =>
      obtain ⟨hnew, hnames⟩ := List.nodup_cons.1 hnames
      have hfield : names[before.length]? = some field := hfield
      have hne : name ≠ field := by
        rintro rfl
        exact hnew (List.mem_of_getElem? hfield)
      rw [List.cons_append, itemAt?, if_neg hne, ih hnames hfield]

theorem itemAt?_of_ne {before : List Written} {field name : String} (hne : field ≠ name)
    (hfield : names[before.length]? = some field) (v v' : Written) (after : List Written) :
    itemAt? names (before ++ v :: after) name = itemAt? names (before ++ v' :: after) name := by
  induction before generalizing names with
  | nil =>
    cases names with
    | nil => cases hfield
    | cons first names =>
      cases hfield
      exact (if_neg hne).trans (if_neg hne).symm
  | cons item before ih =>
    cases names with
    | nil => cases hfield
    | cons first names => rw [List.cons_append, List.cons_append, itemAt?, itemAt?, ih hfield]

theorem gives_update {members : List WrittenMember} {field : String} {v : Written}
    (hfield : field ∈ names) (h : Gives names default? (.object (⟨some field, v⟩ :: members)) value?)
    (v' : Written) : value? field = some v ∧
      Gives names default? (.object (⟨some field, v'⟩ :: members))
        (Function.update value? field (some v')) := by
  obtain ⟨hrecord, hvalue⟩ := gives_object.1 h
  refine ⟨?_, gives_object.2 ⟨isRecord_cons.2 (isRecord_cons.1 hrecord), fun name hname => ?_⟩⟩
  · rw [← hvalue field hfield, given?_cons, if_pos rfl]
    rfl
  · rw [given?_cons]
    by_cases hne : field = name
    · subst hne
      rw [if_pos rfl, Function.update_self]
      rfl
    · have hkey : ¬some field = some name := fun h => hne (Option.some.inj h)
      rw [if_neg hkey, Function.update_of_ne (Ne.symm hne), ← hvalue name hname, given?_cons,
        if_neg hkey]

/-- The changed field has the other value, and each of the others has the same. -/
theorem Gives.changeField {field : String} {v v' w w' : Written} (hnames : names.Nodup)
    (hfield : field ∈ names) (h : Gives names default? w value?)
    (hchange : FieldChange names field v v' w w') :
    value? field = some v ∧ Gives names default? w' (Function.update value? field (some v')) := by
  cases hchange with
  | member before after =>
    obtain ⟨hold, hnew⟩ := gives_update hfield (gives_perm List.perm_middle h) v'
    exact ⟨hold, gives_perm List.perm_middle.symm hnew⟩
  | item before after hplace =>
    obtain ⟨hlength, hvalue⟩ := gives_array.1 h
    refine ⟨?_, gives_array.2 ⟨by simpa using hlength, fun name hname => ?_⟩⟩
    · rw [← hvalue field hfield, itemAt?_self hnames hplace]
      rfl
    · by_cases hne : field = name
      · subst hne
        rw [itemAt?_self hnames hplace, Function.update_self]
        rfl
      · rw [Function.update_of_ne (Ne.symm hne), ← hvalue name hname,
          itemAt?_of_ne hne hplace v' v after]

/-! ## Changes of plans -/

/-- A change in the form of a node, or of one below it. -/
inductive NodeChange : Written → Written → Prop
  | here {w w' : Written} : RecordChange nodeFields nodeDefault? w w' → NodeChange w w'
  | child {w w' c c' : Written} (before after : List Written) : NodeChange c c' →
    FieldChange nodeFields "children" (.array (before ++ c :: after)) (.array (before ++ c' :: after))
      w w' → NodeChange w w'

/-- A change in the form of a plan, or of a node in it. -/
inductive PlanChange : Written → Written → Prop
  | here {w w' : Written} : RecordChange planFields planDefault? w w' → PlanChange w w'
  | root {w w' r r' : Written} : NodeChange r r' → FieldChange planFields "root_node" r r' w w' →
    PlanChange w w'

/-- Nodes are read with another form of one of them. -/
theorem nodes?_change {depth : ℕ} {before after : List Written} {c c' : Written}
    {nodes : List PlanNode} (h : node?.nodes? (depth + 1) (.array (before ++ c :: after)) = some nodes)
    (hchange : ∀ node, node? depth c = some node → node? depth c' = some node) :
    node?.nodes? (depth + 1) (.array (before ++ c' :: after)) = some nodes := by
  rw [node?.nodes?, List.mapM_append, List.mapM_cons] at h ⊢
  simp only [Option.bind_eq_bind] at h ⊢
  obtain ⟨first, hfirst, h⟩ := Option.bind_eq_some_iff.1 h
  obtain ⟨others, hothers, h⟩ := Option.bind_eq_some_iff.1 h
  obtain ⟨node, hnode, hothers⟩ := Option.bind_eq_some_iff.1 hothers
  rw [hfirst, Option.bind_some, hchange node hnode, Option.bind_some, hothers, Option.bind_some, h]

/-- A node is read in each of its forms. It stands at an even depth. -/
theorem node?_change {w w' : Written} (h : NodeChange w w') {k : ℕ} {node : PlanNode}
    (hread : node? (2 * k) w = some node) : node? (2 * k) w' = some node := by
  induction h generalizing k node with
  | @here w w' hchange =>
    rcases k with _ | k
    · cases hread
    obtain ⟨value?, hgives⟩ : ∃ value?, Gives nodeFields nodeDefault? w value? := exists_gives hread
    rw [Nat.mul_add, node?_eq hgives] at hread
    rw [Nat.mul_add, node?_eq (hgives.change (by decide) hchange), hread]
  | @child w w' c c' before after _ hfield ih =>
    rcases k with _ | k
    · cases hread
    obtain ⟨value?, hgives⟩ : ∃ value?, Gives nodeFields nodeDefault? w value? := exists_gives hread
    obtain ⟨hold, hnew⟩ := hgives.changeField (by decide) (by decide) hfield
    rw [Nat.mul_add, node?_eq hgives, nodeOf?_eq_some, hold, Option.bind_some] at hread
    obtain ⟨hkind, hoperation, htable, hindex, hcondition, hcost, hrows, hchildren, hextra⟩ := hread
    have hchildren' := nodes?_change hchildren fun node => ih
    rw [Nat.mul_add, node?_eq hnew, nodeOf?_eq_some]
    exact ⟨hkind, hoperation, htable, hindex, hcondition, hcost, hrows, hchildren', hextra⟩

/-- A plan is read in each of its forms. The plan stands at an odd depth, so that its root stands at an
even one. -/
theorem plan?_change {w w' : Written} (h : PlanChange w w') {k : ℕ} {plan : ExecutionPlan}
    (hread : plan? (2 * k + 2) w = some plan) : plan? (2 * k + 2) w' = some plan := by
  obtain ⟨value?, hgives⟩ : ∃ value?, Gives planFields planDefault? w value? := exists_gives hread
  cases h with
  | here hchange =>
    rw [plan?_eq hgives] at hread
    rw [plan?_eq (hgives.change (by decide) hchange), hread]
  | root hroot hfield =>
    obtain ⟨hold, hnew⟩ := hgives.changeField (by decide) (by decide) hfield
    rw [plan?_eq hgives, planOf?_eq_some, hold, Option.bind_some] at hread
    obtain ⟨hquery, hdialect, hnode, htotal, hestimated, hactual, htime, hwarnings, hstatistics⟩ := hread
    have hnode' := node?_change (k := k + 1) hroot hnode
    rw [plan?_eq hnew, planOf?_eq_some]
    exact ⟨hquery, hdialect, hnode', htotal, hestimated, hactual, htime, hwarnings, hstatistics⟩

end Document.Written

/-! ## Texts -/

namespace ExecutionPlan

open Document Document.Written

/-- A plan does not depend on the form in which it is written. Whatever text is read as a plan, any text
that writes it behind any number of changes of its form is read as the same plan. -/
theorem decode_changes {text text' : String} {plan : ExecutionPlan} {w w' : Written}
    (h : decode text .json = .ok plan) (hw : ofText? text = some w)
    (hchanges : Relation.ReflTransGen PlanChange w w') (htext' : lexemes? text' = some w'.lexemes) :
    decode text' .json = .ok plan := by
  have hread : plan? (nestingLimit - 1) w' = some plan := by
    clear htext'
    induction hchanges with
    | refl =>
      obtain ⟨_, hw', hplan⟩ := decode_json_eq_ok.1 h
      cases hw.symm.trans hw'
      exact hplan
    | tail _ hchange ih => exact plan?_change (k := 62) hchange ih
  have hw' : ofText? text' = some w' := by
    rw [ofText?, htext', Option.bind_some, ofLexemes?_lexemes]
  exact decode_json_eq_ok.2 ⟨w', hw', hread⟩

/-- A plan with a node below its root. Then this node is an array, and the root has a member that is no
field, and its members in another order. -/
theorem decode_changes_nested :
    let text := "[\"\",\"mysql\",\x7b\"node_type\":\"CTE\",\"operation\":\"\",\"children\":" ++
      "[\x7b\"node_type\":\"CTE\",\"operation\":\"\",\"rows\":null\x7d]\x7d,0,0]"
    let text' := "[\"\",\"mysql\",\x7b\"children\":[[\"CTE\",\"\"]],\"node_type\":\"CTE\"," ++
      "\"operation\":\"\",\"x\":[]\x7d,0,0]"
    ∃ plan, decode text .json = .ok plan ∧ decode text' .json = .ok plan := by
  intro text text'
  let zero : Written := .number ⟨false, ['0'], none, none⟩
  let plan (root : Written) : Written :=
    .array [.string (some ""), .string (some "mysql"), root, zero, zero]
  let kind : WrittenMember := ⟨some "node_type", .string (some "CTE")⟩
  let operation : WrittenMember := ⟨some "operation", .string (some "")⟩
  let below : Written := .object [kind, operation, ⟨some "rows", .null⟩]
  let below' : Written := .array [.string (some "CTE"), .string (some "")]
  let children (node : Written) : WrittenMember := ⟨some "children", .array [node]⟩
  let other : WrittenMember := ⟨some "x", .array []⟩
  have hroot {r r' : Written} (h : NodeChange r r') : PlanChange (plan r) (plan r') :=
    .root h (.item [_, _] [_, _] rfl)
  have hbelow : NodeChange below below' := by
    refine .here (.toArray (.item rfl (.item rfl (.leftOff fun name hname => ?_))))
    simp only [List.mem_cons, List.not_mem_nil, or_false] at hname
    rcases hname with rfl | rfl | rfl | rfl | rfl | rfl | rfl <;> rfl
  have hchild : NodeChange (.object [kind, operation, children below])
      (.object [kind, operation, children below']) :=
    .child [] [] hbelow (.member [kind, operation] [])
  have hother : NodeChange (.object [kind, operation, children below'])
      (.object [kind, operation, other, children below']) :=
    .here (.insert [kind, operation] [children below'] _ (by decide))
  have hperm : ([kind, operation, other] ++ [children below']).Perm
      ([children below'] ++ [kind, operation, other]) := List.perm_append_comm
  have horder : NodeChange (.object [kind, operation, other, children below'])
      (.object [children below', kind, operation, other]) := .here (.permute hperm)
  have hlexemes : lexemes? text =
      some (plan (.object [kind, operation, children below])).lexemes := by decide +kernel
  have hw : ofText? text = some (plan (.object [kind, operation, children below])) := by
    rw [ofText?, hlexemes, Option.bind_some, ofLexemes?_lexemes]
  have hread : (plan? (nestingLimit - 1) (plan (.object [kind, operation, children below]))).isSome := by
    decide +kernel
  obtain ⟨result, hresult⟩ := Option.isSome_iff_exists.1 hread
  have hdecode : decode text .json = .ok result := decode_json_eq_ok.2 ⟨_, hw, hresult⟩
  exact ⟨result, hdecode, decode_changes hdecode hw
    (((Relation.ReflTransGen.single (hroot hchild)).tail (hroot hother)).tail (hroot horder))
    (by decide +kernel)⟩

end ExecutionPlan

end SqlFrontend
