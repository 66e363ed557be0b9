import SqlFrontend.Plan.Writer
import SqlFrontend.Proofs.Document.RoundTrip
import SqlFrontend.Proofs.Plan.Reader

/-!
# Plans are read as they were written

Results:
* `PlanNode.Fits`, `ExecutionPlan.Fits`: nodes and plans whose numbers are in the range of their formats,
  and in which containers are not nested too deeply. `Written.fits_of_node?`, `Written.fits_of_plan?`: what
  is read is so.
* `PlanNode.Fits.node?_written`, `ExecutionPlan.Fits.plan?_written`: what a node and a plan are written as
  is read as them.
* `ExecutionPlan.decode_toJson`: a plan that was read is read again from the text that it is written as.
-/

namespace SqlFrontend

open Document Document.Written

/-! ## Nodes and plans that fit -/

/-- Members that are sorted and in range, in which containers are not nested too deeply. -/
def Member.Fit (depth : ℕ) (members : List Member) : Prop :=
  (Document.object members).depth ≤ depth + 1 ∧
    ∀ part ∈ (Document.object members).parts, part.InRange ∧ part.IsOrdered

/-- A node in which at most so many containers are nested, with numbers in the range of their formats. A
node with the array of the nodes below it makes two containers. -/
inductive PlanNode.Fits : ℕ → PlanNode → Prop
  | intro {depth : ℕ} {node : PlanNode} (cost : ∀ x ∈ node.cost, x.isFinite)
    (rows : ∀ n ∈ node.rows, n < 2 ^ 64) (children : ∀ child ∈ node.children, Fits depth child)
    (extra : Member.Fit depth node.extra) : Fits (depth + 2) node

/-- A plan in which at most so many containers are nested, with numbers in the range of their formats. -/
structure ExecutionPlan.Fits (depth : ℕ) (plan : ExecutionPlan) : Prop where
  root : plan.root.Fits (depth + 1)
  totalCost : plan.totalCost.isFinite
  estimatedRows : plan.estimatedRows < 2 ^ 64
  actualRows : ∀ n ∈ plan.actualRows, n < 2 ^ 64
  executionTime : ∀ x ∈ plan.executionTime, x.isFinite
  statistics : ∀ members ∈ plan.statistics, Member.Fit depth members

namespace Document.Written

variable {w : Written}

theorem lt_of_natural? {n : ℕ} (h : natural? w = some n) : n < 2 ^ 64 := by
  cases w with
  | number numeral =>
    rw [natural?] at h
    split at h
    · next value hvalue =>
      have hbound := (Numeral.integer?_bounds hvalue).2
      split at h
      · cases h
        omega
      · cases h
    · cases h
  | _ => cases h

theorem isFinite_of_binary64? {x : Binary64} (h : binary64? w = some x) : x.isFinite := by
  cases w with
  | number numeral =>
    rw [binary64?] at h
    split at h
    · next value hvalue =>
      have hbounds := Numeral.integer?_bounds hvalue
      cases h
      exact Binary64.isFinite_ofInt (by omega)
    · exact Numeral.isFinite_fraction? h
  | _ => cases h

theorem exists_of_absentOr? {α : Type} {read : Written → Option α} {x? : Option α}
    (h : absentOr? read w = some x?) : ∀ x ∈ x?, ∃ v, read v = some x := by
  rintro x rfl
  have hread : (read w).map some = some (some x) := by
    cases w with
    | null => cases h
    | _ => exact h
  obtain ⟨y, hy, heq⟩ := Option.map_eq_some_iff.1 hread
  cases heq
  exact ⟨w, hy⟩

theorem freeObject?_eq_some {depth : ℕ} {members : List Member} :
    freeObject? depth w = some members ↔
      (∃ written, w = .object written) ∧ w.document? depth = some (.object members) := by
  cases w with
  | object written =>
    rw [freeObject?, document?]
    split
    · simp
    · simp [Option.map_eq_some_iff]
  | _ => simp [freeObject?]

theorem fits_of_freeObject? {depth : ℕ} {members : List Member}
    (h : freeObject? (depth + 1) w = some members) : Member.Fit depth members :=
  proper_of_document? (freeObject?_eq_some.1 h).2

theorem exists_of_nodes? {depth : ℕ} {nodes : List PlanNode}
    (h : node?.nodes? (depth + 1) w = some nodes) :
    ∀ node ∈ nodes, ∃ item, node? depth item = some node := by
  cases w with
  | array items =>
    intro node hnode
    obtain ⟨item, -, hitem⟩ := exists_of_mem_mapM h node hnode
    exact ⟨item, hitem⟩
  | _ => cases h

/-- A node that is read fits. -/
theorem fits_of_node? {k : ℕ} {node : PlanNode} (h : node? (2 * k) w = some node) :
    node.Fits (2 * k) := by
  induction k generalizing w node with
  | zero => cases h
  | succ k ih =>
    obtain ⟨value?, hgives⟩ : ∃ value?, Gives nodeFields nodeDefault? w value? := exists_gives h
    rw [Nat.mul_add, node?_eq hgives, nodeOf?_eq_some] at h
    obtain ⟨-, -, -, -, -, hcost, hrows, hchildren, hextra⟩ := h
    obtain ⟨_, -, hcost⟩ := Option.bind_eq_some_iff.1 hcost
    obtain ⟨_, -, hrows⟩ := Option.bind_eq_some_iff.1 hrows
    obtain ⟨_, -, hchildren⟩ := Option.bind_eq_some_iff.1 hchildren
    obtain ⟨_, -, hextra⟩ := Option.bind_eq_some_iff.1 hextra
    refine .intro (fun x hx => ?_) (fun n hn => ?_) (fun child hchild => ?_)
      (fits_of_freeObject? hextra)
    · obtain ⟨v, hv⟩ := exists_of_absentOr? hcost x hx
      exact isFinite_of_binary64? hv
    · obtain ⟨v, hv⟩ := exists_of_absentOr? hrows n hn
      exact lt_of_natural? hv
    · obtain ⟨item, hitem⟩ := exists_of_nodes? hchildren child hchild
      exact ih hitem

/-- A plan that is read fits. -/
theorem fits_of_plan? {k : ℕ} {plan : ExecutionPlan} (h : plan? (2 * k + 2) w = some plan) :
    plan.Fits (2 * k + 1) := by
  obtain ⟨value?, hgives⟩ : ∃ value?, Gives planFields planDefault? w value? := exists_gives h
  rw [plan?_eq hgives, planOf?_eq_some] at h
  obtain ⟨-, -, hroot, htotal, hestimated, hactual, htime, -, hstatistics⟩ := h
  obtain ⟨_, -, hroot⟩ := Option.bind_eq_some_iff.1 hroot
  obtain ⟨_, -, htotal⟩ := Option.bind_eq_some_iff.1 htotal
  obtain ⟨_, -, hestimated⟩ := Option.bind_eq_some_iff.1 hestimated
  obtain ⟨_, -, hactual⟩ := Option.bind_eq_some_iff.1 hactual
  obtain ⟨_, -, htime⟩ := Option.bind_eq_some_iff.1 htime
  obtain ⟨_, -, hstatistics⟩ := Option.bind_eq_some_iff.1 hstatistics
  refine ⟨fits_of_node? (k := k + 1) hroot, isFinite_of_binary64? htotal, lt_of_natural? hestimated,
    fun n hn => ?_, fun x hx => ?_, fun members hmembers => ?_⟩
  · obtain ⟨v, hv⟩ := exists_of_absentOr? hactual n hn
    exact lt_of_natural? hv
  · obtain ⟨v, hv⟩ := exists_of_absentOr? htime x hx
    exact isFinite_of_binary64? hv
  · obtain ⟨v, hv⟩ := exists_of_absentOr? hstatistics members hmembers
    exact fits_of_freeObject? hv

end Document.Written

/-! ## What is written -/

namespace Member

variable {α : Type} {key : String} {write : α → Document} {value : Option α}

theorem forall_mem_ofOption {P : Member → Prop} :
    (∀ m ∈ ofOption key write value, P m) ↔ ∀ x ∈ value, P ⟨key, write x⟩ := by
  cases value with
  | none => simp [ofOption]
  | some x => simp [ofOption]

end Member

namespace Document

/-- A document that is not nested too deeply, with numbers in the range of their formats. -/
def Within (depth : ℕ) (d : Document) : Prop := d.depth ≤ depth ∧ ∀ part ∈ d.parts, part.InRange

theorem within_string (depth : ℕ) (text : String) : (string text).Within depth :=
  ⟨Nat.zero_le _, List.forall_mem_singleton.2 trivial⟩

theorem within_float (depth : ℕ) {x : Binary64} (h : x.isFinite) : (float x).Within depth :=
  ⟨Nat.zero_le _, List.forall_mem_singleton.2 h⟩

theorem within_natural (depth : ℕ) {n : ℕ} (h : n < 2 ^ 64) : (natural n).Within depth :=
  ⟨Nat.zero_le _, List.forall_mem_singleton.2 ⟨by omega, by omega⟩⟩

theorem within_array {depth : ℕ} {items : List Document} (h : ∀ item ∈ items, item.Within depth) :
    (array items).Within (depth + 1) :=
  ⟨depth_array_le.2 fun item hitem => (h item hitem).1,
    forall_parts_array.2 ⟨trivial, fun item hitem => (h item hitem).2⟩⟩

theorem within_object {depth : ℕ} {members : List Member} (h : ∀ m ∈ members, m.value.Within depth) :
    (object members).Within (depth + 1) :=
  ⟨depth_object_le.2 fun m hm => (h m hm).1,
    forall_parts_object.2 ⟨trivial, fun m hm => (h m hm).2⟩⟩

end Document

theorem Member.Fit.within {depth : ℕ} {members : List Member} (h : Member.Fit depth members) :
    (Document.object members).Within (depth + 1) := ⟨h.1, fun part hpart => (h.2 part hpart).1⟩

namespace PlanNode

/-- The members of a node as an object. -/
def members (node : PlanNode) : List Member :=
  [⟨"node_type", .string node.kind.name⟩, ⟨"operation", .string node.operation⟩] ++
    Member.ofOption "table" .string node.table ++ Member.ofOption "index" .string node.index ++
    Member.ofOption "condition" .string node.condition ++ Member.ofOption "cost" .float node.cost ++
    Member.ofOption "rows" .natural node.rows ++ [⟨"children", .array (toDocuments node.children)⟩] ++
    Member.ofOption "extra" .object (if node.extra.isEmpty then none else some node.extra)

theorem toDocument_eq (node : PlanNode) : node.toDocument = .object node.members := by
  cases node
  rw [toDocument, members]
  dsimp only
  split <;> rfl

theorem toDocuments_eq_map (nodes : List PlanNode) : toDocuments nodes = nodes.map toDocument := by
  induction nodes with
  | nil => rfl
  | cons node nodes ih => rw [toDocuments, ih, List.map_cons]

theorem Fits.within {depth : ℕ} {node : PlanNode} (h : node.Fits depth) :
    node.toDocument.Within depth := by
  induction h with
  | @intro depth node hcost hrows _ hextra ih =>
    rw [toDocument_eq]
    refine within_object ?_
    have hchildren : (Document.array (toDocuments node.children)).Within (depth + 1) := by
      rw [toDocuments_eq_map]
      exact within_array (List.forall_mem_map.2 ih)
    simp only [members, List.forall_mem_append, Member.forall_mem_ofOption, List.forall_mem_cons]
    refine ⟨⟨⟨⟨⟨⟨⟨⟨within_string _ _, within_string _ _, List.forall_mem_nil _⟩, ?_⟩, ?_⟩, ?_⟩, ?_⟩, ?_⟩,
      hchildren, List.forall_mem_nil _⟩, ?_⟩
    · exact fun text _ => within_string _ text
    · exact fun text _ => within_string _ text
    · exact fun text _ => within_string _ text
    · exact fun x hx => within_float _ (hcost x hx)
    · exact fun n hn => within_natural _ (hrows n hn)
    · intro extra hmem
      split at hmem
      · cases hmem
      · cases hmem
        exact hextra.within

end PlanNode

namespace ExecutionPlan

/-- The members of a plan as an object. -/
def members (plan : ExecutionPlan) : List Member :=
  [⟨"query", .string plan.query⟩, ⟨"dialect", .string plan.dialect.name⟩,
    ⟨"root_node", plan.root.toDocument⟩, ⟨"total_cost", .float plan.totalCost⟩,
    ⟨"estimated_rows", .natural plan.estimatedRows⟩] ++
  Member.ofOption "actual_rows" .natural plan.actualRows ++
  Member.ofOption "execution_time" .float plan.executionTime ++
  [⟨"warnings", .array (plan.warnings.map .string)⟩] ++
  Member.ofOption "statistics" .object plan.statistics

theorem toDocument_eq (plan : ExecutionPlan) : plan.toDocument = .object plan.members := rfl

theorem Fits.within {depth : ℕ} {plan : ExecutionPlan} (h : plan.Fits (depth + 1)) :
    plan.toDocument.Within (depth + 3) := by
  rw [toDocument_eq]
  refine within_object ?_
  simp only [members, List.forall_mem_append, Member.forall_mem_ofOption, List.forall_mem_cons]
  refine ⟨⟨⟨⟨⟨within_string _ _, within_string _ _, h.root.within, within_float _ h.totalCost,
    within_natural _ h.estimatedRows, List.forall_mem_nil _⟩, ?_⟩, ?_⟩, ?_, List.forall_mem_nil _⟩, ?_⟩
  · exact fun n hn => within_natural _ (h.actualRows n hn)
  · exact fun x hx => within_float _ (h.executionTime x hx)
  · exact within_array (List.forall_mem_map.2 fun text _ => within_string _ text)
  · exact fun ms hms => (h.statistics ms hms).within

end ExecutionPlan

/-! ## What is written is read -/

namespace Document.Written

theorem given?_append (members others : List WrittenMember) (name : String) :
    given? (members ++ others) name = (given? members name).or (given? others name) := by
  induction members with
  | nil => rfl
  | cons member members ih =>
    obtain ⟨key, value⟩ := member
    rw [List.cons_append, given?_cons, given?_cons, ih]
    split <;> rfl

theorem given?_ofOption {α : Type} (key : String) (write : α → Document) (value : Option α)
    (name : String) : given? ((Member.ofOption key write value).map Member.written) name =
      if key = name then value.map fun x => (write x).written else none := by
  cases value with
  | none => simp [Member.ofOption, given?_nil]
  | some x => simp [Member.ofOption, Member.written, given?_cons, given?_nil]

/-- A record whose members are written in the order of its fields gives them as they are written. -/
theorem gives_written {names : List String} {default? : String → Option Written}
    {members : List Member} (hkeys : (members.map Member.key).Sublist names) (hnames : names.Nodup) :
    Gives names default? (Document.object members).written
      fun name => (given? (members.map Member.written) name).or (default? name) := by
  rw [written, writtenMembers_eq_map]
  refine gives_object.2 ⟨⟨?_, ?_⟩, fun _ _ => rfl⟩
  · exact List.forall_mem_map.2 fun _ _ => rfl
  · have hkeys' : (members.map Member.written).filterMap WrittenMember.key = members.map Member.key := by
      rw [List.filterMap_map]
      exact congrFun List.filterMap_eq_map members
    rw [fieldKeys, hkeys']
    exact (hkeys.nodup hnames).filter _

theorem absentOr?_eq_some {α : Type} {read : Written → Option α} {w : Written} {x : α}
    (hnull : read .null = none) (h : read w = some x) : absentOr? read w = some (some x) := by
  cases w with
  | null =>
    rw [hnull] at h
    cases h
  | _ => exact congrArg (Option.map some) h

/-- A field that may be absent is read as it was written, or left out. -/
theorem absentOr?_written {α : Type} {read : Written → Option α} {write : α → Document}
    {value : Option α} (hnull : read .null = none)
    (h : ∀ x ∈ value, read (write x).written = some x) :
    absentOr? read ((value.map fun x => (write x).written).getD .null) = some value := by
  cases value with
  | none => rfl
  | some x => exact absentOr?_eq_some hnull (h x rfl)

theorem keys_ofOption {α : Type} (key : String) (write : α → Document) (value : Option α) :
    ((Member.ofOption key write value).map Member.key).Sublist [key] := by
  cases value with
  | none => exact List.nil_sublist _
  | some x => exact List.Sublist.refl _

variable {depth : ℕ}

theorem text?_written (text : String) : text? (Document.string text).written = some text := rfl

theorem natural?_written {n : ℕ} (h : n < 2 ^ 64) : natural? (Document.natural n).written = some n := by
  rw [Document.natural, written, natural?, Numeral.integer?_ofInt (by omega) (by omega)]
  exact if_pos (Int.natCast_nonneg n)

theorem binary64?_written {x : Binary64} (h : (Document.float x).IsPrintable) :
    binary64? (Document.float x).written = some x := by
  obtain ⟨hread, hvalue⟩ := Numeral.take?_write (h.readsBack x rfl)
  rw [written, binary64?, Numeral.integer?_eq_none hread (Decimal.exists_isMark_write h.inRange)]
  exact hvalue

theorem freeObject?_written {members : List Member} (h : Member.Fit depth members)
    (hprintable : ∀ part ∈ (Document.object members).parts, part.IsPrintable) :
    freeObject? (depth + 1) (Document.object members).written = some members :=
  freeObject?_eq_some.2 ⟨⟨_, rfl⟩,
    document?_written hprintable (fun part hpart => (h.2 part hpart).2) h.1⟩

end Document.Written

namespace PlanNode

theorem keys_members (node : PlanNode) : (node.members.map Member.key).Sublist nodeFields := by
  simp only [members, List.map_append]
  exact (((((((List.Sublist.refl ["node_type", "operation"]).append (keys_ofOption "table" _ _)).append
    (keys_ofOption "index" _ _)).append (keys_ofOption "condition" _ _)).append
    (keys_ofOption "cost" _ _)).append (keys_ofOption "rows" _ _)).append
    (List.Sublist.refl ["children"])).append (keys_ofOption "extra" _ _)

/-- The values of the fields of a node as it is written. -/
theorem value_members (node : PlanNode) :
    let value? name := (given? (node.members.map Member.written) name).or (nodeDefault? name)
    value? "node_type" = some (Document.string node.kind.name).written ∧
      value? "operation" = some (Document.string node.operation).written ∧
      value? "table" = some ((node.table.map fun text => (Document.string text).written).getD .null) ∧
      value? "index" = some ((node.index.map fun text => (Document.string text).written).getD .null) ∧
      value? "condition" =
        some ((node.condition.map fun text => (Document.string text).written).getD .null) ∧
      value? "cost" = some ((node.cost.map fun x => (Document.float x).written).getD .null) ∧
      value? "rows" = some ((node.rows.map fun n => (Document.natural n).written).getD .null) ∧
      value? "children" = some (Document.array (toDocuments node.children)).written ∧
      value? "extra" = some (if node.extra.isEmpty then .object []
        else (Document.object node.extra).written) := by
  have hextra : (if node.extra.isEmpty then .object [] else (Document.object node.extra).written) =
      ((if node.extra.isEmpty then none else some node.extra).map
        fun extra => (Document.object extra).written).getD (.object []) := by
    split <;> rfl
  rw [hextra]
  simp [members, given?_append, given?_ofOption, given?_cons, Member.written, nodeDefault?]

theorem Fits.node?_written {depth : ℕ} {node : PlanNode} (h : node.Fits depth)
    (hprintable : ∀ part ∈ node.toDocument.parts, part.IsPrintable) :
    node? depth node.toDocument.written = some node := by
  induction h with
  | @intro depth node _ hrows _ hextra ih =>
    rw [toDocument_eq] at hprintable ⊢
    have hmembers := (forall_parts_object.1 hprintable).2
    simp only [members, List.forall_mem_append, Member.forall_mem_ofOption, List.forall_mem_cons]
      at hmembers
    obtain ⟨⟨⟨⟨-, hcost⟩, -⟩, hchildren, -⟩, hextra'⟩ := hmembers
    rw [toDocuments_eq_map, forall_parts_array, List.forall_mem_map] at hchildren
    rw [node?_eq (gives_written node.keys_members (by decide)), nodeOf?_eq_some]
    obtain ⟨hkind, hoperation, htable, hindex, hcondition, hcost?, hrows?, hbelow, hextra?⟩ :=
      node.value_members
    dsimp only at hkind hoperation htable hindex hcondition hcost? hrows? hbelow hextra?
    rw [hkind, hoperation, htable, hindex, hcondition, hcost?, hrows?, hbelow, hextra?]
    simp only [Option.bind_some]
    refine ⟨PlanNodeKind.ofName?_name node.kind, rfl,
      absentOr?_written rfl fun text _ => text?_written text,
      absentOr?_written rfl fun text _ => text?_written text,
      absentOr?_written rfl fun text _ => text?_written text,
      absentOr?_written rfl fun x hx => binary64?_written (hcost x hx _ List.mem_cons_self),
      absentOr?_written rfl fun n hn => natural?_written (hrows n hn), ?_, ?_⟩
    · rw [toDocuments_eq_map, written, writtenItems_eq_map, List.map_map]
      exact mapM_map_eq_some fun child hchild => ih child hchild (hchildren.2 child hchild)
    · split
      · next hempty =>
        rw [List.isEmpty_iff.1 hempty]
        rfl
      · next hempty =>
        rw [if_neg hempty] at hextra'
        exact freeObject?_written hextra (hextra' node.extra rfl)

end PlanNode

namespace ExecutionPlan

theorem keys_members (plan : ExecutionPlan) : (plan.members.map Member.key).Sublist planFields := by
  simp only [members, List.map_append]
  exact ((((List.Sublist.refl ["query", "dialect", "root_node", "total_cost", "estimated_rows"]).append
    (keys_ofOption "actual_rows" _ _)).append (keys_ofOption "execution_time" _ _)).append
    (List.Sublist.refl ["warnings"])).append (keys_ofOption "statistics" _ _)

/-- The values of the fields of a plan as it is written. -/
theorem value_members (plan : ExecutionPlan) :
    let value? name := (given? (plan.members.map Member.written) name).or (planDefault? name)
    value? "query" = some (Document.string plan.query).written ∧
      value? "dialect" = some (Document.string plan.dialect.name).written ∧
      value? "root_node" = some plan.root.toDocument.written ∧
      value? "total_cost" = some (Document.float plan.totalCost).written ∧
      value? "estimated_rows" = some (Document.natural plan.estimatedRows).written ∧
      value? "actual_rows" =
        some ((plan.actualRows.map fun n => (Document.natural n).written).getD .null) ∧
      value? "execution_time" =
        some ((plan.executionTime.map fun x => (Document.float x).written).getD .null) ∧
      value? "warnings" = some (Document.array (plan.warnings.map .string)).written ∧
      value? "statistics" =
        some ((plan.statistics.map fun ms => (Document.object ms).written).getD .null) := by
  simp [members, given?_append, given?_ofOption, given?_cons, Member.written, planDefault?]

theorem dialectOfName?_name (d : Dialect) : dialectOfName? d.name = some d := by
  cases d <;> rfl

theorem Fits.plan?_written {depth : ℕ} {plan : ExecutionPlan} (h : plan.Fits (depth + 1))
    (hprintable : ∀ part ∈ plan.toDocument.parts, part.IsPrintable) :
    plan? (depth + 2) plan.toDocument.written = some plan := by
  rw [toDocument_eq] at hprintable ⊢
  have hmembers := (forall_parts_object.1 hprintable).2
  simp only [members, List.forall_mem_append, Member.forall_mem_ofOption, List.forall_mem_cons]
    at hmembers
  obtain ⟨⟨⟨⟨⟨-, -, hroot, htotal, -⟩, -⟩, htime⟩, -⟩, hstatistics⟩ := hmembers
  obtain ⟨hquery, hdialect, hroot?, htotal?, hestimated, hactual, htime?, hwarnings, hstatistics?⟩ :=
    plan.value_members
  dsimp only at hquery hdialect hroot? htotal? hestimated hactual htime? hwarnings hstatistics?
  rw [plan?_eq (gives_written plan.keys_members (by decide)), planOf?_eq_some, hquery, hdialect, hroot?,
    htotal?, hestimated, hactual, htime?, hwarnings, hstatistics?]
  simp only [Option.bind_some]
  refine ⟨rfl, dialectOfName?_name plan.dialect, h.root.node?_written hroot,
    binary64?_written (htotal _ List.mem_cons_self), natural?_written h.estimatedRows,
    absentOr?_written rfl fun n hn => natural?_written (h.actualRows n hn),
    absentOr?_written rfl fun x hx => binary64?_written (htime x hx _ List.mem_cons_self), ?_,
    absentOr?_written rfl fun ms hms => freeObject?_written (h.statistics ms hms) (hstatistics ms hms)⟩
  rw [written, writtenItems_eq_map, List.map_map]
  exact mapM_map_eq_some fun text _ => text?_written text

/-! ## Texts -/

/-- The numbers of the format binary64 in a plan. -/
def floats (plan : ExecutionPlan) : List Binary64 := plan.toDocument.floats

/-- A plan that was read is read again from its text, if the numbers in it are printed and read back
exactly. In the text no more containers are nested than may be. -/
theorem decode_toJson {text : String} {plan : ExecutionPlan} (h : decode text .json = .ok plan)
    (hfloats : ∀ x ∈ plan.floats, x.isFinite → x.ReadsBack) :
    decode plan.toJson .json = .ok plan ∧
      ∃ w, ofText? plan.toJson = some w ∧ w.depth ≤ nestingLimit := by
  obtain ⟨_, -, hread⟩ := decode_json_eq_ok.1 h
  have hfits : plan.Fits 125 := fits_of_plan? (k := 62) hread
  obtain ⟨hdepth, hrange⟩ : plan.toDocument.Within 127 := hfits.within
  have hprintable := isPrintable_of_floats hrange hfloats
  have htext : ofText? plan.toJson = some plan.toDocument.written := ofText?_write hprintable
  refine ⟨decode_json_eq_ok.2 ⟨_, htext, hfits.plan?_written hprintable⟩, _, htext, ?_⟩
  rw [depth_written]
  exact hdepth

/-- A plan in an array, whose root has a node below it and some extras. -/
theorem decode_toJson_nested :
    let text := "[\"q\",\"mysql\",[\"LIMIT\",\"l\",null,null,null,0.5,3,[[\"SORT\",\"s\\n\"]]," ++
      "\x7b\"b\":[1e3],\"a\":-2\x7d],2.5,4]"
    ∃ plan, decode text .json = .ok plan ∧ decode plan.toJson .json = .ok plan ∧
      ∃ w, ofText? plan.toJson = some w ∧ w.depth ≤ nestingLimit := by
  intro text
  have hread : (ofJson? text).any fun plan => plan.floats.all fun x => x.reread? = some x := by
    decide +kernel
  obtain ⟨plan, hplan, hfloats⟩ := (Option.any_eq_true _ _).1 hread
  have hdecode : decode text .json = .ok plan := by rw [decode, hplan]
  refine ⟨plan, hdecode, decode_toJson hdecode fun x hx _ => ?_⟩
  exact of_decide_eq_true (List.all_eq_true.1 hfloats x hx)

end ExecutionPlan

end SqlFrontend
