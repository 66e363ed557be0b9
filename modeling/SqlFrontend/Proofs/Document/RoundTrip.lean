import SqlFrontend.Proofs.Document.Writer

/-!
# Documents are read as they were written

Results:
* `Written.proper_of_document?`: what a value means is in the range of its format, sorted, and not nested
  too deeply.
* `Document.document?_written`: such a document is meant by what it is written as.
* `Document.depth_written`: and it is written with as many containers as it has.
-/

namespace SqlFrontend.Document

/-- The members of an object are sorted. -/
def IsOrdered : Document → Prop
  | object members => Member.IsSorted members
  | _ => True

/-! ## Lists that are read -/

section

variable {α β : Type} {read : α → Option β}

theorem exists_of_mem_mapM {items : List α} {xs : List β} (h : items.mapM read = some xs) :
    ∀ x ∈ xs, ∃ item ∈ items, read item = some x := by
  induction items generalizing xs with
  | nil =>
    cases h
    exact List.forall_mem_nil _
  | cons item items ih =>
    rw [List.mapM_cons] at h
    simp only [Option.bind_eq_bind] at h
    obtain ⟨first, hfirst, h⟩ := Option.bind_eq_some_iff.1 h
    obtain ⟨others, hothers, h⟩ := Option.bind_eq_some_iff.1 h
    cases h
    refine List.forall_mem_cons.2 ⟨⟨item, List.mem_cons_self, hfirst⟩, fun x hx => ?_⟩
    obtain ⟨other, hmem, hother⟩ := ih hothers x hx
    exact ⟨other, List.mem_cons_of_mem _ hmem, hother⟩

theorem mapM_map_eq_some {write : β → α} {xs : List β} (h : ∀ x ∈ xs, read (write x) = some x) :
    (xs.map write).mapM read = some xs := by
  induction xs with
  | nil => rfl
  | cons x xs ih =>
    obtain ⟨hx, hxs⟩ := List.forall_mem_cons.1 h
    rw [List.map_cons, List.mapM_cons, hx, ih hxs]
    rfl

end

/-- The member that is meant. -/
def WrittenMember.member? (depth : ℕ) (m : WrittenMember) : Option Member := do
  return ⟨← m.key, ← m.value.document? depth⟩

namespace Written

variable {k : ℕ}

theorem documents?_eq_mapM (items : List Written) :
    documents? k items = items.mapM (document? k) := by
  induction items with
  | nil => rfl
  | cons item items ih => rw [documents?, ih, List.mapM_cons]

theorem members?_eq_mapM (members : List WrittenMember) :
    members? k members = members.mapM (WrittenMember.member? k) := by
  induction members with
  | nil => rfl
  | cons member members ih =>
    obtain ⟨key, value⟩ := member
    rw [members?, ih, List.mapM_cons, WrittenMember.member?]
    simp only [bind_assoc, pure_bind]

/-! ## What is meant -/

theorem exists_of_mem_members? {members : List WrittenMember} {ms : List Member}
    (h : members? k members = some ms) :
    ∀ m ∈ ms, ∃ member ∈ members, member.value.document? k = some m.value := by
  intro m hm
  rw [members?_eq_mapM] at h
  obtain ⟨member, hmember, hmeans⟩ := exists_of_mem_mapM h m hm
  obtain ⟨key, -, hmeans⟩ := Option.bind_eq_some_iff.1 hmeans
  obtain ⟨d, hd, hm⟩ := Option.bind_eq_some_iff.1 hmeans
  cases hm
  exact ⟨member, hmember, hd⟩

theorem inRange_of_value? {n : Numeral} {d : Document} (h : n.value? = some d) :
    d.depth = 0 ∧ ∀ part ∈ d.parts, part.InRange ∧ part.IsOrdered := by
  rw [Numeral.value?] at h
  split at h
  · next hinteger =>
    cases h
    exact ⟨rfl, List.forall_mem_singleton.2 ⟨Numeral.integer?_bounds hinteger, trivial⟩⟩
  · obtain ⟨x, hx, rfl⟩ := Option.map_eq_some_iff.1 h
    exact ⟨rfl, List.forall_mem_singleton.2 ⟨Numeral.isFinite_fraction? hx, trivial⟩⟩

/-- What a value means is in the range of its format, sorted, and not nested too deeply. -/
theorem proper_of_document? {w : Written} {d : Document} (h : w.document? k = some d) :
    d.depth ≤ k ∧ ∀ part ∈ d.parts, part.InRange ∧ part.IsOrdered := by
  induction w using induct generalizing k d with
  | null =>
    cases h
    exact ⟨Nat.zero_le _, List.forall_mem_singleton.2 ⟨trivial, trivial⟩⟩
  | boolean b =>
    cases h
    exact ⟨Nat.zero_le _, List.forall_mem_singleton.2 ⟨trivial, trivial⟩⟩
  | number n =>
    obtain ⟨hdepth, hparts⟩ := inRange_of_value? h
    exact ⟨hdepth.trans_le (Nat.zero_le _), hparts⟩
  | string text =>
    obtain ⟨text, -, rfl⟩ := Option.map_eq_some_iff.1 h
    exact ⟨Nat.zero_le _, List.forall_mem_singleton.2 ⟨trivial, trivial⟩⟩
  | array items ih =>
    rcases k with _ | k
    · cases h
    obtain ⟨ds, hds, rfl⟩ := Option.map_eq_some_iff.1 h
    have hitems : ∀ d ∈ ds, d.depth ≤ k ∧ ∀ part ∈ d.parts, part.InRange ∧ part.IsOrdered := by
      intro d hd
      rw [documents?_eq_mapM] at hds
      obtain ⟨item, hitem, hmeans⟩ := exists_of_mem_mapM hds d hd
      exact ih item hitem hmeans
    exact ⟨Document.depth_array_le.2 fun d hd => (hitems d hd).1,
      forall_parts_array.2 ⟨⟨trivial, trivial⟩, fun d hd => (hitems d hd).2⟩⟩
  | object members ih =>
    rcases k with _ | k
    · cases h
    obtain ⟨ms, hms, rfl⟩ := Option.map_eq_some_iff.1 h
    have hmembers : ∀ m ∈ Member.sorted ms,
        m.value.depth ≤ k ∧ ∀ part ∈ m.value.parts, part.InRange ∧ part.IsOrdered := by
      intro m hm
      obtain ⟨member, hmember, hmeans⟩ := exists_of_mem_members? hms m (Member.mem_sorted hm)
      exact ih member hmember hmeans
    exact ⟨Document.depth_object_le.2 fun m hm => (hmembers m hm).1,
      forall_parts_object.2 ⟨⟨trivial, Member.isSorted_sorted ms⟩, fun m hm => (hmembers m hm).2⟩⟩

end Written

/-! ## What is written -/

/-- What a document is written as means the document. -/
theorem document?_written {d : Document} {k : ℕ} (hprintable : ∀ part ∈ d.parts, part.IsPrintable)
    (hordered : ∀ part ∈ d.parts, part.IsOrdered) (hdepth : d.depth ≤ k) :
    d.written.document? k = some d := by
  induction d using induct generalizing k with
  | null => rfl
  | boolean b => rfl
  | integer n =>
    obtain ⟨hlow, hhigh⟩ := (hprintable (.integer n) List.mem_cons_self).inRange
    rw [written, Written.document?, Numeral.value?, Numeral.integer?_ofInt hlow hhigh]
  | float x =>
    have hx := hprintable (.float x) List.mem_cons_self
    exact Numeral.value?_ofBinary64 hx.inRange (hx.readsBack x rfl)
  | string text => rfl
  | array items ih =>
    obtain ⟨k, rfl⟩ : ∃ j, k = j + 1 := ⟨k - 1, by rw [depth] at hdepth; omega⟩
    have hitems : ∀ item ∈ items, item.written.document? k = some item := fun item hitem =>
      ih item hitem ((forall_parts_array.1 hprintable).2 item hitem)
        ((forall_parts_array.1 hordered).2 item hitem) (depth_array_le.1 hdepth item hitem)
    rw [written, Written.document?, if_neg (Nat.succ_ne_zero k), Nat.add_sub_cancel,
      Written.documents?_eq_mapM, writtenItems_eq_map, mapM_map_eq_some hitems]
    rfl
  | object members ih =>
    obtain ⟨k, rfl⟩ : ∃ j, k = j + 1 := ⟨k - 1, by rw [depth] at hdepth; omega⟩
    have hmembers : ∀ member ∈ members, member.written.member? k = some member := by
      intro member hmember
      rw [Member.written, WrittenMember.member?,
        ih member hmember ((forall_parts_object.1 hprintable).2 member hmember)
          ((forall_parts_object.1 hordered).2 member hmember) (depth_object_le.1 hdepth member hmember)]
      cases member
      rfl
    have hsorted : Member.IsSorted members := (forall_parts_object.1 hordered).1
    rw [written, Written.document?, if_neg (Nat.succ_ne_zero k), Nat.add_sub_cancel,
      Written.members?_eq_mapM, writtenMembers_eq_map, mapM_map_eq_some hmembers, Option.map_some,
      Member.sorted_eq_self hsorted]

/-- A document is written with as many containers as it has. -/
theorem depth_written (d : Document) : d.written.depth = d.depth := by
  refine eq_of_forall_ge_iff fun k => ?_
  induction d using induct generalizing k with
  | array items ih =>
    cases k with
    | zero => simp [written, Written.depth, depth]
    | succ k =>
      rw [written, writtenItems_eq_map, Written.depth_array_le, depth_array_le, List.forall_mem_map]
      exact forall₂_congr fun item hitem => ih item hitem k
  | object members ih =>
    cases k with
    | zero => simp [written, Written.depth, depth]
    | succ k =>
      rw [written, writtenMembers_eq_map, Written.depth_object_le, depth_object_le, List.forall_mem_map]
      exact forall₂_congr fun member hmember => ih member hmember k
  | _ => rfl

end SqlFrontend.Document
