import Mathlib.Data.List.Nodup
import SqlFrontend.Plan.Reader

/-!
# Records

A record is read from the values of its fields. Some fields have a default: a value that says the same as
no value. So what is read depends only on the value of each field or its default, however the record is
written.

Results:
* `Written.given?`: the value of a key among members.
* `Written.IsRecord`: members with keys that are strings, and no field among them twice.
* `Written.memberFields?_eq_some`: the members of a record are read as its fields.
* `Written.Gives`: a value gives the fields of a record, with their defaults.
* `Written.required?_eq`, `Written.optional?_eq`: fields are read from these values.
-/

namespace SqlFrontend.Document.Written

variable {names : List String} {name : String}

/-! ## Members -/

/-- The value of a key among members, the first one if there are several. -/
def given? (members : List WrittenMember) (name : String) : Option Written :=
  (members.find? fun member => member.key == some name).map WrittenMember.value

theorem given?_nil (name : String) : given? [] name = none := rfl

theorem given?_cons (key : Option String) (value : Written) (members : List WrittenMember)
    (name : String) : given? (⟨key, value⟩ :: members) name =
      if key = some name then some value else given? members name := by
  rw [given?, List.find?_cons]
  split
  · next h => rw [if_pos (beq_iff_eq.1 h)]; rfl
  · next h => rw [if_neg (by simpa using h)]; rfl

/-- The keys among members that are fields. -/
def fieldKeys (names : List String) (members : List WrittenMember) : List String :=
  (members.filterMap WrittenMember.key).filter fun key => names.contains key

/-- The keys of members are strings, and no field is among them twice. -/
structure IsRecord (names : List String) (members : List WrittenMember) : Prop where
  keyed : ∀ member ∈ members, member.key.isSome
  distinct : (fieldKeys names members).Nodup

theorem fieldKeys_cons (key : String) (value : Written) (members : List WrittenMember) :
    fieldKeys names (⟨some key, value⟩ :: members) =
      if key ∈ names then key :: fieldKeys names members else fieldKeys names members := by
  simp [fieldKeys, List.filter_cons]

theorem isRecord_cons {key : String} {value : Written} {members : List WrittenMember} :
    IsRecord names (⟨some key, value⟩ :: members) ↔
      IsRecord names members ∧ (key ∈ names → key ∉ fieldKeys names members) := by
  have hdistinct : (fieldKeys names (⟨some key, value⟩ :: members)).Nodup ↔
      (fieldKeys names members).Nodup ∧ (key ∈ names → key ∉ fieldKeys names members) := by
    rw [fieldKeys_cons]
    split
    · next h => rw [List.nodup_cons, and_comm, imp_iff_right h]
    · next h => simp [h]
  constructor
  · rintro ⟨hkeyed, hnodup⟩
    obtain ⟨hnodup, hnew⟩ := hdistinct.1 hnodup
    exact ⟨⟨(List.forall_mem_cons.1 hkeyed).2, hnodup⟩, hnew⟩
  · rintro ⟨⟨hkeyed, hnodup⟩, hnew⟩
    exact ⟨List.forall_mem_cons.2 ⟨rfl, hkeyed⟩, hdistinct.2 ⟨hnodup, hnew⟩⟩

theorem field?_cons (key : String) (value : Written) (fields : List FieldValue) (name : String) :
    field? (⟨key, value⟩ :: fields) name = if key = name then some value else field? fields name := by
  rw [field?, List.find?_cons]
  split
  · next h => rw [if_pos (beq_iff_eq.1 h)]; rfl
  · next h => rw [if_neg (by simpa using h)]; rfl

variable {members : List WrittenMember} {before fields : List FieldValue}

/-- Members that are read as fields behind others are a record, none of whose fields is among the others.
Each field has the value that was given for it. -/
theorem memberFields?_eq_some (h : memberFields? names before members = some fields) :
    IsRecord names members ∧ (∀ key ∈ fieldKeys names members, field? before key = none) ∧
      ∀ name ∈ names, field? fields name = (field? before name).or (given? members name) := by
  induction members generalizing before with
  | nil =>
    cases h
    exact ⟨⟨List.forall_mem_nil _, List.nodup_nil⟩, List.forall_mem_nil _, fun name _ =>
      (Option.or_none).symm⟩
  | cons member members ih =>
    obtain ⟨_ | key, value⟩ := member
    · cases h
    rw [memberFields?] at h
    rw [isRecord_cons, fieldKeys_cons]
    by_cases hkey : key ∈ names
    · rw [if_neg (by simpa using hkey)] at h
      split at h
      · cases h
      · next hfree =>
        have hfree : field? before key = none := by simpa using hfree
        obtain ⟨hrecord, hnew, hfields⟩ := ih h
        have hother : ∀ other ∈ fieldKeys names members, key ≠ other ∧ field? before other = none := by
          intro other hother
          have := hnew other hother
          rw [field?_cons] at this
          split at this
          · cases this
          · next hne => exact ⟨hne, this⟩
        rw [if_pos hkey]
        refine ⟨⟨hrecord, fun _ hmem => (hother key hmem).1 rfl⟩,
          List.forall_mem_cons.2 ⟨hfree, fun other h => (hother other h).2⟩, fun name hname => ?_⟩
        rw [hfields name hname, field?_cons, given?_cons]
        by_cases hname' : key = name
        · rw [if_pos hname', if_pos (congrArg some hname'), ← hname', hfree]
          rfl
        · rw [if_neg hname', if_neg fun h => hname' (Option.some.inj h)]
    · rw [if_pos (by simpa using hkey)] at h
      obtain ⟨hrecord, hnew, hfields⟩ := ih h
      rw [if_neg hkey]
      refine ⟨⟨hrecord, fun h => absurd h hkey⟩, hnew, fun name hname => ?_⟩
      have hne : some key ≠ some name := by
        rintro ⟨⟩
        exact hkey hname
      rw [hfields name hname, given?_cons, if_neg hne]

/-- A record is read as fields behind others, if none of its fields is among them. -/
theorem exists_memberFields? (h : IsRecord names members)
    (hnew : ∀ key ∈ fieldKeys names members, field? before key = none) :
    ∃ fields, memberFields? names before members = some fields := by
  induction members generalizing before with
  | nil => exact ⟨before, rfl⟩
  | cons member members ih =>
    obtain ⟨_ | key, value⟩ := member
    · cases (List.forall_mem_cons.1 h.keyed).1
    rw [memberFields?]
    obtain ⟨hrecord, hdistinct⟩ := isRecord_cons.1 h
    rw [fieldKeys_cons] at hnew
    by_cases hkey : key ∈ names
    · rw [if_neg (by simpa using hkey)]
      rw [if_pos hkey] at hnew
      obtain ⟨hfree, hnew⟩ := List.forall_mem_cons.1 hnew
      rw [hfree]
      refine ih hrecord fun other hother => ?_
      have hne : key ≠ other := by
        rintro rfl
        exact hdistinct hkey hother
      rw [field?_cons, if_neg hne]
      exact hnew other hother
    · rw [if_pos (by simpa using hkey)]
      rw [if_neg hkey] at hnew
      exact ih hrecord hnew

/-! ## Arrays of fields -/

/-- The item in the place of a field. -/
def itemAt? : List String → List Written → String → Option Written
  | field :: names, item :: items, name => if field = name then some item else itemAt? names items name
  | _, _, _ => none

theorem itemAt?_nil (names : List String) (name : String) : itemAt? names [] name = none := by
  cases names <;> rfl

theorem field?_itemFields? {items : List Written} (h : itemFields? names items = some fields)
    (name : String) : field? fields name = itemAt? names items name := by
  induction names generalizing items fields with
  | nil =>
    cases items with
    | nil =>
      cases h
      rfl
    | cons => cases h
  | cons first names ih =>
    cases items with
    | nil =>
      cases h
      rfl
    | cons item items =>
      obtain ⟨others, hothers, rfl⟩ := Option.map_eq_some_iff.1 h
      rw [field?_cons, ih hothers, itemAt?]

theorem exists_itemFields?_iff {items : List Written} :
    (∃ fields, itemFields? names items = some fields) ↔ items.length ≤ names.length := by
  induction names generalizing items with
  | nil => cases items <;> simp [itemFields?]
  | cons name names ih => cases items <;> simp [itemFields?, ← ih]

/-! ## Values of fields -/

/-- A value is written as a record that gives each field a value, or leaves it to its default. -/
def Gives (names : List String) (default? : String → Option Written) (w : Written)
    (value? : String → Option Written) : Prop :=
  ∃ fields, w.fields? names = some fields ∧
    ∀ name ∈ names, (field? fields name).or (default? name) = value? name

variable {default? value? : String → Option Written}

theorem gives_object : Gives names default? (.object members) value? ↔
    IsRecord names members ∧ ∀ name ∈ names, (given? members name).or (default? name) = value? name := by
  constructor
  · rintro ⟨fields, hfields, hvalue⟩
    obtain ⟨hrecord, -, hgiven⟩ := memberFields?_eq_some hfields
    exact ⟨hrecord, fun name hname => by rw [← hvalue name hname, hgiven name hname]; rfl⟩
  · rintro ⟨hrecord, hvalue⟩
    obtain ⟨fields, hfields⟩ : ∃ fields, memberFields? names [] members = some fields :=
      exists_memberFields? hrecord fun _ _ => rfl
    obtain ⟨-, -, hgiven⟩ := memberFields?_eq_some hfields
    exact ⟨fields, hfields, fun name hname => by rw [← hvalue name hname, hgiven name hname]; rfl⟩

theorem gives_array {items : List Written} : Gives names default? (.array items) value? ↔
    items.length ≤ names.length ∧
      ∀ name ∈ names, (itemAt? names items name).or (default? name) = value? name := by
  constructor
  · rintro ⟨fields, hfields, hvalue⟩
    refine ⟨exists_itemFields?_iff.1 ⟨fields, hfields⟩, fun name hname => ?_⟩
    rw [← field?_itemFields? hfields, hvalue name hname]
  · rintro ⟨hlength, hvalue⟩
    obtain ⟨fields, hfields⟩ := exists_itemFields?_iff.2 hlength
    refine ⟨fields, hfields, fun name hname => ?_⟩
    rw [field?_itemFields? hfields, hvalue name hname]

section

variable {α : Type} {read : Written → Option α} {fields : List FieldValue}

theorem required?_eq (hdefault : default? name = none)
    (hvalue : (field? fields name).or (default? name) = value? name) :
    required? read fields name = (value? name).bind read := by
  rw [hdefault, Option.or_none] at hvalue
  rw [required?, hvalue]
  rfl

/-- A field that is missing is read as its default is. -/
theorem optional?_eq {missing : α} {w : Written} (hdefault : default? name = some w)
    (hread : read w = some missing) (hvalue : (field? fields name).or (default? name) = value? name) :
    optional? read fields name missing = (value? name).bind read := by
  rw [← hvalue, optional?, hdefault]
  cases field? fields name with
  | none => exact hread.symm
  | some value => rfl

/-- A field that may be absent says so with a null. -/
theorem absentOr?_eq (hdefault : default? name = some .null)
    (hvalue : (field? fields name).or (default? name) = value? name) :
    optional? (absentOr? read) fields name none = (value? name).bind (absentOr? read) :=
  optional?_eq hdefault rfl hvalue

end

end SqlFrontend.Document.Written
