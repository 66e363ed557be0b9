/-!
# Options

Settings of a table, a view or a plan, each a name with a value. They are kept in the order of their
names; the last value given for a name counts.

* `Options.insert`, `Options.get?`: setting and reading a value, tied together by
  `get?_insert_self` and `get?_insert_of_ne`.
-/

namespace SqlFrontend

/-- Named settings, in the order of their names. -/
structure Options where
  entries : List (String × String) := []
  deriving DecidableEq, Repr

namespace Options

instance : Inhabited Options := ⟨{}⟩

/-- Puts an entry in its place among others, or in the place of one with the same name. -/
def insertEntry (name value : String) : List (String × String) → List (String × String)
  | [] => [(name, value)]
  | entry :: rest =>
    if name = entry.1 then (name, value) :: rest
    else if name < entry.1 then (name, value) :: entry :: rest
    else entry :: insertEntry name value rest

/-- Sets a value. -/
def insert (options : Options) (name value : String) : Options :=
  ⟨insertEntry name value options.entries⟩

/-- The value of a name, if it is set. -/
def get? (options : Options) (name : String) : Option String :=
  (options.entries.find? fun entry => entry.1 == name).map Prod.snd

theorem get?_insert_self (options : Options) (name value : String) :
    (options.insert name value).get? name = some value := by
  obtain ⟨entries⟩ := options
  simp only [insert, get?]
  induction entries with
  | nil => simp [insertEntry]
  | cons entry rest ih =>
    unfold insertEntry
    split
    · simp
    · next h =>
      split
      · simp
      · rw [List.find?_cons_of_neg (by simpa using fun h' => h h'.symm)]
        exact ih

theorem get?_insert_of_ne {name other : String} (h : other ≠ name) (options : Options)
    (value : String) : (options.insert name value).get? other = options.get? other := by
  obtain ⟨entries⟩ := options
  simp only [insert, get?]
  congr 1
  have hne : ¬ name = other := fun h' => h h'.symm
  induction entries with
  | nil => simp [insertEntry, hne]
  | cons entry rest ih =>
    unfold insertEntry
    split
    · next he =>
      subst he
      rw [List.find?_cons_of_neg (by simpa using hne), List.find?_cons_of_neg (by simpa using hne)]
    · split
      · rw [List.find?_cons_of_neg (by simpa using hne)]
      · by_cases ho : entry.1 = other
        · rw [List.find?_cons_of_pos (by simpa using ho), List.find?_cons_of_pos (by simpa using ho)]
        · rw [List.find?_cons_of_neg (by simpa using ho), List.find?_cons_of_neg (by simpa using ho)]
          exact ih

end Options

end SqlFrontend
