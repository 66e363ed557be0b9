/-!
# Names of objects

Tables, views, routines and the like are named within a schema, or without one.

* `ObjectName.summary`: the name as it is written.
-/

namespace SqlFrontend

/-- The name of an object of a database. -/
structure ObjectName where
  /-- The schema, itself qualified where a database is named. -/
  schema : Option String := none
  name : String
  deriving DecidableEq, Repr

instance : Inhabited ObjectName := ⟨{ name := "" }⟩

/-- A name with a qualifier before it, if there is one. -/
def qualified (qualifier : Option String) (name : String) : String :=
  match qualifier with
  | some qualifier => s!"{qualifier}.{name}"
  | none => name

/-- The name as it is written. -/
def ObjectName.summary (n : ObjectName) : String := qualified n.schema n.name

end SqlFrontend
