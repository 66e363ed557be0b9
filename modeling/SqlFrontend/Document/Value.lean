import SqlFrontend.Number.Binary64

/-!
# Documents

A document is a value of the JSON data format. The members of an object are kept in the order in which
they are written; an object that is read holds every key once, in the order of the keys.

* `Document`, `Member`: values and the members of objects.
* `Member.insert`: sets the value of a key among sorted members.
-/

namespace SqlFrontend

mutual

/-- A value. Integers lie between -2^63 and 2^64 - 1. -/
inductive Document where
  | null
  | boolean (value : Bool)
  | integer (value : Int)
  | float (value : Binary64)
  | string (text : String)
  | array (items : List Document)
  | object (members : List Member)

/-- A value under a key. -/
structure Member where
  key : String
  value : Document

end

instance : Inhabited Document := ⟨.null⟩

/-- Puts a member in its place among sorted ones, or in the place of the one with the same key. -/
def Member.insert (member : Member) : List Member → List Member
  | [] => [member]
  | other :: rest =>
    if member.key = other.key then member :: rest
    else if member.key < other.key then member :: other :: rest
    else other :: member.insert rest

/-- The members of an object, sorted by their keys. The last of several values for a key counts. -/
def Member.sorted (members : List Member) : List Member :=
  members.foldl (fun sorted member => member.insert sorted) []

end SqlFrontend
