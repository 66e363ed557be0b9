import SqlFrontend.Document.Spelling
import SqlFrontend.Document.Value
import SqlFrontend.Number.Decimal

/-!
# Writing documents

* `Document.write`: a document as a text of several lines, with two blanks for each container around
  a line. Containers without contents are written on one line.
-/

namespace SqlFrontend.Document

/-- A line break, and the blanks before the next line. -/
def lineBreak (depth : Nat) : String := "\n" ++ String.ofList (List.replicate (2 * depth) ' ')

mutual

/-- A value, in a line that stands in `depth` containers. -/
def writeAt (depth : Nat) : Document → String
  | null => "null"
  | boolean value => if value then "true" else "false"
  | integer value => toString value
  | float value => Decimal.write Decimal.document value
  | string text => quoted text
  | array [] => "[]"
  | array (item :: rest) =>
    "[" ++ lineBreak (depth + 1) ++ writeAt (depth + 1) item ++ writeItems (depth + 1) rest ++
      lineBreak depth ++ "]"
  | object [] => "\x7b\x7d"
  | object (member :: rest) =>
    "\x7b" ++ lineBreak (depth + 1) ++ writeMember (depth + 1) member ++
      writeMembers (depth + 1) rest ++ lineBreak depth ++ "\x7d"

/-- The items behind the first one. -/
def writeItems (depth : Nat) : List Document → String
  | [] => ""
  | item :: rest => "," ++ lineBreak depth ++ writeAt depth item ++ writeItems depth rest

/-- A member. -/
def writeMember (depth : Nat) : Member → String
  | ⟨key, value⟩ => quoted key ++ ": " ++ writeAt depth value

/-- The members behind the first one. -/
def writeMembers (depth : Nat) : List Member → String
  | [] => ""
  | member :: rest =>
    "," ++ lineBreak depth ++ writeMember depth member ++ writeMembers depth rest

end

/-- The text of a document. -/
def write (d : Document) : String := writeAt 0 d

end SqlFrontend.Document
