import SqlFrontend.Text.Word

/-!
# Data types

A data type as it is written in a statement. Vendors disagree on the names of types, so the name is
kept as a text: in capitals, its words joined by single blanks.

* `DataType.summary`: the type as it is written.
* `DataType.isNumeric`, `isTextual`, `isArray`, `length?`: what is known of a type from its name
  and its modifiers.

Section 4.3, *Expression additions*, of the polysql specification.
-/

namespace SqlFrontend

/-- The part of a data type in parentheses. -/
inductive TypeModifier where
  | length (n : Nat)
  | max
  | precisionScale (precision scale : Nat)
  deriving DecidableEq, Repr

/-- A data type. -/
structure DataType where
  /-- The name, in capitals. -/
  name : String
  /-- The length, or the precision. -/
  modifier : Option TypeModifier := none
  /-- Whether negative numbers are excluded. -/
  isUnsigned : Bool := false
  /-- The array dimensions, each with the size it declares. -/
  dimensions : List (Option Nat) := []
  deriving DecidableEq, Repr

namespace DataType

/-- The type of the given name, in any case. -/
def ofName (name : String) : DataType := { name := Text.upper name }

/-- Decides whether the type is an array. -/
def isArray (t : DataType) : Bool := !t.dimensions.isEmpty

/-- The length that a type declares. -/
def length? (t : DataType) : Option Nat :=
  match t.modifier with
  | some (.length n) => some n
  | _ => none

/-- The names of the integer, decimal and floating point types. -/
def numericNames : List String :=
  ["INT", "INTEGER", "SMALLINT", "TINYINT", "MEDIUMINT", "BIGINT", "SERIAL", "BIGSERIAL", "DECIMAL",
    "NUMERIC", "REAL", "FLOAT", "DOUBLE", "DOUBLE PRECISION", "MONEY"]

/-- The names of the character string types. -/
def textualNames : List String :=
  ["CHAR", "VARCHAR", "NCHAR", "NVARCHAR", "TEXT", "NTEXT", "CHARACTER", "CHARACTER VARYING",
    "TINYTEXT", "MEDIUMTEXT", "LONGTEXT", "CLOB"]

/-- Decides whether the values of a type are numbers. -/
def isNumeric (t : DataType) : Bool := !t.isArray && numericNames.contains t.name

/-- Decides whether the values of a type are character strings. -/
def isTextual (t : DataType) : Bool := !t.isArray && textualNames.contains t.name

end DataType

/-- The modifier as it is written behind the name. -/
def TypeModifier.summary : TypeModifier → String
  | .length n => s!"({n})"
  | .max => "(MAX)"
  | .precisionScale precision scale => s!"({precision}, {scale})"

/-- An array dimension as it is written. -/
def DataType.dimensionSummary : Option Nat → String
  | some n => s!"[{n}]"
  | none => "[]"

/-- The type as it is written. -/
def DataType.summary (t : DataType) : String :=
  t.name ++ (t.modifier.map TypeModifier.summary).getD "" ++
    String.join (t.dimensions.map DataType.dimensionSummary) ++
    (if t.isUnsigned then " UNSIGNED" else "")

end SqlFrontend
