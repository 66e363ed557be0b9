import SqlFrontend.Number.Decimal
import SqlFrontend.Number.Numeral

/-!
# Literals

The constants of expressions.

* `Literal.ofNumeral?`: the constant that a numeral stands for. A numeral with a point or an
  exponent, or beyond 64 bits, is a fraction; any other is an integer.
* `Literal.summary`: the constant as it is written. A quote inside a string is written twice.

Section 3, *AST: Expressions*, of the polysql specification.
-/

namespace SqlFrontend

/-- A constant. Integers lie between -2^63 and 2^63 - 1. -/
inductive Literal where
  | null
  | integer (value : Int)
  | float (value : Binary64)
  | string (value : String)
  | boolean (value : Bool)
  deriving DecidableEq, Repr

namespace Literal

instance : Inhabited Literal := ⟨.null⟩

/-- The constant that a numeral stands for. -/
def ofNumeral? (text : String) : Option Literal :=
  if text.toList.any fun c => c == '.' || c == 'e' || c == 'E' then
    (Numeral.binary64? text).map .float
  else
    match Numeral.integer? text with
    | some value => some (.integer value)
    | none => (Numeral.binary64? text).map .float

/-- Writes every quote of a text twice. -/
def doubleQuotes (quote : Char) : List Char → List Char
  | [] => []
  | c :: rest => if c = quote then c :: c :: doubleQuotes quote rest else c :: doubleQuotes quote rest

/-- A string as it is written. -/
def quoted (value : String) : String :=
  "'" ++ String.ofList (doubleQuotes '\x27' value.toList) ++ "'"

/-- The constant as it is written. -/
def summary : Literal → String
  | null => "NULL"
  | integer value => toString value
  | float value => Decimal.write Decimal.plain value
  | string value => quoted value
  | boolean true => "TRUE"
  | boolean false => "FALSE"

end Literal

end SqlFrontend
