import SqlFrontend.Number.Binary64
import SqlFrontend.Text.Word

/-!
# Numerals

Reading numbers from texts.

* `Numeral.integer?`, `Numeral.natural?`: decimal integers of 64 bits, with and without a sign.
* `Numeral.binary64?`: decimal fractions with an optional exponent, infinities, and the text for no
  number.
-/

namespace SqlFrontend.Numeral

/-- The value of a text of ASCII digits, of which there has to be one. -/
def digits? (text : List Char) : Option Nat :=
  if text.isEmpty || !text.all Char.isDigit then none
  else some (text.foldl (fun n c => 10 * n + (c.toNat - 48)) 0)

/-- Splits an optional sign off a text. -/
def sign : List Char → Bool × List Char
  | '-' :: rest => (true, rest)
  | '+' :: rest => (false, rest)
  | rest => (false, rest)

/-- Reads a decimal integer from -2^63 up to 2^63 - 1, with an optional sign. -/
def integer? (text : String) : Option Int :=
  let (negative, rest) := sign text.toList
  match digits? rest with
  | some n =>
    let value : Int := if negative then -n else n
    if -9223372036854775808 ≤ value ∧ value ≤ 9223372036854775807 then some value else none
  | none => none

/-- Reads a decimal integer from 0 up to 2^64 - 1, with an optional plus sign. -/
def natural? (text : String) : Option Nat :=
  let rest := match text.toList with
    | '+' :: rest => rest
    | rest => rest
  (digits? rest).filter fun n => n < 18446744073709551616

/-- Reads the exponent of a decimal fraction, with its mark. No text at all is the exponent zero. -/
def exponent? : List Char → Option Int
  | [] => some 0
  | mark :: rest =>
    if mark = 'e' || mark = 'E' then
      let (negative, rest) := sign rest
      (digits? rest).map fun n => if negative then -(n : Int) else n
    else none

/-- Reads a decimal fraction without a sign: digits with a point before, behind or among them, and
an optional exponent. -/
def fraction? (text : List Char) : Option Binary64 :=
  let integral := text.takeWhile Char.isDigit
  let rest := text.dropWhile Char.isDigit
  let (fractional, rest) := match rest with
    | '.' :: rest => (rest.takeWhile Char.isDigit, rest.dropWhile Char.isDigit)
    | rest => ([], rest)
  match digits? (integral ++ fractional), exponent? rest with
  | some n, some scale => some (Binary64.ofDecimal n (scale - fractional.length))
  | _, _ => none

/-- Reads a decimal fraction, an infinity or the text for no number, with an optional sign. -/
def binary64? (text : String) : Option Binary64 :=
  let (negative, rest) := sign text.toList
  let magnitude? :=
    match Text.lower (String.ofList rest) with
    | "inf" | "infinity" => some Binary64.infinity
    | "nan" => some Binary64.nan
    | _ => fraction? rest
  magnitude?.map (Binary64.withSign negative)

end SqlFrontend.Numeral
