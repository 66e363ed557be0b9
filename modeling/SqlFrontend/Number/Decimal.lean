import SqlFrontend.Number.Binary64

/-!
# Decimal texts of numbers

A finite number of the format binary64 is written with the fewest decimal digits that are read back
as the same number. Of two such decimals the nearer is taken.

* `Decimal.shortest`: those digits and their power of ten.
* `Decimal.Layout`: what formats decide beyond the digits, and `Decimal.write`, which follows it.
* `Decimal.plain`: the layout of summaries; `Decimal.document`: the layout of documents.
* `Decimal.fixed`: a number with a given count of decimal places.
-/

namespace SqlFrontend

/-- The decimal `digits` times ten to the power `scale`. -/
structure Decimal where
  digits : Nat
  scale : Int
  deriving DecidableEq, Repr

namespace Decimal

/-! ## The fewest digits -/

/-- Which of two decimals is taken that are equally near to a number: the even or the larger. -/
inductive Tie where
  | toEven | up
  deriving DecidableEq, Repr

/-- A positive number among its neighbours, as integers that count a common fraction `1 / den`: the
number itself, and the ends of the interval of the values that are rounded to it. -/
structure Interval where
  value : Nat
  low : Nat
  high : Nat
  den : Nat
  /-- Whether the ends are rounded to the number too. -/
  closed : Bool

/-- The interval of the values that are rounded to a positive finite number. Below a power of two the
next number is only half as far away. -/
def Interval.ofBinary64 (x : Binary64) : Interval :=
  let m := x.significand
  let exponent := x.exponent - 2
  let factor := Nat.pow 2 exponent.toNat
  let below := if m = Nat.pow 2 52 && 1 < x.biased then 1 else 2
  { value := 4 * m * factor
    low := (4 * m - below) * factor
    high := (4 * m + 2) * factor
    den := Nat.pow 2 (-exponent).toNat
    closed := m % 2 = 0 }

/-- Decides whether the decimal lies in the interval. -/
def Interval.contains (i : Interval) (d : Decimal) : Bool :=
  let num := d.digits * i.den * Nat.pow 10 d.scale.toNat
  let unit := Nat.pow 10 (-d.scale).toNat
  if i.closed then i.low * unit ≤ num && num ≤ i.high * unit
  else i.low * unit < num && num < i.high * unit

/-- The decimals on the grid of a power of ten next to the number in the interval, with twice the
distance of the lower one and the width of the grid. -/
def Interval.neighbours (i : Interval) (scale : Int) : Decimal × Decimal × Nat × Nat :=
  let num := i.value * Nat.pow 10 (-scale).toNat
  let den := i.den * Nat.pow 10 scale.toNat
  (⟨num / den, scale⟩, ⟨num / den + 1, scale⟩, 2 * (num % den), den)

/-- The better of the two decimals on a grid that lie in the interval, if there is one. -/
def Interval.onGrid? (i : Interval) (tie : Tie) (scale : Int) : Option Decimal :=
  let (lower, upper, twice, width) := i.neighbours scale
  match i.contains lower && lower.digits != 0, i.contains upper with
  | true, true =>
    if twice < width then some lower
    else if width < twice then some upper
    else if tie = .toEven && lower.digits % 2 = 0 then some lower
    else some upper
  | true, false => some lower
  | false, true => some upper
  | false, false => none

/-- Takes the zeros off the end of the digits. -/
def stripZeros (fuel : Nat) (d : Decimal) : Decimal :=
  match fuel with
  | 0 => d
  | fuel + 1 =>
    if d.digits != 0 && d.digits % 10 = 0 then stripZeros fuel ⟨d.digits / 10, d.scale + 1⟩ else d

/-- Tries the grids from `scale` on towards finer ones. -/
def Interval.search (i : Interval) (tie : Tie) (scale : Int) : Nat → Option Decimal
  | 0 => none
  | n + 1 =>
    match i.onGrid? tie scale with
    | some d => some (d.stripZeros 20)
    | none => i.search tie (scale - 1) n

/-- How many digits a number has before its decimal point; for a number below one, less by one for
each zero that follows the point. -/
def magnitude (i : Interval) : Int :=
  let estimate : Int := ((i.value.log2 : Int) - i.den.log2) * 30103 / 100000 - 1
  let reaches (n : Int) : Bool :=
    i.den * Nat.pow 10 n.toNat ≤ i.value * Nat.pow 10 (-n).toNat
  if reaches (estimate + 2) then estimate + 3
  else if reaches (estimate + 1) then estimate + 2
  else if reaches estimate then estimate + 1
  else estimate

/-- The decimal of the fewest digits that is read back as the given positive finite number; of those,
the nearest. Seventeen digits are always enough; the number's own expansion stands behind them. -/
def shortest (tie : Tie) (x : Binary64) : Decimal :=
  let i := Interval.ofBinary64 x
  let size := magnitude i
  match i.search tie (size - 1) 18 with
  | some d => d
  | none => ⟨i.value * Nat.pow 10 i.den.log2 / i.den, -(i.den.log2 : Int)⟩

/-! ## Layouts -/

/-- What a format decides about a number beyond its digits. -/
structure Layout where
  /-- Which of two decimals is taken that are equally near. -/
  tie : Tie
  /-- The counts of digits before the point that are written without an exponent. -/
  isPositional : Int → Bool
  /-- What follows an integer. -/
  integerSuffix : String
  /-- The text of a number that is not finite. -/
  nonFinite : Binary64 → String

/-- Writes a count of zeros. -/
def zeros (n : Nat) : String := String.ofList (List.replicate n '0')

/-- Writes a decimal without an exponent. -/
def positional (layout : Layout) (d : Decimal) : String :=
  let text := toString d.digits
  if 0 ≤ d.scale then text ++ zeros d.scale.toNat ++ layout.integerSuffix
  else
    let places := (-d.scale).toNat
    let text := zeros (places + 1 - text.length) ++ text
    let chars := text.toList
    let point := chars.length - places
    String.ofList (chars.take point) ++ "." ++ String.ofList (chars.drop point)

/-- Writes a decimal with one digit before the point and an exponent, whose sign is always
written. -/
def scientific (d : Decimal) : String :=
  let chars := (toString d.digits).toList
  let exponent := d.scale + chars.length - 1
  let fraction := match chars.drop 1 with
    | [] => ""
    | rest => "." ++ String.ofList rest
  String.ofList (chars.take 1) ++ fraction ++ "e" ++
    (if exponent < 0 then "-" else "+") ++ toString exponent.natAbs

/-- Writes a number of the format binary64 in a layout. -/
def write (layout : Layout) (x : Binary64) : String :=
  if !x.isFinite then layout.nonFinite x
  else
    let signText := if x.isNegative then "-" else ""
    if x.isZero then signText ++ "0" ++ layout.integerSuffix
    else
      let d := shortest layout.tie x
      let size := d.scale + (toString d.digits).length
      signText ++ (if layout.isPositional size then positional layout d else scientific d)

/-- Names a number that is not finite. -/
def nonFiniteName (x : Binary64) : String :=
  if x.isNaN then "NaN" else if x.isNegative then "-inf" else "inf"

/-- Numbers in summaries have no exponent, whatever their size, and an integer has no point. A tie
goes up. -/
def plain : Layout := ⟨.up, fun _ => true, "", nonFiniteName⟩

/-- Numbers in documents have a point or an exponent. The exponent is written from 10^16 on and
below 10^-5. A tie goes to the even digit. A number that is not finite is an absent value. -/
def document : Layout := ⟨.toEven, fun size => -4 ≤ size && size ≤ 16, ".0", fun _ => "null"⟩

/-! ## Fixed places -/

/-- Writes a number with `places` decimal places. The exact value is rounded, and a tie goes to the
even digit. -/
def fixed (places : Nat) (x : Binary64) : String :=
  if !x.isFinite then nonFiniteName x
  else
    let exponent := x.exponent
    let num := x.significand * Nat.pow 2 exponent.toNat * Nat.pow 10 places
    let scaled := Binary64.roundDiv num (Nat.pow 2 (-exponent).toNat)
    (if x.isNegative then "-" else "") ++ positional plain ⟨scaled, -(places : Int)⟩

end Decimal

end SqlFrontend
