/-!
# Numbers of the format binary64

A number of the IEEE 754 format binary64 is kept as its 64 bits, so that it can be compared and
computed with in exact integers. A finite number is a significand below 2^53 times a power of two.

* `Binary64.ofRatio`: the number nearest to a quotient, the even one of two that are equally near.
* `Binary64.ofDecimal`: the number nearest to a decimal.
* `Binary64.times`, `Binary64.dividedBy`: products and quotients of magnitudes.
-/

namespace SqlFrontend

/-- A number of the format binary64. -/
structure Binary64 where
  bits : UInt64
  deriving DecidableEq, Repr

namespace Binary64

instance : Inhabited Binary64 := ⟨⟨0⟩⟩

/-- Decides whether the sign is minus. -/
def isNegative (x : Binary64) : Bool := x.bits >>> 63 == 1

/-- The biased exponent. -/
def biased (x : Binary64) : Nat := ((x.bits >>> 52) &&& 0x7FF).toNat

/-- The digits of the significand that are stored. -/
def fraction (x : Binary64) : Nat := (x.bits &&& 0xFFFFFFFFFFFFF).toNat

/-- Decides whether the number is finite. -/
def isFinite (x : Binary64) : Bool := x.biased != 0x7FF

/-- Decides whether this is no number. -/
def isNaN (x : Binary64) : Bool := x.biased == 0x7FF && x.fraction != 0

/-- The significand of a finite number. -/
def significand (x : Binary64) : Nat :=
  if x.biased = 0 then x.fraction else Nat.pow 2 52 + x.fraction

/-- The power of two that the significand of a finite number counts. -/
def exponent (x : Binary64) : Int := max (x.biased : Int) 1 - 1075

/-- Decides whether the number is zero, with either sign. -/
def isZero (x : Binary64) : Bool := x.biased == 0 && x.fraction == 0

/-- The infinity above all numbers. -/
def infinity : Binary64 := ⟨0x7FF0000000000000⟩

/-- A value that is no number. -/
def nan : Binary64 := ⟨0x7FF8000000000000⟩

/-- The number with the other sign. -/
def negate (x : Binary64) : Binary64 := ⟨x.bits ^^^ 0x8000000000000000⟩

/-- The number of a Boolean sign and a magnitude. -/
def withSign (negative : Bool) (x : Binary64) : Binary64 := if negative then x.negate else x

/-- The integer nearest to a quotient; of two that are equally near, the even one. -/
def roundDiv (num den : Nat) : Nat :=
  let quotient := num / den
  let twice := 2 * (num % den)
  if den < twice || (twice = den && quotient % 2 = 1) then quotient + 1 else quotient

/-- The number whose significand is the given multiple of a power of two. A multiple of 2^53 carries
over into the exponent. -/
def ofSignificand (significand : Nat) (exponent : Int) : Binary64 :=
  if significand < Nat.pow 2 52 then ⟨significand.toUInt64⟩
  else
    let biased := (exponent + 1075).toNat
    let word := biased * Nat.pow 2 52 + (significand - Nat.pow 2 52)
    if word < 0x7FF0000000000000 then ⟨word.toUInt64⟩ else infinity

/-- The number nearest to the quotient of two positive integers; of two that are equally near, the
one with the even significand. Quotients beyond the largest number give the infinity. -/
def ofRatio (num den : Nat) : Binary64 :=
  if num = 0 then ⟨0⟩
  else
    let estimate : Int := num.log2 - den.log2
    let isBelow :=
      if 0 ≤ estimate then num < den * Nat.pow 2 estimate.toNat
      else num * Nat.pow 2 (-estimate).toNat < den
    let leading := if isBelow then estimate - 1 else estimate
    let exponent := max (leading - 52) (-1074)
    let rounded :=
      if 0 ≤ exponent then roundDiv num (den * Nat.pow 2 exponent.toNat)
      else roundDiv (num * Nat.pow 2 (-exponent).toNat) den
    ofSignificand rounded exponent

/-- The number nearest to `digits` times ten to the power `scale`. Powers that lie far outside of the
format are not computed. -/
def ofDecimal (digits : Nat) (scale : Int) : Binary64 :=
  if digits = 0 then ⟨0⟩
  else if 400 < scale then infinity
  else if scale < -(digits.log2 : Int) - 400 then ⟨0⟩
  else if 0 ≤ scale then ofRatio (digits * Nat.pow 10 scale.toNat) 1
  else ofRatio digits (Nat.pow 10 (-scale).toNat)

/-! ## Products and quotients -/

/-- The magnitude of a finite number as a quotient of integers. -/
def ratio (x : Binary64) : Nat × Nat :=
  (x.significand * Nat.pow 2 x.exponent.toNat, Nat.pow 2 (-x.exponent).toNat)

/-- The number nearest to the product of two magnitudes. -/
def times (x y : Binary64) : Binary64 := ofRatio (x.ratio.1 * y.ratio.1) (x.ratio.2 * y.ratio.2)

/-- The number nearest to the quotient of two magnitudes, of which the second is not zero. -/
def dividedBy (x y : Binary64) : Binary64 := ofRatio (x.ratio.1 * y.ratio.2) (x.ratio.2 * y.ratio.1)

/-- The number itself, if it is finite. -/
def finite? (x : Binary64) : Option Binary64 := if x.isFinite then some x else none

/-- The number nearest to an integer. -/
def ofInt (n : Int) : Binary64 := withSign (n < 0) (ofRatio n.natAbs 1)

/-- The number of a machine's floating point value. -/
def ofFloat (x : Float) : Binary64 := ⟨x.toBits⟩

end Binary64

end SqlFrontend
