import SqlFrontend.Document.Value

/-!
# Numbers in documents

* `Numeral`: a number as it is written.
* `Numeral.value?`: the number that it stands for. An integer of 64 bits stands for itself. Any other
  number is a significand, made of the leading digits that 64 bits hold, times a power of ten; it is
  computed in binary64 with one rounding for each of the two and one for their product.
* `Numeral.take?`: reads a numeral off a text.
-/

namespace SqlFrontend.Document

/-- A number as it is written. All digits are decimal. -/
structure Numeral where
  negative : Bool
  integral : List Char
  /-- The digits behind a point. -/
  fraction : Option (List Char)
  /-- The exponent: its sign and its digits. -/
  exponent : Option (Bool × List Char)
  deriving DecidableEq, Repr

namespace Numeral

/-! ## Values -/

/-- The value of a digit. -/
def digit (c : Char) : Nat := c.toNat - 48

/-- The number that digits spell. -/
def natural (digits : List Char) : Nat := digits.foldl (fun n c => 10 * n + digit c) 0

/-- Appends digits to a significand up to the first one for which 64 bits have no room, and gives the
digits from there on. -/
def extend (significand : Nat) : List Char → Nat × List Char
  | [] => (significand, [])
  | c :: rest =>
    let longer := 10 * significand + digit c
    if longer < 18446744073709551616 then extend longer rest else (significand, c :: rest)

/-- The power of ten as a number of the format. -/
def powerOfTen (n : Nat) : Binary64 := .ofRatio (Nat.pow 10 n) 1

/-- Divides by large powers of ten until the exponent that is left has a power in the format. -/
def scaleDown (x : Binary64) (exponent : Nat) : Binary64 :=
  if exponent ≤ 308 then x.dividedBy (powerOfTen exponent)
  else if x.isZero then x
  else scaleDown (x.dividedBy (powerOfTen 308)) (exponent - 308)
termination_by exponent

/-- A significand times a power of ten, or nothing if that is beyond the format. -/
def scaled? (significand : Nat) (exponent : Int) : Option Binary64 :=
  let x := Binary64.ofRatio significand 1
  if exponent < 0 then some (scaleDown x exponent.natAbs)
  else if x.isZero then some x
  else if 308 < exponent then none
  else (x.times (powerOfTen exponent.toNat)).finite?

/-- The exponent as it is written. -/
def writtenExponent (n : Numeral) : Int :=
  match n.exponent with
  | none => 0
  | some (negative, digits) => if negative then -(natural digits : Int) else natural digits

/-- The number as a fraction. -/
def fraction? (n : Numeral) : Option Binary64 :=
  let (significand, dropped) := extend 0 n.integral
  let fraction := n.fraction.getD []
  let (significand, rest) := extend significand fraction
  let kept := fraction.length - rest.length
  let exponent := n.writtenExponent + dropped.length - kept
  (scaled? significand exponent).map (Binary64.withSign n.negative)

/-- The number as an integer of 64 bits, if it is one. A zero with a minus sign is not. -/
def integer? (n : Numeral) : Option Int :=
  if n.fraction.isSome || n.exponent.isSome then none
  else
    let magnitude := natural n.integral
    if !n.negative then
      if magnitude < 18446744073709551616 then some magnitude else none
    else if 0 < magnitude ∧ magnitude ≤ 9223372036854775808 then some (-magnitude)
    else none

/-- The number that a numeral stands for, or nothing if it is beyond the format. -/
def value? (n : Numeral) : Option Document :=
  match n.integer? with
  | some value => some (.integer value)
  | none => n.fraction?.map .float

/-! ## Reading -/

/-- Splits the leading digits off a text. There has to be one. -/
def digits? (text : List Char) : Option (List Char × List Char) :=
  match text.takeWhile Char.isDigit with
  | [] => none
  | digits => some (digits, text.dropWhile Char.isDigit)

/-- Splits the integral part off a text. A zero stands alone. -/
def integral? : List Char → Option (List Char × List Char)
  | '0' :: rest => some (['0'], rest)
  | text => digits? text

/-- Splits the point and the digits behind it off a text, if a point stands there. -/
def pointAndDigits? : List Char → Option (Option (List Char) × List Char)
  | '.' :: rest => (digits? rest).map fun (digits, rest) => (some digits, rest)
  | text => some (none, text)

/-- Splits the digits of an exponent off a text, behind its sign. -/
def exponentDigits? (negative : Bool) (text : List Char) :
    Option (Option (Bool × List Char) × List Char) :=
  (digits? text).map fun (digits, rest) => (some (negative, digits), rest)

/-- Splits an exponent off a text, if its mark stands there. -/
def exponent? : List Char → Option (Option (Bool × List Char) × List Char)
  | mark :: rest =>
    if mark = 'e' ∨ mark = 'E' then
      match rest with
      | '+' :: rest => exponentDigits? false rest
      | '-' :: rest => exponentDigits? true rest
      | rest => exponentDigits? false rest
    else some (none, mark :: rest)
  | [] => some (none, [])

/-- Splits a number without its sign off a text. -/
def unsigned? (negative : Bool) (text : List Char) : Option (Numeral × List Char) := do
  let (integral, rest) ← integral? text
  let (fraction, rest) ← pointAndDigits? rest
  let (exponent, rest) ← exponent? rest
  return (⟨negative, integral, fraction, exponent⟩, rest)

/-- Splits a number off a text. -/
def take? : List Char → Option (Numeral × List Char)
  | '-' :: rest => unsigned? true rest
  | text => unsigned? false text

/-! ### Every number takes something off the text -/

theorem digits?_length_lt {text rest digits : List Char}
    (h : digits? text = some (digits, rest)) : rest.length < text.length := by
  have whole := congrArg List.length
    (List.takeWhile_append_dropWhile (p := Char.isDigit) (l := text))
  unfold digits? at h
  split at h
  · simp at h
  · rename_i first
    simp only [Option.some.injEq, Prod.mk.injEq] at h
    obtain ⟨_, rfl⟩ := h
    have := List.length_pos_iff.2 first
    simp only [List.length_append] at whole
    omega

theorem integral?_length_lt {text rest digits : List Char}
    (h : integral? text = some (digits, rest)) : rest.length < text.length := by
  unfold integral? at h
  split at h
  · simp_all
  · exact digits?_length_lt h

theorem pointAndDigits?_length_le {text rest : List Char} {digits : Option (List Char)}
    (h : pointAndDigits? text = some (digits, rest)) : rest.length ≤ text.length := by
  unfold pointAndDigits? at h
  split at h
  · obtain ⟨⟨found, left⟩, hfound, heq⟩ := Option.map_eq_some_iff.1 h
    have := digits?_length_lt hfound
    simp only [Prod.mk.injEq] at heq
    obtain ⟨_, rfl⟩ := heq
    simp only [List.length_cons]
    omega
  · simp_all

theorem exponentDigits?_length_lt {negative : Bool} {text rest : List Char}
    {exponent : Option (Bool × List Char)}
    (h : exponentDigits? negative text = some (exponent, rest)) : rest.length < text.length := by
  obtain ⟨⟨found, left⟩, hfound, heq⟩ := Option.map_eq_some_iff.1 h
  have := digits?_length_lt hfound
  simp only [Prod.mk.injEq] at heq
  obtain ⟨_, rfl⟩ := heq
  exact this

theorem exponent?_length_le {text rest : List Char} {exponent : Option (Bool × List Char)}
    (h : exponent? text = some (exponent, rest)) : rest.length ≤ text.length := by
  unfold exponent? at h
  split at h
  · split at h
    · split at h <;> have := exponentDigits?_length_lt h <;> simp_all <;> omega
    · simp_all
  · simp_all

theorem unsigned?_length_lt {negative : Bool} {text rest : List Char} {n : Numeral}
    (h : unsigned? negative text = some (n, rest)) : rest.length < text.length := by
  simp only [unsigned?, Option.bind_eq_bind, Option.bind_eq_some_iff, Prod.exists] at h
  obtain ⟨_, _, hintegral, _, _, hpoint, _, _, hexponent, heq⟩ := h
  have := integral?_length_lt hintegral
  have := pointAndDigits?_length_le hpoint
  have := exponent?_length_le hexponent
  simp only [Option.pure_def, Option.some.injEq, Prod.mk.injEq] at heq
  obtain ⟨_, rfl⟩ := heq
  omega

theorem take?_length_lt {text rest : List Char} {n : Numeral}
    (h : take? text = some (n, rest)) : rest.length < text.length := by
  unfold take? at h
  split at h
  · have := unsigned?_length_lt h
    simp only [List.length_cons]
    omega
  · exact unsigned?_length_lt h

end Numeral

end SqlFrontend.Document
