import Mathlib.Data.List.TakeWhile
import SqlFrontend.Proofs.Text.Case
import SqlFrontend.Proofs.Tree.Literal

/-!
# The forms of numerals

A numeral is digits with an optional fraction, or a fraction alone, and an optional exponent behind that.
Every numeral stands for a constant; digits alone stand for an integer as long as that has 64 bits.

Results:
* `Numeral.IsNumeral`: the texts of this form.
* `Numeral.IsNumeral.exists_binary64`: each has a value as a fraction.
* `Literal.ofNumeral?_of_isNumeral`: each stands for a constant.
* `Literal.ofNumeral?_of_isDigits`: digits alone stand for the integer that they denote, and for a
  fraction where that is too large.
-/

namespace SqlFrontend

namespace Numeral

/-- ASCII digits, at least one. -/
def IsDigits (text : List Char) : Prop := text ≠ [] ∧ ∀ c ∈ text, c.isDigit

/-- Digits behind a point. -/
def IsFraction (text : List Char) : Prop := ∃ digits, text = '.' :: digits ∧ IsDigits digits

/-- Digits behind the mark of an exponent, with an optional sign before them. -/
def IsExponent (text : List Char) : Prop :=
  ∃ mark sign digits, text = mark :: (sign ++ digits) ∧ (mark = 'e' ∨ mark = 'E') ∧
    (sign = [] ∨ sign = ['+'] ∨ sign = ['-']) ∧ IsDigits digits

/-- A numeral: digits with an optional fraction, or a fraction alone, and then an optional exponent. -/
def IsNumeral (text : List Char) : Prop :=
  ∃ whole fraction exponent, text = whole ++ fraction ++ exponent ∧
    (IsDigits whole ∧ (fraction = [] ∨ IsFraction fraction) ∨ whole = [] ∧ IsFraction fraction) ∧
    (exponent = [] ∨ IsExponent exponent)

/-- A fraction with another one behind it, and then an optional exponent. -/
def HasTwoPoints (text : List Char) : Prop :=
  ∃ first second exponent, text = first ++ second ++ exponent ∧ IsFraction first ∧
    IsFraction second ∧ (exponent = [] ∨ IsExponent exponent)

/-! ## Digits -/

theorem isDigits_cons {c : Char} {text : List Char} (hc : c.isDigit)
    (h : ∀ d ∈ text, d.isDigit) : IsDigits (c :: text) :=
  ⟨List.cons_ne_nil _ _, List.forall_mem_cons.2 ⟨hc, h⟩⟩

theorem forall_takeWhile_isDigit (text : List Char) :
    ∀ c ∈ text.takeWhile Char.isDigit, c.isDigit := fun _ h => List.mem_takeWhile_imp h

theorem IsDigits.exists_digits {text : List Char} (h : IsDigits text) :
    ∃ n, digits? text = some n := by
  have hall : text.all Char.isDigit := List.all_eq_true.2 h.2
  have hempty : text.isEmpty = false := by simpa using h.1
  rw [digits?, hall, hempty]
  exact ⟨_, rfl⟩

/-- Digits have no sign. -/
theorem IsDigits.sign_eq {text : List Char} (h : IsDigits text) : sign text = (false, text) := by
  obtain ⟨c, cs, rfl⟩ := List.exists_cons_of_ne_nil h.1
  exact sign_of_isDigit (h.2 c List.mem_cons_self)

/-- What stands behind digits: nothing, or a text that starts with no digit. -/
theorem span_digits {digits behind : List Char} (h : ∀ c ∈ digits, c.isDigit)
    (hb : ∀ c ∈ behind.head?, c.isDigit = false) :
    (digits ++ behind).takeWhile Char.isDigit = digits ∧
      (digits ++ behind).dropWhile Char.isDigit = behind := by
  have htake : behind.takeWhile Char.isDigit = [] := by
    cases behind with
    | nil => rfl
    | cons c cs => rw [List.takeWhile_cons, hb c rfl]; rfl
  have hdrop : behind.dropWhile Char.isDigit = behind := by
    cases behind with
    | nil => rfl
    | cons c cs => rw [List.dropWhile_cons, hb c rfl]; rfl
  rw [List.takeWhile_append_of_pos h, List.dropWhile_append_of_pos h, htake, hdrop, List.append_nil]
  exact ⟨rfl, rfl⟩

/-! ## Fractions and exponents -/

/-- An exponent starts with neither a digit nor a point. -/
theorem IsExponent.head_of_mem {text : List Char} (h : text = [] ∨ IsExponent text) :
    ∀ c ∈ text.head?, c.isDigit = false ∧ c ≠ '.' := by
  rcases h with rfl | ⟨mark, sign, digits, rfl, hmark, -, -⟩
  · simp
  · intro c hc
    obtain rfl : mark = c := by simpa using hc
    rcases hmark with rfl | rfl <;> decide

theorem IsExponent.exists_exponent {text : List Char} (h : text = [] ∨ IsExponent text) :
    ∃ scale, exponent? text = some scale := by
  rcases h with rfl | ⟨mark, signs, digits, rfl, hmark, hsign, hdigits⟩
  · exact ⟨0, rfl⟩
  · obtain ⟨n, hn⟩ := hdigits.exists_digits
    have hrest : ∃ negative, sign (signs ++ digits) = (negative, digits) := by
      rcases hsign with rfl | rfl | rfl
      · exact ⟨_, hdigits.sign_eq⟩
      · exact ⟨false, rfl⟩
      · exact ⟨true, rfl⟩
    obtain ⟨negative, hrest⟩ := hrest
    have hmark' : (mark = 'e' || mark = 'E') = true := by simpa using hmark
    rw [exponent?, if_pos hmark', hrest]
    dsimp only
    rw [hn]
    exact ⟨_, rfl⟩

/-- What a numeral with a point denotes: the digits on both sides of it are one number, scaled down by
those behind it. -/
theorem exists_fraction_point {whole digits exponent : List Char} (hwhole : ∀ c ∈ whole, c.isDigit)
    (hdigits : IsDigits digits) (hexponent : exponent = [] ∨ IsExponent exponent) :
    ∃ value, fraction? (whole ++ '.' :: (digits ++ exponent)) = some value := by
  have hboth : IsDigits (whole ++ digits) :=
    ⟨fun h => hdigits.1 (List.append_eq_nil_iff.1 h).2, fun c hc =>
      (List.mem_append.1 hc).elim (hwhole c) (hdigits.2 c)⟩
  obtain ⟨n, hn⟩ := hboth.exists_digits
  obtain ⟨scale, hscale⟩ := IsExponent.exists_exponent hexponent
  have hpoint : ∀ c ∈ ('.' :: (digits ++ exponent)).head?, c.isDigit = false := by
    rintro c ⟨⟩
    rfl
  obtain ⟨htake, hdrop⟩ := span_digits hwhole hpoint
  obtain ⟨htake', hdrop'⟩ := span_digits hdigits.2 fun c hc =>
    (IsExponent.head_of_mem hexponent c hc).1
  simp only [fraction?, htake, hdrop, htake', hdrop', hn, hscale]
  exact ⟨_, rfl⟩

/-- Without a point, the digits are scaled by the exponent alone. -/
theorem fraction?_whole {whole exponent : List Char} {n : ℕ} {scale : ℤ} (hwhole : IsDigits whole)
    (hexponent : exponent = [] ∨ IsExponent exponent) (hn : digits? whole = some n)
    (hscale : exponent? exponent = some scale) :
    fraction? (whole ++ exponent) = some (Binary64.ofDecimal n scale) := by
  have hhead := IsExponent.head_of_mem hexponent
  obtain ⟨htake, hdrop⟩ := span_digits hwhole.2 fun c hc => (hhead c hc).1
  rw [fraction?, htake, hdrop]
  cases exponent with
  | nil => simp [hn, hscale]
  | cons mark rest =>
    have hmark : mark ≠ '.' := (hhead mark rfl).2
    simp [hmark, hn, hscale]

theorem IsNumeral.exists_fraction {text : List Char} (h : IsNumeral text) :
    ∃ value, fraction? text = some value := by
  obtain ⟨whole, fraction, exponent, rfl, hparts, hexponent⟩ := h
  rcases hparts with ⟨hwhole, rfl | ⟨digits, rfl, hdigits⟩⟩ | ⟨rfl, digits, rfl, hdigits⟩
  · obtain ⟨n, hn⟩ := hwhole.exists_digits
    obtain ⟨scale, hscale⟩ := IsExponent.exists_exponent hexponent
    rw [List.append_nil]
    exact ⟨_, fraction?_whole hwhole hexponent hn hscale⟩
  · rw [List.append_assoc]
    exact exists_fraction_point hwhole.2 hdigits hexponent
  · have hwhole : ∀ c ∈ ([] : List Char), c.isDigit := by simp
    exact exists_fraction_point hwhole hdigits hexponent

/-- A numeral starts with a digit or with a point. -/
theorem IsNumeral.exists_head {text : List Char} (h : IsNumeral text) :
    ∃ c rest, text = c :: rest ∧ (c.isDigit ∨ c = '.') := by
  obtain ⟨whole, fraction, exponent, rfl, hparts, -⟩ := h
  have hdigits {whole behind : List Char} (h : IsDigits whole) :
      ∃ c rest, whole ++ behind = c :: rest ∧ (c.isDigit ∨ c = '.') := by
    obtain ⟨c, cs, rfl⟩ := List.exists_cons_of_ne_nil h.1
    exact ⟨c, cs ++ behind, rfl, .inl (h.2 c List.mem_cons_self)⟩
  rcases hparts with ⟨hwhole, -⟩ | ⟨rfl, digits, rfl, -⟩
  · rw [List.append_assoc]
    exact hdigits hwhole
  · exact ⟨'.', digits ++ exponent, by simp, .inr rfl⟩

/-- No numeral is the name of a value that has no digits. -/
theorem IsNumeral.lower_ne {text : String} (h : IsNumeral text.toList) {c : Char} {word : String}
    (hword : word.toList.head? = some c) (hc : c.isDigit = false ∧ c ≠ '.') :
    Text.lower text ≠ word := by
  obtain ⟨d, rest, htext, hd⟩ := h.exists_head
  intro heq
  have hlower : word.toList.head? = some d.toLower := by
    rw [← heq, Text.lower, String.toList_map, htext]
    rfl
  have hsame : d.toLower = d := by
    refine Char.toNat_inj.1 ((Text.toNat_toLower d).trans (if_neg fun hcapital => ?_))
    rcases hd with hd | rfl
    · simp [Char.isDigit, UInt32.le_iff_toNat_le] at hd
      omega
    · exact absurd hcapital (by decide)
  rw [hword, hsame, Option.some.injEq] at hlower
  rcases hd with hd | hd
  · rw [hlower, hd] at hc
    cases hc.1
  · exact hc.2 (hlower.trans hd)

theorem IsNumeral.binary64?_eq {text : String} (h : IsNumeral text.toList) :
    binary64? text = fraction? text.toList := by
  have hsign : sign text.toList = (false, text.toList) := by
    obtain ⟨c, rest, htext, hc | rfl⟩ := h.exists_head
    · rw [htext]
      exact sign_of_isDigit hc
    · rw [htext]
      rfl
  have hinf : Text.lower text ≠ "inf" := h.lower_ne rfl (by decide)
  have hinfinity : Text.lower text ≠ "infinity" := h.lower_ne rfl (by decide)
  have hnan : Text.lower text ≠ "nan" := h.lower_ne rfl (by decide)
  rw [binary64?, hsign]
  simp only [String.ofList_toList]
  cases fraction? text.toList <;> rfl

end Numeral

namespace Literal

open Numeral

/-- Every numeral stands for a constant. -/
theorem ofNumeral?_of_isNumeral {text : String} (h : IsNumeral text.toList) :
    ∃ value, ofNumeral? text = some value := by
  obtain ⟨value, hvalue⟩ := h.exists_fraction
  have hfloat : (binary64? text).map Literal.float = some (.float value) := by
    rw [h.binary64?_eq, hvalue]
    rfl
  unfold ofNumeral?
  split
  · exact ⟨_, hfloat⟩
  · split
    · exact ⟨_, rfl⟩
    · exact ⟨_, hfloat⟩

/-- Digits alone stand for the integer that they denote, if that has 64 bits, and for a fraction if
not. -/
theorem ofNumeral?_of_isDigits {text : String} {n : ℕ} (h : IsDigits text.toList)
    (hn : digits? text.toList = some n) :
    ofNumeral? text = some (if n ≤ 2 ^ 63 - 1 then .integer n else .float (.ofDecimal n 0)) := by
  have hplain : (text.toList.any fun c => c == '.' || c == 'e' || c == 'E') = false := by
    rw [List.any_eq_false]
    intro c hc hmark
    have hdigit := h.2 c hc
    simp only [Bool.or_eq_true, beq_iff_eq] at hmark
    rcases hmark with (rfl | rfl) | rfl <;> exact absurd hdigit (by decide)
  have hnumeral : IsNumeral text.toList :=
    ⟨text.toList, [], [], by simp, .inl ⟨h, .inl rfl⟩, .inl rfl⟩
  have hfraction : fraction? text.toList = some (.ofDecimal n 0) := by
    have hwhole : fraction? (text.toList ++ []) = some (.ofDecimal n 0) :=
      fraction?_whole h (.inl rfl) hn rfl
    rwa [List.append_nil] at hwhole
  have hinteger : integer? text = if n ≤ 2 ^ 63 - 1 then some (n : ℤ) else none := by
    rw [integer?, h.sign_eq]
    dsimp only
    rw [hn]
    dsimp only
    rw [if_neg Bool.false_ne_true]
    split <;> split <;> first | rfl | omega
  rw [ofNumeral?, hplain, hinteger, hnumeral.binary64?_eq, hfraction, if_neg Bool.false_ne_true]
  by_cases hfits : n ≤ 2 ^ 63 - 1
  · rw [if_pos hfits, if_pos hfits]
  · rw [if_neg hfits, if_neg hfits]
    rfl

end Literal

end SqlFrontend
