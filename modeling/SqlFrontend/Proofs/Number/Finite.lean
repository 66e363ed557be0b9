import Mathlib.Algebra.Order.Group.Nat
import Mathlib.Algebra.Order.Ring.Nat
import Mathlib.Tactic.Ring
import SqlFrontend.Number.Binary64

/-!
# Finite numbers of the format binary64

The words of magnitudes are ordered as the magnitudes are. So a quotient that is at most a power of two
is rounded to a word that is at most the word of that power, and is finite if the power is.

Results:
* `Binary64.IsWithin`: a magnitude of at most a power of two, told by its word.
* `Binary64.isWithin_ofRatio`, `IsWithin.ratio_le`: how words and quotients are tied together.
* `Binary64.IsWithin.dividedBy`: a quotient by something that is at least one is no larger.
* `Binary64.isFinite_ofInt`: integers of 64 bits are finite.
-/

namespace SqlFrontend.Binary64

/-! ## Words -/

theorem biased_eq (x : Binary64) : x.biased = x.bits.toNat / 2 ^ 52 % 2 ^ 11 := by
  rw [biased, UInt64.toNat_and, UInt64.toNat_shiftRight]
  exact (Nat.and_two_pow_sub_one_eq_mod _ 11).trans (by rw [Nat.shiftRight_eq_div_pow]; rfl)

theorem fraction_eq (x : Binary64) : x.fraction = x.bits.toNat % 2 ^ 52 := by
  rw [fraction, UInt64.toNat_and]
  exact Nat.and_two_pow_sub_one_eq_mod _ 52

theorem biased_negate (x : Binary64) : x.negate.biased = x.biased := by
  rw [biased_eq, biased_eq, negate, UInt64.toNat_xor, Nat.xor_div_two_pow, Nat.xor_mod_two_pow]
  exact Nat.xor_zero _

theorem isFinite_withSign (negative : Bool) (x : Binary64) :
    (withSign negative x).isFinite = x.isFinite := by
  cases negative with
  | false => rfl
  | true => exact congrArg (· != 0x7FF) x.biased_negate

/-- A magnitude of at most 2^k. -/
def IsWithin (k : ℕ) (x : Binary64) : Prop := x.bits.toNat ≤ (k + 1023) * 2 ^ 52

theorem IsWithin.isFinite {k : ℕ} {x : Binary64} (h : x.IsWithin k) (hk : k ≤ 1023) :
    x.isFinite := by
  have hword : x.bits.toNat / 2 ^ 52 ≤ 2046 := by
    rw [IsWithin] at h
    omega
  rw [Binary64.isFinite, biased_eq, bne_iff_ne]
  omega

/-! ## Quotients as integers -/

/-- A quotient is at most a power of two; the exponent may be negative. -/
def RatioLe (num den : ℕ) (l : ℤ) : Prop := num * 2 ^ (-l).toNat ≤ den * 2 ^ l.toNat

instance (num den : ℕ) (l : ℤ) : Decidable (RatioLe num den l) := inferInstanceAs (Decidable (_ ≤ _))

namespace RatioLe

variable {num den : ℕ} {l l' : ℤ}

/-- The power may be written as a quotient of powers. -/
theorem iff_pow {m n : ℕ} (h : (m : ℤ) - n = l) : RatioLe num den l ↔ num * 2 ^ n ≤ den * 2 ^ m := by
  obtain ⟨t, hm⟩ : ∃ t, m = l.toNat + t := ⟨m - l.toNat, by omega⟩
  have hn : n = (-l).toNat + t := by omega
  rw [RatioLe, hm, hn, pow_add, pow_add, ← mul_assoc, ← mul_assoc]
  exact (Nat.mul_le_mul_right_iff (Nat.two_pow_pos t)).symm

theorem mono (h : RatioLe num den l) (hl : l ≤ l') : RatioLe num den l' := by
  rw [iff_pow (m := l.toNat + (l' - l).toNat) (n := (-l).toNat) (by omega), pow_add, ← mul_assoc]
  exact h.trans (Nat.le_mul_of_pos_right _ (Nat.two_pow_pos _))

theorem trans {other : ℕ} (h : RatioLe num den l) (h' : RatioLe den other l') :
    RatioLe num other (l + l') := by
  rw [iff_pow (m := l.toNat + l'.toNat) (n := (-l).toNat + (-l').toNat) (by omega)]
  calc num * 2 ^ ((-l).toNat + (-l').toNat)
      = num * 2 ^ (-l).toNat * 2 ^ (-l').toNat := by ring
    _ ≤ den * 2 ^ l.toNat * 2 ^ (-l').toNat := Nat.mul_le_mul_right _ h
    _ = den * 2 ^ (-l').toNat * 2 ^ l.toNat := by ring
    _ ≤ other * 2 ^ l'.toNat * 2 ^ l.toNat := Nat.mul_le_mul_right _ h'
    _ = other * 2 ^ (l.toNat + l'.toNat) := by ring

theorem nonneg (hnum : 0 < num) (h : RatioLe num num l) : 0 ≤ l := by
  have hpow : 2 ^ (-l).toNat ≤ 2 ^ l.toNat := Nat.le_of_mul_le_mul_left h hnum
  have := (Nat.pow_le_pow_iff_right (by decide)).1 hpow
  omega

end RatioLe

/-! ## Rounding -/

theorem roundDiv_le {num den m : ℕ} (hden : 0 < den) (h : num ≤ den * m) : roundDiv num den ≤ m := by
  have hquotient : num / den ≤ m := Nat.div_le_of_le_mul h
  rw [roundDiv]
  rcases hquotient.lt_or_eq with hlt | heq
  · split
    · exact hlt
    · exact hquotient
  · have hrest : num % den = 0 := by
      have hwhole := Nat.div_add_mod num den
      rw [heq] at hwhole
      omega
    rw [hrest, if_neg (by simp; omega)]
    exact hquotient

/-- The power of two of the first digit of a quotient. -/
def leading (num den : ℕ) : ℤ :=
  let estimate : Int := num.log2 - den.log2
  let isBelow :=
    if 0 ≤ estimate then num < den * Nat.pow 2 estimate.toNat
    else num * Nat.pow 2 (-estimate).toNat < den
  if isBelow then estimate - 1 else estimate

/-- The logarithms leave two places for the first digit. -/
theorem leading_eq (num den : ℕ) :
    let estimate : ℤ := num.log2 - den.log2
    leading num den = if RatioLe den num (-estimate) then estimate else estimate - 1 := by
  intro estimate
  have hbelow : (if 0 ≤ estimate then num < den * Nat.pow 2 estimate.toNat
      else num * Nat.pow 2 (-estimate).toNat < den) ↔ ¬RatioLe den num (-estimate) := by
    rw [RatioLe, not_le, neg_neg]
    split
    · have : (-estimate).toNat = 0 := by omega
      rw [this, pow_zero, mul_one]
      rfl
    · have : estimate.toNat = 0 := by omega
      rw [this, pow_zero, mul_one]
      rfl
  rw [← ite_not]
  exact if_congr hbelow rfl rfl

/-- A quotient lies between the power of its first digit and the next one. -/
theorem leading_bounds {num den : ℕ} (hnum : 0 < num) (hden : 0 < den) :
    RatioLe den num (-leading num den) ∧ RatioLe num den (leading num den + 1) := by
  have hnumLow : 2 ^ num.log2 ≤ num := Nat.log2_self_le hnum.ne'
  have hnumHigh : num ≤ 2 ^ (num.log2 + 1) := Nat.lt_log2_self.le
  have hdenLow : 2 ^ den.log2 ≤ den := Nat.log2_self_le hden.ne'
  have hdenHigh : den ≤ 2 ^ (den.log2 + 1) := Nat.lt_log2_self.le
  rw [leading_eq]
  split
  · next h =>
    refine ⟨h, (RatioLe.iff_pow (m := num.log2 + 1) (n := den.log2) (by omega)).2 ?_⟩
    calc num * 2 ^ den.log2 ≤ 2 ^ (num.log2 + 1) * den := Nat.mul_le_mul hnumHigh hdenLow
      _ = den * 2 ^ (num.log2 + 1) := Nat.mul_comm _ _
  · next h =>
    refine ⟨(RatioLe.iff_pow (m := den.log2 + 1) (n := num.log2) (by omega)).2 ?_, ?_⟩
    · calc den * 2 ^ num.log2 ≤ 2 ^ (den.log2 + 1) * num := Nat.mul_le_mul hdenHigh hnumLow
        _ = num * 2 ^ (den.log2 + 1) := Nat.mul_comm _ _
    · rw [RatioLe, not_le, neg_neg] at h
      rw [sub_add_cancel]
      exact h.le

theorem leading_le {num den k : ℕ} (hnum : 0 < num) (hden : 0 < den) (h : num ≤ den * 2 ^ k) :
    leading num den ≤ k := by
  have hk : RatioLe num den k := by simpa [RatioLe] using h
  have := RatioLe.nonneg hden ((leading_bounds hnum hden).1.trans hk)
  omega

/-- The power of two that the last digit of a rounded quotient counts. -/
def place (num den : ℕ) : ℤ := max (leading num den - 52) (-1074)

theorem ofRatio_eq {num : ℕ} (hnum : num ≠ 0) (den : ℕ) :
    let e := place num den
    ofRatio num den = ofSignificand (roundDiv (num * 2 ^ (-e).toNat) (den * 2 ^ e.toNat)) e := by
  intro e
  have hround : (if 0 ≤ e then roundDiv num (den * Nat.pow 2 e.toNat)
      else roundDiv (num * Nat.pow 2 (-e).toNat) den) =
      roundDiv (num * 2 ^ (-e).toNat) (den * 2 ^ e.toNat) := by
    split
    · have : (-e).toNat = 0 := by omega
      rw [this, pow_zero, mul_one]
      rfl
    · have : e.toNat = 0 := by omega
      rw [this, pow_zero, mul_one]
      rfl
  rw [← hround, ofRatio, if_neg hnum]
  rfl

theorem ofSignificand_le {significand k : ℕ} {e : ℤ} (hk : k ≤ 1023)
    (hdigits : significand ≤ 2 ^ 53) (hlow : -1074 ≤ e) (hplace : e ≤ k - 52)
    (hlast : e = k - 52 → significand ≤ 2 ^ 52) : (ofSignificand significand e).IsWithin k := by
  have hword {word : ℕ} (h : word ≤ (k + 1023) * 2 ^ 52) : word.toUInt64.toNat = word := by
    rw [Nat.toUInt64, UInt64.toNat_ofNat']
    omega
  rw [ofSignificand, Nat.pow_eq]
  split
  · next hsmall =>
    have hbound : significand ≤ (k + 1023) * 2 ^ 52 :=
      hsmall.le.trans (Nat.le_mul_of_pos_left _ (Nat.succ_pos _))
    rw [IsWithin, hword hbound]
    exact hbound
  · next hlarge =>
    have hbound : (e + 1075).toNat * 2 ^ 52 + (significand - 2 ^ 52) ≤ (k + 1023) * 2 ^ 52 := by
      by_cases he : e = k - 52
      · have := hlast he
        omega
      · omega
    dsimp only
    rw [if_pos (by omega), IsWithin, hword hbound]
    exact hbound

/-- A quotient of at most a power of two is rounded to no more than that power. -/
theorem isWithin_ofRatio {num den k : ℕ} (hden : 0 < den) (hk : k ≤ 1023) (h : num ≤ den * 2 ^ k) :
    (ofRatio num den).IsWithin k := by
  rcases num.eq_zero_or_pos with rfl | hnum
  · rw [ofRatio, if_pos rfl]
    exact Nat.zero_le _
  have hle : RatioLe num den k := by simpa [RatioLe] using h
  have hleading := leading_le hnum hden h
  have hplace : leading num den - 52 ≤ place num den := le_max_left _ _
  have hrounded (j : ℕ) (hj : RatioLe num den (place num den + j)) :
      roundDiv (num * 2 ^ (-place num den).toNat) (den * 2 ^ (place num den).toNat) ≤ 2 ^ j := by
    refine roundDiv_le (Nat.mul_pos hden (Nat.two_pow_pos _)) ?_
    rw [mul_assoc, ← pow_add]
    exact (RatioLe.iff_pow (by omega)).1 hj
  rw [ofRatio_eq hnum.ne']
  refine ofSignificand_le hk (hrounded 53 ((leading_bounds hnum hden).2.mono (by omega)))
    (le_max_right _ _) (max_le (by omega) (by omega)) fun he => hrounded 52 (hle.mono (by omega))

/-! ## Quotients of words -/

theorem IsWithin.ratio_le {k : ℕ} {x : Binary64} (h : x.IsWithin k) (hk : k ≤ 1023) :
    x.ratio.1 ≤ x.ratio.2 * 2 ^ k := by
  have hword : x.biased * 2 ^ 52 + x.fraction ≤ (k + 1023) * 2 ^ 52 := by
    rw [IsWithin] at h
    rw [biased_eq, fraction_eq]
    omega
  have hfraction : x.fraction < 2 ^ 52 := x.fraction_eq ▸ Nat.mod_lt _ (Nat.two_pow_pos 52)
  -- A significand has 52 digits, and one more but for the power itself.
  obtain ⟨j, hj, hle⟩ : ∃ j : ℕ, x.exponent + j = k ∧ x.significand ≤ 2 ^ j := by
    have hexponent : x.exponent = max (x.biased : ℤ) 1 - 1075 := rfl
    have hdigits {j : ℕ} (hj : 53 ≤ j) : 2 ^ 52 + x.fraction ≤ 2 ^ j :=
      (by omega : 2 ^ 52 + x.fraction ≤ 2 ^ 53).trans (Nat.pow_le_pow_right (by decide) hj)
    refine ⟨(k - x.exponent).toNat, by omega, ?_⟩
    rw [significand, Nat.pow_eq]
    by_cases htop : x.biased = k + 1023
    · have hzero : x.fraction = 0 := by omega
      have hplace : (k - x.exponent).toNat = 52 := by omega
      rw [if_neg (by omega), hzero, hplace]
      rfl
    · have hplace : 53 ≤ (k - x.exponent).toNat := by omega
      split
      · exact (Nat.le_add_left _ _).trans (hdigits hplace)
      · exact hdigits hplace
  have hratio : RatioLe x.significand 1 j := by simpa [RatioLe] using hle
  have hpow := (RatioLe.iff_pow (m := (-x.exponent).toNat + k) (n := x.exponent.toNat) (by omega)).1
    hratio
  rwa [one_mul, pow_add] at hpow

theorem ratio_pos (x : Binary64) : 0 < x.ratio.2 := Nat.two_pow_pos _

/-- What is divided by something that is at least one grows no larger. -/
theorem IsWithin.dividedBy {k : ℕ} {x y : Binary64} (h : x.IsWithin k) (hk : k ≤ 1023)
    (hy : y.ratio.2 ≤ y.ratio.1) : (x.dividedBy y).IsWithin k := by
  have hden : 0 < x.ratio.2 * y.ratio.1 := Nat.mul_pos x.ratio_pos (y.ratio_pos.trans_le hy)
  refine isWithin_ofRatio hden hk ?_
  calc x.ratio.1 * y.ratio.2 ≤ x.ratio.2 * 2 ^ k * y.ratio.1 := Nat.mul_le_mul (h.ratio_le hk) hy
    _ = x.ratio.2 * y.ratio.1 * 2 ^ k := by ring

theorem isFinite_ofInt {n : ℤ} (h : n.natAbs ≤ 2 ^ 64) : (ofInt n).isFinite := by
  rw [ofInt, isFinite_withSign]
  exact (isWithin_ofRatio (k := 64) Nat.one_pos (by decide) (by omega)).isFinite (by decide)

theorem isFinite_of_finite? {x y : Binary64} (h : x.finite? = some y) : y.isFinite := by
  rw [finite?] at h
  split at h
  · next hx => exact Option.some.inj h ▸ hx
  · cases h

end SqlFrontend.Binary64
