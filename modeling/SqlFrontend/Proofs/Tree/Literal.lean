import Mathlib.Algebra.Group.Nat.Defs
import SqlFrontend.Tree.Literal

/-!
# Literals as they are written

Results:
* `Literal.toList_summary`: an integer that is not negative is written with digits only.
* `Literal.ofNumeral?_summary`, `Numeral.natural?_repr`: these digits stand for it again.
-/

namespace SqlFrontend

namespace Numeral

theorem isDigit_of_mem_toDigits {n : ℕ} {c : Char} (h : c ∈ Nat.toDigits 10 n) : c.isDigit :=
  Nat.isDigit_of_mem_toDigits (by decide) (by decide) h

theorem digits?_toDigits (n : ℕ) : digits? (Nat.toDigits 10 n) = some n := by
  have hall : (Nat.toDigits 10 n).all Char.isDigit = true :=
    List.all_eq_true.2 fun c hc => isDigit_of_mem_toDigits hc
  have hvalue : (Nat.toDigits 10 n).foldl (fun n c => 10 * n + (c.toNat - 48)) 0 = n := by
    have h := Nat.ofDigitChars_ten_toDigits (n := n)
    rw [Nat.ofDigitChars_eq_foldl] at h
    exact h
  have hne : (Nat.toDigits 10 n).isEmpty = false := by simp [Nat.toDigits_ne_nil]
  rw [digits?, hall, hne, hvalue]
  rfl

/-- Digits have no sign before them. -/
theorem sign_of_isDigit {c : Char} {cs : List Char} (h : c.isDigit) :
    sign (c :: cs) = (false, c :: cs) := by
  unfold sign
  split
  · next heq =>
    obtain ⟨rfl, rfl⟩ := List.cons.inj heq
    exact absurd h (by decide)
  · next heq =>
    obtain ⟨rfl, rfl⟩ := List.cons.inj heq
    exact absurd h (by decide)
  · rfl

/-- The digits of a number of 64 bits stand for it, without a sign too. -/
theorem natural?_repr {n : ℕ} (h : n < 2 ^ 64) : natural? (Nat.repr n) = some n := by
  have hdigits : natural? (Nat.repr n) =
      (digits? (Nat.toDigits 10 n)).filter fun n => n < 18446744073709551616 := by
    rw [natural?, Nat.toList_repr]
    split
    · next heq =>
      have hplus : '+' ∈ Nat.toDigits 10 n := heq ▸ List.mem_cons_self
      exact absurd (isDigit_of_mem_toDigits hplus) (by decide)
    · rfl
  rw [hdigits, digits?_toDigits, Option.filter_some]
  exact if_pos (decide_eq_true h)

end Numeral

namespace Literal

theorem toList_summary (n : ℕ) : (summary (.integer n)).toList = Nat.toDigits 10 n := by
  show (toString (n : Int)).toList = _
  rw [Int.toString_eq_repr]
  show (Nat.repr n).toList = _
  exact Nat.toList_repr

/-- The digits of an integer of 64 bits stand for it. -/
theorem ofNumeral?_summary {n : ℕ} (h : n < 2 ^ 63) :
    ofNumeral? (summary (.integer n)) = some (.integer n) := by
  have hdigits := Numeral.digits?_toDigits n
  have hsign : Numeral.sign (Nat.toDigits 10 n) = (false, Nat.toDigits 10 n) := by
    cases hd : Nat.toDigits 10 n with
    | nil => exact absurd hd Nat.toDigits_ne_nil
    | cons c cs =>
      refine Numeral.sign_of_isDigit (Numeral.isDigit_of_mem_toDigits (n := n) ?_)
      rw [hd]
      exact List.mem_cons_self
  have hinteger : Numeral.integer? (summary (.integer n)) = some (n : Int) := by
    rw [Numeral.integer?, toList_summary, hsign]
    dsimp only
    rw [hdigits]
    dsimp only
    rw [if_neg Bool.false_ne_true, if_pos (by omega)]
  have hplain : ((summary (.integer n)).toList.any fun c => c == '.' || c == 'e' || c == 'E')
      = false := by
    rw [toList_summary, List.any_eq_false]
    intro c hc hmark
    have hdigit := Numeral.isDigit_of_mem_toDigits hc
    simp only [Bool.or_eq_true, beq_iff_eq] at hmark
    rcases hmark with (rfl | rfl) | rfl <;> exact absurd hdigit (by decide)
  rw [ofNumeral?, hplain, hinteger]
  rfl

end Literal

end SqlFrontend
