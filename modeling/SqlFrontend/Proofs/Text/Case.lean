import Mathlib.Data.Nat.Notation
import SqlFrontend.Text.Word

/-!
# The case of letters

Results:
* `Text.upper_eq_of_lower_eq`: words that agree in small letters agree in capitals.
* `Text.lower_append`: letter by letter, a text is spelt as its parts are.
* `Text.startsWith_of_lower_eq`: whether a text starts with a sign does not depend on its letters.
-/

namespace SqlFrontend

namespace Text

theorem toNat_toLower (c : Char) :
    c.toLower.toNat = if 65 ≤ c.toNat ∧ c.toNat ≤ 90 then c.toNat + 32 else c.toNat := by
  have hrange : (c.val ≥ 'A'.val ∧ c.val ≤ 'Z'.val) ↔ 65 ≤ c.toNat ∧ c.toNat ≤ 90 := by
    simp [UInt32.le_iff_toNat_le]
  delta Char.toLower
  split
  · next h =>
    have hcapital := hrange.1 h
    have hlast : c.val.toNat ≤ 90 := hcapital.2
    rw [if_pos hcapital]
    show (c.val.toNat + 32) % 4294967296 = c.val.toNat + 32
    omega
  · next h => rw [if_neg fun hcapital => h (hrange.2 hcapital)]

theorem toNat_toUpper (c : Char) :
    c.toUpper.toNat = if 97 ≤ c.toNat ∧ c.toNat ≤ 122 then c.toNat - 32 else c.toNat := by
  have hrange : ('a'.val ≤ c.val ∧ c.val ≤ 'z'.val) ↔ 97 ≤ c.toNat ∧ c.toNat ≤ 122 := by
    simp [UInt32.le_iff_toNat_le]
  delta Char.toUpper
  split
  · next h =>
    have hsmall := hrange.1 h
    have hbounds : 97 ≤ c.val.toNat ∧ c.val.toNat ≤ 122 := hsmall
    rw [if_pos hsmall]
    show (c.val + ('A'.val - 'a'.val)).toNat = c.val.toNat - 32
    rw [UInt32.toNat_add]
    show (c.val.toNat + 4294967264) % 4294967296 = c.val.toNat - 32
    omega
  · next h => rw [if_neg fun hsmall => h (hrange.2 hsmall)]

/-- A letter and its capital are told by their numbers, 32 apart. -/
theorem toUpper_eq_of_toLower_eq {c d : Char} (h : c.toLower = d.toLower) :
    c.toUpper = d.toUpper := by
  have hnumbers := congrArg Char.toNat h
  rw [toNat_toLower, toNat_toLower] at hnumbers
  apply Char.toNat_inj.1
  rw [toNat_toUpper, toNat_toUpper]
  grind

/-- A character that is no letter is the same in both cases. -/
theorem eq_of_toLower_eq {c d : Char} (h : c.toLower = d.toLower)
    (hd : ¬(65 ≤ d.toNat ∧ d.toNat ≤ 90) ∧ ¬(97 ≤ d.toNat ∧ d.toNat ≤ 122)) : c = d := by
  have hnumbers := congrArg Char.toNat h
  rw [toNat_toLower, toNat_toLower] at hnumbers
  apply Char.toNat_inj.1
  grind

/-! ## Words -/

theorem lower_append (s t : String) : lower (s ++ t) = lower s ++ lower t := by
  apply String.toList_injective
  simp [lower]

theorem map_toUpper_of_map_toLower {cs ds : List Char}
    (h : cs.map Char.toLower = ds.map Char.toLower) :
    cs.map Char.toUpper = ds.map Char.toUpper := by
  induction cs generalizing ds with
  | nil =>
    rw [List.map_eq_nil_iff.1 h.symm]
  | cons c cs ih =>
    obtain ⟨d, ds, rfl, hd, hds⟩ := List.map_eq_cons_iff.1 h.symm
    rw [List.map_cons, List.map_cons, ih hds.symm, toUpper_eq_of_toLower_eq hd.symm]

theorem upper_eq_of_lower_eq {s t : String} (h : lower s = lower t) : upper s = upper t := by
  apply String.toList_injective
  have hlower := congrArg String.toList h
  rw [lower, lower, String.toList_map, String.toList_map] at hlower
  rw [upper, upper, String.toList_map, String.toList_map]
  exact map_toUpper_of_map_toLower hlower

theorem sameWord_of_lower_eq {s s' t t' : String} (hs : lower s = lower s')
    (ht : lower t = lower t') : sameWord s t = sameWord s' t' := by
  rw [sameWord, sameWord, hs, ht]

theorem startsWith_of_lower_eq {s t : String} (h : lower s = lower t) :
    s.startsWith "@" = t.startsWith "@" := by
  have hlower := congrArg String.toList h
  rw [lower, lower, String.toList_map, String.toList_map] at hlower
  rw [Bool.eq_iff_iff, String.startsWith_string_iff, String.startsWith_string_iff]
  have hsign : "@".toList = ['@'] := rfl
  rw [hsign]
  generalize s.toList = cs, t.toList = ds at hlower
  have hfirst {cs ds : List Char} (h : cs.map Char.toLower = ds.map Char.toLower)
      (hc : ['@'] <+: cs) : ['@'] <+: ds := by
    obtain ⟨rest, rfl⟩ := hc
    obtain ⟨d, ds, rfl, hd, -⟩ := List.map_eq_cons_iff.1 h.symm
    rw [eq_of_toLower_eq hd (by decide)]
    exact List.prefix_append ['@'] ds
  exact ⟨hfirst hlower, hfirst hlower.symm⟩

end Text

end SqlFrontend
