import SqlFrontend.Proofs.Lexing.Reading
import SqlFrontend.Proofs.Number.Numeral

/-!
# Numbers are numerals

One scan reads numbers from two places: behind a first digit, and behind a point with a digit after it.
In the second case the digits that are read first are a fraction already, and the scan may find another
one behind them.

Results:
* `Scan.isNumeral_of_digit`: behind a digit, the scan passes over the rest of a numeral.
* `Scan.spelled_of_point`: behind a point, over that of a numeral or of a text with two points.
* `Lexer.next_numeric`: so every number of a text is one or the other.
-/

namespace SqlFrontend

open Numeral

/-- A number is spelled as a numeral, or as two fractions. -/
def Token.IsNumeric (t : Token) : Prop :=
  IsNumeral t.literal.toList ∨ HasTwoPoints t.literal.toList

namespace Scan

/-! ## The parts of a number -/

theorem take_digits (text : List Char) :
    text.take (text.takeWhile Char.isDigit).length = text.takeWhile Char.isDigit :=
  (List.prefix_iff_eq_take.1 (List.takeWhile_prefix _)).symm

theorem isDigits_takeWhile {c : Char} (hc : c.isDigit) (text : List Char) :
    IsDigits (c :: text.takeWhile Char.isDigit) :=
  isDigits_cons hc (forall_takeWhile_isDigit text)

theorem take_fractionLength (text : List Char) :
    text.take (fractionLength text) = [] ∨ IsFraction (text.take (fractionLength text)) := by
  unfold fractionLength
  split
  · next c rest =>
    split
    · next hc =>
      refine .inr ⟨_, ?_, isDigits_takeWhile hc rest⟩
      rw [Nat.add_comm, List.take_succ_cons, take_digits, List.takeWhile_cons_of_pos hc]
    · exact .inl rfl
  · exact .inl rfl

theorem take_exponentLength (text : List Char) :
    text.take (exponentLength text) = [] ∨ IsExponent (text.take (exponentLength text)) := by
  unfold exponentLength
  split
  · next mark c rest =>
    split
    · next hmark =>
      have hmark : mark = 'e' ∨ mark = 'E' := by simpa using hmark
      split
      · next hc =>
        refine .inr ⟨mark, [], _, ?_, hmark, .inl rfl, isDigits_takeWhile hc rest⟩
        rw [Nat.add_comm, List.take_succ_cons, take_digits, List.takeWhile_cons_of_pos hc]
        rfl
      · split
        · next hsigned =>
          obtain ⟨hsign, hdigit⟩ := Bool.and_eq_true_iff.1 hsigned
          have hsign : [c] = ['+'] ∨ [c] = ['-'] := by simpa using hsign
          obtain ⟨d, digits, rfl⟩ : ∃ d digits, rest = d :: digits := by
            cases rest with
            | nil => cases hdigit
            | cons d digits => exact ⟨d, digits, rfl⟩
          have hd : d.isDigit := by simpa using hdigit
          refine .inr ⟨mark, [c], _, ?_, hmark, .inr hsign, isDigits_takeWhile hd digits⟩
          rw [Nat.add_comm, List.take_succ_cons, List.take_succ_cons, take_digits,
            List.takeWhile_cons_of_pos hd]
          rfl
        · exact .inl rfl
    · exact .inl rfl
  · exact .inl rfl

/-- What a number takes: digits, a fraction and an exponent. -/
theorem take_numberLength (text : List Char) :
    ∃ fraction exponent,
      text.take (numberLength text) = text.takeWhile Char.isDigit ++ fraction ++ exponent ∧
      (fraction = [] ∨ IsFraction fraction) ∧ (exponent = [] ∨ IsExponent exponent) := by
  let behind := text.drop (text.takeWhile Char.isDigit).length
  refine ⟨_, _, ?_, take_fractionLength behind,
    take_exponentLength (behind.drop (fractionLength behind))⟩
  rw [numberLength, List.take_add, List.take_add, take_digits, List.drop_drop]

/-! ## The two ways into a number -/

theorem isNumeral_of_digit {c : Char} (hc : c.isDigit) (text : List Char) :
    IsNumeral (c :: text.take (numberLength text)) := by
  obtain ⟨fraction, exponent, htake, hfraction, hexponent⟩ := take_numberLength text
  exact ⟨c :: text.takeWhile Char.isDigit, fraction, exponent, by rw [htake]; rfl,
    .inl ⟨isDigits_takeWhile hc text, hfraction⟩, hexponent⟩

/-- The digits behind a leading point are a fraction, and so another fraction is one too many. -/
theorem spelled_of_point {text : List Char} (h : text.head?.any Char.isDigit) :
    IsNumeral ('.' :: text.take (numberLength text)) ∨
      HasTwoPoints ('.' :: text.take (numberLength text)) := by
  obtain ⟨fraction, exponent, htake, hfraction, hexponent⟩ := take_numberLength text
  have hfirst : IsFraction ('.' :: text.takeWhile Char.isDigit) := by
    cases text with
    | nil => cases h
    | cons c text =>
      have hc : c.isDigit := by simpa using h
      rw [List.takeWhile_cons_of_pos hc]
      exact ⟨_, rfl, isDigits_takeWhile hc text⟩
  rw [htake]
  rcases hfraction with rfl | hsecond
  · exact .inl ⟨[], '.' :: text.takeWhile Char.isDigit, exponent, by simp, .inr ⟨rfl, hfirst⟩, hexponent⟩
  · exact .inr ⟨'.' :: text.takeWhile Char.isDigit, fraction, exponent, by simp, hfirst, hsecond,
      hexponent⟩

/-- If a scan finds a number, it is the scan of numbers, behind a digit or behind a point with a digit
after it. -/
def IsNumberOnly (c : Char) (here : Cursor) (scan : Scan) : Prop :=
  scan.kind = .number →
    scan = number here ∧ (c.isDigit ∨ c = '.' ∧ here.rest.head?.any Char.isDigit)

section

variable {c : Char} {here : Cursor}

theorem isNumberOnly_of_ne {scan : Scan} (h : scan.kind ≠ .number := by rintro ⟨⟩) :
    IsNumberOnly c here scan := fun hk => absurd hk h

theorem IsNumberOnly.ite {p : Prop} [Decidable p] {scan scan' : Scan}
    (h : p → IsNumberOnly c here scan) (h' : ¬p → IsNumberOnly c here scan') :
    IsNumberOnly c here (if p then scan else scan') := by
  by_cases hp : p
  · rw [if_pos hp]
    exact h hp
  · rw [if_neg hp]
    exact h' hp

theorem isNumberOnly_extended {d : Char} {kind : TokenKind} {otherwise : Scan}
    (h : IsNumberOnly c here otherwise) (hk : kind ≠ .number := by rintro ⟨⟩) :
    IsNumberOnly c here (extended d kind here otherwise) :=
  .ite (fun _ => isNumberOnly_of_ne hk) fun _ => h

theorem string_kind_ne (quote : Char) (here : Cursor) : (string quote here).kind ≠ .number := by
  unfold string
  split <;> rintro ⟨⟩

theorem quotedIdentifier_kind_ne (quote : Char) (here : Cursor) :
    (quotedIdentifier quote here).kind ≠ .number := by
  unfold quotedIdentifier
  split <;> rintro ⟨⟩

theorem dollar_kind_ne (here : Cursor) : (dollar here).kind ≠ .number := by
  unfold dollar
  split
  · rintro ⟨⟩
  · dsimp only
    split
    · split <;> rintro ⟨⟩
    · rintro ⟨⟩

theorem word_kind_ne (d : Dialect) (start : Cursor) (c : Char) (here : Cursor) :
    (word d start c here).kind ≠ .number := by
  unfold word
  dsimp only
  split
  · split <;> rintro ⟨⟩
  · rintro ⟨⟩

theorem isNumberOnly_literal (d : Dialect) (start : Cursor) :
    IsNumberOnly c here (literal d start c here) := by
  refine .ite (fun _ => isNumberOnly_of_ne (string_kind_ne _ _)) fun _ =>
    .ite (fun _ => isNumberOnly_of_ne (string_kind_ne _ _)) fun _ => ?_
  split
  · exact isNumberOnly_of_ne (quotedIdentifier_kind_ne _ _)
  · refine .ite (fun _ => isNumberOnly_of_ne) fun _ => .ite (fun _ => isNumberOnly_of_ne) fun _ =>
      .ite (fun _ => isNumberOnly_of_ne (dollar_kind_ne _)) fun _ => .ite (fun hc _ => ?_) fun _ =>
      .ite (fun _ => isNumberOnly_of_ne (word_kind_ne _ _ _ _)) fun _ => isNumberOnly_of_ne
    exact ⟨rfl, .inl hc⟩

theorem isNumberOnly_ofChar (d : Dialect) (start : Cursor) :
    IsNumberOnly c here (ofChar d start c here) := by
  unfold ofChar
  split
  · next kind hkind =>
    refine isNumberOnly_of_ne ?_
    unfold punctuation? at hkind
    split at hkind <;> cases hkind <;> rintro ⟨⟩
  split
  · exact .ite (fun hdigit _ => ⟨rfl, .inr ⟨rfl, hdigit⟩⟩) fun _ =>
      isNumberOnly_extended isNumberOnly_of_ne
  · exact isNumberOnly_extended (isNumberOnly_extended isNumberOnly_of_ne)
  · exact isNumberOnly_extended isNumberOnly_of_ne
  · exact isNumberOnly_extended (isNumberOnly_extended isNumberOnly_of_ne)
  · exact isNumberOnly_extended isNumberOnly_of_ne
  · exact isNumberOnly_extended isNumberOnly_of_ne
  · exact isNumberOnly_extended isNumberOnly_of_ne
  · exact isNumberOnly_literal d start

end

end Scan

namespace Lexer

/-- A number is a numeral, or has two points. -/
theorem next_numeric {lexer : Lexer} (h : lexer.next.1.kind = .number) : lexer.next.1.IsNumeric := by
  unfold next at h ⊢
  split at h
  · cases h
  · next start htrivia =>
    split at h
    · cases h
    · next c rest hrest =>
      have hscan : (Scan.ofChar lexer.dialect start c (start.after c rest)).kind = .number := h
      obtain ⟨hnumber, hway⟩ := Scan.isNumberOnly_ofChar _ _ hscan
      rw [Scan.number_eq, Cursor.rest_after] at hnumber
      have hliteral : (tokenOf start (Scan.ofChar lexer.dialect start c (start.after c rest))).literal =
          String.ofList (c :: rest.take (Scan.numberLength rest)) := by
        rw [tokenOf, hnumber, ← Cursor.skip_succ hrest]
        change start.textTo _ = _
        rw [Cursor.textTo_skip, hrest, List.take_succ_cons]
      rw [Token.IsNumeric, hliteral, String.toList_ofList]
      rcases hway with hdigit | ⟨rfl, hdigit⟩
      · exact .inl (Scan.isNumeral_of_digit hdigit rest)
      · exact Scan.spelled_of_point hdigit

end Lexer

end SqlFrontend
