import Mathlib.Data.List.TakeWhile
import SqlFrontend.Document.Numeral
import SqlFrontend.Number.Decimal
import SqlFrontend.Proofs.Number.Finite

/-!
# Numbers in documents

Results:
* `Numeral.isFinite_fraction?`: no number of a document is read as an infinity.
* `Numeral.take?_append`: a number ends where nothing goes on that could belong to it.
-/

namespace SqlFrontend.Document.Numeral

variable {text rest left ds : List Char} {n : Numeral}

/-! ## Values are finite -/

theorem extend_lt {significand : ℕ} (h : significand < 2 ^ 64) (digits : List Char) :
    (extend significand digits).1 < 2 ^ 64 := by
  fun_induction extend significand digits with
  | case1 => exact h
  | case2 significand c rest longer hlonger ih => exact ih hlonger
  | case3 => exact h

theorem one_le_powerOfTen : ∀ n ≤ 308, (powerOfTen n).ratio.2 ≤ (powerOfTen n).ratio.1 := by
  decide +kernel

theorem isWithin_scaleDown {x : Binary64} (h : x.IsWithin 64) (exponent : ℕ) :
    (scaleDown x exponent).IsWithin 64 := by
  fun_induction scaleDown x exponent with
  | case1 x exponent hle => exact h.dividedBy (by decide) (one_le_powerOfTen exponent hle)
  | case2 => exact h
  | case3 x exponent _ _ ih => exact ih (h.dividedBy (by decide) (one_le_powerOfTen 308 (le_refl _)))

theorem isFinite_scaled? {significand : ℕ} {exponent : ℤ} {x : Binary64}
    (hsignificand : significand < 2 ^ 64) (h : scaled? significand exponent = some x) :
    x.isFinite := by
  have hstart : (Binary64.ofRatio significand 1).IsWithin 64 :=
    Binary64.isWithin_ofRatio Nat.one_pos (by decide) (by omega)
  rw [scaled?] at h
  split at h
  · rw [← Option.some.inj h]
    exact (isWithin_scaleDown hstart _).isFinite (by decide)
  · split at h
    · rw [← Option.some.inj h]
      exact hstart.isFinite (by decide)
    · split at h
      · cases h
      · exact Binary64.isFinite_of_finite? h

theorem isFinite_fraction? {x : Binary64} (h : n.fraction? = some x) : x.isFinite := by
  rw [fraction?] at h
  obtain ⟨y, hy, rfl⟩ := Option.map_eq_some_iff.1 h
  rw [Binary64.isFinite_withSign]
  exact isFinite_scaled? (extend_lt (extend_lt (by decide) _) _) hy

theorem integer?_bounds {value : ℤ} (h : n.integer? = some value) :
    -2 ^ 63 ≤ value ∧ value < 2 ^ 64 := by
  rw [integer?] at h
  split at h
  · cases h
  · dsimp only at h
    split at h
    · split at h
      · cases h; omega
      · cases h
    · split at h
      · cases h; omega
      · cases h

/-! ## Where a number ends -/

/-- A text that no number goes on with. -/
def Stops (rest : List Char) : Prop := ∀ c ∈ rest.head?, ¬c.isDigit ∧ c ≠ '.' ∧ c ≠ 'e' ∧ c ≠ 'E'

theorem stops_cons {c : Char} (hc : ¬c.isDigit ∧ c ≠ '.' ∧ c ≠ 'e' ∧ c ≠ 'E') (rest : List Char) :
    Stops (c :: rest) := by
  rintro d ⟨⟩
  exact hc

theorem digits?_eq_some : digits? text = some (ds, left) ↔
    text = ds ++ left ∧ ds ≠ [] ∧ (∀ c ∈ ds, c.isDigit) ∧ ∀ c ∈ left.head?, ¬c.isDigit := by
  rw [digits?]
  constructor
  · intro h
    split at h
    · cases h
    · next hne =>
      cases h
      refine ⟨List.takeWhile_append_dropWhile.symm, hne, fun c hc => List.mem_takeWhile_imp hc, ?_⟩
      intro c hc hdigit
      have hstop := List.head?_dropWhile_not Char.isDigit text
      rw [hc] at hstop
      exact Bool.false_ne_true (hstop.symm.trans hdigit)
  · rintro ⟨rfl, hne, hall, hleft⟩
    have hstop : left.takeWhile Char.isDigit = [] ∧ left.dropWhile Char.isDigit = left := by
      cases left with
      | nil => exact ⟨rfl, rfl⟩
      | cons c left =>
        have hc := hleft c rfl
        exact ⟨List.takeWhile_cons_of_neg hc, List.dropWhile_cons_of_neg hc⟩
    rw [List.takeWhile_append_of_pos hall, List.dropWhile_append_of_pos hall, hstop.1, hstop.2,
      List.append_nil]
    cases ds with
    | nil => exact absurd rfl hne
    | cons => rfl

theorem digits?_append (h : digits? text = some (ds, left)) (hrest : Stops rest) :
    digits? (text ++ rest) = some (ds, left ++ rest) := by
  obtain ⟨rfl, hne, hall, hleft⟩ := digits?_eq_some.1 h
  refine digits?_eq_some.2 ⟨List.append_assoc _ _ _, hne, hall, ?_⟩
  cases left with
  | nil => exact fun c hc => (hrest c hc).1
  | cons => exact hleft

theorem integral?_cons {c : Char} (hc : c ≠ '0') (text : List Char) :
    integral? (c :: text) = digits? (c :: text) := by
  rw [integral?]
  rintro rest ⟨⟩
  exact hc rfl

theorem integral?_append (h : integral? text = some (ds, left)) (hrest : Stops rest) :
    integral? (text ++ rest) = some (ds, left ++ rest) := by
  rcases text with _ | ⟨c, text⟩
  · cases h
  · by_cases hc : c = '0'
    · subst hc
      cases h
      rfl
    · rw [integral?_cons hc] at h
      rw [List.cons_append, integral?_cons hc]
      exact digits?_append h hrest

theorem pointAndDigits?_of_head (h : ∀ c ∈ text.head?, c ≠ '.') :
    pointAndDigits? text = some (none, text) := by
  rw [pointAndDigits?]
  rintro rest rfl
  exact h '.' rfl rfl

theorem pointAndDigits?_append {fraction : Option (List Char)}
    (h : pointAndDigits? text = some (fraction, left)) (hrest : Stops rest) :
    pointAndDigits? (text ++ rest) = some (fraction, left ++ rest) := by
  rcases text with _ | ⟨c, text⟩
  · cases h
    exact pointAndDigits?_of_head fun c hc => (hrest c hc).2.1
  · by_cases hc : c = '.'
    · subst hc
      obtain ⟨⟨digits, left⟩, hdigits, heq⟩ := Option.map_eq_some_iff.1 h
      cases heq
      rw [List.cons_append, pointAndDigits?, digits?_append hdigits hrest]
      rfl
    · have hhead (text : List Char) : ∀ d ∈ (c :: text).head?, d ≠ '.' := by
        rintro d ⟨⟩
        exact hc
      rw [pointAndDigits?_of_head (hhead _)] at h
      cases h
      exact pointAndDigits?_of_head (hhead _)

theorem exponentDigits?_append {negative : Bool} {exponent : Option (Bool × List Char)}
    (h : exponentDigits? negative text = some (exponent, left)) (hrest : Stops rest) :
    exponentDigits? negative (text ++ rest) = some (exponent, left ++ rest) := by
  obtain ⟨⟨digits, left⟩, hdigits, heq⟩ := Option.map_eq_some_iff.1 h
  cases heq
  rw [exponentDigits?, digits?_append hdigits hrest]
  rfl

/-- The sign of an exponent, and the text behind it. -/
def exponentSign : List Char → Bool × List Char
  | '+' :: text => (false, text)
  | '-' :: text => (true, text)
  | text => (false, text)

theorem exponentSign_append (h : text ≠ []) (rest : List Char) :
    exponentSign (text ++ rest) = ((exponentSign text).1, (exponentSign text).2 ++ rest) := by
  rcases text with _ | ⟨c, text⟩
  · exact absurd rfl h
  · by_cases hplus : c = '+'
    · subst hplus
      rfl
    · by_cases hminus : c = '-'
      · subst hminus
        rfl
      · simp [exponentSign, hplus, hminus]

theorem exponent?_mark {mark : Char} (h : mark = 'e' ∨ mark = 'E') (text : List Char) :
    exponent? (mark :: text) = exponentDigits? (exponentSign text).1 (exponentSign text).2 := by
  unfold exponent?
  dsimp only
  rw [if_pos h]
  split
  · rfl
  · rfl
  · next hplus hminus => rw [exponentSign.eq_3 text hplus hminus]

theorem exponent?_of_head (h : ∀ c ∈ text.head?, c ≠ 'e' ∧ c ≠ 'E') :
    exponent? text = some (none, text) := by
  rcases text with _ | ⟨c, text⟩
  · rfl
  · obtain ⟨he, hE⟩ := h c rfl
    unfold exponent?
    exact if_neg (by simp [he, hE])

theorem exponent?_append {exponent : Option (Bool × List Char)}
    (h : exponent? text = some (exponent, left)) (hrest : Stops rest) :
    exponent? (text ++ rest) = some (exponent, left ++ rest) := by
  rcases text with _ | ⟨mark, text⟩
  · cases h
    exact exponent?_of_head fun c hc => (hrest c hc).2.2
  · by_cases hmark : mark = 'e' ∨ mark = 'E'
    · rw [exponent?_mark hmark] at h
      have hne : text ≠ [] := by
        rintro rfl
        cases h
      rw [List.cons_append, exponent?_mark hmark, exponentSign_append hne]
      exact exponentDigits?_append h hrest
    · have hhead (text : List Char) : ∀ c ∈ (mark :: text).head?, c ≠ 'e' ∧ c ≠ 'E' := by
        rintro c ⟨⟩
        exact not_or.1 hmark
      rw [exponent?_of_head (hhead _)] at h
      cases h
      exact exponent?_of_head (hhead _)

theorem unsigned?_append {negative : Bool} (h : unsigned? negative text = some (n, left))
    (hrest : Stops rest) : unsigned? negative (text ++ rest) = some (n, left ++ rest) := by
  simp only [unsigned?, Option.bind_eq_bind, Option.bind_eq_some_iff, Prod.exists] at h ⊢
  obtain ⟨integral, text', hintegral, fraction, text'', hfraction, exponent, left', hexponent, heq⟩ := h
  cases heq
  exact ⟨integral, _, integral?_append hintegral hrest, fraction, _,
    pointAndDigits?_append hfraction hrest, exponent, _, exponent?_append hexponent hrest, rfl⟩

theorem take?_cons {c : Char} (hc : c ≠ '-') (text : List Char) :
    take? (c :: text) = unsigned? false (c :: text) := by
  rw [take?]
  rintro rest ⟨⟩
  exact hc rfl

/-- What is read as a number is read so with more text behind it. -/
theorem take?_append (h : take? text = some (n, left)) (hrest : Stops rest) :
    take? (text ++ rest) = some (n, left ++ rest) := by
  rcases text with _ | ⟨c, text⟩
  · cases h
  · by_cases hc : c = '-'
    · subst hc
      have hunsigned : unsigned? true text = some (n, left) := h
      exact unsigned?_append hunsigned hrest
    · rw [take?_cons hc] at h
      rw [List.cons_append, take?_cons hc]
      exact unsigned?_append h hrest

/-- A number starts with its sign or a digit. -/
theorem exists_eq_cons_of_take? (h : take? text = some (n, left)) :
    ∃ c cs, text = c :: cs ∧ (c = '-' ∨ c.isDigit) := by
  rcases text with _ | ⟨c, text⟩
  · cases h
  · refine ⟨c, text, rfl, or_iff_not_imp_left.2 fun hc => ?_⟩
    rw [take?_cons hc] at h
    simp only [unsigned?, Option.bind_eq_bind, Option.bind_eq_some_iff, Prod.exists] at h
    obtain ⟨integral, text', hintegral, -⟩ := h
    by_cases hzero : c = '0'
    · rw [hzero]
      decide
    · rw [integral?_cons hzero] at hintegral
      obtain ⟨heq, hne, hall, -⟩ := digits?_eq_some.1 hintegral
      obtain ⟨d, ds, rfl⟩ := List.exists_cons_of_ne_nil hne
      cases heq
      exact hall c List.mem_cons_self

/-! ## Integers -/

theorem head?_toDigits {m : ℕ} (hm : 0 < m) : (Nat.toDigits 10 m).head? ≠ some '0' := by
  induction m using Nat.strong_induction_on with
  | _ m ih =>
    by_cases hlt : m < 10
    · rw [Nat.toDigits_of_lt_base hlt]
      exact fun h => hm.ne' (Nat.digitChar_eq_zero.1 (Option.some.inj h))
    · rw [Nat.toDigits_of_base_le (by decide) (by omega),
        List.head?_append, Option.or_of_isSome (List.isSome_head?.2 Nat.toDigits_ne_nil)]
      exact ih (m / 10) (by omega) (by omega)

theorem integral?_toDigits (m : ℕ) : integral? (Nat.toDigits 10 m) = some (Nat.toDigits 10 m, []) := by
  rcases m.eq_zero_or_pos with rfl | hm
  · rfl
  · have hdigits : digits? (Nat.toDigits 10 m) = some (Nat.toDigits 10 m, []) :=
      digits?_eq_some.2 ⟨(List.append_nil _).symm, Nat.toDigits_ne_nil,
        fun c hc => Nat.isDigit_of_mem_toDigits (by decide) (by decide) hc, by simp⟩
    have hhead := head?_toDigits hm
    revert hdigits hhead
    cases Nat.toDigits 10 m with
    | nil =>
      intro h
      cases h
    | cons c cs =>
      intro hdigits hhead
      rw [integral?_cons fun hc => hhead (congrArg some hc)]
      exact hdigits

theorem natural_toDigits (m : ℕ) : natural (Nat.toDigits 10 m) = m := by
  have h := Nat.ofDigitChars_ten_toDigits (n := m)
  rw [Nat.ofDigitChars_eq_foldl] at h
  exact h

theorem unsigned?_toDigits (negative : Bool) (m : ℕ) :
    unsigned? negative (Nat.toDigits 10 m) = some (⟨negative, Nat.toDigits 10 m, none, none⟩, []) := by
  rw [unsigned?, integral?_toDigits]
  rfl

/-- The numeral that an integer is written as. -/
def ofInt (value : ℤ) : Numeral := ⟨value < 0, Nat.toDigits 10 value.natAbs, none, none⟩

theorem take?_toString (value : ℤ) : take? (toString value).toList = some (ofInt value, []) := by
  rw [Int.toString_eq_repr]
  cases value with
  | ofNat m =>
    have hread : (Int.repr (Int.ofNat m)).toList = Nat.toDigits 10 m := Nat.toList_repr
    have hunsigned := unsigned?_toDigits false m
    have hdigit {c : Char} (hc : c ∈ Nat.toDigits 10 m) : c.isDigit :=
      Nat.isDigit_of_mem_toDigits (by decide) (by decide) hc
    rw [hread, ofInt, Int.ofNat_eq_natCast, Int.natAbs_natCast]
    revert hunsigned hdigit
    cases Nat.toDigits 10 m with
    | nil =>
      intro h
      cases h
    | cons c cs =>
      intro hunsigned hdigit
      have hc : c ≠ '-' := by
        rintro rfl
        exact absurd (hdigit List.mem_cons_self) (by decide)
      rw [take?_cons hc]
      exact hunsigned
  | negSucc m =>
    have hread : (Int.repr (Int.negSucc m)).toList = '-' :: Nat.toDigits 10 (m + 1) := by
      rw [Int.repr, String.toList_append, Nat.toList_repr]
      rfl
    rw [hread, take?, unsigned?_toDigits, ofInt, decide_eq_true (Int.negSucc_lt_zero m)]
    rfl

/-- An integer of 64 bits is read back. -/
theorem integer?_ofInt {value : ℤ} (hlow : -2 ^ 63 ≤ value) (hhigh : value < 2 ^ 64) :
    (ofInt value).integer? = some value := by
  rw [integer?, ofInt]
  simp only [Option.isSome_none, Bool.or_self, Bool.false_eq_true, if_false, natural_toDigits]
  by_cases hneg : value < 0
  · rw [decide_eq_true hneg, if_neg (by decide), if_pos (by omega)]
    exact congrArg some (by omega)
  · rw [decide_eq_false hneg, if_pos (by decide), if_pos (by omega)]
    exact congrArg some (by omega)

/-! ## Fractions -/

/-- Decides whether a character shows that a number is no integer. -/
def isMark (c : Char) : Bool := c == '.' || c == 'e' || c == 'E'

theorem isDigit_of_integral? (h : integral? text = some (ds, [])) : ∀ c ∈ text, c.isDigit := by
  rcases text with _ | ⟨c, text⟩
  · cases h
  · by_cases hc : c = '0'
    · subst hc
      cases h
      exact List.forall_mem_singleton.2 rfl
    · rw [integral?_cons hc] at h
      obtain ⟨htext, -, hall, -⟩ := digits?_eq_some.1 h
      rwa [htext, List.append_nil]

theorem pointAndDigits?_none (h : pointAndDigits? text = some (none, left)) : left = text := by
  rw [pointAndDigits?.eq_def] at h
  split at h
  · obtain ⟨_, -, heq⟩ := Option.map_eq_some_iff.1 h
    cases heq
  · cases h
    rfl

theorem exponent?_none (h : exponent? text = some (none, left)) : left = text := by
  rcases text with _ | ⟨mark, text⟩
  · cases h
    rfl
  · by_cases hmark : mark = 'e' ∨ mark = 'E'
    · rw [exponent?_mark hmark] at h
      obtain ⟨_, -, heq⟩ := Option.map_eq_some_iff.1 h
      cases heq
    · rw [exponent?.eq_def] at h
      dsimp only at h
      rw [if_neg hmark] at h
      cases h
      rfl

/-- A number without a fraction and an exponent is made of digits. -/
theorem isDigit_of_unsigned? {negative : Bool} (h : unsigned? negative text = some (n, []))
    (hfraction : n.fraction = none) (hexponent : n.exponent = none) : ∀ c ∈ text, c.isDigit := by
  simp only [unsigned?, Option.bind_eq_bind, Option.bind_eq_some_iff, Prod.exists] at h
  obtain ⟨integral, text', hintegral, fraction, text'', hpoint, exponent, left, hmark, heq⟩ := h
  cases heq
  obtain rfl : fraction = none := hfraction
  obtain rfl : exponent = none := hexponent
  obtain rfl := pointAndDigits?_none hpoint
  obtain rfl := exponent?_none hmark
  exact isDigit_of_integral? hintegral

/-- Integers are written without marks. -/
theorem integer?_eq_none (h : take? text = some (n, [])) (hmark : ∃ c ∈ text, isMark c) :
    n.integer? = none := by
  rw [integer?, if_pos]
  by_contra hplain
  obtain ⟨hfraction, hexponent⟩ : n.fraction = none ∧ n.exponent = none := by simpa using hplain
  obtain ⟨c, hc, hmark⟩ := hmark
  have hsign : c ≠ '-' ∧ ¬c.isDigit := by
    simp only [isMark, Bool.or_eq_true, beq_iff_eq] at hmark
    rcases hmark with (rfl | rfl) | rfl <;> decide
  rcases text with _ | ⟨d, text⟩
  · cases hc
  · by_cases hd : d = '-'
    · subst hd
      rcases List.mem_cons.1 hc with rfl | hc
      · exact hsign.1 rfl
      · exact hsign.2 (isDigit_of_unsigned? h hfraction hexponent c hc)
    · rw [take?_cons hd] at h
      exact hsign.2 (isDigit_of_unsigned? h hfraction hexponent c hc)

end SqlFrontend.Document.Numeral

namespace SqlFrontend.Decimal

theorem point_mem_positional (d : Decimal) : '.' ∈ (positional document d).toList := by
  rw [positional]
  split <;> simp [document]

theorem mark_mem_scientific (d : Decimal) : 'e' ∈ (scientific d).toList := by
  simp [scientific]

/-- Numbers of documents are written with a mark. -/
theorem exists_isMark_write {x : Binary64} (h : x.isFinite) :
    ∃ c ∈ (write document x).toList, Document.Numeral.isMark c := by
  rw [write, if_neg (by simpa using h)]
  by_cases hzero : x.isZero
  · rw [if_pos hzero]
    exact ⟨'.', by simp [document], rfl⟩
  · rw [if_neg hzero]
    dsimp only
    generalize shortest document.tie x = d
    generalize document.isPositional _ = plain
    simp only [String.toList_append, List.mem_append]
    cases plain with
    | true => exact ⟨'.', .inr (point_mem_positional d), rfl⟩
    | false => exact ⟨'e', .inr (mark_mem_scientific d), rfl⟩

end SqlFrontend.Decimal
