import SqlFrontend.Proofs.Lexing.Pieces
import SqlFrontend.Proofs.Parsing.Kinship

/-!
# The case of letters in a source

A lexer tells letters from other characters and letters from each other, but it tells the two cases of
a letter apart only in the text of a token.
-/

namespace SqlFrontend

open String (utf8Len)

/-! ## Letters -/

namespace Text

/-- The same characters, but for the case of letters. -/
def Respelt (cs ds : List Char) : Prop := cs.map Char.toLower = ds.map Char.toLower

/-- A class that has both cases of a letter, or none. -/
def Caseless (p : Char → Bool) : Prop := ∀ c d : Char, c.toLower = d.toLower → p c = p d

theorem isAlpha_iff (c : Char) :
    c.isAlpha ↔ (65 ≤ c.toNat ∧ c.toNat ≤ 90) ∨ (97 ≤ c.toNat ∧ c.toNat ≤ 122) := by
  have hval : c.val.toNat = c.toNat := rfl
  delta Char.isAlpha Char.isUpper Char.isLower
  simp [UInt32.le_iff_toNat_le, hval]

/-- Characters that differ are two cases of a letter. -/
theorem isAlpha_of_ne {c d : Char} (h : c.toLower = d.toLower) (hne : c ≠ d) :
    c.isAlpha ∧ d.isAlpha := by
  have hnumbers := congrArg Char.toNat h
  have hne' : c.toNat ≠ d.toNat := mt Char.toNat_inj.1 hne
  rw [toNat_toLower, toNat_toLower] at hnumbers
  rw [isAlpha_iff, isAlpha_iff]
  grind

/-- What is known of all letters does not tell their cases apart. -/
theorem caseless_of_isAlpha {p : Char → Bool} {x : Bool} (h : ∀ c : Char, c.isAlpha → p c = x) :
    Caseless p := by
  intro c d hcd
  by_cases hne : c = d
  · rw [hne]
  · obtain ⟨hc, hd⟩ := isAlpha_of_ne hcd hne
    rw [h c hc, h d hd]

theorem wordStart_of_isAlpha {c : Char} (h : c.isAlpha) : (c.isAlpha || c == '_') = true := by
  rw [h, Bool.true_or]

theorem caseless_isDigit : Caseless Char.isDigit :=
  caseless_of_isAlpha fun _ h => Scan.isDigit_of_isWordStart (wordStart_of_isAlpha h)

theorem caseless_isBlank : Caseless isBlank :=
  caseless_of_isAlpha fun _ h => Scan.isBlank_of_isWordStart (wordStart_of_isAlpha h)

theorem caseless_isTagChar : Caseless Scan.isTagChar :=
  caseless_of_isAlpha (x := true) fun c h => by
    rw [Scan.isTagChar, isAlphanumeric_of_isAlphanum (by simp [Char.isAlphanum, h]), Bool.true_or]

theorem caseless_isNameChar (d : Dialect) : Caseless (Scan.isNameChar d) :=
  caseless_of_isAlpha (x := true) fun c h =>
    Scan.isNameChar_of_isAlphanum (by simp [Char.isAlphanum, h])

/-- A sign is no case of anything else. -/
theorem eq_iff_of_toLower_eq {c d x : Char} (h : c.toLower = d.toLower) (hx : x.isAlpha = false) :
    c = x ↔ d = x := by
  by_cases hne : c = d
  · rw [hne]
  · obtain ⟨hc, hd⟩ := isAlpha_of_ne h hne
    constructor
    · rintro rfl
      rw [hx] at hc
      cases hc
    · rintro rfl
      rw [hx] at hd
      cases hd

theorem utf8Size_eq_of_toLower_eq {c d : Char} (h : c.toLower = d.toLower) :
    c.utf8Size = d.utf8Size := by
  by_cases hne : c = d
  · rw [hne]
  · obtain ⟨hc, hd⟩ := isAlpha_of_ne h hne
    have hsmall {c : Char} (hc : c.isAlpha) : c.utf8Size = 1 := by
      rw [isAlpha_iff] at hc
      rw [Char.utf8Size_eq_one_iff]
      show c.val.toNat ≤ 127
      have hval : c.val.toNat = c.toNat := rfl
      omega
    rw [hsmall hc, hsmall hd]

namespace Respelt

variable {cs ds : List Char} {p : Char → Bool}

theorem refl (cs : List Char) : Respelt cs cs := rfl

theorem prepend {c d : Char} (h : Respelt cs ds) (hcd : c.toLower = d.toLower) :
    Respelt (c :: cs) (d :: ds) := congrArg₂ List.cons hcd h

theorem nil (h : Respelt [] ds) : ds = [] := List.map_eq_nil_iff.1 h.symm

theorem cons {c : Char} (h : Respelt (c :: cs) ds) :
    ∃ d rest, ds = d :: rest ∧ c.toLower = d.toLower ∧ Respelt cs rest := by
  obtain ⟨d, rest, rfl, hd, hrest⟩ := List.map_eq_cons_iff.1 (Eq.symm h)
  exact ⟨d, rest, rfl, hd.symm, hrest.symm⟩

/-- Signs are spelt in one way. -/
theorem sign {x : Char} (h : Respelt (x :: cs) ds) (hx : x.isAlpha = false := by decide) :
    ∃ rest, ds = x :: rest ∧ Respelt cs rest := by
  obtain ⟨d, rest, rfl, hd, hrest⟩ := h.cons
  exact ⟨rest, by rw [(eq_iff_of_toLower_eq hd hx).1 rfl], hrest⟩

theorem drop (h : Respelt cs ds) (n : ℕ) : Respelt (cs.drop n) (ds.drop n) := by
  rw [Respelt, List.map_drop, List.map_drop, show cs.map _ = ds.map _ from h]

theorem take (h : Respelt cs ds) (n : ℕ) : Respelt (cs.take n) (ds.take n) := by
  rw [Respelt, List.map_take, List.map_take, show cs.map _ = ds.map _ from h]

theorem length (h : Respelt cs ds) : cs.length = ds.length := by
  rw [← List.length_map (f := Char.toLower), show cs.map _ = ds.map _ from h, List.length_map]

theorem utf8Len (h : Respelt cs ds) : utf8Len cs = String.utf8Len ds := by
  induction cs generalizing ds with
  | nil => rw [h.nil]
  | cons c cs ih =>
    obtain ⟨d, rest, rfl, hcd, hrest⟩ := h.cons
    rw [String.utf8Len_cons, String.utf8Len_cons, ih hrest, utf8Size_eq_of_toLower_eq hcd]

theorem head_iff {x : Char} (h : Respelt cs ds) (hx : x.isAlpha = false := by decide) :
    cs.head? = some x ↔ ds.head? = some x := by
  cases cs with
  | nil => rw [h.nil]
  | cons c cs =>
    obtain ⟨d, rest, rfl, hcd, -⟩ := h.cons
    rw [List.head?_cons, List.head?_cons, Option.some.injEq, Option.some.injEq,
      eq_iff_of_toLower_eq hcd hx]

theorem any_head? (h : Respelt cs ds) (hp : Caseless p) : cs.head?.any p = ds.head?.any p := by
  cases cs with
  | nil => rw [h.nil]
  | cons c cs =>
    obtain ⟨d, rest, rfl, hcd, -⟩ := h.cons
    exact hp c d hcd

theorem takeWhile (h : Respelt cs ds) (hp : Caseless p) :
    Respelt (cs.takeWhile p) (ds.takeWhile p) := by
  induction cs generalizing ds with
  | nil => rw [h.nil]; rfl
  | cons c cs ih =>
    obtain ⟨d, rest, rfl, hcd, hrest⟩ := h.cons
    rw [List.takeWhile_cons, List.takeWhile_cons, hp c d hcd]
    split
    · exact (ih hrest).prepend hcd
    · rfl

theorem length_takeWhile (h : Respelt cs ds) (hp : Caseless p) :
    (cs.takeWhile p).length = (ds.takeWhile p).length := (h.takeWhile hp).length

theorem dropWhile (h : Respelt cs ds) (hp : Caseless p) :
    Respelt (cs.dropWhile p) (ds.dropWhile p) := by
  induction cs generalizing ds with
  | nil => rw [h.nil]; rfl
  | cons c cs ih =>
    obtain ⟨d, rest, rfl, hcd, hrest⟩ := h.cons
    rw [List.dropWhile_cons, List.dropWhile_cons, hp c d hcd]
    split
    · exact ih hrest
    · exact h

theorem lower_ofList (h : Respelt cs ds) : lower (String.ofList cs) = lower (String.ofList ds) := by
  apply String.toList_injective
  simpa [lower, Respelt] using h

end Respelt

end Text

/-! ## Places -/

/-- The same place in two texts, with the same characters ahead but for the case of letters. -/
structure Cursor.Respelt (here there : Cursor) : Prop where
  rest : Text.Respelt here.rest there.rest
  offset : here.offset = there.offset
  line : here.line = there.line
  column : here.column = there.column

namespace Cursor

variable {here there : Cursor} {quote : Char} {rest rest' read delimiter : List Char}

theorem Respelt.after {c d : Char} {cs ds : List Char} (h : here.Respelt there)
    (hc : here.rest = c :: cs) (hd : there.rest = d :: ds) :
    (here.after c cs).Respelt (there.after d ds) := by
  have hrest := h.rest
  rw [hc, hd] at hrest
  obtain ⟨hchar, hrest⟩ := List.cons.inj (show c.toLower :: _ = d.toLower :: _ from hrest)
  have hline : c = '\n' ↔ d = '\n' := Text.eq_iff_of_toLower_eq hchar (by decide)
  refine ⟨hrest, ?_, ?_, ?_⟩
  · rw [Cursor.after, Cursor.after, h.offset, Text.utf8Size_eq_of_toLower_eq hchar]
  · simp only [Cursor.after, hline, h.line]
  · simp only [Cursor.after, hline, h.column]

theorem Respelt.skip (h : here.Respelt there) (n : ℕ) : (here.skip n).Respelt (there.skip n) := by
  induction n generalizing here there with
  | zero => exact h
  | succ n ih =>
    cases hr : here.rest with
    | nil =>
      have hr' : there.rest = [] := (hr ▸ h.rest).nil
      rwa [skip_nil hr, skip_nil hr']
    | cons c cs =>
      obtain ⟨d, ds, hr', -⟩ := (hr ▸ h.rest).cons
      rw [skip_succ hr, skip_succ hr']
      exact ih (h.after hr hr')

/-! ### Delimited texts -/

/-- A quoted text is closed by a sign. -/
theorem unquoteRun_respelt (hq : quote.isAlpha = false) (h : Text.Respelt rest rest')
    (hr : here.rest = rest) (hr' : there.rest = rest') :
    (unquoteRun quote rest read here).2 = none ∨ ∃ value n,
      unquoteRun quote rest read here = (value, some (here.skip n)) ∧
        (rest'.take n = rest.take n →
          unquoteRun quote rest' read there = (value, some (there.skip n))) := by
  fun_induction unquoteRun quote rest read here generalizing there rest' with
  | case1 => exact .inl rfl
  | case2 read here rest ih =>
    obtain ⟨d, ds, rfl, hd, hds⟩ := h.cons
    obtain ⟨e, es, rfl, he, hes⟩ := hds.cons
    rcases ih hes rfl (rest_after (there.after d (e :: es)) e es) with
      hnone | ⟨value, n, hrun, hrun'⟩
    · exact .inl hnone
    · refine .inr ⟨value, n + 2, ?_, fun htake => ?_⟩
      · rw [hrun, skip_succ hr, skip_succ (rest_after _ _ _)]
      · simp only [List.take_succ_cons, List.cons.injEq] at htake
        obtain ⟨rfl, rfl, htake⟩ := htake
        rw [unquoteRun.eq_def]
        simp only [if_true]
        rw [hrun' htake, skip_succ hr', skip_succ (rest_after _ _ _)]
  | case3 read here d rest hd =>
    obtain ⟨e, es, rfl, he, hes⟩ := h.cons
    obtain ⟨d', ds, rfl, hd', -⟩ := hes.cons
    refine .inr ⟨read, 1, by rw [skip_succ hr]; rfl, fun htake => ?_⟩
    simp only [List.take_succ_cons, List.take_zero, List.cons.injEq, and_true] at htake
    subst htake
    rw [unquoteRun.eq_def]
    simp only [if_true, if_neg (mt (Text.eq_iff_of_toLower_eq hd' hq).2 hd)]
    rw [skip_succ hr']
    rfl
  | case4 read here =>
    obtain ⟨e, es, rfl, he, hes⟩ := h.cons
    obtain rfl := hes.nil
    refine .inr ⟨read, 1, by rw [skip_succ hr]; rfl, fun htake => ?_⟩
    simp only [List.take_succ_cons, List.take_zero, List.cons.injEq, and_true] at htake
    subst htake
    rw [unquoteRun.eq_def]
    simp only [if_true]
    rw [skip_succ hr']
    rfl
  | case5 c rest read here hc ih =>
    obtain ⟨d, ds, rfl, hd, hds⟩ := h.cons
    rcases ih hds rfl (rest_after there d ds) with hnone | ⟨value, n, hrun, hrun'⟩
    · exact .inl hnone
    · refine .inr ⟨value, n + 1, by rw [hrun, skip_succ hr], fun htake => ?_⟩
      rw [List.take_succ_cons, List.take_succ_cons, List.cons.injEq] at htake
      obtain ⟨rfl, htake⟩ := htake
      rw [unquoteRun.eq_def]
      simp only [if_neg hc]
      rw [hrun' htake, skip_succ hr']

theorem isPrefixOf_of_take (h : rest'.take delimiter.length = rest.take delimiter.length) :
    delimiter.isPrefixOf rest' = delimiter.isPrefixOf rest := by
  rw [Bool.eq_iff_iff, List.isPrefixOf_iff_prefix, List.isPrefixOf_iff_prefix,
    List.prefix_iff_eq_take, List.prefix_iff_eq_take, h]

theorem untilRun_of_isPrefixOf (h : delimiter.isPrefixOf rest) :
    untilRun delimiter rest read here = (read, some here) := by
  cases rest with
  | nil => rw [untilRun, if_pos h]
  | cons c rest => rw [untilRun, if_pos h]

/-- Where a delimiter is found depends on the text up to its end. -/
theorem untilRun_local (hr : here.rest = rest) :
    (untilRun delimiter rest read here).2 = none ∨ ∃ n,
      untilRun delimiter rest read here = ((rest.take n).reverse ++ read, some (here.skip n)) ∧
        ∀ there : Cursor, there.rest.take (n + delimiter.length) = rest.take (n + delimiter.length) →
          untilRun delimiter there.rest read there =
            ((rest.take n).reverse ++ read, some (there.skip n)) := by
  induction rest generalizing read here with
  | nil =>
    by_cases hd : delimiter.isPrefixOf []
    · refine .inr ⟨0, untilRun_of_isPrefixOf hd, fun there htake => ?_⟩
      rw [Nat.zero_add] at htake
      exact untilRun_of_isPrefixOf ((isPrefixOf_of_take htake).trans hd)
    · exact .inl (by rw [untilRun, if_neg hd])
  | cons c rest ih =>
    by_cases hd : delimiter.isPrefixOf (c :: rest)
    · refine .inr ⟨0, untilRun_of_isPrefixOf hd, fun there htake => ?_⟩
      rw [Nat.zero_add] at htake
      exact untilRun_of_isPrefixOf ((isPrefixOf_of_take htake).trans hd)
    rw [untilRun, if_neg hd]
    rcases ih (rest_after here c rest) with hnone | ⟨n, hrun, hlocal⟩
    · exact .inl hnone
    refine .inr ⟨n + 1, by rw [hrun, skip_succ hr]; simp, fun there htake => ?_⟩
    have hlater : delimiter.isPrefixOf there.rest = false := by
      have hshort : there.rest.take delimiter.length = (c :: rest).take delimiter.length := by
        have hle : min delimiter.length (n + 1 + delimiter.length) = delimiter.length := by omega
        have := congrArg (List.take delimiter.length) htake
        rwa [List.take_take, List.take_take, hle] at this
      rw [isPrefixOf_of_take hshort]
      exact Bool.eq_false_iff.2 hd
    rw [Nat.add_right_comm, List.take_succ_cons] at htake
    cases hthere : there.rest with
    | nil => simp [hthere] at htake
    | cons d ds =>
      rw [hthere, List.take_succ_cons, List.cons.injEq] at htake
      obtain ⟨rfl, htake⟩ := htake
      rw [hthere] at hlater
      rw [untilRun, if_neg (Bool.eq_false_iff.1 hlater), skip_succ hthere]
      exact (hlocal (there.after d ds) htake).trans (by simp)

theorem unquote?_respelt (hq : quote.isAlpha = false) (h : Text.Respelt here.rest there.rest) :
    here.unquote? quote = none ∨ ∃ value n, here.unquote? quote = some (value, here.skip n) ∧
      (there.rest.take n = here.rest.take n → there.unquote? quote = some (value, there.skip n)) := by
  rcases unquoteRun_respelt hq h rfl rfl with hnone | ⟨value, n, hrun, hrun'⟩
  · left
    unfold unquote?
    split
    · next hrun => rw [hrun] at hnone; cases hnone
    · rfl
  · refine .inr ⟨String.ofList value.reverse, n, ?_, fun htake => ?_⟩
    · rw [unquote?, hrun]
    · rw [unquote?, hrun' htake]

theorem until?_local (here : Cursor) (delimiter : List Char) :
    here.until? delimiter = none ∨ ∃ value n, here.until? delimiter = some (value, here.skip n) ∧
      ∀ there : Cursor,
        there.rest.take (n + delimiter.length) = here.rest.take (n + delimiter.length) →
          there.until? delimiter = some (value, there.skip n) := by
  rcases untilRun_local rfl with
    hnone | ⟨n, hrun, hlocal⟩
  · left
    unfold until?
    split
    · next hrun => rw [hrun] at hnone; cases hnone
    · rfl
  · rw [List.append_nil] at hrun hlocal
    refine .inr ⟨String.ofList (here.rest.take n), n, ?_, fun there htake => ?_⟩
    · simp [until?, hrun]
    · simp [until?, hlocal there htake]

theorem unquote?_none (h : here.unquote? quote = none) (hr : there.rest = here.rest) :
    there.unquote? quote = none := by
  rcases unquote?_settled quote here.rest with hnone | ⟨value, n, -, hsome⟩
  · exact hnone there hr
  · rw [hsome here rfl] at h
    cases h

theorem until?_none (h : here.until? delimiter = none) (hr : there.rest = here.rest) :
    there.until? delimiter = none := by
  rcases until?_settled delimiter here.rest with hnone | ⟨n, hsome⟩
  · exact hnone there hr
  · rw [hsome here rfl] at h
    cases h

end Cursor

/-! ## Single tokens -/

namespace Scan

/-- A scan that is the same from another place, if the text that it takes up is spelt the same. -/
def Carries (here there : Cursor) (scan scan' : Scan) : Prop :=
  ∃ n, scan.next = here.skip n ∧
    (there.rest.take n = here.rest.take n → scan' = { scan with next := there.skip n })

variable {here there : Cursor} {scan scan' : Scan} {d : Dialect} {c : Char}

theorem Carries.plain (kind : TokenKind) (n : ℕ) (literal? : Option String)
    (hscan : scan = ⟨kind, here.skip n, literal?⟩) (hscan' : scan' = ⟨kind, there.skip n, literal?⟩) :
    Carries here there scan scan' :=
  ⟨n, by rw [hscan], fun _ => by rw [hscan, hscan']⟩

/-- What takes up the rest of the text is the same before the same rest. -/
theorem Carries.finish {find : Cursor → Scan} (h : (find here).next = here.skip here.rest.length)
    (hlength : there.rest.length = here.rest.length)
    (hfind : there.rest = here.rest →
      find there = { find here with next := there.skip here.rest.length }) :
    Carries here there (find here) (find there) := by
  refine ⟨_, h, fun htake => hfind ?_⟩
  rwa [List.take_length, ← hlength, List.take_length] at htake

theorem unexpected_carries : Carries here there (unexpected c here) (unexpected c there) :=
  .plain .illegal 0 _ rfl rfl

theorem extended_carries {x : Char} {kind : TokenKind} (h : Text.Respelt here.rest there.rest)
    (hother : Carries here there scan scan') (hx : x.isAlpha = false := by decide) :
    Carries here there (extended x kind here scan) (extended x kind there scan') := by
  rw [extended, extended, Cursor.peek?, Cursor.peek?]
  by_cases hpeek : here.rest.head? = some x
  · rw [if_pos hpeek, if_pos ((h.head_iff hx).1 hpeek)]
    exact .plain kind 1 none rfl rfl
  · rw [if_neg hpeek, if_neg (mt (h.head_iff hx).2 hpeek)]
    exact hother

theorem fractionLength_cons (c e : Char) (rest : List Char) :
    fractionLength (c :: e :: rest) =
      if c = '.' then
        if e.isDigit then 1 + ((e :: rest).takeWhile Char.isDigit).length else 0
      else 0 := by
  by_cases hc : c = '.'
  · rw [if_pos hc, hc, fractionLength]
  · rw [if_neg hc]
    simp [fractionLength, hc]

theorem fractionLength_respelt {cs ds : List Char} (h : Text.Respelt cs ds) :
    fractionLength cs = fractionLength ds := by
  match cs with
  | [] => rw [h.nil]
  | [c] =>
    obtain ⟨e, es, rfl, -, hes⟩ := h.cons
    rw [hes.nil]
    simp [fractionLength]
  | c :: c' :: cs =>
    have hdigits := (h.drop 1).length_takeWhile Text.caseless_isDigit
    obtain ⟨e, es, rfl, he, hes⟩ := h.cons
    obtain ⟨e', es, rfl, he', -⟩ := hes.cons
    have hdot : c = '.' ↔ e = '.' := Text.eq_iff_of_toLower_eq he (by decide)
    rw [List.drop_one, List.drop_one, List.tail_cons, List.tail_cons] at hdigits
    rw [fractionLength_cons, fractionLength_cons, hdigits, Text.caseless_isDigit c' e' he']
    simp only [hdot]

/-- The mark of an exponent may be written in both cases. -/
theorem mark_iff {c e : Char} (h : c.toLower = e.toLower) :
    c = 'e' ∨ c = 'E' ↔ e = 'e' ∨ e = 'E' := by
  have hmark (c : Char) : c = 'e' ∨ c = 'E' ↔ c.toLower = 'e' := by
    rw [← Char.toNat_inj, ← Char.toNat_inj, ← Char.toNat_inj, Text.toNat_toLower]
    change c.toNat = 101 ∨ c.toNat = 69 ↔ _ = 101
    grind
  rw [hmark, hmark, h]

theorem exponentLength_respelt {cs ds : List Char} (h : Text.Respelt cs ds) :
    exponentLength cs = exponentLength ds := by
  match cs with
  | [] => rw [h.nil]
  | [c] =>
    obtain ⟨e, es, rfl, -, hes⟩ := h.cons
    rw [hes.nil]
    rfl
  | c :: c' :: cs =>
    have hlong := (h.drop 1).length_takeWhile Text.caseless_isDigit
    have hshort := (h.drop 2).length_takeWhile Text.caseless_isDigit
    have hhead := (h.drop 2).any_head? Text.caseless_isDigit
    obtain ⟨e, es, rfl, he, hes⟩ := h.cons
    obtain ⟨e', es, rfl, he', -⟩ := hes.cons
    have hplus : c' = '+' ↔ e' = '+' := Text.eq_iff_of_toLower_eq he' (by decide)
    have hminus : c' = '-' ↔ e' = '-' := Text.eq_iff_of_toLower_eq he' (by decide)
    simp only [List.drop_succ_cons, List.drop_zero] at hlong hshort hhead
    simp only [exponentLength, Bool.or_eq_true, decide_eq_true_eq, mark_iff he, hlong, hshort,
      Text.caseless_isDigit c' e' he', hplus, hminus, hhead]

theorem numberLength_respelt {cs ds : List Char} (h : Text.Respelt cs ds) :
    numberLength cs = numberLength ds := by
  have hdigits := h.length_takeWhile Text.caseless_isDigit
  have hfraction := fractionLength_respelt (h.drop (ds.takeWhile Char.isDigit).length)
  simp only [numberLength, hdigits, hfraction, exponentLength_respelt ((h.drop _).drop _)]

theorem number_carries (h : Text.Respelt here.rest there.rest) :
    Carries here there (number here) (number there) := by
  rw [number_eq, number_eq, numberLength_respelt h]
  exact .plain .number _ none rfl rfl

/-- A quoted token. -/
theorem quoted_carries {kind : TokenKind} {quote : Char} {what : String} {find : Cursor → Scan}
    (hq : quote.isAlpha = false) (h : Text.Respelt here.rest there.rest)
    (hfind : ∀ here, find here = match here.unquote? quote with
      | some (value, next) => ⟨kind, next, some value⟩
      | none => unterminated what here) : Carries here there (find here) (find there) := by
  rcases Cursor.unquote?_respelt hq h with hnone | ⟨value, n, hsome, hsome'⟩
  · refine .finish ?_ h.length.symm fun hrest => ?_
    · rw [hfind, hnone]
      exact congrArg Scan.next (unterminated_eq what here)
    · rw [hfind, hfind, hnone, Cursor.unquote?_none hnone hrest]
      dsimp only
      rw [unterminated_eq, unterminated_eq, hrest]
  · refine ⟨n, by rw [hfind, hsome], fun htake => ?_⟩
    rw [hfind, hfind, hsome, hsome' htake]

theorem string_carries {quote : Char} (hq : quote.isAlpha = false)
    (h : Text.Respelt here.rest there.rest) :
    Carries here there (string quote here) (string quote there) :=
  quoted_carries hq h fun _ => rfl

theorem quotedIdentifier_carries {quote : Char} (hq : quote.isAlpha = false)
    (h : Text.Respelt here.rest there.rest) :
    Carries here there (quotedIdentifier quote here) (quotedIdentifier quote there) :=
  quoted_carries hq h fun _ => rfl

theorem dollar_carries (h : Text.Respelt here.rest there.rest) :
    Carries here there (dollar here) (dollar there) := by
  have hdigit := h.any_head? Text.caseless_isDigit
  by_cases hd : here.rest.head?.any Char.isDigit
  · refine .plain .identifier (here.rest.takeWhile Char.isDigit).length none ?_ ?_
    · rw [dollar, Cursor.peek?, if_pos hd, Cursor.skipWhile_eq]
    · rw [dollar, Cursor.peek?, if_pos (hdigit ▸ hd), Cursor.skipWhile_eq,
        h.length_takeWhile Text.caseless_isDigit]
  have hopening := (h.dropWhile Text.caseless_isTagChar).head_iff (x := '$')
  have htag := h.length_takeWhile Text.caseless_isTagChar
  by_cases ho : (here.rest.dropWhile isTagChar).head? = some '$'
  · have hhere := dollar_eq here (by simpa using hd) ho
    have hthere := dollar_eq there (by simpa [← hdigit] using hd) (hopening.1 ho)
    rw [← htag] at hthere
    generalize hk : (here.rest.takeWhile isTagChar).length = k at hhere hthere
    rcases Cursor.until?_local (here.skip (k + 1)) (delimiterOf here.rest) with
      hnone | ⟨body, n, hsome, hlocal⟩
    · refine .finish ?_ h.length.symm fun hrest => ?_
      · rw [hhere, hnone]
        exact congrArg Scan.next (unterminated_eq _ here)
      · have hbehind : (there.skip (k + 1)).rest = (here.skip (k + 1)).rest := by
          rw [Cursor.skip_rest, Cursor.skip_rest, hrest]
        have hnone' := Cursor.until?_none hnone hbehind
        rw [hhere, hthere, hnone, hrest, hnone']
        dsimp only
        rw [unterminated_eq, unterminated_eq, hrest]
    · refine ⟨k + 1 + (n + (delimiterOf here.rest).length), ?_, fun htake => ?_⟩
      · rw [hhere, hsome, Cursor.skip_add here (k + 1), Cursor.skip_add _ n]
      · have hdelimiter : delimiterOf there.rest = delimiterOf here.rest := by
          have hrun := congrArg (List.take k) htake
          rw [List.take_take, List.take_take, Nat.min_eq_left (by omega)] at hrun
          rw [delimiterOf, delimiterOf,
            List.prefix_iff_eq_take.1 (List.takeWhile_prefix (l := there.rest) isTagChar),
            List.prefix_iff_eq_take.1 (List.takeWhile_prefix (l := here.rest) isTagChar),
            ← htag, hk, hrun]
        have hfound := hlocal (there.skip (k + 1)) (by
          have hbody := congrArg (List.drop (k + 1)) htake
          rwa [List.drop_take, List.drop_take, Nat.add_sub_cancel_left, ← Cursor.skip_rest,
            ← Cursor.skip_rest] at hbody)
        rw [hhere, hthere, hdelimiter, hsome, hfound]
        dsimp only
        rw [Cursor.skip_add there (k + 1), Cursor.skip_add _ n]
  · have hclosed {here : Cursor} (hd : ¬here.rest.head?.any Char.isDigit)
        (ho : ¬(here.rest.dropWhile isTagChar).head? = some '$') :
        dollar here = unexpected '$' here := by
      rw [dollar, Cursor.peek?, if_neg hd]
      dsimp only
      rw [if_neg (by rwa [Cursor.peek?, Cursor.skipWhile_rest])]
    rw [hclosed hd ho, hclosed (hdigit ▸ hd) (mt hopening.2 ho)]
    exact unexpected_carries

theorem Carries.skip (m : ℕ) (h : Carries (here.skip m) (there.skip m) scan scan') :
    Carries here there scan scan' := by
  obtain ⟨n, hnext, hscan⟩ := h
  refine ⟨m + n, by rw [hnext, Cursor.skip_add], fun htake => ?_⟩
  rw [Cursor.skip_add]
  apply hscan
  have hbehind := congrArg (List.drop m) htake
  rwa [List.drop_take, List.drop_take, Nat.add_sub_cancel_left, ← Cursor.skip_rest,
    ← Cursor.skip_rest] at hbehind

/-- The kind of a word depends on its text and on what it starts with. -/
theorem word_eq {start : Cursor} {rest : List Char} (hs : start.rest = c :: rest) :
    word d start c (start.after c rest) =
      ⟨if d.isNamePrefix c then .identifier else
        Lexer.wordKind d (String.ofList (c :: rest.takeWhile (isNameChar d))),
        (start.after c rest).skip (rest.takeWhile (isNameChar d)).length, none⟩ := by
  have htext : rest.take (rest.takeWhile (isNameChar d)).length = rest.takeWhile (isNameChar d) :=
    (List.prefix_iff_eq_take.1 (List.takeWhile_prefix _)).symm
  have hnext : start.textTo ((start.after c rest).skip (rest.takeWhile (isNameChar d)).length) =
      String.ofList (c :: rest.takeWhile (isNameChar d)) := by
    rw [← Cursor.skip_succ hs, Cursor.textTo_skip, hs, List.take_succ_cons, htext]
  unfold word
  rw [Cursor.skipWhile_eq, Cursor.rest_after, Lexer.wordKind]
  dsimp only
  rw [hnext]
  cases d.keyword? (String.ofList (c :: rest.takeWhile (isNameChar d))) with
  | none => simp
  | some keyword => cases d.isNamePrefix c <;> rfl

theorem word_carries {start start' : Cursor} {rest rest' : List Char} (hs : start.rest = c :: rest)
    (hs' : start'.rest = c :: rest') (h : Text.Respelt rest rest') :
    Carries (start.after c rest) (start'.after c rest') (word d start c (start.after c rest))
      (word d start' c (start'.after c rest')) := by
  have hlength := h.length_takeWhile (Text.caseless_isNameChar d)
  rw [word_eq hs, word_eq hs']
  refine ⟨_, rfl, fun htake => ?_⟩
  have htext : rest'.takeWhile (isNameChar d) = rest.takeWhile (isNameChar d) := by
    rw [List.prefix_iff_eq_take.1 (List.takeWhile_prefix (l := rest') (isNameChar d)),
      List.prefix_iff_eq_take.1 (List.takeWhile_prefix (l := rest) (isNameChar d)), ← hlength]
    exact htake
  rw [htext]

theorem isAlpha_closingQuote {quote : Char} (h : d.closingQuote? c = some quote) :
    quote.isAlpha = false := by
  unfold Dialect.closingQuote? at h
  split at h <;> cases h <;> rfl

theorem isAlpha_stringQuote (h : d.isStringQuote c) : c.isAlpha = false := by
  simp only [Dialect.isStringQuote, Bool.or_eq_true, Bool.and_eq_true, beq_iff_eq] at h
  rcases h with rfl | ⟨-, rfl⟩ <;> rfl

theorem literal_carries {start start' : Cursor} {rest rest' : List Char}
    (hs : start.rest = c :: rest) (hs' : start'.rest = c :: rest') (h : Text.Respelt rest rest') :
    Carries (start.after c rest) (start'.after c rest') (literal d start c (start.after c rest))
      (literal d start' c (start'.after c rest')) := by
  have hpeek : (start.after c rest).peek? = some '\x27' ↔ (start'.after c rest').peek? = some '\x27' :=
    h.head_iff
  have hword := word_carries (d := d) hs hs' h
  have hrest : Text.Respelt (start.after c rest).rest (start'.after c rest').rest := h
  generalize start.after c rest = here, start'.after c rest' = there at hpeek hword hrest
  unfold literal
  simp only [hpeek]
  split
  · exact .skip 1 (string_carries rfl (by
      rw [Cursor.skip_rest, Cursor.skip_rest]
      exact hrest.drop 1))
  split
  · next hquote => exact string_carries (isAlpha_stringQuote hquote) hrest
  split
  · next quote hquote => exact quotedIdentifier_carries (isAlpha_closingQuote hquote) hrest
  split
  · exact .plain .leftBracket 0 none rfl rfl
  split
  · exact .plain .rightBracket 0 none rfl rfl
  split
  · exact dollar_carries hrest
  split
  · exact number_carries hrest
  split
  · exact hword
  · exact unexpected_carries

/-- A token depends on how letters are spelt in its own text only. -/
theorem ofChar_carries {start start' : Cursor} {rest rest' : List Char}
    (hs : start.rest = c :: rest) (hs' : start'.rest = c :: rest') (h : Text.Respelt rest rest') :
    Carries (start.after c rest) (start'.after c rest') (ofChar d start c (start.after c rest))
      (ofChar d start' c (start'.after c rest')) := by
  have hdigit : (start.after c rest).peek?.any Char.isDigit =
      (start'.after c rest').peek?.any Char.isDigit := h.any_head? Text.caseless_isDigit
  have hliteral := literal_carries (d := d) hs hs' h
  have hrest : Text.Respelt (start.after c rest).rest (start'.after c rest').rest := h
  generalize start.after c rest = here, start'.after c rest' = there at hdigit hliteral hrest
  have plain {kind : TokenKind} : Carries here there ⟨kind, here, none⟩ ⟨kind, there, none⟩ :=
    .plain kind 0 none rfl rfl
  unfold ofChar
  split
  · exact plain
  split
  · rw [hdigit]
    split
    · exact number_carries hrest
    · exact extended_carries hrest plain
  · exact extended_carries hrest (extended_carries hrest plain)
  · exact extended_carries hrest plain
  · exact extended_carries hrest (extended_carries hrest plain)
  · exact extended_carries hrest plain
  · exact extended_carries hrest unexpected_carries
  · exact extended_carries hrest unexpected_carries
  · exact hliteral

/-! ### Keywords -/

/-- A scan that is no keyword. -/
def Wordless (scan : Scan) : Prop := ∀ keyword, scan.kind ≠ .keyword keyword

theorem wordless_extended {x : Char} {kind : TokenKind} (h : scan.Wordless)
    (hkind : ∀ keyword, kind ≠ .keyword keyword := by nofun) :
    (extended x kind here scan).Wordless := by
  unfold extended
  split
  · exact hkind
  · exact h

theorem wordless_string {quote : Char} : (string quote here).Wordless := by
  unfold string
  split <;> nofun

theorem wordless_quotedIdentifier {quote : Char} : (quotedIdentifier quote here).Wordless := by
  unfold quotedIdentifier
  split <;> nofun

theorem wordless_dollar : (dollar here).Wordless := by
  unfold dollar
  split
  · nofun
  · dsimp only
    split
    · split <;> nofun
    · nofun

theorem wordless_punctuation {kind : TokenKind} (h : punctuation? c = some kind) :
    ∀ keyword, kind ≠ .keyword keyword := by
  unfold punctuation? at h
  split at h <;> cases h <;> nofun

theorem literal_wordless (start : Cursor) :
    (literal d start c here).Wordless ∨ literal d start c here = word d start c here := by
  unfold literal
  split
  · exact .inl wordless_string
  split
  · exact .inl wordless_string
  split
  · exact .inl wordless_quotedIdentifier
  split
  · exact .inl nofun
  split
  · exact .inl nofun
  split
  · exact .inl wordless_dollar
  split
  · exact .inl nofun
  split
  · exact .inr rfl
  · exact .inl nofun

/-- Only words are keywords. -/
theorem ofChar_wordless (start : Cursor) :
    (ofChar d start c here).Wordless ∨ ofChar d start c here = word d start c here := by
  unfold ofChar
  split
  · next hpunctuation => exact .inl (wordless_punctuation hpunctuation)
  split
  · split
    · exact .inl nofun
    · exact .inl (wordless_extended nofun)
  · exact .inl (wordless_extended (wordless_extended nofun))
  · exact .inl (wordless_extended nofun)
  · exact .inl (wordless_extended (wordless_extended nofun))
  · exact .inl (wordless_extended nofun)
  · exact .inl (wordless_extended nofun)
  · exact .inl (wordless_extended nofun)
  · exact literal_wordless start

/-- A keyword starts with a letter or an underscore, as its spelling does. -/
theorem wordStart_of_keyword {keyword : Keyword} {rest : List Char}
    (h : d.keyword? (String.ofList (c :: rest)) = some keyword) :
    (c.isAlpha || c == '_') = true := by
  rw [Dialect.keyword?, Option.filter_eq_some_iff] at h
  have hspelling : keyword.spelling = Text.upper (String.ofList (c :: rest)) := by
    simpa using List.find?_some h.1
  have hfirst : c.toUpper ∈ keyword.spelling.toList := by
    rw [hspelling, Text.upper, String.toList_map, String.toList_ofList]
    exact List.mem_cons_self
  rcases keyword.capitals_spelling.2 _ hfirst with hupper | hunderscore
  · have hnumber : 65 ≤ c.toUpper.toNat ∧ c.toUpper.toNat ≤ 90 := of_decide_eq_true hupper
    rw [Text.toNat_toUpper] at hnumber
    rw [Bool.or_eq_true, Text.isAlpha_iff]
    left
    grind
  · have hnumber := congrArg Char.toNat hunderscore
    rw [Text.toNat_toUpper] at hnumber
    have hc : c = '_' := by
      rw [← Char.toNat_inj]
      change _ = 95 at hnumber ⊢
      grind
    rw [hc]
    rfl

theorem wordStart_respelt {c' : Char} (h : (c.isAlpha || c == '_') = true)
    (hc : c.toLower = c'.toLower) : (c'.isAlpha || c' == '_') = true := by
  by_cases hne : c = c'
  · rwa [← hne]
  · rw [(Text.isAlpha_of_ne hc hne).2, Bool.true_or]

theorem keyword?_respelt {s t : String} (h : Text.lower s = Text.lower t) :
    d.keyword? s = d.keyword? t := by
  rw [Dialect.keyword?, Dialect.keyword?, Keyword.ofString?, Keyword.ofString?,
    Text.upper_eq_of_lower_eq h]

/-- A keyword is the same in other cases of its letters. -/
theorem keyword_respelt {start start' : Cursor} {c' : Char} {rest rest' : List Char}
    (hs : start.rest = c :: rest) (hs' : start'.rest = c' :: rest') (hc : c.toLower = c'.toLower)
    (h : Text.Respelt rest rest') {keyword : Keyword}
    (hkind : (ofChar d start c (start.after c rest)).kind = .keyword keyword) : ∃ n,
      ofChar d start c (start.after c rest) = ⟨.keyword keyword, (start.after c rest).skip n, none⟩ ∧
      ofChar d start' c' (start'.after c' rest') =
        ⟨.keyword keyword, (start'.after c' rest').skip n, none⟩ := by
  have hword : ofChar d start c (start.after c rest) = word d start c (start.after c rest) :=
    (ofChar_wordless start).resolve_left fun hwordless => hwordless keyword hkind
  rw [hword, word_eq hs] at hkind
  dsimp only at hkind
  have hnational : d.isNamePrefix c = false := by
    cases hp : d.isNamePrefix c with
    | true => rw [hp] at hkind; cases hkind
    | false => rfl
  rw [hnational, if_neg nofun] at hkind
  have hkeyword : d.keyword? (String.ofList (c :: rest.takeWhile (isNameChar d))) = some keyword := by
    unfold Lexer.wordKind at hkind
    split at hkind
    · next hfound => rw [hfound, TokenKind.keyword.inj hkind]
    · cases hkind
  have hstart := wordStart_of_keyword hkeyword
  have hstart' := wordStart_respelt hstart hc
  have htext : Text.Respelt (c :: rest.takeWhile (isNameChar d))
      (c' :: rest'.takeWhile (isNameChar d)) := by
    exact (h.takeWhile (Text.caseless_isNameChar d)).prepend hc
  have hquote : c' = 'N' ∨ c' = 'n' → (start'.after c' rest').peek? ≠ some '\x27' := by
    intro hmark hpeek
    have hempty : rest.takeWhile (isNameChar d) = [] := by
      cases rest with
      | nil => rfl
      | cons e es =>
        have hhead : e = '\x27' := Option.some.inj ((h.head_iff (x := '\x27')).2 hpeek)
        rw [List.takeWhile_cons_of_neg]
        rw [hhead]
        cases d <;> decide
    have hletter : Text.Respelt [c] ['N'] := .prepend (.refl []) (by
      rcases hmark with rfl | rfl <;> exact hc)
    rw [hempty, keyword?_respelt hletter.lower_ofList] at hkeyword
    have hnone : d.keyword? (String.ofList ['N']) = none := by cases d <;> decide +kernel
    rw [hnone] at hkeyword
    cases hkeyword
  have halphanum : (c'.isAlphanum || c' == '_') = true := by
    rcases Bool.or_eq_true .. ▸ hstart' with h | h <;> simp [Char.isAlphanum, h]
  have hname : isNameStart d c' = true := by rw [isNameStart, hstart', Bool.true_or]
  have hword' : ofChar d start' c' (start'.after c' rest') = word d start' c' (start'.after c' rest') := by
    rw [ofChar_of_isAlphanum halphanum hquote, isDigit_of_isWordStart hstart', hname]
    rfl
  refine ⟨(rest.takeWhile (isNameChar d)).length, ?_, ?_⟩
  · rw [hword, word_eq hs, hnational, if_neg nofun, hkind]
  · rw [hword', word_eq hs', isNamePrefix_of_isWordStart hstart', if_neg nofun, Lexer.wordKind,
      ← keyword?_respelt htext.lower_ofList, hkeyword,
      h.length_takeWhile (Text.caseless_isNameChar d)]

end Scan

/-! ## White space and comments -/

/-- Modes of the ways over white space and comments in two texts. -/
inductive Trivia.Respelt : Trivia → Trivia → Prop
  | gap : Respelt .gap .gap
  | lineComment : Respelt .lineComment .lineComment
  | blockComment {opening opening' : Cursor} (h : opening.Respelt opening') :
      Respelt (.blockComment opening) (.blockComment opening')

namespace Cursor

/-- Ways over white space and comments end at the same place in two texts. -/
inductive EndsRespelt : Except Cursor Cursor → Except Cursor Cursor → Prop
  | ok {here there : Cursor} (h : here.Respelt there) : EndsRespelt (.ok here) (.ok there)
  | error {here there : Cursor} (h : here.Respelt there) : EndsRespelt (.error here) (.error there)

/-- Two signs open a comment in both texts or in none. -/
theorem opens_respelt {c c' first second : Char} {rest rest' : List Char}
    (h : ∀ t, c = first → rest = second :: t → False) (hc : c.toLower = c'.toLower)
    (hrest : Text.Respelt rest rest') (hfirst : first.isAlpha = false := by decide)
    (hsecond : second.isAlpha = false := by decide) :
    ∀ t, c' = first → rest' = second :: t → False := by
  intro t hc' hrest'
  have hhead : rest.head? = some second := (hrest.head_iff hsecond).2 (by rw [hrest']; rfl)
  cases rest with
  | nil => cases hhead
  | cons e es =>
    rw [List.head?_cons, Option.some.injEq] at hhead
    exact h es ((Text.eq_iff_of_toLower_eq hc hfirst).2 hc') (by rw [hhead])

/-- White space and comments are told by signs. -/
theorem skipTriviaRun_respelt {d : Dialect} {rest rest' : List Char} {mode mode' : Trivia}
    {here there : Cursor} (hr : here.rest = rest) (hr' : there.rest = rest')
    (h : here.Respelt there) (hmode : mode.Respelt mode') :
    EndsRespelt (here.skipTriviaRun d rest mode) (there.skipTriviaRun d rest' mode') := by
  have hrest : Text.Respelt rest rest' := hr ▸ hr' ▸ h.rest
  fun_induction Cursor.skipTriviaRun d rest mode here generalizing there rest' mode' with
  | case1 opening here =>
    obtain rfl := hrest.nil
    cases hmode with
    | blockComment hopening => exact .error hopening
  | case2 mode here hopen =>
    obtain rfl := hrest.nil
    cases hmode with
    | gap => exact .ok h
    | lineComment => exact .ok h
    | @blockComment opening => exact (hopen opening rfl).elim
  | case3 c rest here ih =>
    obtain ⟨c', rest', rfl, hc, hrest⟩ := hrest.cons
    cases hmode
    rw [skipTriviaRun]
    · refine ih rfl rfl (h.after hr hr') ?_ hrest
      have hline : c = '\n' ↔ c' = '\n' := Text.eq_iff_of_toLower_eq hc (by decide)
      simp only [hline]
      split
      · exact .gap
      · exact .lineComment
  | case4 rest here opening ih =>
    obtain ⟨behind, rfl, hsecond⟩ := hrest.sign
    obtain ⟨behind, rfl, hbehind⟩ := hsecond.sign
    cases hmode
    rw [skipTriviaRun]
    exact ih rfl rfl ((h.after hr hr').after rfl rfl) .gap hbehind
  | case5 c rest here opening hclose ih =>
    obtain ⟨c', rest', rfl, hc, hrest⟩ := hrest.cons
    cases hmode with
    | blockComment hopening =>
      rw [skipTriviaRun]
      · exact ih rfl rfl (h.after hr hr') (.blockComment hopening) hrest
      · exact opens_respelt hclose hc hrest
  | case6 rest here ih =>
    obtain ⟨behind, rfl, hsecond⟩ := hrest.sign
    obtain ⟨behind, rfl, hbehind⟩ := hsecond.sign
    cases hmode
    rw [skipTriviaRun]
    exact ih rfl rfl ((h.after hr hr').after rfl rfl) .lineComment hbehind
  | case7 rest here ih =>
    obtain ⟨behind, rfl, hsecond⟩ := hrest.sign
    obtain ⟨behind, rfl, hbehind⟩ := hsecond.sign
    cases hmode
    rw [skipTriviaRun]
    exact ih rfl rfl ((h.after hr hr').after rfl rfl) (.blockComment h) hbehind
  | case8 c rest here hline hblock hblank ih =>
    obtain ⟨c', rest', rfl, hc, hrest⟩ := hrest.cons
    cases hmode
    rw [skipTriviaRun, if_pos (Text.caseless_isBlank c c' hc ▸ hblank)]
    · exact ih rfl rfl (h.after hr hr') .gap hrest
    · exact opens_respelt hline hc hrest
    · exact opens_respelt hblock hc hrest
  | case9 c rest here hline hblock hblank hhash ih =>
    obtain ⟨c', rest', rfl, hc, hrest⟩ := hrest.cons
    have hsign : c = '#' ↔ c' = '#' := Text.eq_iff_of_toLower_eq hc (by decide)
    cases hmode
    rw [skipTriviaRun, if_neg (Text.caseless_isBlank c c' hc ▸ hblank),
      if_pos (by simpa only [hsign] using hhash)]
    · exact ih rfl rfl (h.after hr hr') .lineComment hrest
    · exact opens_respelt hline hc hrest
    · exact opens_respelt hblock hc hrest
  | case10 c rest here hline hblock hblank hhash =>
    obtain ⟨c', rest', rfl, hc, hrest⟩ := hrest.cons
    have hsign : c = '#' ↔ c' = '#' := Text.eq_iff_of_toLower_eq hc (by decide)
    cases hmode
    rw [skipTriviaRun, if_neg (Text.caseless_isBlank c c' hc ▸ hblank),
      if_neg (by simpa only [hsign] using hhash)]
    · exact .ok h
    · exact opens_respelt hline hc hrest
    · exact opens_respelt hblock hc hrest

theorem skipTrivia_respelt (d : Dialect) {here there : Cursor} (h : here.Respelt there) :
    EndsRespelt (here.skipTrivia d) (there.skipTrivia d) :=
  skipTriviaRun_respelt rfl rfl h .gap

/-! ## Differences -/

/-- The second text has another character for the one at an offset of the first text. -/
def Differ (here there : Cursor) (offset : ℕ) : Prop :=
  ∃ i, here.rest[i]? ≠ there.rest[i]? ∧ offset = here.offset + utf8Len (here.rest.take i)

variable {here there : Cursor}

theorem skip_congr {m n : ℕ} (h : (here.skip m).rest.length = (here.skip n).rest.length) :
    here.skip m = here.skip n := by
  have hle {m n : ℕ} (hmn : m ≤ n) (h : (here.skip m).rest.length = (here.skip n).rest.length) :
      here.skip m = here.skip n := by
    obtain ⟨k, rfl⟩ := Nat.exists_eq_add_of_le hmn
    rw [skip_add] at h ⊢
    cases hr : (here.skip m).rest with
    | nil => rw [skip_nil hr]
    | cons c rest =>
      rw [skip_rest _ k, hr, List.length_drop, List.length_cons] at h
      obtain rfl : k = 0 := by omega
      rfl
  rcases Nat.le_total m n with hmn | hmn
  · exact hle hmn h
  · exact (hle hmn h.symm).symm

/-- Texts differ further on where they differ at all. -/
theorem Differ.of_skip {m n offset : ℕ} (h : here.Respelt there)
    (hmoved : (here.skip m).Respelt (there.skip n))
    (hdiffer : Differ (here.skip m) (there.skip n) offset) : Differ here there offset := by
  have hn : there.skip n = there.skip m :=
    skip_congr (hmoved.rest.length.symm.trans (h.skip m).rest.length)
  rw [hn] at hdiffer
  obtain ⟨i, hi, rfl⟩ := hdiffer
  refine ⟨m + i, ?_, ?_⟩
  · rwa [skip_rest, skip_rest, List.getElem?_drop, List.getElem?_drop] at hi
  · rw [skip_offset, skip_rest, List.take_add, String.utf8Len_append, Nat.add_assoc]

/-- What is spelt the same up to a place. -/
theorem take_eq_of_differ {n : ℕ} (h : here.Respelt there)
    (hexact : ∀ offset, Differ here there offset →
      ¬(here.offset ≤ offset ∧ offset < (here.skip n).offset)) :
    there.rest.take n = here.rest.take n := by
  apply List.ext_getElem?
  intro i
  by_cases hi : i < n
  · rw [List.getElem?_take_of_lt hi, List.getElem?_take_of_lt hi]
    by_contra hne
    refine hexact _ ⟨i, Ne.symm hne, rfl⟩ ⟨Nat.le_add_right _ _, ?_⟩
    have hlength : i < here.rest.length := by
      by_contra hle
      apply hne
      rw [List.getElem?_eq_none (by rw [← h.rest.length]; omega), List.getElem?_eq_none (by omega)]
    have htake : utf8Len (here.rest.take n) = utf8Len (here.rest.take i) +
        utf8Len ((here.rest.drop i).take (n - i)) := by
      rw [← String.utf8Len_append, ← List.take_add, Nat.add_sub_cancel' hi.le]
    have hsize := here.rest[i].utf8Size_pos
    rw [skip_offset, htake, List.drop_eq_getElem_cons hlength,
      show n - i = n - i - 1 + 1 by omega, List.take_succ_cons, String.utf8Len_cons]
    omega
  · rw [List.getElem?_take_eq_none (by omega), List.getElem?_take_eq_none (by omega)]

end Cursor

/-! ## Lexers -/

namespace Lexer

variable {here there : Lexer}

theorem tokenOf_kin {start start' : Cursor} {scan scan' : Scan} (h : start.Respelt start')
    (hkind : scan.kind = scan'.kind) (hnext : scan.next.Respelt scan'.next)
    (hsame : Text.lower (tokenOf start scan).literal = Text.lower (tokenOf start' scan').literal)
    (hliteral : (∀ keyword, scan.kind ≠ .keyword keyword) →
      (tokenOf start scan).literal = (tokenOf start' scan').literal) :
    (tokenOf start scan).Kin false (tokenOf start' scan') := by
  refine ⟨hkind, ?_, hsame, hliteral⟩
  simp only [tokenOf, h.offset, h.line, h.column, hnext.offset]

/-- A token that is no keyword is read the same if the sources do not differ in it. -/
theorem tokenOf_respelt {d : Dialect} {start start' : Cursor} {c c' : Char} {rest rest' : List Char}
    (hs : start.rest = c :: rest) (hs' : start'.rest = c' :: rest') (h : start.Respelt start')
    (hexact : ∀ offset, start.Differ start' offset → start.offset ≤ offset →
      offset < (Scan.ofChar d start c (start.after c rest)).next.offset →
        ∃ keyword, (Scan.ofChar d start c (start.after c rest)).kind = .keyword keyword) :
    (tokenOf start (Scan.ofChar d start c (start.after c rest))).Kin false
        (tokenOf start' (Scan.ofChar d start' c' (start'.after c' rest'))) ∧
      (Scan.ofChar d start c (start.after c rest)).next.Respelt
        (Scan.ofChar d start' c' (start'.after c' rest')).next := by
  have htexts := h.rest
  rw [hs, hs'] at htexts
  obtain ⟨hchar, hrest⟩ := List.cons.inj (show c.toLower :: _ = c'.toLower :: _ from htexts)
  by_cases hkeyword : ∃ keyword, (Scan.ofChar d start c (start.after c rest)).kind = .keyword keyword
  · obtain ⟨keyword, hkind⟩ := hkeyword
    obtain ⟨n, hscan, hscan'⟩ := Scan.keyword_respelt hs hs' hchar hrest hkind
    rw [hscan, hscan', ← Cursor.skip_succ hs, ← Cursor.skip_succ hs']
    refine ⟨tokenOf_kin h rfl (h.skip _) ?_ fun hne => absurd rfl (hne keyword), h.skip _⟩
    simp only [tokenOf, Option.getD_none, Cursor.textTo_skip]
    exact (h.rest.take _).lower_ofList
  have hsame {n : ℕ} (hn : (Scan.ofChar d start c (start.after c rest)).next = start.skip n) :
      start'.rest.take n = start.rest.take n :=
    Cursor.take_eq_of_differ h fun offset hdiffer hin =>
      hkeyword (hexact offset hdiffer hin.1 (hn ▸ hin.2))
  obtain ⟨kind, m, literal?, -, -, hsettled⟩ := Scan.ofChar_settled d c rest
  have hnext := congrArg Scan.next (hsettled start hs)
  rw [← Cursor.skip_succ hs] at hnext
  have hfirst := hsame hnext
  rw [hs, hs', List.take_succ_cons, List.take_succ_cons, List.cons.injEq] at hfirst
  obtain ⟨rfl, -⟩ := hfirst
  obtain ⟨n, hn, hscan⟩ := Scan.ofChar_carries (d := d) hs hs' hrest
  rw [← Cursor.skip_succ hs] at hn
  have htake := hsame hn
  have hbehind := htake
  rw [hs, hs', List.take_succ_cons, List.take_succ_cons, List.cons.injEq] at hbehind
  rw [hscan hbehind.2, ← Cursor.skip_succ hs']
  generalize Scan.ofChar d start c' (start.after c' rest) = scan at hn ⊢
  have hliteral : (tokenOf start scan).literal =
      (tokenOf start' { scan with next := start'.skip (n + 1) }).literal := by
    simp only [tokenOf, hn, Cursor.textTo_skip, htake]
  have hmoved : scan.next.Respelt (start'.skip (n + 1)) := hn ▸ h.skip _
  exact ⟨tokenOf_kin h rfl hmoved (congrArg Text.lower hliteral) fun _ => hliteral, hmoved⟩

/-- The next token is read the same but for the case of letters in a keyword, if the sources do not
differ in it otherwise. -/
theorem next_respelt (hdialect : here.dialect = there.dialect)
    (h : here.cursor.Respelt there.cursor)
    (hexact : ∀ offset, here.cursor.Differ there.cursor offset →
      here.next.1.span.start ≤ offset → offset < here.next.1.span.stop →
        ∃ keyword, here.next.1.kind = .keyword keyword) :
    here.next.1.Kin false there.next.1 ∧ here.next.2.cursor.Respelt there.next.2.cursor := by
  have hends := Cursor.skipTrivia_respelt here.dialect h
  have hskip (lexer : Lexer) {place : Cursor}
      (hplace : lexer.cursor.skipTrivia lexer.dialect = .ok place) : ∃ n, place = lexer.cursor.skip n := by
    rcases skipTrivia_settled lexer.dialect lexer.cursor.rest with ⟨n, htrivia, -⟩ | ⟨n, htrivia, -⟩
    · rw [htrivia _ rfl] at hplace
      exact ⟨n, (Except.ok.inj hplace).symm⟩
    · rw [htrivia _ rfl] at hplace
      cases hplace
  unfold next at hexact ⊢
  rw [← hdialect]
  revert hexact
  generalize htrivia : here.cursor.skipTrivia here.dialect = result,
    htrivia' : there.cursor.skipTrivia here.dialect = result' at hends
  cases hends with
  | @error opening opening' hopening =>
    intro _
    have hfinish : (Scan.unterminated "block comment" opening).next.Respelt
        (Scan.unterminated "block comment" opening').next := by
      rw [Scan.unterminated_eq, Scan.unterminated_eq, hopening.rest.length]
      exact hopening.skip _
    exact ⟨tokenOf_kin hopening rfl hfinish rfl fun _ => rfl, hfinish⟩
  | @ok start start' hstart =>
    obtain ⟨n, rfl⟩ := hskip here htrivia
    obtain ⟨m, rfl⟩ := hskip there (hdialect ▸ htrivia')
    dsimp only
    cases hs : (here.cursor.skip n).rest with
    | nil =>
      intro _
      have hs' : (there.cursor.skip m).rest = [] := (hs ▸ hstart.rest).nil
      rw [hs']
      exact ⟨tokenOf_kin hstart rfl hstart rfl fun _ => rfl, hstart⟩
    | cons c rest =>
      obtain ⟨c', rest', hs', -⟩ := (hs ▸ hstart.rest).cons
      intro hexact
      rw [hs']
      exact tokenOf_respelt hs hs' hstart fun offset hdiffer => hexact offset (hdiffer.of_skip h hstart)

theorem next_offset_le (lexer : Lexer) : lexer.cursor.offset ≤ lexer.next.2.cursor.offset := by
  obtain ⟨r, -, hr, -⟩ := exists_reading lexer.dialect lexer.cursor.rest
  rw [hr lexer rfl rfl]
  dsimp only
  rw [Cursor.skip_offset]
  exact Nat.le_add_right _ _

theorem le_start_of_mem_tokens {lexer : Lexer} {t : Token} (h : t ∈ lexer.tokens) :
    lexer.cursor.offset ≤ t.span.start := by
  fun_induction tokens lexer with
  | case1 lexer token behind hnext hend =>
    obtain rfl := List.mem_singleton.1 h
    have hstart := le_next_start lexer
    rwa [hnext] at hstart
  | case2 lexer token behind hnext hend ih =>
    rcases List.mem_cons.1 h with rfl | h
    · have hstart := le_next_start lexer
      rwa [hnext] at hstart
    · have hbehind := next_offset_le lexer
      rw [hnext] at hbehind
      exact hbehind.trans (ih h)

/-- Lexers at the same place in two texts that differ ahead only in the case of letters in keywords of
the first one. -/
structure Respelt (here there : Lexer) : Prop where
  dialect : here.dialect = there.dialect
  cursor : here.cursor.Respelt there.cursor
  inKeywords : ∀ offset, here.cursor.Differ there.cursor offset →
    ∃ t ∈ here.tokens, (∃ keyword, t.kind = .keyword keyword) ∧
      t.span.start ≤ offset ∧ offset < t.span.stop

namespace Respelt

/-- A keyword in which the texts differ is the next token if they differ up to its end. -/
theorem next_or_behind (h : here.Respelt there) {offset : ℕ}
    (hdiffer : here.cursor.Differ there.cursor offset) :
    (∃ keyword, here.next.1.kind = .keyword keyword) ∧ here.next.1.span.start ≤ offset ∧
        offset < here.next.1.span.stop ∨
      here.next.1.isEof = false ∧ ∃ t ∈ here.next.2.tokens, (∃ keyword, t.kind = .keyword keyword) ∧
        t.span.start ≤ offset ∧ offset < t.span.stop := by
  obtain ⟨t, ht, hin⟩ := h.inKeywords offset hdiffer
  rw [tokens_eq] at ht
  cases hend : here.next.1.isEof with
  | true =>
    rw [hend, if_pos rfl, List.mem_singleton] at ht
    exact .inl (ht ▸ hin)
  | false =>
    rw [hend, if_neg nofun] at ht
    rcases List.mem_cons.1 ht with rfl | ht
    · exact .inl hin
    · exact .inr ⟨rfl, t, ht, hin⟩

/-- Lexers stay so, token by token. -/
theorem next (h : here.Respelt there) :
    here.next.1.Kin false there.next.1 ∧ here.next.2.Respelt there.next.2 := by
  have hfits := next_fits here
  have hnext : here.next.1.Kin false there.next.1 ∧
      here.next.2.cursor.Respelt there.next.2.cursor := by
    refine next_respelt h.dialect h.cursor fun offset hdiffer hstart hstop => ?_
    rcases h.next_or_behind hdiffer with hin | ⟨hend, t, ht, -, hle, -⟩
    · exact hin.1
    · have hbehind := le_start_of_mem_tokens ht
      have hbounded := hfits.bounded hend
      omega
  refine ⟨hnext.1, ⟨?_, hnext.2, fun offset hdiffer => ?_⟩⟩
  · rw [next_dialect, next_dialect, h.dialect]
  · have hahead : here.cursor.Differ there.cursor offset := by
      obtain ⟨r, -, hr, -⟩ := exists_reading here.dialect here.cursor.rest
      obtain ⟨r', -, hr', -⟩ := exists_reading there.dialect there.cursor.rest
      have hmoved := hnext.2
      rw [hr here rfl rfl, hr' there rfl rfl] at hmoved hdiffer
      exact hdiffer.of_skip h.cursor hmoved
    obtain ⟨i, hi, hoffset⟩ := hdiffer
    rcases h.next_or_behind hahead with ⟨-, -, hstop⟩ | ⟨-, hin⟩
    · cases hend : here.next.1.isEof with
      | true =>
        have hrest := next_end hend
        have hrest' := (hrest ▸ hnext.2.rest).nil
        rw [hrest, hrest'] at hi
        exact absurd rfl hi
      | false =>
        have hbounded := hfits.bounded hend
        omega
    · exact hin

theorem tokens (h : here.Respelt there) :
    List.Forall₂ (Token.Kin false) here.tokens there.tokens := by
  fun_induction Lexer.tokens here generalizing there with
  | case1 lexer token behind hlexer hend =>
    have hnext := h.next
    rw [hlexer] at hnext
    rw [tokens_eq there, ← hnext.1.isEof, if_pos hend]
    exact .cons hnext.1 .nil
  | case2 lexer token behind hlexer hend ih =>
    have hnext := h.next
    rw [hlexer] at hnext
    rw [tokens_eq there, ← hnext.1.isEof, if_neg hend]
    exact .cons hnext.1 (ih hnext.2)

end Respelt

/-- Sources that differ only in the case of letters in keywords of the first one. -/
structure KeywordsRespelt (d : Dialect) (a b : String) : Prop where
  letters : Text.lower a = Text.lower b
  inKeywords : ∀ i, a.toList[i]? ≠ b.toList[i]? →
    ∃ t ∈ tokenize a d, (∃ keyword, t.kind = .keyword keyword) ∧
      t.span.start ≤ utf8Len (a.toList.take i) ∧ utf8Len (a.toList.take i) < t.span.stop

theorem KeywordsRespelt.refl {d : Dialect} (a : String) : KeywordsRespelt d a a :=
  ⟨rfl, fun _ hne => absurd rfl hne⟩

theorem KeywordsRespelt.ofSource {d : Dialect} {a b : String} (h : KeywordsRespelt d a b) :
    (Lexer.ofSource a d).Respelt (Lexer.ofSource b d) := by
  have hletters := congrArg String.toList h.letters
  rw [Text.lower, Text.lower, String.toList_map, String.toList_map] at hletters
  refine ⟨rfl, ⟨hletters, rfl, rfl, rfl⟩, ?_⟩
  rintro offset ⟨i, hne, rfl⟩
  have hoffset : (Lexer.ofSource a d).cursor.offset = 0 := rfl
  rw [hoffset, Nat.zero_add]
  exact h.inKeywords i hne

end Lexer

end SqlFrontend
