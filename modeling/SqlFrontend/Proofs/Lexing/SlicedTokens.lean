import SqlFrontend.Proofs.Lexing.Slicing

/-!
# Tokens by slices of bytes

The tokens of a text, read with a byte offset for the place. The text of a token is a slice, and so is
whatever is looked at to find its end.

Results:
* `Slicing.number?`, `Slicing.quoted?`, `Slicing.dollar?`, `Slicing.word?`: the scanners of tokens.
* `Slicing.next?`: the next token.
* `Slicing.next?_eq`: where a cursor stands at its offset, the next token is read and no slice is missing.
-/

namespace SqlFrontend

open String (utf8Len)

namespace Slicing

variable (text : List Char)

/-! ## Single tokens -/

/-- What was read of a token: its kind, the place behind it, and its literal where that is not just its
text. -/
structure Found where
  kind : TokenKind
  next : Place
  literal? : Option String := none

/-- An illegal token for a character that starts no token. -/
def unexpected (c : Char) (next : Place) : Found :=
  ⟨.illegal, next, some s!"unexpected character '{c}'"⟩

/-- An illegal token for a text that lacks its end. -/
def unterminated (what : String) (finish : Place) : Found :=
  ⟨.illegal, finish, some ("unterminated " ++ what)⟩

/-- A token of one kind if the next character is `c`, and `otherwise` if not. -/
def extended? (c : Char) (kind : TokenKind) (here : Place) (otherwise : Option Found) :
    Option Found := do
  if (← peek? text here) = some c then return ⟨kind, ← advance? text here, none⟩
  else otherwise

/-- The place behind the fraction that follows the integral digits. -/
def skipFraction? (here : Place) : Option Place := do
  if (← peek? text here) = some '.' ∧ (← peekNext? text here).any Char.isDigit then
    skipWhile? text Char.isDigit (← advance? text here)
  else return here

/-- The place behind the exponent that follows the digits. Whether there is one is seen in the text
behind its mark, and behind the sign if it has one. -/
def skipExponent? (here : Place) : Option Place := do
  if (← peek? text here).any fun mark => mark = 'e' || mark = 'E' then
    let rest ← sliceFrom? text (here.offset + 1)
    let signed := rest.head?.any fun c => c = '+' || c = '-'
    let digits ← if signed then sliceFrom? rest 1 else some rest
    if digits.head?.any Char.isDigit then
      let behindMark ← advance? text here
      skipWhile? text Char.isDigit (← if signed then advance? text behindMark else some behindMark)
    else return here
  else return here

/-- A number. -/
def number? (here : Place) : Option Found := do
  let behindDigits ← skipWhile? text Char.isDigit here
  let behindFraction ← skipFraction? text behindDigits
  return ⟨.number, ← skipExponent? text behindFraction, none⟩

/-- A point, or a number that starts with one. -/
def point? (here : Place) : Option Found := do
  if (← peek? text here).any Char.isDigit then number? text here else return ⟨.dot, here, none⟩

/-- Reads a quoted text up to its closing quote, with what was read in reverse, or gives the end of the
text. -/
def unquoteRun? (quote : Char) :
    ℕ → List Char → Place → Option (Except Place (String × Place))
  | 0, _, _ => none
  | rounds + 1, read, here => do
    match ← peek? text here with
    | none => return .error here
    | some c =>
      if c = quote then
        if (← peekNext? text here) = some quote then
          unquoteRun? quote rounds (quote :: read) (← advance? text (← advance? text here))
        else return .ok (String.ofList read.reverse, ← advance? text here)
      else unquoteRun? quote rounds (c :: read) (← advance? text here)

/-- A quoted token of a kind. -/
def quoted? (kind : TokenKind) (what : String) (quote : Char) (here : Place) : Option Found := do
  match ← unquoteRun? text quote (text.length + 1) [] here with
  | .ok (value, next) => return ⟨kind, next, some value⟩
  | .error finish => return unterminated what finish

/-- The offset at which a delimiter occurs first. -/
def find? (delimiter : List Char) : List Char → Option ℕ
  | [] => if delimiter.isPrefixOf [] then some 0 else none
  | c :: rest =>
    if delimiter.isPrefixOf (c :: rest) then some 0
    else (find? delimiter rest).map (· + c.utf8Size)

/-- The body of a dollar quote that starts at an offset, and its closing delimiter. -/
def dollarBody? (delimiter : List Char) (start : ℕ) (here : Place) : Option Found := do
  match find? delimiter (← sliceFrom? text start) with
  | some length =>
    let body ← slice? text start (start + length)
    return ⟨.dollarQuote, ← advanceTo? text (start + length + utf8Len delimiter) here,
      some (String.ofList body)⟩
  | none => return unterminated "dollar-quoted string" (← advanceTo? text (utf8Len text) here)

/-- What a dollar sign starts where dollar quotes exist. The tag and what stands behind it are slices of
the text ahead. -/
def dollar? (here : Place) : Option Found := do
  if (← peek? text here).any Char.isDigit then
    return ⟨.identifier, ← skipWhile? text Char.isDigit here, none⟩
  else
    let rest ← sliceFrom? text here.offset
    let tagLength := utf8Len (rest.takeWhile Scan.isTagChar)
    let tag ← sliceTo? rest tagLength
    if (← sliceFrom? rest tagLength).head? = some '$' ∧ ¬tag.head?.any Char.isDigit then
      let start := here.offset + tagLength + 1
      dollarBody? text ('$' :: (tag ++ ['$'])) start (← advanceTo? text start here)
    else return unexpected '$' here

/-- A name or a keyword. -/
def word? (d : Dialect) (start : Place) (c : Char) (here : Place) : Option Found := do
  let next ← skipWhile? text (Scan.isNameChar d) here
  match d.keyword? (String.ofList (← slice? text start.offset next.offset)) with
  | some keyword =>
    if d.isNamePrefix c then return ⟨.identifier, next, none⟩ else return ⟨.keyword keyword, next, none⟩
  | none => return ⟨.identifier, next, none⟩

/-- A quoted text, a number, a name, or whatever else is no operator. -/
def literal? (d : Dialect) (start : Place) (c : Char) (here : Place) : Option Found := do
  if (c = 'N' || c = 'n') && (← peek? text here) = some '\x27' && d.hasNationalStrings then
    quoted? text .string "string literal" '\x27' (← advance? text here)
  else if d.isStringQuote c then quoted? text .string "string literal" c here
  else
    match d.closingQuote? c with
    | some quote => quoted? text .quotedIdentifier "quoted identifier" quote here
    | none =>
      if c = '[' then return ⟨.leftBracket, here, none⟩
      else if c = ']' then return ⟨.rightBracket, here, none⟩
      else if c = '$' && d.hasDollarQuotes then dollar? text here
      else if c.isDigit then number? text here
      else if Scan.isNameStart d c then word? text d start c here
      else return unexpected c here

/-- The token that starts with the character `c`; `here` is the place behind that. -/
def ofChar? (d : Dialect) (start : Place) (c : Char) (here : Place) : Option Found := do
  match Scan.punctuation? c with
  | some kind => return ⟨kind, here, none⟩
  | none =>
    match c with
    | '.' => extended? text '.' .dotDot here (point? text here)
    | ':' =>
      extended? text ':' .doubleColon here
        (extended? text '=' .colonAssign here (some ⟨.colon, here, none⟩))
    | '=' => extended? text '=' .eq here (some ⟨.assign, here, none⟩)
    | '<' =>
      extended? text '=' .ltEq here (extended? text '>' .notEq here (some ⟨.lt, here, none⟩))
    | '>' => extended? text '=' .gtEq here (some ⟨.gt, here, none⟩)
    | '!' => extended? text '=' .notEq here (some (unexpected c here))
    | '|' => extended? text '|' .concat here (some (unexpected c here))
    | _ => literal? text d start c here

/-- The token that was found behind a place. Its text is a slice. -/
def token? (start : Place) (found : Found) : Option Token := do
  let literal ← match found.literal? with
    | some literal => some literal
    | none => String.ofList <$> slice? text start.offset found.next.offset
  return ⟨found.kind, literal, ⟨start.offset, found.next.offset, start.line, start.column⟩⟩

/-- The next token and the place behind it. -/
def next? (d : Dialect) (here : Place) : Option (Token × Place) := do
  match ← skipTrivia? text d here with
  | .error (opening, finish) =>
    return (← token? text opening (unterminated "block comment" finish), finish)
  | .ok start =>
    match ← peek? text start with
    | none => return (← token? text start ⟨.eof, start, some ""⟩, start)
    | some c =>
      let found ← ofChar? text d start c (← advance? text start)
      return (← token? text start found, found.next)

end Slicing

/-! ## No slice is missing -/

/-- What was found, with nothing but the place behind it. -/
def Scan.found (scan : Scan) : Slicing.Found := ⟨scan.kind, scan.next.place, scan.literal?⟩

namespace Slicing

section

variable {text : List Char} {here : Cursor} {c : Char} {rest : List Char} (h : here.In text)
include h

theorem extended?_eq (c : Char) (kind : TokenKind) (otherwise : Scan) :
    extended? text c kind here.place (some otherwise.found) =
      some (Scan.extended c kind here otherwise).found := by
  rw [extended?, peek?_eq h, advance?_eq h, Scan.extended, Cursor.peek?]
  split
  · next hc => simp [hc, Scan.found]
  · next hc => simp [hc]

theorem skipFraction?_eq : skipFraction? text here.place = some (Scan.skipFraction here).place := by
  have hdigits := skipWhile?_eq (h.skip 1) Char.isDigit
  rw [skipFraction?, peek?_eq h, peekNext?_eq h, advance?_eq h]
  unfold Scan.skipFraction
  split
  · next d others hr =>
    cases hd : d.isDigit <;> simp [hr, hd, hdigits]
  · next hno =>
    have hnone : ¬(here.rest.head? = some '.' ∧ here.rest.tail.head?.any Char.isDigit) := by
      rintro ⟨hpoint, hdigit⟩
      obtain ⟨others, hr⟩ := List.head?_eq_some_iff.1 hpoint
      cases others with
      | nil => simp [hr] at hdigit
      | cons d others => exact hno d others hr
    simp only [Option.bind_eq_bind, Option.bind_some, if_neg hnone]
    rfl

/-- The text behind the mark of an exponent. -/
theorem sliceFrom?_mark (hr : here.rest = c :: rest) (hc : (c = 'e' || c = 'E') = true) :
    sliceFrom? text (here.place.offset + 1) = some rest := by
  have hsize : c.utf8Size = 1 := by
    rw [Bool.or_eq_true, decide_eq_true_eq, decide_eq_true_eq] at hc
    rcases hc with rfl | rfl <;> decide
  have hbehind := (h.after hr).sliceFrom?
  have hoffset : (here.after c rest).place.offset = here.place.offset + c.utf8Size := rfl
  rwa [hoffset, hsize] at hbehind

theorem skipExponent?_eq : skipExponent? text here.place = some (Scan.skipExponent here).place := by
  rw [skipExponent?, peek?_eq h, Option.bind_eq_bind, Option.bind_some, Scan.skipExponent]
  cases hr : here.rest with
  | nil => rfl
  | cons mark rest =>
    by_cases hmark : (mark = 'e' || mark = 'E') = true
    · have hskip := skipWhile?_eq (h.skip 1) Char.isDigit
      have hskip' := skipWhile?_eq (h.skip 2) Char.isDigit
      have hagain : advance? text (here.skip 1).place = some (here.skip 2).place := by
        rw [advance?_eq (h.skip 1), ← Cursor.skip_add]
      rw [List.head?_cons, Option.any_some, if_pos hmark, sliceFrom?_mark h hr hmark]
      cases rest with
      | nil => rfl
      | cons c others =>
        by_cases hsign : (c = '+' || c = '-') = true
        · have hplain : c.isDigit = false ∧ sliceFrom? (c :: others) 1 = some others := by
            rw [Bool.or_eq_true, decide_eq_true_eq, decide_eq_true_eq] at hsign
            rcases hsign with rfl | rfl <;>
              exact ⟨rfl, sliceFrom?_eq_some.2 ⟨[_], rfl, by decide⟩⟩
          cases hdigit : others.head?.any Char.isDigit <;>
            simp [hmark, hsign, hplain, hdigit, advance?_eq h, hagain, hskip']
        · cases hdigit : c.isDigit <;> simp [hmark, hsign, hdigit, advance?_eq h, hskip]
    · rw [List.head?_cons, Option.any_some, if_neg hmark]
      cases rest with
      | nil => rfl
      | cons c others => simp only [if_neg hmark]; rfl

theorem number?_eq : number? text here.place = some (Scan.number here).found := by
  have hdigits := h.skipWhile Char.isDigit
  have hfraction : (Scan.skipFraction (here.skipWhile Char.isDigit)).In text := by
    rw [Scan.skipFraction_eq]
    exact hdigits.skip _
  rw [number?, skipWhile?_eq h, Option.bind_eq_bind, Option.bind_some, skipFraction?_eq hdigits,
    Option.bind_some, skipExponent?_eq hfraction]
  rfl

/-- No digit is a second point. -/
theorem point?_eq : extended? text '.' .dotDot here.place (point? text here.place) =
    some (Scan.found (if here.peek?.any Char.isDigit then Scan.number here
      else Scan.extended '.' .dotDot here ⟨.dot, here, none⟩)) := by
  have hextended := extended?_eq h '.' .dotDot
  rw [point?, peek?_eq h, number?_eq h, Option.bind_eq_bind, Option.bind_some, Cursor.peek?]
  by_cases hdigit : here.rest.head?.any Char.isDigit
  · have hpoint : here.peek? ≠ some '.' := by
      intro hpoint
      rw [Cursor.peek?] at hpoint
      rw [hpoint] at hdigit
      cases hdigit
    have hnumber := hextended (Scan.number here)
    rw [Scan.extended, if_neg hpoint] at hnumber
    rw [if_pos hdigit, if_pos hdigit]
    exact hnumber
  · rw [if_neg hdigit, if_neg hdigit]
    exact hextended ⟨.dot, here, none⟩

theorem unquoteRun?_eq (quote : Char) (read : List Char) {rounds : ℕ}
    (hrounds : here.rest.length < rounds) :
    unquoteRun? text quote rounds read here.place =
      some (match Cursor.unquoteRun quote here.rest read here with
        | (value, some there) => .ok (String.ofList value.reverse, there.place)
        | (_, none) => .error here.finish.place) := by
  generalize hr : here.rest = rest
  obtain ⟨rounds, rfl⟩ := Nat.exists_eq_add_one_of_ne_zero (Nat.ne_zero_of_lt hrounds)
  fun_induction Cursor.unquoteRun quote rest read here generalizing rounds with
  | case1 read here =>
    rw [unquoteRun?, peek?_eq h, hr, Cursor.finish_nil hr]
    rfl
  | case2 read here rest ih =>
    have hnext := h.after hr
    rw [unquoteRun?, peek?_eq h, peekNext?_eq h, advance?_cons h hr, hr]
    simp only [Option.bind_eq_bind, Option.bind_some, List.head?_cons, List.tail_cons, if_true,
      advance?_cons hnext (Cursor.rest_after _ _ _)]
    have hless : rest.length < rounds := by
      rw [hr, List.length_cons, List.length_cons] at hrounds
      omega
    obtain ⟨rounds, rfl⟩ := Nat.exists_eq_add_one_of_ne_zero (Nat.ne_zero_of_lt hless)
    rw [ih (hnext.after rfl) rfl rounds hless, Cursor.finish_after (Cursor.rest_after _ _ _),
      Cursor.finish_after hr]
  | case3 read here d rest hd =>
    rw [unquoteRun?, peek?_eq h, peekNext?_eq h, advance?_cons h hr, hr]
    simp [hd]
  | case4 read here =>
    rw [unquoteRun?, peek?_eq h, peekNext?_eq h, advance?_cons h hr, hr]
    simp
  | case5 c rest read here hc ih =>
    rw [unquoteRun?, peek?_eq h, advance?_cons h hr, hr]
    simp only [Option.bind_eq_bind, Option.bind_some, List.head?_cons, if_neg hc]
    have hless : rest.length < rounds := by
      rw [hr] at hrounds
      exact Nat.lt_of_succ_lt_succ hrounds
    obtain ⟨rounds, rfl⟩ := Nat.exists_eq_add_one_of_ne_zero (Nat.ne_zero_of_lt hless)
    rw [ih (h.after hr) rfl rounds hless, Cursor.finish_after hr]

/-- A quoted token is found as it is scanned. -/
theorem quoted?_eq (kind : TokenKind) (what : String) (quote : Char) :
    quoted? text kind what quote here.place = some (Scan.found (match here.unquote? quote with
      | some (value, next) => ⟨kind, next, some value⟩
      | none => Scan.unterminated what here)) := by
  rw [quoted?, unquoteRun?_eq h quote [] (Nat.lt_succ_of_le h.length_le), Cursor.unquote?]
  rcases Cursor.unquoteRun quote here.rest [] here with ⟨value, _ | there⟩ <;> rfl

omit h in
/-- A delimiter is found at the offset that the text before it takes. -/
theorem find?_eq (delimiter read : List Char) {here : Cursor} (hr : here.rest = rest) :
    (find? delimiter rest = none ∧ (Cursor.untilRun delimiter rest read here).2 = none) ∨
      ∃ n, n + delimiter.length ≤ rest.length ∧ (rest.drop n).take delimiter.length = delimiter ∧
        find? delimiter rest = some (utf8Len (rest.take n)) ∧
        Cursor.untilRun delimiter rest read here =
          ((rest.take n).reverse ++ read, some (here.skip n)) := by
  have hstart {rest : List Char} (h : delimiter.isPrefixOf rest) :
      0 + delimiter.length ≤ rest.length ∧ (rest.drop 0).take delimiter.length = delimiter := by
    obtain ⟨behind, rfl⟩ := List.isPrefixOf_iff_prefix.1 h
    simp
  induction rest generalizing here read with
  | nil =>
    by_cases hd : delimiter.isPrefixOf []
    · refine .inr ⟨0, (hstart hd).1, (hstart hd).2, ?_, ?_⟩
      · rw [find?, if_pos hd]; rfl
      · rw [Cursor.untilRun, if_pos hd]; rfl
    · exact .inl ⟨if_neg hd, by rw [Cursor.untilRun, if_neg hd]⟩
  | cons c rest ih =>
    rw [find?, Cursor.untilRun]
    by_cases hd : delimiter.isPrefixOf (c :: rest)
    · rw [if_pos hd, if_pos hd]
      exact .inr ⟨0, (hstart hd).1, (hstart hd).2, rfl, rfl⟩
    · rw [if_neg hd, if_neg hd]
      rcases ih (c :: read) (Cursor.rest_after here c rest) with ⟨hnone, hrun⟩ | ⟨n, hle, htake, hsome, hrun⟩
      · exact .inl ⟨by rw [hnone]; rfl, hrun⟩
      · refine .inr ⟨n + 1, ?_, htake, ?_, ?_⟩
        · rw [List.length_cons]
          omega
        · rw [hsome, List.take_succ_cons, String.utf8Len_cons]
          rfl
        · rw [hrun, Cursor.skip_succ hr, List.take_succ_cons, List.reverse_cons, List.append_assoc]
          rfl

omit h in
/-- The body of a dollar quote is found as it is scanned, wherever in the text its opening starts. -/
theorem dollarBody?_eq (delimiter : List Char) {there : Cursor} (ht : there.In text)
    (hfinish : there.finish = here.finish) :
    dollarBody? text delimiter there.place.offset there.place =
      some (Scan.found (match there.until? delimiter with
        | some (body, next) => ⟨.dollarQuote, next.skip delimiter.length, some body⟩
        | none => Scan.unterminated "dollar-quoted string" here)) := by
  have hend := advanceTo?_eq ht there.rest.length (le_refl _)
  rw [← Cursor.finish_eq, ht.finish_offset, hfinish] at hend
  rw [dollarBody?, ht.sliceFrom?, Option.bind_eq_bind, Option.bind_some, Cursor.until?]
  rcases find?_eq delimiter [] (rfl : there.rest = there.rest) with
    ⟨hnone, hrun⟩ | ⟨n, hle, htake, hsome, hrun⟩
  · rw [hnone]
    revert hrun
    rcases Cursor.untilRun delimiter there.rest [] there with ⟨read, _ | behind⟩
    · intro _
      simp only [hend]
      rfl
    · intro hrun
      cases hrun
  · have hbody := ht.slice? n
    have hclose := advanceTo?_eq ht (n + delimiter.length) hle
    have hoffset : (there.skip n).place.offset = there.place.offset + utf8Len (there.rest.take n) :=
      there.skip_offset n
    have hbehind : (there.skip (n + delimiter.length)).place.offset =
        there.place.offset + utf8Len (there.rest.take n) + utf8Len delimiter := by
      have hskip := there.skip_offset (n + delimiter.length)
      rw [List.take_add, htake, String.utf8Len_append, ← Nat.add_assoc] at hskip
      exact hskip
    rw [hoffset] at hbody
    rw [hbehind] at hclose
    rw [hsome, hrun]
    simp only [hbody, hclose, Option.bind_some, List.append_nil, List.reverse_reverse]
    rw [Cursor.skip_add]
    rfl

theorem dollar?_eq : dollar? text here.place = some (Scan.dollar here).found := by
  have hdigits := skipWhile?_eq h Char.isDigit
  rw [dollar?, peek?_eq h, Option.bind_eq_bind, Option.bind_some]
  by_cases hdigit : here.rest.head?.any Char.isDigit
  · rw [if_pos hdigit, hdigits, Scan.dollar, Cursor.peek?, if_pos hdigit]
    rfl
  have hsplit := List.takeWhile_append_dropWhile (p := Scan.isTagChar) (l := here.rest)
  have htag := sliceTo?_append (here.rest.takeWhile Scan.isTagChar) (here.rest.dropWhile Scan.isTagChar)
  rw [hsplit] at htag
  have hbehind := sliceFrom?_eq_some.2 ⟨_, hsplit.symm, rfl⟩
  simp only [if_neg hdigit, h.sliceFrom?, htag, hbehind, Option.bind_eq_bind, Option.bind_some]
  by_cases hopen : (here.rest.dropWhile Scan.isTagChar).head? = some '$'
  · have hplain : ¬(here.rest.takeWhile Scan.isTagChar).head?.any Char.isDigit := by
      rw [List.head?_takeWhile, Option.any_filter]
      cases hhead : here.rest.head? with
      | none => simp
      | some d => simp_all
    have hdollar := Scan.dollar_eq here (by simpa using hdigit) hopen
    obtain ⟨behind, hclose⟩ := List.head?_eq_some_iff.1 hopen
    rw [hclose] at hsplit
    rw [if_pos ⟨hopen, hplain⟩, hdollar, Scan.delimiterOf]
    revert hsplit
    generalize here.rest.takeWhile Scan.isTagChar = tag
    intro hsplit
    have hlength : tag.length + 1 ≤ here.rest.length := by
      rw [← hsplit, List.length_append, List.length_cons]
      omega
    have htake : here.rest.take (tag.length + 1) = tag ++ ['$'] := by
      rw [← hsplit, List.take_append, List.take_of_length_le (Nat.le_succ _), Nat.add_sub_cancel_left]
      rfl
    have hoffset : (here.skip (tag.length + 1)).place.offset = here.place.offset + utf8Len tag + 1 := by
      have hskip := here.skip_offset (tag.length + 1)
      rw [htake, String.utf8Len_append, ← Nat.add_assoc] at hskip
      exact hskip
    have hstart := advanceTo?_eq h (tag.length + 1) hlength
    have hbody := dollarBody?_eq ('$' :: (tag ++ ['$'])) (h.skip (tag.length + 1))
      (here.finish_skip _)
    rw [hoffset] at hstart hbody
    rw [hstart]
    exact hbody
  · have hnone : (here.skipWhile Scan.isTagChar).peek? ≠ some '$' := by
      rwa [Cursor.peek?, Cursor.skipWhile_rest]
    rw [if_neg (fun h => hopen h.1), Scan.dollar, Cursor.peek?, if_neg hdigit]
    dsimp only
    rw [if_neg hnone]
    rfl

end

section

variable {text : List Char} {start : Cursor} {c : Char} {rest : List Char} (hs : start.In text)
  (hr : start.rest = c :: rest)
include hs hr

theorem word?_eq (d : Dialect) : word? text d start.place c (start.after c rest).place =
    some (Scan.word d start c (start.after c rest)).found := by
  have hend : (start.after c rest).skipWhile (Scan.isNameChar d) =
      start.skip ((rest.takeWhile (Scan.isNameChar d)).length + 1) := by
    rw [Cursor.skipWhile_eq, Cursor.skip_succ hr]
    rfl
  rw [word?, skipWhile?_eq (hs.after hr), Option.bind_eq_bind, Option.bind_some, hend, hs.slice?,
    Scan.word, hend, Cursor.textTo_skip]
  cases hkeyword : d.keyword? (String.ofList (start.rest.take
      ((rest.takeWhile (Scan.isNameChar d)).length + 1))) with
  | none => simp [hkeyword, Scan.found]
  | some keyword => cases d.isNamePrefix c <;> simp [hkeyword, Scan.found]

theorem literal?_eq (d : Dialect) : literal? text d start.place c (start.after c rest).place =
    some (Scan.literal d start c (start.after c rest)).found := by
  have hin := hs.after hr
  rw [literal?, Scan.literal, peek?_eq hin, Option.bind_eq_bind, Option.bind_some, advance?_eq hin,
    Cursor.peek?]
  by_cases hnational : ((c = 'N' || c = 'n') && (start.after c rest).rest.head? = some '\x27' &&
      d.hasNationalStrings) = true
  · rw [if_pos hnational, if_pos hnational]
    exact quoted?_eq (hin.skip 1) .string "string literal" '\x27'
  rw [if_neg hnational, if_neg hnational]
  by_cases hstring : d.isStringQuote c
  · rw [if_pos hstring, if_pos hstring]
    exact quoted?_eq hin .string "string literal" c
  rw [if_neg hstring, if_neg hstring]
  cases d.closingQuote? c with
  | some quote => exact quoted?_eq hin .quotedIdentifier "quoted identifier" quote
  | none =>
    dsimp only
    rw [dollar?_eq hin, number?_eq hin, word?_eq hs hr]
    simp only [apply_ite Scan.found, apply_ite some]
    rfl

theorem ofChar?_eq (d : Dialect) : ofChar? text d start.place c (start.after c rest).place =
    some (Scan.ofChar d start c (start.after c rest)).found := by
  have hin := hs.after hr
  have hone (c : Char) (kind : TokenKind) (otherwise : Scan) :=
    extended?_eq hin c kind otherwise
  have htwo (c c' : Char) (kind kind' : TokenKind) (otherwise : Scan) :
      extended? text c kind _ (extended? text c' kind' _ (some otherwise.found)) = _ :=
    (congrArg _ (hone c' kind' otherwise)).trans (hone c kind _)
  unfold ofChar? Scan.ofChar
  cases hp : Scan.punctuation? c with
  | some kind => rfl
  | none =>
    dsimp only
    split
    · exact point?_eq hin
    · exact htwo ':' '=' .doubleColon .colonAssign ⟨.colon, _, none⟩
    · exact hone '=' .eq ⟨.assign, _, none⟩
    · exact htwo '=' '>' .ltEq .notEq ⟨.lt, _, none⟩
    · exact hone '=' .gtEq ⟨.gt, _, none⟩
    · exact hone '=' .notEq (Scan.unexpected _ _)
    · exact hone '|' .concat (Scan.unexpected _ _)
    · refine (literal?_eq hs hr d).trans ?_
      simp_all only

end

/-- The text of a token is a slice. -/
theorem token?_eq {text : List Char} {start : Cursor} (hs : start.In text) {scan : Scan} {n : ℕ}
    (hn : scan.next = start.skip n) :
    token? text start.place scan.found = some (Lexer.tokenOf start scan) := by
  obtain ⟨kind, next, text?⟩ := scan
  subst hn
  rw [token?, Lexer.tokenOf]
  cases text? with
  | some value => rfl
  | none =>
    dsimp only [Scan.found]
    rw [hs.slice?, Cursor.textTo_skip]
    rfl

/-- No slice is missing: slice by slice the lexer reads what it reads. -/
theorem next?_eq {lexer : Lexer} (h : lexer.cursor.In lexer.source.toList) :
    next? lexer.source.toList lexer.dialect lexer.cursor.place =
      some (lexer.next.1, lexer.next.2.cursor.place) := by
  rw [next?, skipTrivia?_eq lexer.dialect h, Lexer.next]
  rcases skipTrivia_settled lexer.dialect lexer.cursor.rest with ⟨gap, hgap, -⟩ | ⟨gap, hgap, -⟩
  · have hstart := h.skip gap
    rw [hgap _ rfl]
    simp only [Option.bind_eq_bind, Option.bind_some, peek?_eq hstart]
    cases hr : (lexer.cursor.skip gap).rest with
    | nil => rfl
    | cons c rest =>
      obtain ⟨kind, n, text?, -, -, hscan⟩ := Scan.ofChar_settled lexer.dialect c rest
      have hend : (Scan.ofChar lexer.dialect (lexer.cursor.skip gap) c
          ((lexer.cursor.skip gap).after c rest)).next = (lexer.cursor.skip gap).skip (n + 1) := by
        rw [Cursor.skip_succ hr]
        exact congrArg Scan.next (hscan _ hr)
      simp only [List.head?_cons, advance?_cons hstart hr, ofChar?_eq hstart hr, Option.bind_some,
        token?_eq hstart hend]
      rfl
  · have hunclosed : (Scan.unterminated "block comment" (lexer.cursor.skip gap)).next =
        (lexer.cursor.skip gap).skip (lexer.cursor.skip gap).rest.length :=
      (lexer.cursor.skip gap).finish_eq
    have htoken := token?_eq (h.skip gap) hunclosed
    rw [hgap _ rfl]
    simp only [Option.bind_eq_bind, Option.bind_some]
    exact congrArg (Option.bind · _) htoken

end Slicing

end SqlFrontend
