import Mathlib.Data.List.TakeWhile
import Mathlib.Data.String.Basic
import SqlFrontend.Lexing.Lexer

/-!
# What a lexer reads

A lexer has no memory. What it reads next, and how much of the text that takes, depends on the dialect
and on the characters ahead; where they stand in the source only moves the spans.

Results:
* `Cursor.skipWhile_eq`, `Cursor.until?_settled`, `Cursor.unquote?_settled`: every scanner skips a
  number of characters that the text ahead determines.
* `skipTrivia_settled`, `Scan.ofChar_settled`: so does the way to a token and the token itself.
* `Lexer.exists_reading`: what every lexer before a text reads is one `Lexer.Reading` of it. Only the
  end of the text is empty, a quoted value is shorter than its token by two quotes, and reading again
  from where the token starts gives that token.
-/

namespace SqlFrontend

open String (utf8Len)

namespace Cursor

/-! ## Moves are skips -/

theorem skip_nil {here : Cursor} (h : here.rest = []) (n : Nat) : here.skip n = here := by
  cases n with
  | zero => rfl
  | succ n => rw [skip, h]

theorem skip_succ {here : Cursor} {c : Char} {rest : List Char} (h : here.rest = c :: rest)
    (n : Nat) : here.skip (n + 1) = (here.after c rest).skip n := by
  rw [skip, h]

theorem skip_add (here : Cursor) (m n : Nat) : here.skip (m + n) = (here.skip m).skip n := by
  induction m generalizing here with
  | zero => rw [Nat.zero_add]; rfl
  | succ m ih =>
    cases hr : here.rest with
    | nil => rw [skip_nil hr, skip_nil hr, skip_nil hr]
    | cons c rest => rw [Nat.succ_add, skip_succ hr, skip_succ hr, ih]

theorem skip_offset (here : Cursor) (n : Nat) :
    (here.skip n).offset = here.offset + utf8Len (here.rest.take n) := by
  induction n generalizing here with
  | zero => simp [skip]
  | succ n ih =>
    cases hr : here.rest with
    | nil => simp [skip_nil hr]
    | cons c rest =>
      rw [skip_succ hr, ih]
      simp only [after, List.take_succ_cons, String.utf8Len_cons]
      omega

theorem takeBytes_utf8Len_take (rest : List Char) (n : Nat) :
    takeBytes rest (utf8Len (rest.take n)) = rest.take n := by
  induction rest generalizing n with
  | nil => simp [takeBytes]
  | cons c rest ih =>
    cases n with
    | zero =>
      have := c.utf8Size_pos
      rw [List.take_zero, String.utf8Len_nil, takeBytes, if_neg (by omega)]
    | succ n =>
      rw [List.take_succ_cons, String.utf8Len_cons, takeBytes, if_pos (Nat.le_add_left _ _),
        Nat.add_sub_cancel, ih]

theorem textTo_skip (here : Cursor) (n : Nat) :
    here.textTo (here.skip n) = String.ofList (here.rest.take n) := by
  rw [textTo, skip_offset, Nat.add_sub_cancel_left, takeBytes_utf8Len_take]

theorem skipRun_eq (p : Char → Bool) (rest : List Char) (here : Cursor) (h : here.rest = rest) :
    skipRun p rest here = here.skip (rest.takeWhile p).length := by
  induction rest generalizing here with
  | nil => rfl
  | cons c rest ih =>
    rw [skipRun]
    by_cases hc : p c
    · rw [if_pos hc, List.takeWhile_cons_of_pos hc, List.length_cons, skip_succ h]
      exact ih _ rfl
    · rw [if_neg hc, List.takeWhile_cons_of_neg hc]; rfl

theorem skipWhile_eq (p : Char → Bool) (here : Cursor) :
    here.skipWhile p = here.skip (here.rest.takeWhile p).length :=
  skipRun_eq p here.rest here rfl

/-! ## Delimited texts -/

theorem untilRun_settled (delimiter rest read : List Char) :
    (∀ here : Cursor, here.rest = rest → (untilRun delimiter rest read here).2 = none) ∨
      ∃ n, ∀ here : Cursor, here.rest = rest →
        untilRun delimiter rest read here = ((rest.take n).reverse ++ read, some (here.skip n)) := by
  induction rest generalizing read with
  | nil =>
    by_cases hd : delimiter.isPrefixOf []
    · exact .inr ⟨0, fun here _ => by simp only [untilRun, if_pos hd]; rfl⟩
    · exact .inl fun here _ => by simp only [untilRun, if_neg hd]
  | cons c rest ih =>
    by_cases hd : delimiter.isPrefixOf (c :: rest)
    · exact .inr ⟨0, fun here _ => by simp only [untilRun, if_pos hd]; rfl⟩
    · rcases ih (c :: read) with hnone | ⟨n, hsome⟩
      · refine .inl fun here _ => ?_
        rw [untilRun, if_neg hd]
        exact hnone _ rfl
      · refine .inr ⟨n + 1, fun here hr => ?_⟩
        rw [untilRun, if_neg hd, hsome _ rfl, skip_succ hr]
        simp

/-- Whether a delimiter is found, and where, depends on the text ahead. -/
theorem until?_settled (delimiter rest : List Char) :
    (∀ here : Cursor, here.rest = rest → here.until? delimiter = none) ∨
      ∃ n, ∀ here : Cursor, here.rest = rest →
        here.until? delimiter = some (String.ofList (rest.take n), here.skip n) := by
  rcases untilRun_settled delimiter rest [] with hnone | ⟨n, hsome⟩
  · refine .inl fun here hr => ?_
    have := hnone here hr
    unfold until?
    rw [hr]
    split
    · next read there hrun => rw [hrun] at this; cases this
    · rfl
  · refine .inr ⟨n, fun here hr => ?_⟩
    unfold until?
    rw [hr, hsome here hr]
    simp

theorem unquoteRun_settled (quote : Char) (rest read : List Char) :
    (∀ here : Cursor, here.rest = rest → (unquoteRun quote rest read here).2 = none) ∨
      ∃ value n, utf8Len value + quote.utf8Size ≤ utf8Len read + utf8Len (rest.take n) ∧
        ∀ here : Cursor, here.rest = rest →
          unquoteRun quote rest read here = (value, some (here.skip n)) := by
  induction hl : rest.length using Nat.strong_induction_on generalizing rest read with
  | _ l ih =>
    subst hl
    match rest with
    | [] => exact .inl fun here _ => rfl
    | c :: rest =>
      by_cases hc : c = quote
      · match rest with
        | [] =>
          refine .inr ⟨read, 1, by simp [hc], fun here hr => ?_⟩
          rw [unquoteRun.eq_def]
          simp only [if_pos hc]
          rw [skip_succ hr]; rfl
        | d :: rest =>
          by_cases hd : d = quote
          · have hrun : ∀ here, unquoteRun quote (c :: d :: rest) read here =
                unquoteRun quote rest (quote :: read)
                  ((here.after c (d :: rest)).after d rest) := fun here => by
              rw [unquoteRun.eq_def]; simp only [if_pos hc, if_pos hd]
            rcases ih _ (by simp only [List.length_cons]; omega) rest (quote :: read) rfl with hnone | ⟨value, n, hle, hsome⟩
            · exact .inl fun here _ => by rw [hrun]; exact hnone _ rfl
            · refine .inr ⟨value, n + 2, ?_, fun here hr => ?_⟩
              · simp only [String.utf8Len_cons, List.take_succ_cons, hc, hd] at hle ⊢
                omega
              · rw [hrun, hsome _ rfl, skip_succ hr, skip_succ (rest_after _ _ _)]
          · refine .inr ⟨read, 1, by simp [hc], fun here hr => ?_⟩
            rw [unquoteRun.eq_def]
            simp only [if_pos hc, if_neg hd]
            rw [skip_succ hr]; rfl
      · have hrun : ∀ here, unquoteRun quote (c :: rest) read here =
            unquoteRun quote rest (c :: read) (here.after c rest) := fun here => by
          rw [unquoteRun.eq_def]; simp only [if_neg hc]
        rcases ih _ (by simp) rest (c :: read) rfl with hnone | ⟨value, n, hle, hsome⟩
        · exact .inl fun here _ => by rw [hrun]; exact hnone _ rfl
        · refine .inr ⟨value, n + 1, ?_, fun here hr => ?_⟩
          · simp only [String.utf8Len_cons, List.take_succ_cons] at hle ⊢
            omega
          · rw [hrun, hsome _ rfl, skip_succ hr]

/-- Whether a quoted text is closed, where, and its value depend on the text ahead. The value lacks at
least the closing quote. -/
theorem unquote?_settled (quote : Char) (rest : List Char) :
    (∀ here : Cursor, here.rest = rest → here.unquote? quote = none) ∨
      ∃ value n, value.utf8ByteSize + 1 ≤ utf8Len (rest.take n) ∧
        ∀ here : Cursor, here.rest = rest → here.unquote? quote = some (value, here.skip n) := by
  rcases unquoteRun_settled quote rest [] with hnone | ⟨value, n, hle, hsome⟩
  · refine .inl fun here hr => ?_
    have := hnone here hr
    unfold unquote?
    rw [hr]
    split
    · next read there hrun => rw [hrun] at this; cases this
    · rfl
  · refine .inr ⟨String.ofList value.reverse, n, ?_, fun here hr => ?_⟩
    · have := quote.utf8Size_pos
      rw [String.utf8ByteSize_ofList, String.utf8Len_reverse]
      rw [String.utf8Len_nil] at hle
      omega
    · unfold unquote?
      rw [hr, hsome here hr]

end Cursor

/-! ## Single tokens -/

/-- The kinds of tokens whose value can be a text of its own. -/
def TokenKind.isText : TokenKind → Bool
  | .string | .dollarQuote => true
  | _ => false

namespace Scan

/-- What a scan behind the character `c` finds depends on the text ahead. It is never the end of the
text, and a quoted value lacks at least its closing quote. -/
def Settled (c : Char) (rest : List Char) (scan : Cursor → Cursor → Scan) : Prop :=
  ∃ kind n literal?, kind ≠ .eof ∧
    (kind.isText → ∃ value, literal? = some value ∧
      value.utf8ByteSize + 1 ≤ utf8Len (rest.take n)) ∧
    ∀ start : Cursor, start.rest = c :: rest →
      scan start (start.after c rest) = ⟨kind, (start.after c rest).skip n, literal?⟩

variable {c : Char} {rest : List Char}

/-- A scan that skips a settled number of characters, for a kind without a quoted value. -/
theorem Settled.plain {scan : Cursor → Cursor → Scan} (kind : TokenKind) (n : Nat)
    (literal? : Option String) (hk : kind ≠ .eof) (ht : kind.isText = false)
    (h : ∀ start here : Cursor, start.rest = c :: rest → here.rest = rest →
      scan start here = ⟨kind, here.skip n, literal?⟩) : Settled c rest scan := by
  refine ⟨kind, n, literal?, hk, fun h' => ?_, fun start hs => h start _ hs rfl⟩
  rw [ht] at h'
  cases h'

/-- Scans that agree before a text are settled together. -/
theorem Settled.congr {scan scan' : Cursor → Cursor → Scan} (h : Settled c rest scan)
    (heq : ∀ start : Cursor, start.rest = c :: rest →
      scan' start (start.after c rest) = scan start (start.after c rest)) :
    Settled c rest scan' := by
  obtain ⟨kind, n, literal?, hk, ht, hs⟩ := h
  exact ⟨kind, n, literal?, hk, ht, fun start hr => (heq start hr).trans (hs start hr)⟩

theorem Settled.ite {p : Prop} [Decidable p] {scan scan' : Cursor → Cursor → Scan}
    (h : p → Settled c rest scan) (h' : ¬p → Settled c rest scan') :
    Settled c rest fun start here => if p then scan start here else scan' start here := by
  by_cases hp : p
  · exact (h hp).congr fun _ _ => if_pos hp
  · exact (h' hp).congr fun _ _ => if_neg hp

theorem unterminated_eq (what : String) (here : Cursor) :
    unterminated what here =
      ⟨.illegal, here.skip here.rest.length, some ("unterminated " ++ what)⟩ := by
  have hall : here.rest.takeWhile (fun _ => true) = here.rest :=
    List.takeWhile_eq_self_iff.2 fun _ _ => rfl
  rw [unterminated, Cursor.finish, Cursor.skipWhile_eq, hall]

theorem unterminated_settled (what : String) :
    Settled c rest fun _ here => unterminated what here :=
  .plain .illegal rest.length _ nofun rfl fun _ here _ h => by rw [unterminated_eq, h]

theorem unexpected_settled : Settled c rest fun _ here => unexpected c here :=
  .plain .illegal 0 _ nofun rfl fun _ _ _ _ => rfl

theorem extended_settled {d : Char} {k : TokenKind} {otherwise : Cursor → Cursor → Scan}
    (hk : k ≠ .eof) (ht : k.isText = false) (h : Settled c rest otherwise) :
    Settled c rest fun start here => extended d k here (otherwise start here) := by
  by_cases hd : rest.head? = some d
  · refine .plain k 1 none hk ht fun _ here _ hr => ?_
    rw [extended.eq_def, Cursor.peek?, hr, if_pos hd]
  · refine h.congr fun start _ => ?_
    rw [extended.eq_def, Cursor.peek?, Cursor.rest_after, if_neg hd]

/-- How many characters a fraction takes. -/
def fractionLength : List Char → Nat
  | '.' :: c :: rest => if c.isDigit then 1 + ((c :: rest).takeWhile Char.isDigit).length else 0
  | _ => 0

/-- How many characters an exponent takes. -/
def exponentLength : List Char → Nat
  | mark :: c :: rest =>
    if mark = 'e' || mark = 'E' then
      if c.isDigit then 1 + ((c :: rest).takeWhile Char.isDigit).length
      else if (c = '+' || c = '-') && rest.head?.any Char.isDigit then
        2 + (rest.takeWhile Char.isDigit).length
      else 0
    else 0
  | _ => 0

theorem skipFraction_eq (here : Cursor) :
    skipFraction here = here.skip (fractionLength here.rest) := by
  unfold skipFraction
  split
  · next c rest hr =>
    rw [hr, fractionLength]
    split
    · rw [Cursor.skipWhile_eq, Cursor.skip_rest, hr, ← Cursor.skip_add]; rfl
    · rfl
  · next hno =>
    unfold fractionLength
    split
    · next hr => exact (hno _ _ hr).elim
    · rfl

theorem skipExponent_eq (here : Cursor) :
    skipExponent here = here.skip (exponentLength here.rest) := by
  unfold skipExponent
  split
  · next mark c rest hr =>
    rw [hr, exponentLength]
    split
    · split
      · rw [Cursor.skipWhile_eq, Cursor.skip_rest, hr, ← Cursor.skip_add]; rfl
      · split
        · rw [Cursor.skipWhile_eq, Cursor.skip_rest, hr, ← Cursor.skip_add]; rfl
        · rfl
    · rfl
  · next hno =>
    unfold exponentLength
    split
    · next hr => exact (hno _ _ _ hr).elim
    · rfl

/-- How many characters a number takes, behind its first one. -/
def numberLength (rest : List Char) : Nat :=
  let digits := (rest.takeWhile Char.isDigit).length
  let fraction := fractionLength (rest.drop digits)
  digits + fraction + exponentLength ((rest.drop digits).drop fraction)

theorem number_eq (here : Cursor) :
    number here = ⟨.number, here.skip (numberLength here.rest), none⟩ := by
  rw [number, Cursor.skipWhile_eq, skipFraction_eq, skipExponent_eq, numberLength, Cursor.skip_add,
    Cursor.skip_add]
  simp only [Cursor.skip_rest]

theorem number_settled : Settled c rest fun _ here => number here :=
  .plain .number (numberLength rest) none nofun rfl fun _ here _ h => by rw [number_eq, h]

/-- A quoted token: a settled value, or the rest of the text. -/
theorem quoted_settled {scan : Cursor → Cursor → Scan} (kind : TokenKind) (quote : Char)
    (what : String) (hk : kind ≠ .eof)
    (h : ∀ start here, scan start here = match here.unquote? quote with
      | some (value, next) => ⟨kind, next, some value⟩
      | none => unterminated what here) : Settled c rest scan := by
  rcases Cursor.unquote?_settled quote rest with hnone | ⟨value, n, hle, hsome⟩
  · refine (unterminated_settled what).congr fun start _ => ?_
    rw [h, hnone _ rfl]
  · refine ⟨kind, n, some value, hk, fun _ => ⟨value, rfl, hle⟩, fun start _ => ?_⟩
    rw [h, hsome _ rfl]

theorem string_settled (quote : Char) : Settled c rest fun _ here => string quote here :=
  quoted_settled .string quote "string literal" nofun fun _ _ => rfl

theorem quotedIdentifier_settled (quote : Char) :
    Settled c rest fun _ here => quotedIdentifier quote here :=
  quoted_settled .quotedIdentifier quote "quoted identifier" nofun fun _ _ => rfl

/-- A string behind its mark: the mark is one more character. -/
theorem nationalString_settled (quote : Char) :
    Settled c rest fun _ here => string quote (here.skip 1) := by
  cases rest with
  | nil =>
    refine (string_settled quote).congr fun start _ => ?_
    rw [Cursor.skip_nil (Cursor.rest_after _ _ _)]
  | cons d rest =>
    have hstring : Settled d rest fun _ here => string quote here := string_settled quote
    obtain ⟨kind, n, literal?, hk, ht, hs⟩ := hstring
    refine ⟨kind, n + 1, literal?, hk, fun h => ?_, fun start hr => ?_⟩
    · obtain ⟨value, hv, hle⟩ := ht h
      refine ⟨value, hv, ?_⟩
      rw [List.take_succ_cons, String.utf8Len_cons]
      omega
    · have := hs (start.after c (d :: rest)) rfl
      rw [Cursor.skip_succ (Cursor.rest_after _ _ _)]
      simp only [Cursor.skip_succ (Cursor.rest_after start c (d :: rest))]
      exact this

/-- The delimiter around a text between two tags. -/
def delimiterOf (rest : List Char) : List Char := '$' :: (rest.takeWhile isTagChar ++ ['$'])

theorem dollar_eq (here : Cursor) (hd : here.rest.head?.any Char.isDigit = false)
    (ho : (here.rest.dropWhile isTagChar).head? = some '$') :
    dollar here =
      match (here.skip ((here.rest.takeWhile isTagChar).length + 1)).until?
        (delimiterOf here.rest) with
      | some (body, next) =>
        ⟨.dollarQuote, next.skip (delimiterOf here.rest).length, some body⟩
      | none => unterminated "dollar-quoted string" here := by
  have hopen : (here.skipWhile isTagChar).peek? = some '$' := by
    rw [Cursor.peek?, Cursor.skipWhile_rest, ho]
  rw [dollar, Cursor.peek?, hd, if_neg (by simp)]
  dsimp only
  rw [if_pos hopen, Cursor.skipWhile_eq, ← Cursor.skip_add]
  rfl

theorem dollar_settled : Settled c rest fun _ here => dollar here := by
  by_cases hd : rest.head?.any Char.isDigit
  · refine .plain .identifier (rest.takeWhile Char.isDigit).length none nofun rfl
      fun _ here _ h => ?_
    rw [dollar, Cursor.peek?, h, if_pos hd, Cursor.skipWhile_eq, h]
  by_cases ho : (rest.dropWhile isTagChar).head? = some '$'
  · let opening := (rest.takeWhile isTagChar).length + 1
    have hdollar : ∀ start : Cursor, dollar (start.after c rest) =
        match ((start.after c rest).skip opening).until? (delimiterOf rest) with
        | some (body, next) => ⟨.dollarQuote, next.skip (delimiterOf rest).length, some body⟩
        | none => unterminated "dollar-quoted string" (start.after c rest) := fun start =>
      dollar_eq (start.after c rest) (by simpa using hd) ho
    have hrest : ∀ start : Cursor, ((start.after c rest).skip opening).rest = rest.drop opening :=
      fun start => Cursor.skip_rest _ _
    rcases Cursor.until?_settled (delimiterOf rest) (rest.drop opening) with hnone | ⟨n, hsome⟩
    · refine (unterminated_settled "dollar-quoted string").congr fun start _ => ?_
      rw [hdollar, hnone _ (hrest start)]
    · refine ⟨.dollarQuote, opening + (n + (delimiterOf rest).length),
        some (String.ofList ((rest.drop opening).take n)), nofun, fun _ => ⟨_, rfl, ?_⟩,
        fun start _ => ?_⟩
      · have hpos : utf8Len (rest.take opening) ≠ 0 := by
          rw [Ne, String.utf8Len_eq_zero]
          cases rest with
          | nil => simp at ho
          | cons d rest => simp [opening]
        rw [String.utf8ByteSize_ofList, List.take_add (i := opening), List.take_add (i := n),
          String.utf8Len_append, String.utf8Len_append]
        omega
      · dsimp only
        rw [hdollar, hsome _ (hrest start)]
        dsimp only
        rw [← Cursor.skip_add, ← Cursor.skip_add]
  · have hunexpected : Settled c rest fun _ here => unexpected '$' here :=
      .plain .illegal 0 _ nofun rfl fun _ _ _ _ => rfl
    refine hunexpected.congr fun start _ => ?_
    have hclosed : ((start.after c rest).skipWhile isTagChar).peek? ≠ some '$' := by
      rw [Cursor.peek?, Cursor.skipWhile_rest]; exact ho
    rw [dollar, Cursor.peek?, Cursor.rest_after, if_neg hd]
    dsimp only
    rw [if_neg hclosed]

theorem word_settled (d : Dialect) : Settled c rest fun start here => word d start c here := by
  let n := (rest.takeWhile (isNameChar d)).length
  let keyword? := d.keyword? (String.ofList (c :: rest.take n))
  have hword : ∀ start : Cursor, start.rest = c :: rest → word d start c (start.after c rest) =
      keyword?.elim ⟨.identifier, (start.after c rest).skip n, none⟩ fun keyword =>
        if d.isNamePrefix c then ⟨.identifier, (start.after c rest).skip n, none⟩
        else ⟨.keyword keyword, (start.after c rest).skip n, none⟩ := by
    intro start hs
    rewrite [word, Cursor.skipWhile_eq, Cursor.rest_after, ← Cursor.skip_succ hs,
      Cursor.textTo_skip, hs, List.take_succ_cons]
    change _ = Option.elim (d.keyword? (String.ofList (c :: rest.take n))) _ _
    cases d.keyword? (String.ofList (c :: rest.take n)) <;> rfl
  have hname : Settled c rest fun _ here => ⟨.identifier, here.skip n, none⟩ :=
    .plain .identifier n none nofun rfl fun _ _ _ _ => rfl
  cases hk : keyword? with
  | none => exact hname.congr fun start hs => by rw [hword start hs, hk]; rfl
  | some keyword =>
    by_cases hp : d.isNamePrefix c
    · exact hname.congr fun start hs => by rw [hword start hs, hk]; exact if_pos hp
    · have hkeyword : Settled c rest fun _ here => ⟨.keyword keyword, here.skip n, none⟩ :=
        .plain (.keyword keyword) n none nofun rfl fun _ _ _ _ => rfl
      exact hkeyword.congr fun start hs => by rw [hword start hs, hk]; exact if_neg hp

theorem literal_settled (d : Dialect) :
    Settled c rest fun start here => literal d start c here := by
  let national := (c = 'N' || c = 'n') && rest.head? = some '\x27' && d.hasNationalStrings
  have hother : Settled c rest fun start here =>
      if c = '[' then ⟨.leftBracket, here, none⟩
      else if c = ']' then ⟨.rightBracket, here, none⟩
      else if c = '$' && d.hasDollarQuotes then dollar here
      else if c.isDigit then number here
      else if isNameStart d c then word d start c here
      else unexpected c here :=
    .ite (fun _ => .plain .leftBracket 0 none nofun rfl fun _ _ _ _ => rfl) fun _ =>
    .ite (fun _ => .plain .rightBracket 0 none nofun rfl fun _ _ _ _ => rfl) fun _ =>
    .ite (fun _ => dollar_settled) fun _ => .ite (fun _ => number_settled) fun _ =>
    .ite (fun _ => word_settled d) fun _ => unexpected_settled
  have hquoted : Settled c rest fun start here => (d.closingQuote? c).elim
      (if c = '[' then ⟨.leftBracket, here, none⟩
        else if c = ']' then ⟨.rightBracket, here, none⟩
        else if c = '$' && d.hasDollarQuotes then dollar here
        else if c.isDigit then number here
        else if isNameStart d c then word d start c here
        else unexpected c here) fun quote => quotedIdentifier quote here := by
    cases d.closingQuote? c with
    | some quote => exact quotedIdentifier_settled quote
    | none => exact hother
  have hall := Settled.ite (p := national = true) (fun _ => nationalString_settled '\x27')
    fun _ => Settled.ite (p := d.isStringQuote c = true) (fun _ => string_settled c) fun _ => hquoted
  refine hall.congr fun start _ => ?_
  rw [literal]
  cases d.closingQuote? c <;> rfl

theorem punctuation_isText {kind : TokenKind} (h : punctuation? c = some kind) :
    kind ≠ .eof ∧ kind.isText = false := by
  unfold punctuation? at h
  split at h <;> cases h <;> exact ⟨nofun, rfl⟩

/-- Every token depends on the text from its first character on. -/
theorem ofChar_settled (d : Dialect) (c : Char) (rest : List Char) :
    Settled c rest fun start here => ofChar d start c here := by
  unfold ofChar
  cases hp : punctuation? c with
  | some kind =>
    obtain ⟨hk, ht⟩ := punctuation_isText hp
    exact .plain kind 0 none hk ht fun _ _ _ _ => rfl
  | none =>
    have plain {k : TokenKind} (hk : k ≠ .eof) (ht : k.isText = false) :
        Settled c rest fun _ here => ⟨k, here, none⟩ :=
      .plain k 0 none hk ht fun _ _ _ _ => rfl
    dsimp only
    split
    · have hdot := Settled.ite (p := rest.head?.any Char.isDigit = true)
        (fun _ => number_settled (c := '.')) fun _ =>
          extended_settled (d := '.') (k := .dotDot) nofun rfl (plain (k := .dot) nofun rfl)
      exact hdot.congr fun start _ => rfl
    · exact extended_settled nofun rfl (extended_settled nofun rfl (plain nofun rfl))
    · exact extended_settled nofun rfl (plain nofun rfl)
    · exact extended_settled nofun rfl (extended_settled nofun rfl (plain nofun rfl))
    · exact extended_settled nofun rfl (plain nofun rfl)
    · exact extended_settled nofun rfl unexpected_settled
    · exact extended_settled nofun rfl unexpected_settled
    · exact literal_settled d

end Scan

/-! ## White space and comments -/

/-- A text that starts with no white space and no comment. -/
def Bare (d : Dialect) (rest : List Char) : Prop :=
  ∀ here : Cursor, here.rest = rest → here.skipTrivia d = .ok here

/-- A text that starts with a block comment that is never closed. -/
def Unclosed (d : Dialect) (rest : List Char) : Prop :=
  rest ≠ [] ∧ ∀ here : Cursor, here.rest = rest → here.skipTrivia d = .error here

/-- A way over white space and comments depends on the text ahead. It ends where no more of them
stands, or at a block comment that is never closed. -/
def TriviaSettled (d : Dialect) (rest : List Char) (run : Cursor → Except Cursor Cursor) : Prop :=
  (∃ n, (∀ here : Cursor, here.rest = rest → run here = .ok (here.skip n)) ∧
      Bare d (rest.drop n)) ∨
    ∃ n, (∀ here : Cursor, here.rest = rest → run here = .error (here.skip n)) ∧
      Unclosed d (rest.drop n)

namespace TriviaSettled

variable {d : Dialect} {rest : List Char}

theorem congr {run run' : Cursor → Except Cursor Cursor} (h : TriviaSettled d rest run)
    (heq : ∀ here : Cursor, here.rest = rest → run' here = run here) :
    TriviaSettled d rest run' := by
  rcases h with ⟨n, hrun, hbare⟩ | ⟨n, hrun, hopen⟩
  · exact .inl ⟨n, fun here hr => (heq here hr).trans (hrun here hr), hbare⟩
  · exact .inr ⟨n, fun here hr => (heq here hr).trans (hrun here hr), hopen⟩

/-- One more character that is passed over. -/
theorem after {run : Cursor → Except Cursor Cursor} (h : TriviaSettled d rest run) (c : Char) :
    TriviaSettled d (c :: rest) fun here => run (here.after c rest) := by
  rcases h with ⟨n, hrun, hbare⟩ | ⟨n, hrun, hopen⟩
  · refine .inl ⟨n + 1, fun here hr => ?_, hbare⟩
    dsimp only
    rw [hrun _ rfl, Cursor.skip_succ hr]
  · refine .inr ⟨n + 1, fun here hr => ?_, hopen⟩
    dsimp only
    rw [hrun _ rfl, Cursor.skip_succ hr]

/-- Nothing to pass over. -/
theorem bare (h : ∀ here, Cursor.skipTriviaRun d rest .gap here = .ok here) :
    TriviaSettled d rest (Cursor.skipTriviaRun d rest .gap) := by
  refine .inl ⟨0, fun here _ => h here, fun here hr => ?_⟩
  rw [List.drop_zero] at hr
  rw [Cursor.skipTrivia, hr, h]

end TriviaSettled

/-- What is ahead where a way over white space and comments may stand: outside of comments, in a line
comment, and in a block comment that is closed or not. -/
structure TriviaAhead (d : Dialect) (rest : List Char) : Prop where
  gap : TriviaSettled d rest (Cursor.skipTriviaRun d rest .gap)
  lineComment : TriviaSettled d rest (Cursor.skipTriviaRun d rest .lineComment)
  blockComment :
    (∀ opening here, Cursor.skipTriviaRun d rest (.blockComment opening) here = .error opening) ∨
      ∃ run, TriviaSettled d rest run ∧
        ∀ opening, Cursor.skipTriviaRun d rest (.blockComment opening) = run

theorem triviaAhead_gap {d : Dialect} {c : Char} {rest : List Char} (h : TriviaAhead d rest)
    (ht : ∀ c' t, rest = c' :: t → TriviaAhead d t) :
    TriviaSettled d (c :: rest) (Cursor.skipTriviaRun d (c :: rest) .gap) := by
  by_cases hline : c = '-' ∧ rest.head? = some '-'
  · obtain ⟨rfl, hd⟩ := hline
    obtain ⟨t, rfl⟩ : ∃ t, rest = '-' :: t := by cases rest <;> simp_all
    refine (((ht _ t rfl).lineComment.after '-').after '-').congr fun here _ => ?_
    rw [Cursor.skipTriviaRun]
  by_cases hopen : c = '/' ∧ rest.head? = some '*'
  · obtain ⟨rfl, hs⟩ := hopen
    obtain ⟨t, rfl⟩ : ∃ t, rest = '*' :: t := by cases rest <;> simp_all
    have hrun (here : Cursor) : Cursor.skipTriviaRun d ('/' :: '*' :: t) .gap here =
        Cursor.skipTriviaRun d t (.blockComment here)
          ((here.after '/' ('*' :: t)).after '*' t) := by rw [Cursor.skipTriviaRun]
    rcases (ht _ t rfl).blockComment with hnever | ⟨run, hrun', heq⟩
    · have herror (here : Cursor) : Cursor.skipTriviaRun d ('/' :: '*' :: t) .gap here =
          .error here := (hrun here).trans (hnever _ _)
      refine .inr ⟨0, fun here _ => herror here, by simp, fun here hr => ?_⟩
      rw [List.drop_zero] at hr
      rw [Cursor.skipTrivia, hr, herror]
    · refine ((hrun'.after '*').after '/').congr fun here _ => ?_
      rw [hrun, heq]
  · have hrun (here : Cursor) : Cursor.skipTriviaRun d (c :: rest) .gap here =
        if Text.isBlank c then Cursor.skipTriviaRun d rest .gap (here.after c rest)
        else if c = '#' && d.hasHashComments then
          Cursor.skipTriviaRun d rest .lineComment (here.after c rest)
        else .ok here := by
      rw [Cursor.skipTriviaRun]
      · intro t hc hr; exact hline ⟨hc, by rw [hr]; rfl⟩
      · intro t hc hr; exact hopen ⟨hc, by rw [hr]; rfl⟩
    by_cases hblank : Text.isBlank c
    · refine (h.gap.after c).congr fun here _ => ?_
      rw [hrun, if_pos hblank]
    by_cases hhash : (c = '#' && d.hasHashComments) = true
    · refine (h.lineComment.after c).congr fun here _ => ?_
      rw [hrun, if_neg hblank, if_pos hhash]
    · refine .bare fun here => ?_
      rw [hrun, if_neg hblank, if_neg hhash]

theorem triviaAhead_blockComment {d : Dialect} {c : Char} {rest : List Char}
    (h : TriviaAhead d rest) (ht : ∀ c' t, rest = c' :: t → TriviaAhead d t) :
    (∀ opening here, Cursor.skipTriviaRun d (c :: rest) (.blockComment opening) here =
        .error opening) ∨
      ∃ run, TriviaSettled d (c :: rest) run ∧
        ∀ opening, Cursor.skipTriviaRun d (c :: rest) (.blockComment opening) = run := by
  by_cases hclose : c = '*' ∧ rest.head? = some '/'
  · obtain ⟨rfl, hs⟩ := hclose
    obtain ⟨t, rfl⟩ : ∃ t, rest = '/' :: t := by cases rest <;> simp_all
    refine .inr ⟨_, ((ht _ t rfl).gap.after '/').after '*', fun opening => funext fun here => ?_⟩
    rw [Cursor.skipTriviaRun]
  · have hrun (opening here : Cursor) :
        Cursor.skipTriviaRun d (c :: rest) (.blockComment opening) here =
          Cursor.skipTriviaRun d rest (.blockComment opening) (here.after c rest) := by
      rw [Cursor.skipTriviaRun]
      intro t hc hr; exact hclose ⟨hc, by rw [hr]; rfl⟩
    rcases h.blockComment with hnever | ⟨run, hrun', heq⟩
    · exact .inl fun opening here => (hrun opening here).trans (hnever _ _)
    · refine .inr ⟨_, hrun'.after c, fun opening => funext fun here => ?_⟩
      rw [hrun, heq]

/-- Where the next token starts depends on the text ahead. -/
theorem triviaAhead (d : Dialect) (rest : List Char) : TriviaAhead d rest := by
  induction hl : rest.length using Nat.strong_induction_on generalizing rest with
  | _ l ih =>
    subst hl
    match rest with
    | [] =>
      have hend : TriviaSettled d [] (Cursor.skipTriviaRun d [] .gap) := .bare fun _ => rfl
      exact ⟨hend, hend.congr fun _ _ => rfl, .inl fun _ _ => rfl⟩
    | c :: rest =>
      have h : TriviaAhead d rest := ih _ (by simp) rest rfl
      have ht (c' : Char) (t : List Char) (hr : rest = c' :: t) : TriviaAhead d t :=
        ih _ (by rw [hr]; simp only [List.length_cons]; omega) t rfl
      refine ⟨triviaAhead_gap h ht, ?_, triviaAhead_blockComment h ht⟩
      by_cases hc : c = '\n'
      · refine (h.gap.after c).congr fun here _ => ?_
        rw [Cursor.skipTriviaRun, if_pos hc]
      · refine (h.lineComment.after c).congr fun here _ => ?_
        rw [Cursor.skipTriviaRun, if_neg hc]

theorem skipTrivia_settled (d : Dialect) (rest : List Char) :
    TriviaSettled d rest (Cursor.skipTrivia d) := by
  refine (triviaAhead d rest).gap.congr fun here hr => ?_
  rw [Cursor.skipTrivia, hr]

namespace Lexer

/-! ## Readings -/

/-- What a lexer reads of a text, but for where the text stands: how many characters it passes over,
how many the token has, and the token. -/
structure Reading where
  gap : Nat
  length : Nat
  kind : TokenKind
  literal : String

/-- The text of the token. -/
def Reading.text (r : Reading) (rest : List Char) : List Char := (rest.drop r.gap).take r.length

/-- The token that is read from a place. -/
def Reading.token (r : Reading) (here : Cursor) : Token where
  kind := r.kind
  literal := r.literal
  span :=
    ⟨(here.skip r.gap).offset, (here.skip (r.gap + r.length)).offset, (here.skip r.gap).line,
      (here.skip r.gap).column⟩

/-- The end of the text is read at the end and nothing else is empty. A quoted value is shorter than
the token by two quotes at least. -/
structure Reading.Sound (r : Reading) (rest : List Char) : Prop where
  ended : r.kind = .eof → rest.drop r.gap = []
  nonempty : r.kind ≠ .eof → 1 ≤ utf8Len (r.text rest)
  quoted : r.kind.isText → r.literal.utf8ByteSize + 2 ≤ utf8Len (r.text rest)

/-- Every lexer before a text reads the same. -/
def Reads (d : Dialect) (rest : List Char) (r : Reading) : Prop :=
  ∀ lexer : Lexer, lexer.dialect = d → lexer.cursor.rest = rest →
    lexer.next =
      (r.token lexer.cursor, { lexer with cursor := lexer.cursor.skip (r.gap + r.length) })

variable {d : Dialect} {rest : List Char}

theorem reads_end {n : Nat}
    (htrivia : ∀ here : Cursor, here.rest = rest → here.skipTrivia d = .ok (here.skip n))
    (hr : rest.drop n = []) : Reads d rest ⟨n, 0, .eof, ""⟩ := by
  intro lexer hd hrest
  have hend : (lexer.cursor.skip n).rest = [] := by rw [Cursor.skip_rest, hrest, hr]
  unfold next
  rw [hd, htrivia _ hrest]
  dsimp only
  rw [hend]
  rfl

theorem reads_token {n m : Nat} {c : Char} {t : List Char} {kind : TokenKind}
    {literal? : Option String}
    (htrivia : ∀ here : Cursor, here.rest = rest → here.skipTrivia d = .ok (here.skip n))
    (hr : rest.drop n = c :: t)
    (hscan : ∀ start : Cursor, start.rest = c :: t →
      Scan.ofChar d start c (start.after c t) = ⟨kind, (start.after c t).skip m, literal?⟩) :
    Reads d rest
      ⟨n, m + 1, kind, literal?.getD (String.ofList ((rest.drop n).take (m + 1)))⟩ := by
  intro lexer hd hrest
  have hstart : (lexer.cursor.skip n).rest = c :: t := by rw [Cursor.skip_rest, hrest, hr]
  have hstop : ((lexer.cursor.skip n).after c t).skip m = lexer.cursor.skip (n + (m + 1)) := by
    rw [Cursor.skip_add, Cursor.skip_succ hstart]
  have htext : (lexer.cursor.skip n).textTo (lexer.cursor.skip (n + (m + 1))) =
      String.ofList ((rest.drop n).take (m + 1)) := by
    rw [Cursor.skip_add, Cursor.textTo_skip, Cursor.skip_rest, hrest]
  unfold next
  rw [hd, htrivia _ hrest]
  dsimp only
  rw [hstart]
  dsimp only
  rw [hscan _ hstart, hstop, tokenOf, htext]
  rfl

theorem reads_unclosed {n : Nat}
    (htrivia : ∀ here : Cursor, here.rest = rest → here.skipTrivia d = .error (here.skip n)) :
    Reads d rest ⟨n, (rest.drop n).length, .illegal, "unterminated " ++ "block comment"⟩ := by
  intro lexer hd hrest
  unfold next
  rw [hd, htrivia _ hrest]
  dsimp only
  rw [Scan.unterminated_eq, Cursor.skip_rest, hrest, ← Cursor.skip_add]
  rfl

/-- What is read depends on the text ahead. Read again from where the token starts, it is the same
token. -/
theorem exists_reading (d : Dialect) (rest : List Char) :
    ∃ r : Reading, r.Sound rest ∧ Reads d rest r ∧
      Reads d (rest.drop r.gap) { r with gap := 0 } := by
  rcases skipTrivia_settled d rest with ⟨n, htrivia, hbare⟩ | ⟨n, htrivia, hne, hopen⟩
  · cases hr : rest.drop n with
    | nil =>
      rw [hr] at hbare
      exact ⟨⟨n, 0, .eof, ""⟩, ⟨fun _ => hr, nofun, nofun⟩, reads_end htrivia hr,
        by dsimp only; rw [hr]; exact reads_end hbare rfl⟩
    | cons c t =>
      rw [hr] at hbare
      obtain ⟨kind, m, literal?, hk, hquoted, hscan⟩ := Scan.ofChar_settled d c t
      have hstart := c.utf8Size_pos
      refine ⟨_, ⟨fun h => absurd h hk, fun _ => ?_, fun h => ?_⟩,
        reads_token htrivia hr hscan, ?_⟩
      · rw [Reading.text, hr, List.take_succ_cons, String.utf8Len_cons]
        omega
      · obtain ⟨value, hvalue, hle⟩ := hquoted h
        rw [Reading.text, hr, List.take_succ_cons, String.utf8Len_cons, hvalue]
        change value.utf8ByteSize + 2 ≤ _
        omega
      · dsimp only
        rw [hr]
        exact reads_token hbare rfl hscan
  · refine ⟨⟨n, (rest.drop n).length, .illegal, "unterminated " ++ "block comment"⟩,
      ⟨nofun, fun _ => ?_, nofun⟩, reads_unclosed htrivia, ?_⟩
    · rw [Reading.text, List.take_length]
      have := mt String.utf8Len_eq_zero.1 hne
      omega
    · exact reads_unclosed (n := 0) hopen

end Lexer

end SqlFrontend
