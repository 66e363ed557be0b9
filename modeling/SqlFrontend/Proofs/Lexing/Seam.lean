import SqlFrontend.Proofs.Parsing.Course

/-!
# Two texts on separate lines

A lexer that comes to a line feed has finished its token: the line feed continues no name, no number
and no operator, and it ends a line comment. So the tokens of two texts, joined by a line feed, are
the tokens of the first one, without its end, and those of the second one, further down. What has no
end in the first text is the exception, since it finds one in the second text or takes that up too.

* `Cursor.followed`: a place in a text that is followed by a line feed and another text.
* `Scan.ofChar_followed`, `Lexer.next_followed`: the next token is read as before.
* `Lexer.next_followed_of_isEof`: where there was none, the next one of the other text is read.
* `Lexer.placed`, `Lexer.next_placed`: the same token is read further down in a source.
* `Lexer.tokenize_line`: the tokens of the two texts together.
-/

namespace SqlFrontend

open String (utf8Len)

/-- Decides whether a message says that a token lacks its end. -/
def saysUnterminated (message : String) : Bool :=
  ["block comment", "string literal", "quoted identifier", "dollar-quoted string"].any
    fun what => message == "unterminated " ++ what

/-- Decides whether a token is illegal for want of an end. -/
def Token.isUnterminated (t : Token) : Bool := t.kind == .illegal && saysUnterminated t.literal

/-! ## Places before a line feed -/

namespace Cursor

/-- The same place, with a line feed and another text behind its text. -/
def followed (text : String) (here : Cursor) : Cursor :=
  { here with rest := here.rest ++ '\n' :: text.toList }

variable {text : String} {here there : Cursor}

theorem followed_rest (text : String) (here : Cursor) :
    (here.followed text).rest = here.rest ++ '\n' :: text.toList := rfl

theorem skip_followed {n : Nat} (h : n ≤ here.rest.length) :
    (here.followed text).skip n = (here.skip n).followed text := by
  induction n generalizing here with
  | zero => rfl
  | succ n ih =>
    cases hr : here.rest with
    | nil => simp [hr] at h
    | cons c rest =>
      have hr' : (here.followed text).rest = c :: (rest ++ '\n' :: text.toList) := by
        rw [followed, hr]; rfl
      rw [skip_succ hr, skip_succ hr', ← ih (by simpa [hr] using h)]
      rfl

/-- A class that has no line feed ends where it did. -/
theorem takeWhile_followed (text : String) {p : Char → Bool} (hp : p '\n' = false)
    (rest : List Char) :
    (rest ++ '\n' :: text.toList).takeWhile p = rest.takeWhile p := by
  rw [List.takeWhile_append, List.takeWhile_cons_of_neg (by simp [hp]), List.append_nil]
  split
  · next h => exact ((List.takeWhile_prefix p).eq_of_length h).symm
  · rfl

theorem skipWhile_followed {p : Char → Bool} (hp : p '\n' = false) :
    (here.followed text).skipWhile p = (here.skipWhile p).followed text := by
  rw [skipWhile_eq, skipWhile_eq, followed, takeWhile_followed text hp]
  exact skip_followed (List.takeWhile_prefix p).length_le

theorem peek?_followed {c : Char} (hc : c ≠ '\n') :
    (here.followed text).peek? = some c ↔ here.peek? = some c := by
  rw [peek?, peek?, followed]
  cases here.rest with
  | nil => simpa using hc.symm
  | cons d rest => rfl

theorem any_peek?_followed {p : Char → Bool} (hp : p '\n' = false) :
    (here.followed text).peek?.any p = here.peek?.any p := by
  rw [peek?, peek?, followed]
  cases here.rest with
  | nil => simpa using hp
  | cons d rest => rfl

theorem textTo_followed (here : Cursor) (n : Nat) :
    (here.followed text).textTo ((here.skip n).followed text) = here.textTo (here.skip n) := by
  let m := min n here.rest.length
  have hm : m ≤ here.rest.length := Nat.min_le_right _ _
  have hskip : here.skip n = here.skip m := by
    rcases Nat.le_total n here.rest.length with h | h
    · rw [show m = n from Nat.min_eq_left h]
    · obtain ⟨k, hk⟩ := Nat.exists_eq_add_of_le h
      rw [show m = here.rest.length from Nat.min_eq_right h, hk, skip_add]
      exact skip_nil (by simp [skip_rest]) k
  rw [hskip, ← skip_followed hm, textTo_skip, textTo_skip, followed,
    List.take_append_of_le_length hm]

/-! ### Delimited texts -/

theorem untilRun_delimiter {delimiter rest read : List Char} (hr : here.rest = rest)
    (h : (untilRun delimiter rest read here).2 = some there) : delimiter <+: there.rest := by
  induction rest generalizing read here with
  | nil =>
    rw [untilRun] at h
    split at h
    · next hd => cases h; rw [hr]; exact List.isPrefixOf_iff_prefix.1 hd
    · cases h
  | cons c rest ih =>
    rw [untilRun] at h
    split at h
    · next hd => cases h; rw [hr]; exact List.isPrefixOf_iff_prefix.1 hd
    · exact ih rfl h

theorem untilRun_room {delimiter rest read : List Char} (hr : here.rest = rest)
    (h : (untilRun delimiter rest read here).2 = some there) : delimiter.length ≤ rest.length :=
  Nat.le_trans (untilRun_delimiter hr h).length_le (untilRun_rest_length_le hr h)

/-- A delimiter that is found stands in the text as a whole, so that it is not found earlier. -/
theorem untilRun_followed {delimiter rest read value : List Char} (hr : here.rest = rest)
    (h : untilRun delimiter rest read here = (value, some there)) :
    untilRun delimiter (rest ++ '\n' :: text.toList) read (here.followed text) =
      (value, some (there.followed text)) := by
  have hroom := untilRun_room hr (congrArg Prod.snd h)
  induction rest generalizing read here with
  | nil =>
    have hd : delimiter = [] := by simpa using hroom
    subst hd
    cases h
    rfl
  | cons c rest ih =>
    have hstart : delimiter.isPrefixOf (c :: (rest ++ '\n' :: text.toList)) =
        delimiter.isPrefixOf (c :: rest) := by
      have hprefix : c :: rest <+: c :: (rest ++ '\n' :: text.toList) :=
        List.prefix_append (c :: rest) _
      rw [Bool.eq_iff_iff, List.isPrefixOf_iff_prefix, List.isPrefixOf_iff_prefix]
      exact ⟨fun hd => List.prefix_of_prefix_length_le hd hprefix hroom, fun hd => hd.trans hprefix⟩
    rw [untilRun] at h
    rw [List.cons_append, untilRun, hstart]
    split at h
    · next hd => rw [if_pos hd]; cases h; rfl
    · next hd =>
      rw [if_neg hd]
      exact ih rfl h (untilRun_room rfl (congrArg Prod.snd h))

theorem until?_followed (text : String) {delimiter : List Char} {value : String}
    (h : here.until? delimiter = some (value, there)) :
    (here.followed text).until? delimiter = some (value, there.followed text) ∧
      delimiter.length ≤ there.rest.length := by
  unfold until? at h
  split at h
  · next read there' hrun =>
    cases h
    refine ⟨?_, (untilRun_delimiter rfl (congrArg Prod.snd hrun)).length_le⟩
    unfold until?
    rw [followed_rest, untilRun_followed rfl hrun]
  · cases h

/-- A quote that closes a text is not doubled by a line feed. -/
theorem unquoteRun_followed {quote : Char} {rest read value : List Char} (hq : quote ≠ '\n')
    (h : unquoteRun quote rest read here = (value, some there)) :
    unquoteRun quote (rest ++ '\n' :: text.toList) read (here.followed text) =
      (value, some (there.followed text)) := by
  fun_induction unquoteRun quote rest read here with
  | case1 => cases h
  | case2 read here rest ih =>
    rw [List.cons_append, unquoteRun.eq_def]
    simp only [if_pos, List.cons_append]
    exact ih h
  | case3 read here d rest hd =>
    cases h
    rw [List.cons_append, unquoteRun.eq_def]
    simp only [if_pos, List.cons_append, if_neg hd]
    rfl
  | case4 read here =>
    cases h
    rw [List.cons_append, unquoteRun.eq_def]
    simp only [if_pos, List.nil_append, if_neg (Ne.symm hq)]
    rfl
  | case5 c rest read here hc ih =>
    rw [List.cons_append, unquoteRun.eq_def]
    simp only [if_neg hc]
    exact ih h

theorem unquote?_followed {quote : Char} {value : String} (hq : quote ≠ '\n')
    (h : here.unquote? quote = some (value, there)) :
    (here.followed text).unquote? quote = some (value, there.followed text) := by
  unfold unquote? at h
  split at h
  · next read there' hrun =>
    cases h
    unfold unquote?
    rw [followed_rest, unquoteRun_followed hq hrun]
  · cases h

end Cursor

/-! ## Tokens before a line feed -/

namespace Scan

/-- The same token, with a line feed and another text behind its text. -/
def followed (text : String) (scan : Scan) : Scan := { scan with next := scan.next.followed text }

/-- Decides whether what was found is illegal for want of an end. -/
def isUnterminated (scan : Scan) : Bool :=
  scan.kind == .illegal && scan.literal?.any saysUnterminated

variable {text : String} {here : Cursor}

theorem extended_followed {c : Char} (hc : c ≠ '\n') (kind : TokenKind) (otherwise : Scan) :
    extended c kind (here.followed text) (otherwise.followed text) =
      (extended c kind here otherwise).followed text := by
  rw [extended, extended]
  by_cases h : here.peek? = some c
  · have hlength : 1 ≤ here.rest.length := by
      rw [Cursor.peek?] at h
      cases hr : here.rest with
      | nil => rw [hr] at h; cases h
      | cons d rest => simp
    rw [if_pos h, if_pos ((Cursor.peek?_followed hc).2 h), Cursor.skip_followed hlength]
    rfl
  · rw [if_neg h, if_neg (mt (Cursor.peek?_followed hc).1 h)]

theorem fractionLength_followed (rest : List Char) :
    fractionLength (rest ++ '\n' :: text.toList) = fractionLength rest := by
  match rest with
  | [] => rfl
  | [c] =>
    by_cases hc : c = '.'
    · subst hc; rfl
    · simp [fractionLength, hc]
  | c :: d :: rest =>
    by_cases hc : c = '.'
    · subst hc
      have hdigits := Cursor.takeWhile_followed text (p := Char.isDigit) rfl (d :: rest)
      rw [List.cons_append] at hdigits
      simp only [List.cons_append, fractionLength, hdigits]
    · simp [fractionLength, hc]

theorem fractionLength_le (rest : List Char) : fractionLength rest ≤ rest.length := by
  unfold fractionLength
  split
  · next c rest =>
    have := (List.takeWhile_prefix (l := c :: rest) Char.isDigit).length_le
    split
    · rw [List.length_cons]; omega
    · exact Nat.zero_le _
  · exact Nat.zero_le _

theorem exponentLength_followed (rest : List Char) :
    exponentLength (rest ++ '\n' :: text.toList) = exponentLength rest := by
  match rest with
  | [] => cases text.toList <;> rfl
  | [c] => simp [exponentLength]
  | [c, d] => simp [exponentLength, List.takeWhile]
  | c :: d :: e :: rest =>
    have hlong := Cursor.takeWhile_followed text (p := Char.isDigit) rfl (d :: e :: rest)
    have hshort := Cursor.takeWhile_followed text (p := Char.isDigit) rfl (e :: rest)
    simp only [List.cons_append] at hlong hshort
    simp only [List.cons_append, exponentLength, hlong, hshort]
    rfl

theorem exponentLength_le (rest : List Char) : exponentLength rest ≤ rest.length := by
  unfold exponentLength
  split
  · next mark c rest =>
    have hlong := (List.takeWhile_prefix (l := c :: rest) Char.isDigit).length_le
    have hshort := (List.takeWhile_prefix (l := rest) Char.isDigit).length_le
    split
    · split
      · rw [List.length_cons]; omega
      · split
        · rw [List.length_cons, List.length_cons]; omega
        · exact Nat.zero_le _
    · exact Nat.zero_le _
  · exact Nat.zero_le _

theorem skipFraction_followed :
    skipFraction (here.followed text) = (skipFraction here).followed text := by
  rw [skipFraction_eq, skipFraction_eq, Cursor.followed_rest, fractionLength_followed,
    Cursor.skip_followed (fractionLength_le _)]

theorem skipExponent_followed :
    skipExponent (here.followed text) = (skipExponent here).followed text := by
  rw [skipExponent_eq, skipExponent_eq, Cursor.followed_rest, exponentLength_followed,
    Cursor.skip_followed (exponentLength_le _)]

theorem number_followed : number (here.followed text) = (number here).followed text := by
  rw [number, Cursor.skipWhile_followed rfl, skipFraction_followed, skipExponent_followed]
  rfl

/-- A quoted text that is closed is so before the line feed. -/
theorem string_followed {quote : Char} (hq : quote ≠ '\n')
    (h : (string quote here).isUnterminated = false) :
    string quote (here.followed text) = (string quote here).followed text := by
  unfold string at h ⊢
  cases hvalue : here.unquote? quote with
  | none => rw [hvalue] at h; cases h
  | some found => rw [Cursor.unquote?_followed hq hvalue]; rfl

theorem quotedIdentifier_followed {quote : Char} (hq : quote ≠ '\n')
    (h : (quotedIdentifier quote here).isUnterminated = false) :
    quotedIdentifier quote (here.followed text) = (quotedIdentifier quote here).followed text := by
  unfold quotedIdentifier at h ⊢
  cases hvalue : here.unquote? quote with
  | none => rw [hvalue] at h; cases h
  | some found => rw [Cursor.unquote?_followed hq hvalue]; rfl

theorem dollar_followed (h : (dollar here).isUnterminated = false) :
    dollar (here.followed text) = (dollar here).followed text := by
  have htag : isTagChar '\n' = false := by decide
  unfold dollar at h ⊢
  rw [Cursor.any_peek?_followed rfl, Cursor.skipWhile_followed rfl, Cursor.skipWhile_followed htag,
    Cursor.followed_rest, Cursor.takeWhile_followed text htag]
  by_cases hd : here.peek?.any Char.isDigit
  · rw [if_pos hd, if_pos hd]; rfl
  rw [if_neg hd] at h ⊢
  rw [if_neg hd]
  dsimp only at h ⊢
  by_cases hopen : (here.skipWhile isTagChar).peek? = some '$'
  · rw [if_pos hopen] at h ⊢
    rw [if_pos ((Cursor.peek?_followed (by decide)).2 hopen)]
    have hroom : 1 ≤ (here.skipWhile isTagChar).rest.length := by
      rw [Cursor.peek?] at hopen
      cases hr : (here.skipWhile isTagChar).rest with
      | nil => rw [hr] at hopen; cases hopen
      | cons c rest => simp
    rw [Cursor.skip_followed hroom]
    revert h
    generalize (here.skipWhile isTagChar).skip 1 = inner
    generalize '$' :: (here.rest.takeWhile isTagChar ++ ['$']) = delimiter
    intro h
    cases hfound : inner.until? delimiter with
    | none => rw [hfound] at h; cases h
    | some found =>
      obtain ⟨heq, hlength⟩ := Cursor.until?_followed text hfound
      rw [heq]
      dsimp only
      rw [Cursor.skip_followed hlength]
      rfl
  · rw [if_neg hopen, if_neg (mt (Cursor.peek?_followed (by decide)).1 hopen)]
    rfl

theorem word_followed (text : String) {d : Dialect} {start : Cursor} {c : Char} {rest : List Char}
    (hs : start.rest = c :: rest) :
    word d (start.followed text) c ((start.after c rest).followed text) =
      (word d start c (start.after c rest)).followed text := by
  have hname : isNameChar d '\n' = false := by cases d <;> decide
  let n := ((start.after c rest).rest.takeWhile (isNameChar d)).length
  have hnext : (start.after c rest).skipWhile (isNameChar d) = start.skip (n + 1) := by
    rw [Cursor.skipWhile_eq, Cursor.skip_succ hs]
  unfold word
  rw [Cursor.skipWhile_followed hname, hnext]
  dsimp only
  rw [Cursor.textTo_followed]
  cases d.keyword? (start.textTo (start.skip (n + 1))) with
  | none => rfl
  | some keyword => cases d.isNamePrefix c <;> rfl

theorem literal_followed (text : String) {d : Dialect} {start : Cursor} {c : Char}
    {rest : List Char} (hs : start.rest = c :: rest)
    (h : (literal d start c (start.after c rest)).isUnterminated = false) :
    literal d (start.followed text) c ((start.after c rest).followed text) =
      (literal d start c (start.after c rest)).followed text := by
  have hword := word_followed text (d := d) hs
  generalize start.after c rest = here at h hword ⊢
  have hpeek : (here.followed text).peek? = some '\x27' ↔ here.peek? = some '\x27' :=
    Cursor.peek?_followed (by decide)
  have hquote (hc : d.isStringQuote c = true) : c ≠ '\n' := by
    rintro rfl; cases d <;> cases hc
  have hclosing {quote : Char} (hc : d.closingQuote? c = some quote) : quote ≠ '\n' := by
    unfold Dialect.closingQuote? at hc
    split at hc <;> cases hc <;> decide
  unfold literal at h ⊢
  simp only [hpeek]
  by_cases hnational : ((c = 'N' || c = 'n') && here.peek? = some '\x27' && d.hasNationalStrings)
      = true
  · rw [if_pos hnational] at h ⊢
    rw [if_pos hnational]
    have hroom : 1 ≤ here.rest.length := by
      simp only [Bool.and_eq_true, Cursor.peek?] at hnational
      cases hr : here.rest with
      | nil => simp [hr] at hnational
      | cons c rest => simp
    rw [Cursor.skip_followed hroom]
    exact string_followed (by decide) h
  rw [if_neg hnational] at h ⊢
  rw [if_neg hnational]
  by_cases hstring : d.isStringQuote c = true
  · rw [if_pos hstring] at h ⊢
    rw [if_pos hstring]
    exact string_followed (hquote hstring) h
  rw [if_neg hstring] at h ⊢
  rw [if_neg hstring]
  cases hc : d.closingQuote? c with
  | some quote =>
    rw [hc] at h
    exact quotedIdentifier_followed (hclosing hc) h
  | none =>
    rw [hc] at h
    dsimp only at h ⊢
    split
    · rfl
    split
    · rfl
    split
    · next hleft hright hdollar =>
      rw [if_neg hleft, if_neg hright, if_pos hdollar] at h
      exact dollar_followed h
    split
    · exact number_followed
    split
    · exact hword
    · rfl

/-- A token that has its end is the same with a line feed and another text behind its text. -/
theorem ofChar_followed (text : String) {d : Dialect} {start : Cursor} {c : Char}
    {rest : List Char} (hs : start.rest = c :: rest)
    (h : (ofChar d start c (start.after c rest)).isUnterminated = false) :
    ofChar d (start.followed text) c ((start.after c rest).followed text) =
      (ofChar d start c (start.after c rest)).followed text := by
  have hliteral := literal_followed text (d := d) hs
  generalize start.after c rest = here at h hliteral ⊢
  unfold ofChar at h ⊢
  cases hp : punctuation? c with
  | some kind => rfl
  | none =>
    rw [hp] at h
    dsimp only at h ⊢
    split
    · rw [Cursor.any_peek?_followed rfl]
      split
      · exact number_followed
      · exact extended_followed (by decide) .dotDot ⟨.dot, here, none⟩
    · rw [← extended_followed (by decide), ← extended_followed (by decide)]; rfl
    · rw [← extended_followed (by decide)]; rfl
    · rw [← extended_followed (by decide), ← extended_followed (by decide)]; rfl
    · rw [← extended_followed (by decide)]; rfl
    · rw [← extended_followed (by decide)]; rfl
    · rw [← extended_followed (by decide)]; rfl
    · apply hliteral
      split at h
      all_goals first | contradiction | exact h

end Scan

/-! ## The way to a token -/

/-- The same white space or comment, with a line feed and another text behind its text. -/
def Trivia.followed (text : String) : Trivia → Trivia
  | .blockComment opening => .blockComment (opening.followed text)
  | mode => mode

namespace Cursor

variable {text : String} {here there : Cursor}

/-- The way on from where a way over white space and comments ended: if that was the end of the text,
it goes on behind the line feed. -/
def onward (d : Dialect) (text : String) (there : Cursor) : Except Cursor Cursor :=
  if there.rest = [] then ((there.followed text).after '\n' text.toList).skipTrivia d
  else .ok (there.followed text)

theorem skipTriviaRun_lineFeed (d : Dialect) (rest : List Char) (here : Cursor) :
    here.skipTriviaRun d ('\n' :: rest) .gap = (here.after '\n' rest).skipTrivia d := by
  rw [skipTriviaRun, if_pos (by decide), skipTrivia, rest_after] <;> simp

/-- Two characters open no comment together when the second one is missing, or a line feed. -/
theorem opens_followed {c opening second : Char} {rest : List Char} (hsecond : second ≠ '\n')
    (h : ∀ rest', c = opening → rest = second :: rest' → False) :
    ∀ rest', c = opening → rest ++ '\n' :: text.toList = second :: rest' → False := by
  intro rest' hc hrest
  cases rest with
  | nil => cases hrest; exact hsecond rfl
  | cons d rest => cases hrest; exact h rest hc rfl

theorem skipTriviaRun_followed {d : Dialect} {rest : List Char} {mode : Trivia}
    (hr : here.rest = rest) (h : here.skipTriviaRun d rest mode = .ok there) :
    (here.followed text).skipTriviaRun d (rest ++ '\n' :: text.toList) (mode.followed text) =
      there.onward d text := by
  fun_induction Cursor.skipTriviaRun d rest mode here with
  | case1 => cases h
  | case2 mode here hmode =>
    cases h
    rw [onward, if_pos hr]
    cases mode with
    | blockComment opening => exact (hmode opening rfl).elim
    | gap => exact skipTriviaRun_lineFeed d _ _
    | lineComment =>
      rw [List.nil_append, Trivia.followed, skipTriviaRun, if_pos rfl]
      · rfl
      · simp
  | case3 c rest here ih =>
    have hmode : (if c = '\n' then Trivia.gap else .lineComment).followed text =
        if c = '\n' then .gap else .lineComment := by split <;> rfl
    rw [List.cons_append, Trivia.followed, skipTriviaRun, ← hmode]
    · exact ih rfl h
    · simp
  | case4 opening rest here ih =>
    rw [List.cons_append, List.cons_append, Trivia.followed, skipTriviaRun]
    exact ih rfl h
  | case5 c rest here opening hclose ih =>
    rw [List.cons_append, Trivia.followed, skipTriviaRun]
    · exact ih rfl h
    · exact opens_followed (by decide) hclose
  | case6 rest here ih =>
    rw [List.cons_append, List.cons_append, Trivia.followed, skipTriviaRun]
    · exact ih rfl h
    · simp
  | case7 rest here ih =>
    rw [List.cons_append, List.cons_append, Trivia.followed, skipTriviaRun]
    · exact ih rfl h
    · simp
  | case8 c rest here hline hblock hblank ih =>
    rw [List.cons_append, Trivia.followed, skipTriviaRun, if_pos hblank]
    · exact ih rfl h
    · exact opens_followed (by decide) hline
    · exact opens_followed (by decide) hblock
    · simp
  | case9 c rest here hline hblock hblank hhash ih =>
    rw [List.cons_append, Trivia.followed, skipTriviaRun, if_neg hblank, if_pos hhash]
    · exact ih rfl h
    · exact opens_followed (by decide) hline
    · exact opens_followed (by decide) hblock
    · simp
  | case10 c rest here hline hblock hblank hhash =>
    cases h
    rw [List.cons_append, Trivia.followed, skipTriviaRun, if_neg hblank, if_neg hhash, onward,
      if_neg (by simp [hr])]
    · exact opens_followed (by decide) hline
    · exact opens_followed (by decide) hblock
    · simp

theorem skipTrivia_followed (text : String) {d : Dialect} (h : here.skipTrivia d = .ok there) :
    (here.followed text).skipTrivia d = there.onward d text :=
  skipTriviaRun_followed rfl h

/-! ## Places further down -/

/-- A place further down, behind as many more bytes and lines. -/
def moved (bytes lines : Nat) (here : Cursor) : Cursor :=
  { here with offset := here.offset + bytes, line := here.line + lines }

theorem skip_moved (bytes lines n : Nat) (here : Cursor) :
    (here.moved bytes lines).skip n = (here.skip n).moved bytes lines := by
  induction n generalizing here with
  | zero => rfl
  | succ n ih =>
    cases hr : here.rest with
    | nil => rw [skip_nil hr, @skip_nil (here.moved bytes lines) hr]
    | cons c rest =>
      have hafter : (here.moved bytes lines).after c rest = (here.after c rest).moved bytes lines := by
        have hoffset : here.offset + bytes + c.utf8Size = here.offset + c.utf8Size + bytes := by omega
        have hline : here.line + lines + 1 = here.line + 1 + lines := by omega
        simp only [after, moved, hoffset, hline]
        split <;> rfl
      rw [skip_succ hr, @skip_succ (here.moved bytes lines) _ _ hr, hafter, ih]

/-- How many bytes and how many lines there are up to the end of the text. -/
theorem skip_end (n : Nat) (here : Cursor) :
    (here.skip n).offset + utf8Len (here.skip n).rest = here.offset + utf8Len here.rest ∧
      (here.skip n).line + (here.skip n).rest.count '\n' =
        here.line + here.rest.count '\n' := by
  induction n generalizing here with
  | zero => exact ⟨rfl, rfl⟩
  | succ n ih =>
    cases hr : here.rest with
    | nil => rw [skip_nil hr, hr]; exact ⟨rfl, rfl⟩
    | cons c rest =>
      have hbehind := ih (here.after c rest)
      rw [skip_succ hr, hbehind.1, hbehind.2, rest_after, String.utf8Len_cons, List.count_cons]
      simp only [after, beq_iff_eq]
      refine ⟨by omega, ?_⟩
      split <;> omega

end Cursor

/-! ## Lexers -/

/-- A span further down, behind as many more bytes and lines. -/
def Span.moved (bytes lines : Nat) (s : Span) : Span :=
  { s with start := s.start + bytes, stop := s.stop + bytes, line := s.line + lines }

/-- A token further down, behind as many more bytes and lines. -/
def Token.moved (bytes lines : Nat) (t : Token) : Token :=
  { t with span := t.span.moved bytes lines }

namespace Lexer

/-- A lexer at the same place, with a line feed and another text behind its text. -/
def followed (text : String) (lexer : Lexer) : Lexer where
  source := lexer.source ++ "\n" ++ text
  dialect := lexer.dialect
  cursor := lexer.cursor.followed text

/-- A lexer further down in a source. -/
def placed (source : String) (bytes lines : Nat) (lexer : Lexer) : Lexer where
  source := source
  dialect := lexer.dialect
  cursor := lexer.cursor.moved bytes lines

variable {text : String} {lexer : Lexer}

theorem next_placed (source : String) (bytes lines : Nat) (lexer : Lexer) :
    (lexer.placed source bytes lines).next =
      (lexer.next.1.moved bytes lines, lexer.next.2.placed source bytes lines) := by
  obtain ⟨r, -, hr, -⟩ := exists_reading lexer.dialect lexer.cursor.rest
  rw [hr lexer rfl rfl, hr (lexer.placed source bytes lines) rfl rfl]
  simp only [Reading.token, placed, Cursor.skip_moved]
  rfl

theorem tokens_placed (source : String) (bytes lines : Nat) (lexer : Lexer) :
    (lexer.placed source bytes lines).tokens = lexer.tokens.map (Token.moved bytes lines) := by
  fun_induction tokens lexer with
  | case1 lexer token behind hnext hend =>
    rw [tokens_eq, next_placed, hnext]
    exact if_pos hend
  | case2 lexer token behind hnext hend ih =>
    rw [tokens_eq, next_placed, hnext]
    exact (if_neg hend).trans (congrArg _ ih)

theorem tokenOf_followed (text : String) {start : Cursor} {scan : Scan} {n : Nat}
    (h : scan.next = start.skip n) :
    tokenOf (start.followed text) (scan.followed text) = tokenOf start scan := by
  simp only [tokenOf, Scan.followed, h, Cursor.textTo_followed]
  rfl

theorem isUnterminated_tokenOf {start : Cursor} {scan : Scan} (h : scan.isUnterminated) :
    (tokenOf start scan).isUnterminated := by
  obtain ⟨hkind, hsays⟩ := Bool.and_eq_true_iff.1 h
  rw [Token.isUnterminated, Bool.and_eq_true]
  refine ⟨hkind, ?_⟩
  cases hl : scan.literal? with
  | none => rw [hl] at hsays; cases hsays
  | some literal => rw [tokenOf, hl]; rwa [hl] at hsays

/-- A token that has its end is read as before. -/
theorem next_followed (hend : lexer.next.1.isEof = false)
    (hopen : lexer.next.1.isUnterminated = false) :
    (lexer.followed text).next = (lexer.next.1, lexer.next.2.followed text) := by
  unfold next at hend hopen ⊢
  cases htrivia : lexer.cursor.skipTrivia lexer.dialect with
  | error opening => rw [htrivia] at hopen; cases hopen
  | ok start =>
    rw [htrivia] at hend hopen
    have honward := Cursor.skipTrivia_followed text htrivia
    cases hs : start.rest with
    | nil => simp only [hs] at hend; cases hend
    | cons c rest =>
      simp only [hs] at hopen
      have hscan := Scan.ofChar_followed text hs
        (Bool.eq_false_iff.2 (mt isUnterminated_tokenOf (Bool.eq_false_iff.1 hopen)))
      obtain ⟨kind, n, literal?, -, -, hsettled⟩ := Scan.ofChar_settled lexer.dialect c rest
      have hnext : (Scan.ofChar lexer.dialect start c (start.after c rest)).next =
          start.skip (n + 1) := by
        rw [Cursor.skip_succ hs]
        exact congrArg Scan.next (hsettled start hs)
      have hrest : (start.followed text).rest = c :: (rest ++ '\n' :: text.toList) := by
        rw [Cursor.followed_rest, hs]; rfl
      have htoken := tokenOf_followed text hnext
      rw [Cursor.onward, hs, if_neg (by nofun)] at honward
      rw [← hscan] at htoken
      dsimp only [followed]
      rw [honward]
      dsimp only
      rw [hrest, hs]
      exact congrArg₂ Prod.mk htoken (congrArg _ (congrArg Scan.next hscan))

/-- Lexers of one source read the same behind white space and comments that end at one place. -/
theorem next_congr {lexer' : Lexer} (hsource : lexer.source = lexer'.source)
    (hdialect : lexer.dialect = lexer'.dialect)
    (h : lexer.cursor.skipTrivia lexer.dialect = lexer'.cursor.skipTrivia lexer'.dialect) :
    lexer.next = lexer'.next := by
  unfold next
  rw [h, hsource, hdialect]

/-- Where a text ends, behind white space and comments. -/
theorem exists_end (h : lexer.next.1.isEof) :
    ∃ n, lexer.cursor.skipTrivia lexer.dialect = .ok (lexer.cursor.skip n) ∧
      (lexer.cursor.skip n).rest = [] := by
  rcases skipTrivia_settled lexer.dialect lexer.cursor.rest with ⟨n, htrivia, -⟩ | ⟨n, htrivia, -⟩
  · refine ⟨n, htrivia _ rfl, ?_⟩
    unfold next at h
    rw [htrivia _ rfl] at h
    cases hs : (lexer.cursor.skip n).rest with
    | nil => rfl
    | cons c rest =>
      obtain ⟨kind, m, literal?, hkind, -, hsettled⟩ := Scan.ofChar_settled lexer.dialect c rest
      have hscan := congrArg Scan.kind (hsettled _ hs)
      simp only [hs, Token.isEof, tokenOf, beq_iff_eq] at h
      exact (hkind (hscan.symm.trans h)).elim
  · unfold next at h
    rw [htrivia _ rfl] at h
    cases h

/-- The bytes and the lines up to the end of the text are the same behind the next token. -/
theorem next_place (lexer : Lexer) :
    lexer.next.2.cursor.offset + utf8Len lexer.next.2.cursor.rest =
        lexer.cursor.offset + utf8Len lexer.cursor.rest ∧
      lexer.next.2.cursor.line + lexer.next.2.cursor.rest.count '\n' =
        lexer.cursor.line + lexer.cursor.rest.count '\n' := by
  obtain ⟨r, -, hr, -⟩ := exists_reading lexer.dialect lexer.cursor.rest
  rw [hr lexer rfl rfl]
  exact Cursor.skip_end _ _

/-- At the end of the text, the lexer stands before the line feed and the other text. -/
theorem next_followed_of_isEof (text : String) (h : lexer.next.1.isEof) :
    (lexer.followed text).next =
      ((ofSource text lexer.dialect).placed (lexer.followed text).source
        (lexer.cursor.offset + utf8Len lexer.cursor.rest + 1)
        (lexer.cursor.line + lexer.cursor.rest.count '\n')).next := by
  obtain ⟨n, htrivia, hrest⟩ := exists_end h
  have hplace := Cursor.skip_end n lexer.cursor
  rw [hrest, String.utf8Len_nil, List.count_nil] at hplace
  refine next_congr rfl rfl ?_
  have honward := Cursor.skipTrivia_followed text htrivia
  rw [Cursor.onward, if_pos hrest] at honward
  refine honward.trans (congrArg _ ?_)
  rw [placed, ← hplace.1, ← hplace.2]
  have hsize : '\n'.utf8Size = 1 := rfl
  simp [Cursor.after, Cursor.followed, Cursor.moved, ofSource, Cursor.start, hsize, Nat.add_comm 1]

/-- The tokens of a text, without its end, and those of another one, behind a line feed. -/
theorem tokens_followed (h : ∀ t ∈ lexer.tokens, t.isUnterminated = false) :
    (lexer.followed text).tokens =
      lexer.tokens.filter (fun t => !t.isEof) ++ (tokenize text lexer.dialect).map
        (Token.moved (lexer.cursor.offset + utf8Len lexer.cursor.rest + 1)
          (lexer.cursor.line + lexer.cursor.rest.count '\n')) := by
  fun_induction tokens lexer with
  | case1 lexer token behind hnext hend =>
    have hother := next_followed_of_isEof text (show lexer.next.1.isEof by rw [hnext]; exact hend)
    rw [tokens_eq, hother, ← tokens_eq, tokens_placed, List.filter_cons_of_neg (by simp [hend])]
    rfl
  | case2 lexer token behind hnext hend ih =>
    have hopen : token.isUnterminated = false := h token List.mem_cons_self
    have hfollowed : (lexer.followed text).next = (token, behind.followed text) := by
      rw [next_followed] <;> rw [hnext]
      · exact Bool.eq_false_iff.2 hend
      · exact hopen
    rw [tokens_eq, hfollowed, if_neg hend, List.filter_cons_of_pos (by simp [hend])]
    have hplace := next_place lexer
    have hdialect := next_dialect lexer
    rw [hnext] at hplace hdialect
    dsimp only at hplace hdialect ⊢
    rw [ih fun t ht => h t (List.mem_cons_of_mem _ ht), hplace.1, hplace.2, hdialect]
    rfl

/-- A line feed separates two texts. The tokens of both together are those of the first one, without
its end, and those of the second one, behind the bytes and the lines of the first one and the line
feed, unless a comment, a string or a quoted name of the first one lacks its end. -/
theorem tokenize_line (a b : String) (d : Dialect)
    (h : ∀ t ∈ tokenize a d, t.isUnterminated = false) :
    tokenize (a ++ "\n" ++ b) d =
      (tokenize a d).filter (fun t => !t.isEof) ++
        (tokenize b d).map (Token.moved (a.utf8ByteSize + 1) (a.toList.count '\n' + 1)) := by
  have hjoin : ofSource (a ++ "\n" ++ b) d = (ofSource a d).followed b := by
    simp [ofSource, followed, Cursor.start, Cursor.followed]
  have hbytes : 0 + utf8Len a.toList = a.utf8ByteSize := by
    rw [Nat.zero_add, String.utf8Len_toList]
  rw [tokenize, hjoin, tokens_followed h, ← hbytes, Nat.add_comm (a.toList.count '\n') 1]
  rfl

/-- A line comment ends with its line, and a point is no fraction there. -/
theorem tokenize_line_comment :
    (∀ t ∈ tokenize "SELECT 1. -- one" .mySql, t.isUnterminated = false) ∧
      tokenize ("SELECT 1. -- one" ++ "\n" ++ "5") .mySql =
        (tokenize "SELECT 1. -- one" .mySql).filter (fun t => !t.isEof) ++
          (tokenize "5" .mySql).map (Token.moved ("SELECT 1. -- one".utf8ByteSize + 1)
            ("SELECT 1. -- one".toList.count '\n' + 1)) := by
  have h : ∀ t ∈ tokenize "SELECT 1. -- one" .mySql, t.isUnterminated = false := by decide +kernel
  exact ⟨h, tokenize_line "SELECT 1. -- one" "5" .mySql h⟩

end Lexer

end SqlFrontend
