import SqlFrontend.Proofs.Lexing.Reading

/-!
# The lexer by slices of bytes

A lexer may also be written with a byte offset for its place, so that whatever it looks at is a slice of
the text. A slice is missing where it leaves the text or cuts a character apart, and then nothing is read
at all. This never happens: slice by slice, what is read is what a cursor reads.

Results:
* `Slicing.sliceFrom?`, `Slicing.sliceTo?`, `Slicing.slice?`: slices, missing ones included.
* `Cursor.In`: a cursor stands in a text at its offset. No slice is missing there.
* `Slicing.peek?`, `Slicing.advance?`, `Slicing.skipWhile?`: a look at a character and the way over some.
* `Slicing.skipTrivia?_eq`: the way to a token is that of a cursor.
-/

namespace SqlFrontend

open String (utf8Len)

namespace Slicing

/-! ## Slices -/

/-- The text from a byte offset on, if a character starts there or the text ends. -/
def sliceFrom? : List Char → ℕ → Option (List Char)
  | text, 0 => some text
  | [], _ + 1 => none
  | c :: text, n + 1 => if c.utf8Size ≤ n + 1 then sliceFrom? text (n + 1 - c.utf8Size) else none

/-- The text up to a byte offset, if a character starts there or the text ends. -/
def sliceTo? : List Char → ℕ → Option (List Char)
  | _, 0 => some []
  | [], _ + 1 => none
  | c :: text, n + 1 =>
    if c.utf8Size ≤ n + 1 then (sliceTo? text (n + 1 - c.utf8Size)).map (c :: ·) else none

/-- The text between two byte offsets. -/
def slice? (text : List Char) (start stop : ℕ) : Option (List Char) :=
  if start ≤ stop then (sliceFrom? text start).bind (sliceTo? · (stop - start)) else none

/-- A slice is there if the offset counts the bytes of some first characters. -/
theorem sliceFrom?_eq_some {text rest : List Char} {n : ℕ} :
    sliceFrom? text n = some rest ↔ ∃ front, text = front ++ rest ∧ utf8Len front = n := by
  fun_induction sliceFrom? text n with
  | case1 text =>
    constructor
    · rintro ⟨⟩
      exact ⟨[], rfl, rfl⟩
    · rintro ⟨front, rfl, h⟩
      rw [String.utf8Len_eq_zero.1 h, List.nil_append]
  | case2 n =>
    constructor
    · intro h
      cases h
    · rintro ⟨front, hnil, h⟩
      rw [(List.append_eq_nil_iff.1 hnil.symm).1] at h
      cases h
  | case3 c text n hle ih =>
    refine ih.trans ?_
    clear ih
    constructor
    · rintro ⟨front, rfl, h⟩
      refine ⟨c :: front, rfl, ?_⟩
      rw [String.utf8Len_cons, h]
      omega
    · rintro ⟨front, happend, h⟩
      cases front with
      | nil => cases h
      | cons d front =>
        obtain ⟨rfl, rfl⟩ := List.cons.inj happend
        rw [String.utf8Len_cons] at h
        exact ⟨front, rfl, by omega⟩
  | case4 c text n hle =>
    constructor
    · intro h
      cases h
    · rintro ⟨front, happend, h⟩
      cases front with
      | nil => cases h
      | cons d front =>
        obtain ⟨rfl, -⟩ := List.cons.inj happend
        rw [String.utf8Len_cons] at h
        omega

theorem sliceTo?_append (front rest : List Char) :
    sliceTo? (front ++ rest) (utf8Len front) = some front := by
  induction front with
  | nil => cases rest <;> rfl
  | cons c front ih =>
    have hpos := c.utf8Size_pos
    obtain ⟨n, hn⟩ : ∃ n, utf8Len (c :: front) = n + 1 := by
      rw [String.utf8Len_cons]
      exact ⟨utf8Len front + c.utf8Size - 1, by omega⟩
    have hrest : n + 1 - c.utf8Size = utf8Len front := by
      rw [← hn, String.utf8Len_cons]
      omega
    rw [hn, List.cons_append, sliceTo?, hrest, ih, if_pos]
    · rfl
    · rw [← hn, String.utf8Len_cons]
      omega

end Slicing

/-! ## Places -/

/-- A place in a text, known by its offset. The line and the column are carried along. -/
structure Place where
  offset : ℕ
  line : ℕ
  column : ℕ
  deriving DecidableEq, Repr

/-- The place behind a character. -/
def Place.after (here : Place) (c : Char) : Place where
  offset := here.offset + c.utf8Size
  line := if c = '\n' then here.line + 1 else here.line
  column := if c = '\n' then 1 else here.column + 1

namespace Cursor

/-- The place of a cursor. -/
def place (here : Cursor) : Place := ⟨here.offset, here.line, here.column⟩

/-- A cursor stands in a text, at its offset. -/
def In (here : Cursor) (text : List Char) : Prop :=
  ∃ front, text = front ++ here.rest ∧ utf8Len front = here.offset

variable {here : Cursor} {text rest : List Char} {c : Char}

theorem In.sliceFrom? (h : here.In text) :
    Slicing.sliceFrom? text here.place.offset = some here.rest :=
  Slicing.sliceFrom?_eq_some.2 h

theorem In.skip (h : here.In text) (n : ℕ) : (here.skip n).In text := by
  obtain ⟨front, rfl, hfront⟩ := h
  refine ⟨front ++ here.rest.take n, ?_, ?_⟩
  · rw [skip_rest, List.append_assoc, List.take_append_drop]
  · rw [String.utf8Len_append, hfront, skip_offset]

theorem In.length_le (h : here.In text) : here.rest.length ≤ text.length := by
  obtain ⟨front, rfl, -⟩ := h
  rw [List.length_append]
  exact Nat.le_add_left _ _

theorem In.after (h : here.In text) (hr : here.rest = c :: rest) : (here.after c rest).In text := by
  have hskip := h.skip 1
  rwa [skip_succ hr] at hskip

theorem In.skipWhile (h : here.In text) (p : Char → Bool) : (here.skipWhile p).In text := by
  rw [skipWhile_eq]
  exact h.skip _

theorem In.slice? (h : here.In text) (n : ℕ) :
    Slicing.slice? text here.place.offset (here.skip n).place.offset = some (here.rest.take n) := by
  have hoffset : (here.skip n).place.offset = here.place.offset + utf8Len (here.rest.take n) :=
    here.skip_offset n
  have hto := Slicing.sliceTo?_append (here.rest.take n) (here.rest.drop n)
  rw [List.take_append_drop] at hto
  rw [Slicing.slice?, hoffset, if_pos (Nat.le_add_right _ _), h.sliceFrom?, Nat.add_sub_cancel_left]
  exact hto

theorem skipWhile_pass {p : Char → Bool} (h : here.rest = c :: rest) (hc : p c) :
    here.skipWhile p = (here.after c rest).skipWhile p := by
  rw [Cursor.skipWhile, h, skipRun, if_pos hc]
  rfl

theorem skipWhile_pass_length_lt {p : Char → Bool} (h : here.rest = c :: rest) (hc : p c) :
    (here.skipWhile p).rest.length < here.rest.length := by
  rw [skipWhile_pass h hc, h]
  exact Nat.lt_succ_of_le (skipWhile_rest_length_le p _)

theorem finish_after (h : here.rest = c :: rest) : (here.after c rest).finish = here.finish :=
  (skipWhile_pass h rfl).symm

theorem finish_nil (h : here.rest = []) : here.finish = here := by
  rw [finish, Cursor.skipWhile, h]
  rfl

theorem finish_skip (here : Cursor) (n : ℕ) : (here.skip n).finish = here.finish := by
  induction n generalizing here with
  | zero => rfl
  | succ n ih =>
    cases hr : here.rest with
    | nil => rw [skip_nil hr]
    | cons c rest => rw [skip_succ hr, ih, finish_after hr]

theorem finish_eq (here : Cursor) : here.finish = here.skip here.rest.length := by
  rw [finish, skipWhile_eq, List.takeWhile_eq_self_iff.2 fun _ _ => rfl]

/-- Behind the last character all bytes are counted. -/
theorem In.finish_offset (h : here.In text) : here.finish.place.offset = utf8Len text := by
  obtain ⟨front, rfl, hfront⟩ := h
  have hoffset := here.skip_offset here.rest.length
  rw [finish_eq, place, hoffset, List.take_length, String.utf8Len_append, hfront]

end Cursor

namespace Slicing

variable (text : List Char)

/-! ## Single characters

Loops count their rounds. They are bound to end after as many rounds as the text has characters, and have
no result if they do not. -/

/-- The next character. -/
def peek? (here : Place) : Option (Option Char) := do
  let rest ← sliceFrom? text here.offset
  return rest.head?

/-- The character behind the next one. -/
def peekNext? (here : Place) : Option (Option Char) := do
  let rest ← sliceFrom? text here.offset
  return rest.tail.head?

/-- The place behind the next character, or the end of the text. -/
def advance? (here : Place) : Option Place := do
  match ← peek? text here with
  | some c => return here.after c
  | none => return here

def skipRun? (p : Char → Bool) : ℕ → Place → Option Place
  | 0, _ => none
  | rounds + 1, here => do
    match ← peek? text here with
    | some c => if p c then skipRun? p rounds (← advance? text here) else return here
    | none => return here

/-- The place behind the run of characters of a class. -/
def skipWhile? (p : Char → Bool) (here : Place) : Option Place :=
  skipRun? text p (text.length + 1) here

def advanceRun? (target : ℕ) : ℕ → Place → Option Place
  | 0, _ => none
  | rounds + 1, here => do
    if here.offset < target then
      match ← peek? text here with
      | some c => advanceRun? target rounds (here.after c)
      | none => return here
    else return here

/-- The first place that is not before an offset, or the end of the text. -/
def advanceTo? (target : ℕ) (here : Place) : Option Place :=
  advanceRun? text target (text.length + 1) here

section

variable {text} {here : Cursor} (h : here.In text)
include h

@[simp]
theorem peek?_eq : peek? text here.place = some here.rest.head? := by
  rw [peek?, h.sliceFrom?]
  rfl

@[simp]
theorem peekNext?_eq : peekNext? text here.place = some here.rest.tail.head? := by
  rw [peekNext?, h.sliceFrom?]
  rfl

@[simp]
theorem advance?_eq : advance? text here.place = some (here.skip 1).place := by
  rw [advance?, peek?_eq h]
  cases hr : here.rest with
  | nil => rw [Cursor.skip_nil hr]; rfl
  | cons c rest => rw [Cursor.skip_succ hr]; rfl

theorem advance?_cons {c : Char} {rest : List Char} (hr : here.rest = c :: rest) :
    advance? text here.place = some (here.after c rest).place := by
  rw [advance?_eq h, Cursor.skip_succ hr]
  rfl

theorem skipRun?_eq (p : Char → Bool) {rounds : ℕ} (hrounds : here.rest.length < rounds) :
    skipRun? text p rounds here.place = some (here.skipWhile p).place := by
  induction rounds generalizing here with
  | zero => cases hrounds
  | succ rounds ih =>
    rw [skipRun?, peek?_eq h]
    cases hr : here.rest with
    | nil =>
      rw [Cursor.skipWhile, hr]
      rfl
    | cons c rest =>
      have hnext := ih (h.after hr) (by rw [hr] at hrounds; exact Nat.lt_of_succ_lt_succ hrounds)
      rw [Cursor.skipWhile, hr, Cursor.skipRun]
      cases hc : p c with
      | false => simp [hc]
      | true =>
        rw [Cursor.skipWhile] at hnext
        simp only [Option.bind_eq_bind, Option.bind_some, List.head?_cons, hc, if_true,
          advance?_cons h hr]
        exact hnext

theorem skipWhile?_eq (p : Char → Bool) :
    skipWhile? text p here.place = some (here.skipWhile p).place :=
  skipRun?_eq h p (Nat.lt_succ_of_le h.length_le)

theorem advanceRun?_eq {n rounds : ℕ} (hn : n ≤ here.rest.length) (hrounds : n < rounds) :
    advanceRun? text (here.skip n).place.offset rounds here.place = some (here.skip n).place := by
  obtain ⟨rounds, rfl⟩ := Nat.exists_eq_add_one_of_ne_zero (Nat.ne_zero_of_lt hrounds)
  induction n generalizing here rounds with
  | zero =>
    rw [advanceRun?, if_neg (by exact lt_irrefl _)]
    rfl
  | succ n ih =>
    cases hr : here.rest with
    | nil => rw [hr] at hn; cases hn
    | cons c rest =>
      have hlt : here.place.offset < ((here.after c rest).skip n).place.offset := by
        have hpos := c.utf8Size_pos
        have hoffset := (here.after c rest).skip_offset n
        have hafter : (here.after c rest).offset = here.offset + c.utf8Size := rfl
        change here.offset < ((here.after c rest).skip n).offset
        omega
      obtain ⟨rounds, rfl⟩ := Nat.exists_eq_add_one_of_ne_zero (n := rounds) (by omega)
      have hnext := ih (h.after hr) (by rw [hr] at hn; exact Nat.le_of_succ_le_succ hn) rounds
        (Nat.lt_of_succ_lt_succ hrounds)
      rw [advanceRun?, Cursor.skip_succ hr, if_pos hlt, peek?_eq h, hr]
      exact hnext

theorem advanceTo?_eq (n : ℕ) (hn : n ≤ here.rest.length) :
    advanceTo? text (here.skip n).place.offset here.place = some (here.skip n).place :=
  advanceRun?_eq h hn (Nat.lt_succ_of_le (hn.trans h.length_le))

end

/-! ## Trivia -/

def skipBlockRun? : ℕ → Place → Option (Except Place Place)
  | 0, _ => none
  | rounds + 1, here => do
    match ← peek? text here with
    | none => return .error here
    | some c =>
      let here ← advance? text here
      if c = '*' ∧ (← peek? text here) = some '/' then return .ok (← advance? text here)
      else skipBlockRun? rounds here

/-- The place behind a block comment that was opened, or the end of the text if it is never closed. -/
def skipBlock? (here : Place) : Option (Except Place Place) :=
  skipBlockRun? text (text.length + 1) here

def skipTriviaRun? (d : Dialect) : ℕ → Place → Option (Except (Place × Place) Place)
  | 0, _ => none
  | rounds + 1, here => do
    let here ← skipWhile? text Text.isBlank here
    if (← peek? text here) = some '-' ∧ (← peekNext? text here) = some '-' ∨
        (← peek? text here) = some '#' ∧ d.hasHashComments then
      skipTriviaRun? d rounds (← skipWhile? text (· != '\n') here)
    else if (← peek? text here) = some '/' ∧ (← peekNext? text here) = some '*' then
      match ← skipBlock? text (← advance? text (← advance? text here)) with
      | .error finish => return .error (here, finish)
      | .ok behind => skipTriviaRun? d rounds behind
    else return .ok here

/-- The place of the next token. Fails with the opening of a block comment that is never closed and the
end of the text. -/
def skipTrivia? (d : Dialect) (here : Place) : Option (Except (Place × Place) Place) :=
  skipTriviaRun? text d (text.length + 1) here

section

variable {text} {here : Cursor} {c : Char} {rest : List Char}

theorem skipTrivia_blank (d : Dialect) (hr : here.rest = c :: rest) (hc : Text.isBlank c) :
    here.skipTrivia d = (here.after c rest).skipTrivia d := by
  have hsign (sign : Char) (hsign : Text.isBlank sign = false) : c ≠ sign := by
    rintro rfl
    rw [hsign] at hc
    cases hc
  rw [Cursor.skipTrivia, hr, Cursor.skipTriviaRun, if_pos hc]
  · rfl
  · exact fun _ h => absurd h (hsign '-' (by decide))
  · exact fun _ h => absurd h (hsign '/' (by decide))

/-- White space before a token is passed. -/
theorem skipTrivia_skipWhile (d : Dialect) (here : Cursor) :
    here.skipTrivia d = (here.skipWhile Text.isBlank).skipTrivia d := by
  induction hr : here.rest generalizing here with
  | nil => rw [Cursor.skipWhile, hr, Cursor.skipRun]
  | cons c rest ih =>
    rw [Cursor.skipWhile, hr, Cursor.skipRun]
    split
    · next hblank =>
      rw [skipTrivia_blank d hr hblank]
      exact ih _ rfl
    · rfl

/-- A comment that ends with its line is passed up to the line feed. -/
theorem skipTriviaRun_line (d : Dialect) (here : Cursor) :
    here.skipTriviaRun d here.rest .lineComment = (here.skipWhile (· != '\n')).skipTrivia d := by
  induction hr : here.rest generalizing here with
  | nil =>
    rw [Cursor.skipWhile, hr, Cursor.skipRun, Cursor.skipTrivia, hr]
    rfl
  | cons c rest ih =>
    rw [Cursor.skipWhile, hr, Cursor.skipRun, Cursor.skipTriviaRun]
    by_cases hc : c = '\n'
    · subst hc
      rw [if_pos rfl, if_neg (by decide), skipTrivia_blank d hr (by decide)]
      rfl
    · rw [if_neg hc, if_pos (by simpa using hc)]
      exact ih _ rfl

/-- A block comment is passed up to its end, if it has one. -/
theorem skipBlockRun?_eq (d : Dialect) (opening : Cursor) (h : here.In text) {rounds : ℕ}
    (hrounds : here.rest.length < rounds) :
    (here.skipTriviaRun d here.rest (.blockComment opening) = .error opening ∧
        skipBlockRun? text rounds here.place = some (.error here.finish.place)) ∨
      ∃ behind : Cursor, behind.In text ∧ behind.rest.length < here.rest.length ∧
        here.skipTriviaRun d here.rest (.blockComment opening) = behind.skipTrivia d ∧
        skipBlockRun? text rounds here.place = some (.ok behind.place) := by
  obtain ⟨rounds, rfl⟩ := Nat.exists_eq_add_one_of_ne_zero (Nat.ne_zero_of_lt hrounds)
  induction hr : here.rest generalizing here rounds with
  | nil =>
    left
    rw [skipBlockRun?, peek?_eq h, hr, Cursor.finish_nil hr]
    exact ⟨rfl, rfl⟩
  | cons c rest ih =>
    have hafter := h.after hr
    rw [skipBlockRun?, peek?_eq h, hr]
    simp only [Option.bind_eq_bind, Option.bind_some, List.head?_cons, advance?_cons h hr,
      peek?_eq hafter, Cursor.rest_after]
    by_cases hclose : c = '*' ∧ rest.head? = some '/'
    · right
      obtain ⟨rfl, hhead⟩ := hclose
      obtain ⟨others, rfl⟩ := List.head?_eq_some_iff.1 hhead
      refine ⟨_, hafter.after rfl, ?_, ?_, ?_⟩
      · simp only [Cursor.rest_after, List.length_cons]
        omega
      · rw [Cursor.skipTriviaRun]
        rfl
      · rw [if_pos ⟨rfl, hhead⟩, advance?_cons hafter rfl]
        rfl
    · have hstep : here.skipTriviaRun d (c :: rest) (.blockComment opening) =
          (here.after c rest).skipTriviaRun d rest (.blockComment opening) := by
        rw [Cursor.skipTriviaRun]
        rintro others rfl rfl
        exact hclose ⟨rfl, rfl⟩
      have hless : rest.length < rounds := by rw [hr] at hrounds; exact Nat.lt_of_succ_lt_succ hrounds
      obtain ⟨rounds, rfl⟩ := Nat.exists_eq_add_one_of_ne_zero (Nat.ne_zero_of_lt hless)
      rw [if_neg hclose, hstep, ← Cursor.finish_after hr]
      rcases ih hafter rounds hless rfl with hopen | ⟨behind, hin, hlength, hrun⟩
      · exact .inl hopen
      · exact .inr ⟨behind, hin, Nat.lt_succ_of_lt hlength, hrun⟩

/-- Where a comment starts that ends with its line, the next token is looked for behind that. -/
theorem skipTrivia_line (d : Dialect) (hr : here.rest = c :: rest)
    (h : c = '-' ∧ rest.head? = some '-' ∨ c = '#' ∧ d.hasHashComments) :
    here.skipTrivia d = (here.skipWhile (· != '\n')).skipTrivia d := by
  rcases h with ⟨rfl, hhead⟩ | ⟨rfl, hhash⟩
  · obtain ⟨others, rfl⟩ := List.head?_eq_some_iff.1 hhead
    have hline := skipTriviaRun_line d ((here.after '-' ('-' :: others)).after '-' others)
    rw [Cursor.skipWhile_pass hr (by decide),
      Cursor.skipWhile_pass (Cursor.rest_after _ _ _) (by decide), ← hline, Cursor.skipTrivia, hr,
      Cursor.skipTriviaRun]
    rfl
  · rw [Cursor.skipWhile_pass hr (by decide), ← skipTriviaRun_line, Cursor.skipTrivia, hr,
      Cursor.skipTriviaRun, if_neg (by decide), if_pos (by simpa using hhash)]
    · rfl
    · rintro others ⟨⟩
    · rintro others ⟨⟩

/-- Where neither white space nor a comment starts, a token does. -/
theorem skipTrivia_bare (d : Dialect) (hr : here.rest = c :: rest) (hblank : Text.isBlank c = false)
    (hline : ¬(c = '-' ∧ rest.head? = some '-' ∨ c = '#' ∧ d.hasHashComments))
    (hblock : ¬(c = '/' ∧ rest.head? = some '*')) : here.skipTrivia d = .ok here := by
  rw [Cursor.skipTrivia, hr, Cursor.skipTriviaRun, if_neg (by simp [hblank]), if_neg]
  · intro hhash
    exact hline (.inr (by simpa using hhash))
  · rintro others rfl rfl
    exact hline (.inl ⟨rfl, rfl⟩)
  · rintro others rfl rfl
    exact hblock ⟨rfl, rfl⟩

/-- The place of the next token, or the two ends of a comment that is never closed. -/
theorem skipTriviaRun?_eq (d : Dialect) (h : here.In text) {rounds : ℕ}
    (hrounds : here.rest.length < rounds) :
    skipTriviaRun? text d rounds here.place = some (match here.skipTrivia d with
      | .ok there => .ok there.place
      | .error opening => .error (opening.place, opening.finish.place)) := by
  induction rounds generalizing here with
  | zero => cases hrounds
  | succ rounds ih =>
    have hin := h.skipWhile Text.isBlank
    have hle := here.skipWhile_rest_length_le Text.isBlank
    have hpassed : ∀ c ∈ (here.skipWhile Text.isBlank).rest.head?, Text.isBlank c = false := by
      intro c hc
      have hhead := List.head?_dropWhile_not Text.isBlank here.rest
      rw [Cursor.skipWhile_rest] at hc
      rwa [hc] at hhead
    rw [skipTrivia_skipWhile, skipTriviaRun?, skipWhile?_eq h]
    revert hin hle hpassed
    generalize here.skipWhile Text.isBlank = there
    intro hin hle hpassed
    simp only [Option.bind_eq_bind, Option.bind_some, peek?_eq hin, peekNext?_eq hin]
    cases hr : there.rest with
    | nil =>
      rw [Cursor.skipTrivia, hr]
      rfl
    | cons c rest =>
      simp only [List.head?_cons, List.tail_cons, Option.some.injEq]
      by_cases hline : c = '-' ∧ rest.head? = some '-' ∨ c = '#' ∧ d.hasHashComments
      · have hshort : (there.skipWhile (· != '\n')).rest.length < there.rest.length := by
          refine Cursor.skipWhile_pass_length_lt hr ?_
          rcases hline with ⟨rfl, -⟩ | ⟨rfl, -⟩ <;> decide
        rw [if_pos hline, skipTrivia_line d hr hline, skipWhile?_eq hin]
        exact ih (hin.skipWhile _) (by omega)
      rw [if_neg hline]
      by_cases hblock : c = '/' ∧ rest.head? = some '*'
      · obtain ⟨rfl, hhead⟩ := hblock
        obtain ⟨others, rfl⟩ := List.head?_eq_some_iff.1 hhead
        have hslash := hin.after hr
        have hstar := hslash.after (Cursor.rest_after _ _ _)
        have hopen : there.skipTrivia d = Cursor.skipTriviaRun d others (.blockComment there)
            ((there.after '/' ('*' :: others)).after '*' others) := by
          rw [Cursor.skipTrivia, hr, Cursor.skipTriviaRun]
        rw [if_pos ⟨rfl, hhead⟩, advance?_cons hin hr, Option.bind_some,
          advance?_cons hslash (Cursor.rest_after _ _ _), Option.bind_some, hopen]
        rcases skipBlockRun?_eq d there hstar (Nat.lt_succ_of_le hstar.length_le) with
          ⟨herror, hrun⟩ | ⟨behind, hbehind, hlength, hagain, hrun⟩
        · have hfinish : ((there.after '/' ('*' :: others)).after '*' others).finish = there.finish := by
            rw [Cursor.finish_after (Cursor.rest_after _ _ _), Cursor.finish_after hr]
          rw [Cursor.rest_after] at herror
          rw [skipBlock?, hrun, hfinish, herror]
          rfl
        · rw [skipBlock?, hrun, Option.bind_some]
          rw [Cursor.rest_after] at hagain
          rw [hagain]
          refine ih hbehind ?_
          rw [Cursor.rest_after] at hlength
          rw [hr, List.length_cons, List.length_cons] at hle
          omega
      · rw [if_neg hblock, skipTrivia_bare d hr (hpassed c (by rw [hr]; rfl)) hline hblock]
        rfl

theorem skipTrivia?_eq (d : Dialect) (h : here.In text) :
    skipTrivia? text d here.place = some (match here.skipTrivia d with
      | .ok there => .ok there.place
      | .error opening => .error (opening.place, opening.finish.place)) :=
  skipTriviaRun?_eq d h (Nat.lt_succ_of_le h.length_le)

end

end Slicing

end SqlFrontend
