/-!
# Cursors

A cursor stands between two characters of a text. It holds the text that is left and where in the
whole text that begins: the byte offset, and line and column of the next character.

* `Cursor.after`: past the next character. Only a line feed starts a new line.
* `Cursor.skipWhile`, `Cursor.skip`: past a run of characters of a class, past a given number.
* `Cursor.textTo`: the text between two cursors.
* `Cursor.until?`: the text up to the first occurrence of a delimiter.
* `Cursor.unquote?`: the value of a quoted text, in which a doubled quote stands for one.

The lemmas `…_rest_length_le` say that none of these moves back.

Section 4.2, *Algorithm*, of the polysql specification.
-/

namespace SqlFrontend

/-- A place between two characters of a text. -/
structure Cursor where
  /-- The characters that follow. -/
  rest : List Char
  /-- How many bytes come before. -/
  offset : Nat
  /-- The line of the next character, counted from one. -/
  line : Nat
  /-- The column of the next character, counted from one. -/
  column : Nat
  deriving DecidableEq, Repr

namespace Cursor

/-- The place before the first character of a text. -/
def start (text : String) : Cursor := ⟨text.toList, 0, 1, 1⟩

/-- The place after `c`, which is the next character, with `rest` behind it. -/
def after (here : Cursor) (c : Char) (rest : List Char) : Cursor where
  rest := rest
  offset := here.offset + c.utf8Size
  line := if c = '\n' then here.line + 1 else here.line
  column := if c = '\n' then 1 else here.column + 1

/-- The next character. -/
def peek? (here : Cursor) : Option Char := here.rest.head?

/-- The place after the next `n` characters, or after the last one. -/
def skip (here : Cursor) : Nat → Cursor
  | 0 => here
  | n + 1 =>
    match here.rest with
    | [] => here
    | c :: rest => (here.after c rest).skip n

/-- Walks over the leading characters of `rest` in the class `p`. -/
def skipRun (p : Char → Bool) : List Char → Cursor → Cursor
  | [], here => here
  | c :: rest, here => if p c then skipRun p rest (here.after c rest) else here

/-- The place behind the run of characters of the class `p` that starts here. -/
def skipWhile (p : Char → Bool) (here : Cursor) : Cursor := skipRun p here.rest here

/-- The leading characters of a text that fit into a number of bytes. -/
def takeBytes : List Char → Nat → List Char
  | c :: rest, n => if c.utf8Size ≤ n then c :: takeBytes rest (n - c.utf8Size) else []
  | [], _ => []

/-- The text between a place and a later one. -/
def textTo (here later : Cursor) : String :=
  String.ofList (takeBytes here.rest (later.offset - here.offset))

/-! ## Delimited texts -/

/-- Reads on to the first occurrence of `delimiter`, with what was read in reverse. -/
def untilRun (delimiter : List Char) : List Char → List Char → Cursor → List Char × Option Cursor
  | [], read, here => (read, if delimiter.isPrefixOf [] then some here else none)
  | c :: rest, read, here =>
    if delimiter.isPrefixOf (c :: rest) then (read, some here)
    else untilRun delimiter rest (c :: read) (here.after c rest)

/-- The text up to the first occurrence of `delimiter`, and the place before that. -/
def until? (here : Cursor) (delimiter : List Char) : Option (String × Cursor) :=
  match untilRun delimiter here.rest [] here with
  | (read, some there) => some (String.ofList read.reverse, there)
  | (_, none) => none

/-- Reads a quoted text up to its closing quote, with what was read in reverse. -/
def unquoteRun (quote : Char) : List Char → List Char → Cursor → List Char × Option Cursor
  | [], read, _ => (read, none)
  | c :: rest, read, here =>
    if c = quote then
      match rest with
      | d :: rest' =>
        if d = quote then
          unquoteRun quote rest' (quote :: read) ((here.after c (d :: rest')).after d rest')
        else (read, some (here.after c (d :: rest')))
      | [] => (read, some (here.after c []))
    else unquoteRun quote rest (c :: read) (here.after c rest)

/-- The value of a quoted text that starts here, behind its opening quote, and the place behind its
closing quote. A doubled quote stands for one quote; a text without a closing quote has no value. -/
def unquote? (here : Cursor) (quote : Char) : Option (String × Cursor) :=
  match unquoteRun quote here.rest [] here with
  | (read, some there) => some (String.ofList read.reverse, there)
  | (_, none) => none

/-- The place behind the last character of the text. -/
def finish (here : Cursor) : Cursor := here.skipWhile fun _ => true

/-! ## No way back -/

@[simp] theorem rest_after (here : Cursor) (c : Char) (rest : List Char) :
    (here.after c rest).rest = rest := rfl

theorem skip_rest (here : Cursor) (n : Nat) : (here.skip n).rest = here.rest.drop n := by
  induction n generalizing here with
  | zero => simp [skip]
  | succ n ih =>
    unfold skip
    split
    · next h => simp [h]
    · next c rest h => simp [ih, h]

theorem skip_rest_length_le (here : Cursor) (n : Nat) :
    (here.skip n).rest.length ≤ here.rest.length := by
  simp [skip_rest]

theorem skipRun_rest (p : Char → Bool) (rest : List Char) (here : Cursor) (h : here.rest = rest) :
    (skipRun p rest here).rest = rest.dropWhile p := by
  induction rest generalizing here with
  | nil => simpa [skipRun] using h
  | cons c rest ih =>
    unfold skipRun
    split
    · next hc => rw [ih _ rfl, List.dropWhile_cons_of_pos hc]
    · next hc => rw [h, List.dropWhile_cons_of_neg hc]

theorem skipWhile_rest (p : Char → Bool) (here : Cursor) :
    (here.skipWhile p).rest = here.rest.dropWhile p :=
  skipRun_rest p here.rest here rfl

theorem skipWhile_rest_length_le (p : Char → Bool) (here : Cursor) :
    (here.skipWhile p).rest.length ≤ here.rest.length := by
  rw [skipWhile_rest]
  exact (List.dropWhile_sublist p).length_le

theorem finish_rest (here : Cursor) : here.finish.rest = [] := by
  rw [finish, skipWhile_rest]
  induction here.rest with
  | nil => rfl
  | cons c rest ih => exact ih

theorem untilRun_rest_length_le {delimiter rest read : List Char} {here there : Cursor}
    (hr : here.rest = rest) (h : (untilRun delimiter rest read here).2 = some there) :
    there.rest.length ≤ rest.length := by
  induction rest generalizing read here with
  | nil =>
    simp only [untilRun] at h
    split at h
    · cases h; simp [hr]
    · cases h
  | cons c rest ih =>
    unfold untilRun at h
    split at h
    · cases h; simp [hr]
    · exact Nat.le_succ_of_le (ih rfl h)

theorem until?_rest_length_le {here there : Cursor} {delimiter : List Char} {text : String}
    (h : here.until? delimiter = some (text, there)) :
    there.rest.length ≤ here.rest.length := by
  unfold until? at h
  split at h
  · next read there' hrun =>
    cases h
    exact untilRun_rest_length_le rfl (congrArg Prod.snd hrun)
  · cases h

theorem unquoteRun_rest_length_le {quote : Char} {rest read : List Char} {here there : Cursor}
    (h : (unquoteRun quote rest read here).2 = some there) :
    there.rest.length ≤ rest.length := by
  fun_induction unquoteRun quote rest read here with
  | case1 => cases h
  | case2 read here rest ih => exact Nat.le_trans (ih h) (by simp only [List.length_cons]; omega)
  | case3 => cases h; simp
  | case4 => cases h; simp
  | case5 c rest read here hc ih => exact Nat.le_succ_of_le (ih h)

theorem unquote?_rest_length_le {here there : Cursor} {quote : Char} {text : String}
    (h : here.unquote? quote = some (text, there)) :
    there.rest.length ≤ here.rest.length := by
  unfold unquote? at h
  split at h
  · next read there' hrun =>
    cases h
    exact unquoteRun_rest_length_le (congrArg Prod.snd hrun)
  · cases h

end Cursor

end SqlFrontend
