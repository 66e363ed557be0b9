import SqlFrontend.Document.Numeral
import SqlFrontend.Document.Spelling

/-!
# Lexemes of documents

* `Lexeme.take?`: reads a lexeme off a text that starts with one.
* `lexemes?`: all lexemes of a text, if it is made of lexemes and blanks.
-/

namespace SqlFrontend.Document

/-- What a document is made of. -/
inductive Lexeme where
  | openArray | closeArray | openObject | closeObject | comma | colon
  | null
  | boolean (value : Bool)
  | number (numeral : Numeral)
  /-- A string; nothing if it is not made of characters. -/
  | string (text : Option String)
  deriving DecidableEq, Repr

/-- Decides whether a character separates lexemes. -/
def isBlank (c : Char) : Bool := c == ' ' || c == '\n' || c == '\t' || c == '\r'

namespace Lexeme

/-- Reads the lexeme off a text that its first character starts. -/
def take? : List Char → Option (Lexeme × List Char)
  | '[' :: rest => some (openArray, rest)
  | ']' :: rest => some (closeArray, rest)
  | '\x7b' :: rest => some (openObject, rest)
  | '\x7d' :: rest => some (closeObject, rest)
  | ',' :: rest => some (comma, rest)
  | ':' :: rest => some (colon, rest)
  | 'n' :: 'u' :: 'l' :: 'l' :: rest => some (null, rest)
  | 't' :: 'r' :: 'u' :: 'e' :: rest => some (boolean true, rest)
  | 'f' :: 'a' :: 'l' :: 's' :: 'e' :: rest => some (boolean false, rest)
  | '"' :: rest => (Spelling.take? {} rest).map fun (text, rest) => (string text, rest)
  | text => (Numeral.take? text).map fun (numeral, rest) => (number numeral, rest)

theorem take?_length_lt {text rest : List Char} {lexeme : Lexeme}
    (h : take? text = some (lexeme, rest)) : rest.length < text.length := by
  unfold take? at h
  split at h
  case h_10 =>
    obtain ⟨⟨_, _⟩, hread, heq⟩ := Option.map_eq_some_iff.1 h
    have := Spelling.take?_length_lt hread
    simp only [Prod.mk.injEq] at heq
    obtain ⟨_, rfl⟩ := heq
    simp only [List.length_cons]
    omega
  case h_11 =>
    obtain ⟨⟨_, _⟩, hread, heq⟩ := Option.map_eq_some_iff.1 h
    simp only [Prod.mk.injEq] at heq
    obtain ⟨_, rfl⟩ := heq
    exact Numeral.take?_length_lt hread
  all_goals
    simp only [Option.some.injEq, Prod.mk.injEq] at h
    obtain ⟨_, rfl⟩ := h
    simp only [List.length_cons]
    omega

end Lexeme

theorem length_dropWhile_isBlank_le (text : List Char) :
    (text.dropWhile isBlank).length ≤ text.length :=
  (List.dropWhile_sublist isBlank).length_le

/-- Reads all lexemes of a text, behind those that were read before. -/
def lexemesFrom? (before : List Lexeme) (text : List Char) : Option (List Lexeme) :=
  match _start : text.dropWhile isBlank with
  | [] => some before.reverse
  | c :: rest =>
    match _read : Lexeme.take? (c :: rest) with
    | some (lexeme, left) => lexemesFrom? (lexeme :: before) left
    | none => none
termination_by text.length
decreasing_by
  have := Lexeme.take?_length_lt _read
  have := length_dropWhile_isBlank_le text
  rw [_start] at this
  omega

/-- All lexemes of a text, if it is made of lexemes and blanks. -/
def lexemes? (text : String) : Option (List Lexeme) := lexemesFrom? [] text.toList

end SqlFrontend.Document
