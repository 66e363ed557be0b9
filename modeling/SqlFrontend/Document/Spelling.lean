/-!
# Strings in documents

* `Spelling`: the characters of a string that have been read, from the last to the first. Characters
  beyond the first plane can be spelt as pairs of escapes; half a pair is no character.
* `Spelling.take?`: reads a string off a text, behind its opening quote.
* `quoted`: a string as it is written.
-/

namespace SqlFrontend.Document

/-- What has been read of a string. -/
structure Spelling where
  /-- The characters, the last one first, unless there was something else among them. -/
  before : Option (List Char) := some []
  /-- The first half of a pair that is not complete. -/
  half : Option Nat := none
  deriving DecidableEq, Repr

namespace Spelling

/-! ## Reading -/

/-- Adds a character. -/
def push (s : Spelling) (c : Char) : Spelling :=
  ⟨if s.half.isSome then none else s.before.map (c :: ·), none⟩

/-- Adds a unit of 16 bits: a character, or half a pair. -/
def pushUnit (s : Spelling) (n : Nat) : Spelling :=
  if 0xDC00 ≤ n ∧ n < 0xE000 then
    match s.half with
    | some high =>
      let c := Char.ofNat (0x10000 + (high - 0xD800) * 0x400 + (n - 0xDC00))
      ⟨s.before.map (c :: ·), none⟩
    | none => ⟨none, none⟩
  else if 0xD800 ≤ n ∧ n < 0xDC00 then ⟨if s.half.isSome then none else s.before, some n⟩
  else s.push (Char.ofNat n)

/-- The string, if it is made of characters. -/
def text? (s : Spelling) : Option String :=
  if s.half.isSome then none else s.before.map fun before => String.ofList before.reverse

/-- The value of a hexadecimal digit. -/
def hexDigit? (c : Char) : Option Nat :=
  if '0' ≤ c ∧ c ≤ '9' then some (c.toNat - 48)
  else if 'a' ≤ c ∧ c ≤ 'f' then some (c.toNat - 87)
  else if 'A' ≤ c ∧ c ≤ 'F' then some (c.toNat - 55)
  else none

/-- The unit that four hexadecimal digits spell. -/
def unit? (a b c d : Char) : Option Nat := do
  return (((← hexDigit? a) * 16 + (← hexDigit? b)) * 16 + (← hexDigit? c)) * 16 + (← hexDigit? d)

/-- The character that a short escape stands for. -/
def escaped? : Char → Option Char
  | '"' => some '"'
  | '\\' => some '\\'
  | '/' => some '/'
  | 'b' => some '\x08'
  | 'f' => some '\x0c'
  | 'n' => some '\n'
  | 'r' => some '\r'
  | 't' => some '\t'
  | _ => none

/-- Reads the rest of a string off a text, up to its closing quote. -/
def take? (s : Spelling) : List Char → Option (Option String × List Char)
  | [] => none
  | '"' :: rest => some (s.text?, rest)
  | '\\' :: 'u' :: a :: b :: c :: d :: rest =>
    match unit? a b c d with
    | some n => (s.pushUnit n).take? rest
    | none => none
  | '\\' :: c :: rest =>
    match escaped? c with
    | some c => (s.push c).take? rest
    | none => none
  | c :: rest => if c.toNat < 0x20 ∨ c = '\\' then none else (s.push c).take? rest

theorem take?_length_lt {s : Spelling} {text rest : List Char} {read : Option String}
    (h : s.take? text = some (read, rest)) : rest.length < text.length := by
  fun_induction take? s text <;> simp_all <;> omega

end Spelling

/-! ## Writing -/

/-- The escape of a control character that has no short one. -/
def controlEscape (n : Nat) : List Char :=
  '\\' :: 'u' :: '0' :: '0' :: [Nat.digitChar (n / 16), Nat.digitChar (n % 16)]

/-- A character as it is written in a string. -/
def escape (c : Char) : List Char :=
  if c = '"' then ['\\', '"']
  else if c = '\\' then ['\\', '\\']
  else if c = '\x08' then ['\\', 'b']
  else if c = '\x0c' then ['\\', 'f']
  else if c = '\n' then ['\\', 'n']
  else if c = '\r' then ['\\', 'r']
  else if c = '\t' then ['\\', 't']
  else if c.toNat < 0x20 then controlEscape c.toNat
  else [c]

/-- A string as it is written. -/
def quoted (text : String) : String := "\"" ++ String.ofList (text.toList.flatMap escape) ++ "\""

end SqlFrontend.Document
