import SqlFrontend.Document.Lexeme

/-!
# Values as they are written

A document is first read as it is written: numbers as numerals, strings as far as they are made of
characters, objects with all their members in order. What a value stands for is looked at only where
it is used, so that unused parts need nothing but the right form.

* `Reading`: the reading of a value, with the containers that are open around it. Every lexeme leads
  to the next state of the reading.
* `Written.ofText?`: the value that a text writes.
* `Written.document?`: the value that is meant, if containers are not nested too deeply.
-/

namespace SqlFrontend.Document

mutual

/-- A value as it is written. -/
inductive Written where
  | null
  | boolean (value : Bool)
  | number (numeral : Numeral)
  | string (text : Option String)
  | array (items : List Written)
  | object (members : List WrittenMember)

/-- A member of an object as it is written. -/
structure WrittenMember where
  key : Option String
  value : Written

end

/-! ## Reading -/

/-- A container that is open around a value. What was read of it comes last first. -/
inductive Frame where
  /-- The value is the next item of an array. -/
  | item (before : List Written)
  /-- The value belongs to a key of an object. -/
  | member (before : List WrittenMember) (key : Option String)

/-- How far the reading of a document has come. -/
inductive Reading where
  /-- A value has to stand here. -/
  | value (frames : List Frame)
  /-- The first item of an array stands here, or its end. -/
  | firstItem (frames : List Frame)
  /-- The first key of an object stands here, or its end. -/
  | firstKey (frames : List Frame)
  /-- A key has to stand here. -/
  | key (frames : List Frame) (before : List WrittenMember)
  /-- A colon has to stand here. -/
  | colon (frames : List Frame) (before : List WrittenMember) (key : Option String)
  /-- A value ends here. -/
  | behind (frames : List Frame) (value : Written)

namespace Reading

/-- Reads the lexeme that a value starts with. -/
def start? (frames : List Frame) : Lexeme → Option Reading
  | .null => some (behind frames .null)
  | .boolean b => some (behind frames (.boolean b))
  | .number n => some (behind frames (.number n))
  | .string text => some (behind frames (.string text))
  | .openArray => some (firstItem frames)
  | .openObject => some (firstKey frames)
  | _ => none

/-- Reads the next lexeme. -/
def step? : Reading → Lexeme → Option Reading
  | value frames, lexeme => start? frames lexeme
  | firstItem frames, .closeArray => some (behind frames (.array []))
  | firstItem frames, lexeme => start? (.item [] :: frames) lexeme
  | firstKey frames, .closeObject => some (behind frames (.object []))
  | firstKey frames, .string text => some (colon frames [] text)
  | key frames before, .string text => some (colon frames before text)
  | colon frames before k, .colon => some (value (.member before k :: frames))
  | behind (.item before :: frames) v, .comma => some (value (.item (v :: before) :: frames))
  | behind (.item before :: frames) v, .closeArray =>
    some (behind frames (.array (v :: before).reverse))
  | behind (.member before k :: frames) v, .comma => some (key frames (⟨k, v⟩ :: before))
  | behind (.member before k :: frames) v, .closeObject =>
    some (behind frames (.object (⟨k, v⟩ :: before : List WrittenMember).reverse))
  | _, _ => none

/-- The value that was read, if nothing is missing. -/
def result? : Reading → Option Written
  | behind [] v => some v
  | _ => none

end Reading

namespace Written

/-- The value that lexemes write. -/
def ofLexemes? (lexemes : List Lexeme) : Option Written :=
  (lexemes.foldlM Reading.step? (.value [])).bind Reading.result?

/-- The value that a text writes. -/
def ofText? (text : String) : Option Written := (lexemes? text).bind ofLexemes?

/-! ## Meaning -/

mutual

/-- The value that is meant, if at most `depth` containers are nested in it. -/
def document? (depth : Nat) : Written → Option Document
  | null => some .null
  | boolean b => some (.boolean b)
  | number n => n.value?
  | string text => text.map .string
  | array items => if depth = 0 then none else (documents? (depth - 1) items).map .array
  | object members =>
    if depth = 0 then none
    else (members? (depth - 1) members).map fun members => .object (Member.sorted members)

/-- The values that are meant. -/
def documents? (depth : Nat) : List Written → Option (List Document)
  | [] => some []
  | item :: rest => do return (← document? depth item) :: (← documents? depth rest)

/-- The members that are meant, in the order in which they are written. -/
def members? (depth : Nat) : List WrittenMember → Option (List Member)
  | [] => some []
  | ⟨key, value⟩ :: rest => do
    return ⟨← key, ← document? depth value⟩ :: (← members? depth rest)

end

end Written

end SqlFrontend.Document
