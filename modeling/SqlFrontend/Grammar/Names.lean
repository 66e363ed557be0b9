import SqlFrontend.Parsing.Production

/-!
# Names and values of options

* `objectName`, `qualifiedName`: names with qualifiers. An object's name ends before a point that no
  name follows; a qualified name does not.
* `columnNames`, `columnNames?`: names in parentheses.
* `optionValue`, `optionWords`: what is set where no expression is read.
* `integer`: a whole number with an optional sign.
* `sqlState`: the code of a condition.

Section 4.3 of the polysql specification.
-/

namespace SqlFrontend.Grammar

open Production

/-- The name of an object, with the schema before it. -/
def objectName : Production ObjectName := do
  let first ← name
  loop (fun (n : ObjectName) => do
    if (← check .dot) && (← peekIsName) then
      advance
      return .more ⟨some n.summary, ← name⟩
    else return .done n) ⟨none, first⟩

/-- A name with any number of qualifiers, as one text. -/
def qualifiedName : Production String := do
  let first ← name
  loop (fun text => do
    if ← consume .dot then return .more (text ++ "." ++ (← name)) else return .done text) first

/-- Names in parentheses, at least one. -/
def columnNames : Production (List String) := inParens (list name)

/-- Names in parentheses, if a parenthesis stands here. -/
def columnNames? : Production (List String) := do
  if ← check .leftParen then columnNames else return []

/-- A word or a constant, as text. A keyword is spelt in its canonical way. -/
def optionValue : Production String := do
  match ← kind with
  | .identifier | .quotedIdentifier | .string | .number => takeLiteral
  | .keyword word => advance; return word.spelling
  | _ => expected "option value"

/-- The words and constants up to the end of a setting, in capitals and with blanks between them. -/
def optionWords : Production String := do
  let first ← optionValue
  let rest ← many do
    if ← atTerminator then return none
    else if (← atName) || (← checkKeyword .ON) || (← check .number) || (← check .string) then
      some <$> optionValue
    else return none
  return Text.upper (Text.separated " " (first :: rest))

/-- A whole number of 64 bits with an optional minus sign. -/
def integer : Production Int := do
  let negative ← consume .minus
  unless ← check .number do
    expected "integer"
  let place ← span
  let text ← takeLiteral
  match Numeral.integer? text with
  | some value => return if negative then -value else value
  | none => fail (.invalidInteger text) place

/-- A string. -/
def string : Production String := do
  if ← check .string then takeLiteral else expected "string"

/-- The code of a condition, behind the word for it. -/
def sqlState : Production String := do
  skipWord "VALUE"
  string

/-- The name of the condition that has a code. -/
def sqlStateText (code : String) : String := s!"SQLSTATE '{code}'"

/-- Goes past the words that say that something may exist already. -/
def ifNotExists : Production Bool := do
  if ← consumeKeyword .IF then
    expectKeyword .NOT
    expectKeyword .EXISTS
    return true
  else return false

/-- Goes past the words that say that something may be missing. -/
def ifExists : Production Bool := do
  if ← consumeKeyword .IF then
    expectKeyword .EXISTS
    return true
  else return false

end SqlFrontend.Grammar
