import SqlFrontend.Grammar.Names

/-!
# Data types

* `dataType`: a type with its modifiers. Some names go on behind the first word, or behind the part in
  parentheses.

Section 4.3, *Expression additions*, of the polysql specification.
-/

namespace SqlFrontend.Grammar

open Production

/-- A number in the modifiers of a type. -/
def typeNumber : Production Nat := do
  unless ← check .number do
    expected "number"
  let place ← span
  let text ← takeLiteral
  match Numeral.natural? text with
  | some n => return n
  | none => fail (.invalidTypeModifier text) place

/-- The part of a type in parentheses. -/
def typeModifier : Production TypeModifier := inParens do
  if ← consumeWord "MAX" then return .max
  else
    let precision ← typeNumber
    if ← consume .comma then return .precisionScale precision (← typeNumber)
    else return .length precision

/-- The second word of a name, where the first one can have one. -/
def typeName : Production String := do
  let first := Text.upper (← takeLiteral)
  if first = "DOUBLE" then
    return if ← consumeWord "PRECISION" then first ++ " PRECISION" else first
  else if first = "CHARACTER" || first = "CHAR" then
    return if ← consumeWord "VARYING" then first ++ " VARYING" else first
  else return first

/-- The words about a time zone, which belong to the name. -/
def timeZone (name : String) : Production String := do
  if name = "TIMESTAMP" || name = "TIME" then
    if (← checkKeyword .WITH) && (← get).peek.isWord "TIME" then
      advance
      advance
      expectWord "ZONE"
      return name ++ " WITH TIME ZONE"
    else if ← consumeWord "WITHOUT" then
      expectWord "TIME"
      expectWord "ZONE"
      return name ++ " WITHOUT TIME ZONE"
    else return name
  else return name

/-- The array dimensions, which only PostgreSQL has. -/
def typeDimensions : Production (List (Option Nat)) := many do
  if (← dialect) = .postgreSql then
    if ← consume .leftBracket then
      let size ← if ← check .number then some <$> typeNumber else pure none
      expect .rightBracket
      return some size
    else return none
  else return none

/-- A data type. -/
def dataType : Production DataType := do
  let isSet ← consumeWord "SETOF"
  unless ← atName do
    expected "data type"
  let name ← typeName
  let modifier ← if ← check .leftParen then some <$> typeModifier else pure none
  let name ← timeZone name
  let dimensions ← typeDimensions
  let isUnsigned ← consumeWord "UNSIGNED"
  return { name := if isSet then "SETOF " ++ name else name, modifier, isUnsigned, dimensions }

end SqlFrontend.Grammar
