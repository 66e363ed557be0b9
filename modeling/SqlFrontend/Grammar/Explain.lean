import SqlFrontend.Grammar.Nested
import SqlFrontend.Grammar.Names

/-!
# Requests to explain a statement

* `explain`: the request with its settings, in the spellings of the dialects.

Section 4.3, *EXPLAIN*, of the polysql specification.
-/

namespace SqlFrontend.Grammar

open Production

/-- Decides whether the value of a setting switches it on. -/
def switchesOn (value : String) : Bool := !(["FALSE", "OFF", "0"].contains value)

/-- The value of a setting, in capitals. It may be missing. -/
def explainValue : Production String := do
  if (← check .comma) || (← check .rightParen) then return "TRUE"
  else Text.upper <$> optionValue

/-- A setting in parentheses. -/
def explainSetting : Production (String × String) := do
  let key := Text.upper (← optionValue)
  return (key, ← explainValue)

/-- The next part of a request, or nothing if none stands here. -/
def explainPart? (request : ExplainOptions) : Production (Option ExplainOptions) := do
  match ← kind with
  | .keyword .ANALYZE => advance; return some { request with analyze := true }
  | .keyword .VERBOSE => advance; return some { request with verbose := true }
  | .keyword .EXTENDED => advance; return some { request with extended := true }
  | .keyword .FORMAT =>
    advance
    discard (consume .assign)
    return some { request with format := some (Text.upper (← optionValue)) }
  | .keyword .QUERY =>
    if ← peekKeyword .PLAN then
      advance
      advance
      return some { request with queryPlan := true }
    else return none
  | .leftParen =>
    let settings ← inParens (list explainSetting)
    return some { request with
      options := settings.foldl (fun options (key, value) => options.insert key value)
        request.options }
  | _ => return none

/-- A request with what its settings in parentheses say. A format that is given outside of them
counts more than one among them. -/
def settled (request : ExplainOptions) : ExplainOptions :=
  { request with
    analyze := request.analyze || (request.options.get? "ANALYZE").any switchesOn
    verbose := request.verbose || (request.options.get? "VERBOSE").any switchesOn
    format := request.format <|> request.options.get? "FORMAT" }

/-- A request to explain a statement. -/
def explain (nested : Nested) : Production Statement := do
  expectKeyword .EXPLAIN
  let request ← loop (fun request => do
    match ← explainPart? request with
    | some request => return .more request
    | none => return .done request) {}
  return .explain (settled request) (← nested.statement)

end SqlFrontend.Grammar
