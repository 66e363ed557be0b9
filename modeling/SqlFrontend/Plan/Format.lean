import SqlFrontend.Dialect

/-!
# Formats of plans

* `PlanFormat.native`: the format that a dialect writes.
* `PlanFormat.ofString?`: reading the name of a format.
* `PlanError`: why a text is no plan.

Section 6, *EXPLAIN output shape*, of the polysql specification.
-/

namespace SqlFrontend

/-- A format in which databases write plans. -/
inductive PlanFormat where
  | json | xml | text
  deriving DecidableEq, Repr

namespace PlanFormat

/-- The format that a dialect writes. -/
def native : Dialect → PlanFormat
  | .sqlServer => xml
  | .sqlite => text
  | .mySql | .postgreSql => json

/-- The name of a format. -/
def name : PlanFormat → String
  | json => "json"
  | xml => "xml"
  | text => "text"

/-- Reads the name of a format: white space around it and the case of its letters do not matter. -/
def ofString? (name : String) : Option PlanFormat :=
  match Text.lower (Text.trim name) with
  | "json" => some json
  | "xml" => some xml
  | "text" => some text
  | _ => none

end PlanFormat

/-- Why there is no plan. -/
inductive PlanError where
  /-- The text is no document of a plan. -/
  | malformed
  /-- A format that is known but not read. -/
  | unsupported (format : PlanFormat)
  | unknownFormat (name : String)
  deriving DecidableEq, Repr

/-- What a format is called where it is not read. -/
def PlanFormat.title : PlanFormat → String
  | json => "JSON"
  | xml => "SQL Server XML"
  | text => "SQLite text"

/-- The wording of an error. -/
def PlanError.message : PlanError → String
  | malformed => "Invalid plan JSON"
  | unsupported format => s!"not yet implemented: {format.title} plan parsing"
  | unknownFormat name => s!"Unknown plan format '{name}' (expected json, xml or text)"

end SqlFrontend
