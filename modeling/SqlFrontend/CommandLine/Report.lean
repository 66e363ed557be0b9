import SqlFrontend.CommandLine.Arguments
import SqlFrontend.Metrics
import SqlFrontend.Parsing.Session
import SqlFrontend.Plan.Reader
import SqlFrontend.Plan.Writer
import SqlFrontend.Summary.Statement

/-!
# Reports

* `Invocation.examine`: what a command finds out about its input.
* `Finding.outcome`: what is printed about it, and the exit code.

Section 10.3 of the polysql specification.
-/

namespace SqlFrontend.CommandLine

/-- What a run of the program leaves behind. -/
structure Outcome where
  code : Nat := 0
  output : String := ""
  errors : String := ""
  deriving DecidableEq, Repr

/-- The outcome of a run that fails. -/
def Outcome.failure (message : String) : Outcome := { code := 1, errors := s!"Error: {message}\n" }

/-- The outcome when a file cannot be read. -/
def Outcome.unreadable (path : String) : Outcome := .failure s!"Failed to read {path}"

/-- Lines, each with a line break behind it. -/
def lines (items : List String) : String := String.join (items.map (· ++ "\n"))

/-! ## Scripts -/

/-- The statements and the errors of a script. -/
structure ScriptReport where
  dialect : Dialect
  statements : List Statement
  errors : List String
  /-- Tokens used up. -/
  tokens : Nat

namespace ScriptReport

/-- Parses a script to its end, whatever errors are in it. -/
def ofSource (source : String) (dialect : Dialect) (expired : Bool) : ScriptReport :=
  let (results, parser) := (Parser.ofSource source dialect expired {}).results
  { dialect, statements := results.filterMap Except.toOption, errors := parser.errorMessages
    tokens := parser.tokenCount }

/-- A statement as an object. -/
def statementDocument (s : Statement) : Document :=
  .object [⟨"type", .string s.tag⟩, ⟨"summary", .string s.summary⟩]

/-- Metrics as an object. -/
def metricsDocument (m : Metrics) : Document :=
  .object [⟨"parse_duration_ms", .float m.milliseconds⟩, ⟨"tokens_processed", .natural m.tokens⟩,
    ⟨"tokens_per_second", .float m.tokensPerSecond⟩, ⟨"error_count", .natural m.errors⟩]

/-- The metrics of a report that took the given time. -/
def metrics (report : ScriptReport) (nanoseconds : Nat) : Metrics :=
  .ofRun nanoseconds report.tokens report.errors.length

/-- A report as an object. -/
def toDocument (report : ScriptReport) (nanoseconds : Nat) : Document :=
  .object [⟨"dialect", .string report.dialect.name⟩,
    ⟨"statements", .array (report.statements.map statementDocument)⟩,
    ⟨"errors", .array (report.errors.map .string)⟩,
    ⟨"metrics", metricsDocument (report.metrics nanoseconds)⟩]

/-- The last line about the errors of a script. -/
def conclusion (report : ScriptReport) : String :=
  if report.errors.isEmpty then "" else s!"Error: {report.errors.length} parse error(s)\n"

/-- What is printed about a script. -/
def outcome (report : ScriptReport) (json : Bool) (nanoseconds : Nat) : Outcome where
  code := if report.errors.isEmpty then 0 else 1
  output :=
    if json then lines [(report.toDocument nanoseconds).write]
    else lines (report.statements.map fun s => s!"{s.tag}\t{s.summary}")
  errors :=
    (if json then "" else lines (report.errors.map (s!"error: {·}"))) ++ report.conclusion

end ScriptReport

/-! ## Tokens -/

/-- The line about a token. -/
def tokenLine (t : Token) : String :=
  s!"{t.span.line}:{t.span.column}\t{t.kind.describe}\t{t.literal}"

/-! ## Plans -/

/-- The line about a node, in the given depth of the tree. -/
def nodeLine (depth : Nat) (node : PlanNode) : String :=
  let table := (node.table.map (s!" on {·}")).getD ""
  let index := (node.index.map (s!" using {·}")).getD ""
  String.join (List.replicate depth "  ") ++
    s!"{node.kind.name} {node.operation}{table}{index}"

mutual

/-- The lines about a node and those below it. -/
def nodeLines (depth : Nat) (node : PlanNode) : List String :=
  nodeLine depth node :: match node with
    | ⟨_, _, _, _, _, _, _, children, _⟩ => childLines (depth + 1) children

/-- The lines about nodes and those below them. -/
def childLines (depth : Nat) : List PlanNode → List String
  | [] => []
  | node :: rest => nodeLines depth node ++ childLines depth rest

end

/-- The lines about a plan. -/
def planLines (plan : ExecutionPlan) : List String :=
  let cost := Decimal.fixed 2 plan.totalCost
  s!"{plan.dialect.name} (cost {cost}, rows {plan.estimatedRows})" ::
    nodeLines 1 plan.root ++ plan.warnings.map (s!"warning: {·}")

/-! ## Dialects -/

/-- The line about a dialect: its name and the constructs that it accepts and others do not. -/
def dialectLine (d : Dialect) : String :=
  s!"{d.name}\t" ++ Text.separated ", " ((Feature.all.filter d.supports).map Feature.tag)

/-! ## Runs -/

/-- What a command finds out about its input. -/
inductive Finding where
  | script (report : ScriptReport) (json : Bool)
  | listing (items : List String)
  | failure (message : String)

/-- Carries a command out. A timeout of zero is over before the first token. -/
def Invocation.examine (invocation : Invocation) (input : String) : Finding :=
  match invocation.command with
  | .parse json => .script (.ofSource input invocation.dialect (invocation.timeout == some 0)) json
  | .tokens => .listing ((Lexer.tokenize input invocation.dialect).map tokenLine)
  | .plan format json =>
    match ExecutionPlan.decode input (format.getD (.native invocation.dialect)) with
    | .ok plan => .listing (if json then [plan.toJson] else planLines plan)
    | .error e => .failure e.message
  | .dialects => .listing (Dialect.all.map dialectLine)

/-- What is printed about a finding that took the given time. -/
def Finding.outcome (finding : Finding) (nanoseconds : Nat) : Outcome :=
  match finding with
  | .script report json => report.outcome json nanoseconds
  | .listing items => { output := lines items }
  | .failure message => .failure message

/-- The version of the program. -/
def versionLine : String := "polysql 0.1.0"

/-- How the program is used. -/
def usageLines : List String :=
  ["Usage: polysql [OPTIONS] <COMMAND>",
    "",
    "Commands:",
    "  parse [--json] [FILE]                  lists the statements of a script",
    "  tokens [FILE]                          lists the tokens of a script",
    "  plan [--format FORMAT] [--json] [FILE] shows an execution plan (json, xml, text)",
    "  dialects                               lists the dialects",
    "",
    "Options:",
    "  -d, --dialect DIALECT   sqlserver, mysql, postgresql or sqlite",
    "  -t, --timeout-ms MS     abandons parsing after this time",
    "  -v, --verbose           logs more",
    "  -h, --help              shows this text",
    "  -V, --version           shows the version"]

/-- What is printed when nothing is done. -/
def Refusal.outcome : Refusal → Outcome
  | usage => { code := 2, errors := lines usageLines }
  | help => { output := lines usageLines }
  | version => { output := lines [versionLine] }

end SqlFrontend.CommandLine
