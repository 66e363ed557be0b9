import SqlFrontend.Lexing.Keyword
import SqlFrontend.Text.Blank

/-!
# Dialects

The four vendors' dialects differ in how names and strings are quoted, in which comments exist, in
which words are keywords, and in which constructs are accepted at all. Each difference is one
function on `Dialect`.

* `Dialect.ofString?`, `Feature.ofString?`: reading a name that a user gives.
* `Dialect.closingQuote?`, `isStringQuote`, `isNamePrefix`, `hasNationalStrings`,
  `hasHashComments`, `hasDollarQuotes`: the lexical rules.
* `Dialect.keyword?`: keyword lookup, less the demoted words.
* `Dialect.supports`: the constructs that a dialect gates.

Section 4.1 of the polysql specification.
-/

namespace SqlFrontend

/-- A construct that some dialects refuse. -/
inductive Feature where
  | autoIncrement
  | autoincrement
  | identity
  | materializedView
  | insteadOf
  | variadic
  | plpgsql
  | top
  deriving DecidableEq, Repr

namespace Feature

/-- Every feature once. -/
def all : List Feature :=
  [.autoIncrement, .autoincrement, .identity, .materializedView, .insteadOf, .variadic, .plpgsql,
    .top]

/-- The spelling of a feature in messages. -/
def tag : Feature → String
  | .autoIncrement => "AUTO_INCREMENT"
  | .autoincrement => "AUTOINCREMENT"
  | .identity => "IDENTITY"
  | .materializedView => "MATERIALIZED VIEW"
  | .insteadOf => "INSTEAD OF"
  | .variadic => "VARIADIC"
  | .plpgsql => "PLPGSQL"
  | .top => "TOP"

/-- The spelling of a feature as one word, in documents. -/
def wireName (f : Feature) : String :=
  f.tag.map fun c => if c = ' ' then '_' else c

/-- Reads a tag: white space around it and the case of its letters do not matter, and a blank within
it stands for an underscore. -/
def ofString? (text : String) : Option Feature :=
  let name := (Text.upper (Text.trim text)).map fun c => if c = ' ' then '_' else c
  all.find? fun f => f.wireName == name

/-- The message for a tag that is no feature's. -/
def unknownMessage (tag : String) : String := s!"unknown dialect feature '{tag}'"

end Feature

/-- A vendor's dialect. -/
inductive Dialect where
  | sqlServer
  | mySql
  | postgreSql
  | sqlite
  deriving DecidableEq, Repr

namespace Dialect

instance : Inhabited Dialect := ⟨.sqlServer⟩

/-- Every dialect once. -/
def all : List Dialect := [.sqlServer, .mySql, .postgreSql, .sqlite]

/-- The name of a dialect. -/
def name : Dialect → String
  | .sqlServer => "sqlserver"
  | .mySql => "mysql"
  | .postgreSql => "postgresql"
  | .sqlite => "sqlite"

/-- Reads the name of a dialect, or one of its other names: white space around it and the case of
its letters do not matter. -/
def ofString? (text : String) : Option Dialect :=
  match Text.lower (Text.trim text) with
  | "sqlserver" | "mssql" | "tsql" => some .sqlServer
  | "mysql" => some .mySql
  | "postgresql" | "postgres" | "pg" => some .postgreSql
  | "sqlite" => some .sqlite
  | _ => none

/-- The message for a name that is no dialect's. -/
def unknownMessage (text : String) : String :=
  "unknown dialect '" ++ text ++ "' (expected one of: " ++
    Text.separated ", " (all.map name) ++ ")"

/-! ## Lexical rules -/

/-- The quote that opens a quoted name by preference. -/
def preferredQuote : Dialect → Char
  | .sqlServer => '['
  | .mySql => '\x60'
  | .postgreSql | .sqlite => '"'

/-- The quote that ends a name opened by `opening`, if that opens a quoted name at all. -/
def closingQuote? (d : Dialect) (opening : Char) : Option Char :=
  match d, opening with
  | .sqlServer, '[' | .sqlite, '[' => some ']'
  | .sqlServer, '"' | .postgreSql, '"' | .sqlite, '"' => some '"'
  | .mySql, '\x60' | .sqlite, '\x60' => some '\x60'
  | _, _ => none

/-- Decides whether `c` opens and closes a string. -/
def isStringQuote (d : Dialect) (c : Char) : Bool :=
  c == '\x27' || (d == .mySql && c == '"')

/-- Decides whether `c` starts a name that is never a keyword, such as a variable's. -/
def isNamePrefix : Dialect → Char → Bool
  | .sqlServer, c => c == '@' || c == '#'
  | .mySql, c => c == '@'
  | .postgreSql, _ => false
  | .sqlite, c => c == '@' || c == '$'

/-- Decides whether a string may be marked as national by a letter N before its quote. -/
def hasNationalStrings (d : Dialect) : Bool := d == .sqlServer || d == .mySql

/-- Decides whether a number sign starts a comment. -/
def hasHashComments (d : Dialect) : Bool := d == .mySql

/-- Decides whether dollar quotes and numbered parameters exist. -/
def hasDollarQuotes (d : Dialect) : Bool := d == .postgreSql

/-- The keywords that are plain words in this dialect. -/
def demoted (d : Dialect) : List Keyword := if d = .sqlServer then [] else [.TOP]

/-- The keyword that a word spells in this dialect. -/
def keyword? (d : Dialect) (word : String) : Option Keyword :=
  (Keyword.ofString? word).filter fun keyword => !d.demoted.contains keyword

/-- The word that ends a batch of statements, if there is one. -/
def batchSeparator? (d : Dialect) : Option String := if d = .sqlServer then some "GO" else none

/-! ## Gated constructs -/

/-- Decides whether the dialect accepts a construct. -/
def supports : Dialect → Feature → Bool
  | .sqlServer, f => f == .identity || f == .insteadOf || f == .top
  | .mySql, f => f == .autoIncrement
  | .postgreSql, f => !(f == .autoIncrement || f == .autoincrement || f == .top)
  | .sqlite, f => f == .autoincrement || f == .insteadOf

/-- Decides whether the dialect accepts the construct of the given tag; no tag's is refused. -/
def supportsTag (d : Dialect) (tag : String) : Bool :=
  (Feature.ofString? tag).any d.supports

theorem ofString?_name (d : Dialect) : ofString? d.name = some d := by
  cases d <;> decide +kernel

end Dialect

end SqlFrontend
