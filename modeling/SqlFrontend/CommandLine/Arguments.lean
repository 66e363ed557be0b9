import SqlFrontend.Number.Numeral
import SqlFrontend.Plan.Format

/-!
# Arguments of the command line

Options come before the command that they concern: first those of the program, then the command with
its own. Every option is given once at most; a setting that is not given on the command line is taken
from the environment.

* `items`: arguments as options and words.
* `Invocation.ofArguments`: what arguments ask for, or why they ask for nothing that can be done.

Section 10.3 of the polysql specification.
-/

namespace SqlFrontend.CommandLine

/-! ## Options -/

/-- The options of the program and of its commands. -/
inductive OptionName where
  | dialect | timeout | verbose | json | format | help | version
  deriving DecidableEq, Repr

namespace OptionName

/-- The long name of an option. -/
def long : OptionName → String
  | dialect => "dialect"
  | timeout => "timeout-ms"
  | verbose => "verbose"
  | json => "json"
  | format => "format"
  | help => "help"
  | version => "version"

/-- The short name of an option. -/
def short? : OptionName → Option Char
  | dialect => some 'd'
  | timeout => some 't'
  | verbose => some 'v'
  | json => none
  | format => some 'f'
  | help => some 'h'
  | version => some 'V'

/-- Decides whether an option has a value. -/
def takesValue : OptionName → Bool
  | dialect | timeout | format => true
  | _ => false

/-- The option of a long name. -/
def ofLong? (allowed : List OptionName) (name : String) : Option OptionName :=
  allowed.find? fun option => option.long == name

/-- The option of a short name. -/
def ofShort? (allowed : List OptionName) (name : Char) : Option OptionName :=
  allowed.find? fun option => option.short? == some name

end OptionName

/-- What an argument, or a part of one, is. -/
inductive Item where
  | option (name : OptionName) (value : Option String)
  | word (text : String)
  /-- An option that does not exist, or that has a value too much or too little. -/
  | unknown
  deriving DecidableEq, Repr

/-- The options in a cluster of short names. The last one may be left without its value. -/
def cluster (allowed : List OptionName) : List Char → List Item × Option OptionName
  | [] => ([], none)
  | c :: rest =>
    match OptionName.ofShort? allowed c with
    | none => ([.unknown], none)
    | some name =>
      if name.takesValue then
        match rest with
        | [] => ([], some name)
        | '=' :: value => ([.option name (some (String.ofList value))], none)
        | value => ([.option name (some (String.ofList value))], none)
      else
        let (items, pending) := cluster allowed rest
        (.option name none :: items, pending)

/-- A long option. It may be left without its value. -/
def longOption (allowed : List OptionName) (text : List Char) : List Item × Option OptionName :=
  let name := text.takeWhile (· != '=')
  match OptionName.ofLong? allowed (String.ofList name), text.drop name.length with
  | some name, [] => if name.takesValue then ([], some name) else ([.option name none], none)
  | some name, _ :: value =>
    if name.takesValue then ([.option name (some (String.ofList value))], none)
    else ([.unknown], none)
  | none, _ => ([.unknown], none)

/-- The options in an argument that starts with a dash, and the option whose value the next argument
has to be. -/
def argumentOptions (allowed : List OptionName) (argument : String) :
    Option (List Item × Option OptionName) :=
  match argument.toList with
  | '-' :: '-' :: text => some (longOption allowed text)
  | '-' :: c :: rest => some (cluster allowed (c :: rest))
  | _ => none

/-- Arguments as options and words. Behind two dashes only words follow. Where the first word is the
name of a command, the arguments behind it are given as they are. -/
def items (allowed : List OptionName) (stopsAtWord : Bool) : List String → List Item × List String
  | [] => ([], [])
  | argument :: rest =>
    if argument = "--" then
      if stopsAtWord then ([.unknown], []) else (rest.map .word, [])
    else
      match argumentOptions allowed argument with
      | none =>
        if stopsAtWord then ([.word argument], rest)
        else
          let (others, left) := items allowed stopsAtWord rest
          (.word argument :: others, left)
      | some (options, none) =>
        let (others, left) := items allowed stopsAtWord rest
        (options ++ others, left)
      | some (options, some pending) =>
        match rest with
        | [] => (options ++ [.unknown], [])
        | value :: rest =>
          if value.startsWith "-" then (options ++ [.unknown], [])
          else
            let (others, left) := items allowed stopsAtWord rest
            (options ++ .option pending (some value) :: others, left)

/-! ## Settings -/

/-- Why nothing is done. -/
inductive Refusal where
  /-- The arguments are not understood. -/
  | usage
  | help
  | version
  deriving DecidableEq, Repr

/-- The options of the program that are given. -/
structure Globals where
  dialect : Option Dialect := none
  timeout : Option Nat := none
  verbose : Bool := false
  /-- The command. -/
  command : Option String := none

/-- The options and the operand of a command that are given. -/
structure Operands where
  file : Option String := none
  json : Bool := false
  format : Option PlanFormat := none

/-- Sets what must not be set already to a value that has to be there. -/
def setOnce {α : Type} (before : Option α) (value : Option α) : Except Refusal (Option α) :=
  match before, value with
  | none, some value => .ok (some value)
  | _, _ => .error .usage

/-- Switches on what must not be switched on already. -/
def switchOnce (before : Bool) : Except Refusal Bool :=
  if before then .error .usage else .ok true

/-- Takes an option of the program into account. -/
def Globals.add (g : Globals) : Item → Except Refusal Globals
  | .option .dialect value => do
    return { g with dialect := ← setOnce g.dialect (value.bind Dialect.ofString?) }
  | .option .timeout value => do
    return { g with timeout := ← setOnce g.timeout (value.bind Numeral.natural?) }
  | .option .verbose _ => do return { g with verbose := ← switchOnce g.verbose }
  | .option .help _ => .error .help
  | .option .version _ => .error .version
  | .word text => .ok { g with command := some text }
  | _ => .error .usage

/-- Takes an option or a word behind a command into account. -/
def Operands.add (takesFile : Bool) (o : Operands) : Item → Except Refusal Operands
  | .option .json _ => do return { o with json := ← switchOnce o.json }
  | .option .format value => do
    return { o with format := ← setOnce o.format (value.bind PlanFormat.ofString?) }
  | .option .help _ => .error .help
  | .word text =>
    if takesFile && !text.isEmpty then do
      return { o with file := ← setOnce o.file (some text) }
    else .error .usage
  | _ => .error .usage

/-! ## Invocations -/

/-- What the program is asked to do. -/
inductive Command where
  /-- Lists the statements of a script. -/
  | parse (json : Bool)
  /-- Lists the tokens of a script. -/
  | tokens
  /-- Shows an execution plan. -/
  | plan (format : Option PlanFormat) (json : Bool)
  /-- Lists the dialects. -/
  | dialects
  deriving DecidableEq, Repr

/-- A command with its settings. -/
structure Invocation where
  dialect : Dialect
  /-- The milliseconds after which parsing is abandoned. -/
  timeout : Option Nat
  verbose : Bool
  command : Command
  /-- The file to read; without one, the standard input is read. -/
  file : Option String
  deriving DecidableEq, Repr

/-- The settings that the environment gives. -/
structure Environment where
  dialect : Option String := none
  timeout : Option String := none

/-- The names of the commands. -/
def commandNames : List String := ["parse", "tokens", "plan", "dialects", "help"]

/-- The operands of a command. -/
def operands (allowed : List OptionName) (takesFile : Bool) (arguments : List String) :
    Except Refusal Operands :=
  (items (.help :: allowed) false arguments).1.foldlM (Operands.add takesFile) {}

/-- A command with its operands, and the file that it reads. -/
def readCommand (name : String) (arguments : List String) :
    Except Refusal (Command × Option String) := do
  match name with
  | "parse" =>
    let o ← operands [.json] true arguments
    return (.parse o.json, o.file)
  | "tokens" =>
    let o ← operands [] true arguments
    return (.tokens, o.file)
  | "plan" =>
    let o ← operands [.json, .format] true arguments
    return (.plan o.format o.json, o.file)
  | "dialects" =>
    discard (operands [] false arguments)
    return (.dialects, none)
  | "help" =>
    match arguments with
    | [] => throw .help
    | [name] => throw (if commandNames.contains name then .help else .usage)
    | _ => throw .usage
  | _ => throw .usage

/-- A setting: the value from the command line, or else the one from the environment, if there is
one. That has to be readable. -/
def setting {α : Type} (given : Option α) (inherited : Option String)
    (read : String → Option α) : Except Refusal (Option α) :=
  match given, inherited with
  | some value, _ => .ok (some value)
  | none, none => .ok none
  | none, some text =>
    match read text with
    | some value => .ok (some value)
    | none => .error .usage

/-- What arguments ask for. -/
def Invocation.ofArguments (arguments : List String) (environment : Environment) :
    Except Refusal Invocation := do
  let (options, rest) := items [.dialect, .timeout, .verbose, .help, .version] true arguments
  let globals ← options.foldlM Globals.add {}
  match globals.command with
  | none => throw .usage
  | some name =>
    let (command, file) ← readCommand name rest
    let dialect ← setting globals.dialect environment.dialect Dialect.ofString?
    let timeout ← setting globals.timeout environment.timeout Numeral.natural?
    return { dialect := dialect.getD .sqlServer, timeout, verbose := globals.verbose, command, file }

end SqlFrontend.CommandLine
