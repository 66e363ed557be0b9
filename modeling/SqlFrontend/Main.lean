import SqlFrontend.CommandLine.Report

/-!
# The program

Reads the arguments, the environment and the input, and prints what the command line's functions
say.
-/

namespace SqlFrontend.CommandLine

/-- The settings in the environment of the process. -/
def readEnvironment : IO Environment := do
  return { dialect := ← IO.getEnv "POLYSQL_DIALECT", timeout := ← IO.getEnv "POLYSQL_TIMEOUT_MS" }

/-- The text that an invocation works on, or nothing if its file cannot be read. -/
def readInput (invocation : Invocation) : IO (Except String String) := do
  match invocation.command, invocation.file with
  | .dialects, _ => return .ok ""
  | _, none => return .ok (← (← IO.getStdin).readToEnd)
  | _, some path =>
    try
      return .ok (← IO.FS.readFile path)
    catch _ =>
      return .error path

/-- Runs an invocation and measures the time. -/
def runInvocation (invocation : Invocation) : IO Outcome := do
  match ← readInput invocation with
  | .error path => return .unreadable path
  | .ok input =>
    let start ← IO.monoNanosNow
    let finding ← IO.lazyPure fun _ => invocation.examine input
    let stop ← IO.monoNanosNow
    return finding.outcome (stop - start)

end SqlFrontend.CommandLine

open SqlFrontend.CommandLine in
/-- The program. -/
def main (arguments : List String) : IO UInt32 := do
  let outcome ←
    match Invocation.ofArguments arguments (← readEnvironment) with
    | .error refusal => pure refusal.outcome
    | .ok invocation => runInvocation invocation
  IO.print outcome.output
  IO.eprint outcome.errors
  return outcome.code.toUInt32
