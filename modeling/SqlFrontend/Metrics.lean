import SqlFrontend.Number.Binary64

/-!
# Metrics

What a run of a parser cost: time, tokens and errors, and the throughput that follows from them.

* `Metrics.ofRun`: the metrics of a run of given length. A run that took no measurable time has no
  throughput.

Section 6, *Principal operations*, of the polysql specification.
-/

namespace SqlFrontend

/-- The metrics of a parser. -/
structure Metrics where
  /-- The time spent, in milliseconds. -/
  milliseconds : Binary64
  /-- Tokens used up, the end of the text included. -/
  tokens : Nat
  /-- Tokens per second; zero when no time was measured. -/
  tokensPerSecond : Binary64
  /-- Errors recorded. -/
  errors : Nat
  deriving DecidableEq, Repr

namespace Metrics

/-- A time in seconds. The whole seconds and the rest are converted on their own. -/
def seconds (nanoseconds : Nat) : Float :=
  let second := 1000000000
  (nanoseconds / second).toUInt64.toFloat + (nanoseconds % second).toUInt64.toFloat / second.toFloat

/-- The metrics of a run that took the given time. -/
def ofRun (nanoseconds tokens errors : Nat) : Metrics :=
  let time := seconds nanoseconds
  { milliseconds := .ofFloat (time * 1000)
    tokens
    tokensPerSecond := .ofFloat (if 0 < time then tokens.toUInt64.toFloat / time else 0)
    errors }

end Metrics

end SqlFrontend
