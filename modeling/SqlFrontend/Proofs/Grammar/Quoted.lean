import Mathlib.Data.List.Basic
import SqlFrontend.Grammar.Statement
import SqlFrontend.Proofs.Parsing.Run

/-!
# The errors of quoted bodies

The text of a quoted body is read by a parser of its own. What goes wrong there is reported at the token
that the text stands in: the first error is the one that the body fails with, the others are deferred
behind it.

Results:
* `quotedRun`: the reading of the text of a quoted body. `errorsReported` lists the errors that are reported
  of it: those that were recorded, and the one that it failed with. `errorsFound` lists those that are still
  deferred, too.
* `quotedBody_reported`: the body fails where there are errors to report, with the first of them, and defers
  the others.
* `quotedBody_drops`: what is still deferred when the reading ends is not reported.
-/

namespace SqlFrontend.Grammar

variable (N : Nested) (p : Parser)

/-- The reading of the text in the current token, by a parser of its own. -/
def quotedRun : EStateM.Result ParseError Parser Block :=
  quotedText N (p.advance.nested p.current.literal)

/-- The parser that a reading leaves behind. -/
def stateOf {α : Type} : EStateM.Result ParseError Parser α → Parser
  | .ok _ inner => inner
  | .error _ inner => inner

/-- The error that a reading fails with. -/
def fatal? {α : Type} : EStateM.Result ParseError Parser α → Option ParseError
  | .ok .. => none
  | .error e _ => some e

/-- The errors that are reported of a reading: the recorded ones, and the one that it failed with. -/
def errorsReported {α : Type} (result : EStateM.Result ParseError Parser α) : List ParseError :=
  (stateOf result).errors.toList ++ (fatal? result).toList

/-- All errors of a reading: those that are reported of it, and the deferred ones. -/
def errorsFound {α : Type} (result : EStateM.Result ParseError Parser α) : List ParseError :=
  errorsReported result ++ (stateOf result).deferred.toList

/-- The enclosing parser behind a quoted body, before any error is reported. -/
def behindQuoted : Parser := { p.advance with pools := (stateOf (quotedRun N p)).pools }

/-- What comes of a quoted body is what comes of the reading of its text. -/
theorem quotedBody_eq :
    quotedBody N p = quotedOutcome p.current.span (quotedRun N p) p.advance := by
  rw [quotedBody, Production.run_bind, Production.run_span]
  dsimp only
  rw [Production.run_bind, Production.run_takeLiteral]
  rfl

variable {N p}

/-- A reading that was not stopped for want of time leaves nothing but its pools. -/
theorem run_leaveQuoted {place : Span} {q inner : Parser} (h : ¬inner.cancelled) :
    leaveQuoted place inner q = .ok () { q with pools := inner.pools } := by
  have hrun : leaveQuoted place inner q =
      (if inner.cancelled = true then do modify Parser.cancel; Production.fail .cancelled place
        else pure () : Production Unit) { q with pools := inner.pools } := rfl
  rw [hrun, if_neg h]
  rfl

/-- A quoted body is in order where there is no error to report, and fails otherwise, with the first error
and with the others deferred in their order, all at the place of the token. -/
theorem quotedBody_reported (hlive : ¬(stateOf (quotedRun N p)).cancelled) :
    (errorsReported (quotedRun N p) = [] →
      ∃ body inner, quotedRun N p = .ok body inner ∧ quotedBody N p = .ok body (behindQuoted N p)) ∧
    ∀ first others,
      (errorsReported (quotedRun N p)).map (fun e => { e with span := p.current.span }) =
        first :: others →
      quotedBody N p = .error first ((behindQuoted N p).defer others) := by
  rw [quotedBody_eq]
  cases hrun : quotedRun N p with
  | ok body inner =>
    rw [hrun] at hlive
    have hleave : leaveQuoted p.current.span inner p.advance = .ok () _ := run_leaveQuoted hlive
    have hbehind : behindQuoted N p = { p.advance with pools := inner.pools } := by
      rw [behindQuoted, hrun, stateOf]
    have hreported : errorsReported (.ok body inner) = inner.errors.toList := List.append_nil _
    rw [hreported]
    refine ⟨fun hempty => ⟨body, inner, rfl, ?_⟩, fun first others hsome => ?_⟩
    · rw [quotedOutcome, Production.run_bind, hleave, hempty, hbehind]
      rfl
    · rw [List.map_eq_cons_iff] at hsome
      obtain ⟨e, es, heq, rfl, rfl⟩ := hsome
      rw [quotedOutcome, Production.run_bind, hleave, heq, hbehind]
      rfl
  | error e inner =>
    rw [hrun] at hlive
    have hleave : leaveQuoted p.current.span inner p.advance = .ok () _ := run_leaveQuoted hlive
    have hbehind : behindQuoted N p = { p.advance with pools := inner.pools } := by
      rw [behindQuoted, hrun, stateOf]
    have hreported : errorsReported (.error (α := Block) e inner) = inner.errors.toList ++ [e] := rfl
    rw [hreported]
    refine ⟨fun hempty => ?_, fun first others hsome => ?_⟩
    · exact absurd hempty (List.append_ne_nil_of_right_ne_nil _ (List.cons_ne_nil _ _))
    · rw [quotedOutcome, Production.run_bind, hleave, hbehind]
      cases herrors : inner.errors.toList with
      | nil =>
        rw [herrors] at hsome
        obtain ⟨rfl, rfl⟩ := List.cons.inj hsome.symm
        rfl
      | cons x xs =>
        rw [herrors] at hsome
        obtain ⟨rfl, rfl⟩ := List.cons.inj hsome.symm
        rfl

/-- The declaration of a handler holds a quoted body with two errors. One is lost with the parser that it
was deferred in. -/
theorem quotedBody_drops :
    let p := Parser.ofSource ("$a$ BEGIN DECLARE CONTINUE HANDLER FOR SQLEXCEPTION CREATE FUNCTION g() " ++
      "RETURNS INT AS $b$ BEGIN x := ; SELECT FROM; END $b$; END $a$") .postgreSql false {}
    let N := Nested.below p.remaining
    ¬(stateOf (quotedRun N p)).cancelled ∧ (errorsFound (quotedRun N p)).length = 2 ∧
      (fatal? (quotedBody N p)).isSome ∧ (stateOf (quotedBody N p)).deferred = #[] := by
  intro p N
  exact ⟨by decide +kernel, by decide +kernel, by decide +kernel,
    Array.eq_empty_of_size_eq_zero (by decide +kernel)⟩

end SqlFrontend.Grammar
