import SqlFrontend.Parsing.Session
import SqlFrontend.Proofs.Grammar.Bare
import SqlFrontend.Proofs.Session.Boundary

/-!
# Sessions without time

A parser whose time is over from the start passes no token: the first attempt stops it for good. Whatever
it is asked for then, it stays as it is.

Results:
* `Parser.Continues`: the parsers that operations and changes of the dialect lead to.
* `Parser.Stopped`: a parser that was stopped. `Stopped.continues` says that it stays as it is, and
  `Stopped.answers` how it answers.
* `Parser.Overdue`: what holds of every parser of a session without time.
* `Parser.cancelled_once`: cancellation is recorded once, and nothing changes behind it.
* `Parser.statement_expired`: what is read without time is what is read with time, if nothing of the
  statement stands behind its first word.
-/

namespace SqlFrontend.Parser

variable {p q r : Parser}

/-- The parsers that operations and changes of the dialect lead to. -/
inductive Continues (p : Parser) : Parser → Prop
  | refl : Continues p p
  | run {q : Parser} (h : Continues p q) (op : Operation) : Continues p (op.run q)
  | setDialect {q : Parser} (h : Continues p q) (d : Dialect) : Continues p (q.setDialect d)

/-! ## The answers to a statement -/

section

variable {e : ParseError} {s : Statement}

theorem statement_of_ok (hskip : Parser.skipSeparators { p with deferred := #[] } = q)
    (hparse : Grammar.parse q = .ok s r) : p.statement = (.ok s, r.skipSemicolons) := by
  rw [statement, hskip, hparse]

theorem statement_of_error (hskip : Parser.skipSeparators { p with deferred := #[] } = q)
    (hparse : Grammar.parse q = .error e r) :
    p.statement =
      (.error e, if (r.record e).cancelled then r.record e else (r.record e).synchronize) := by
  rw [statement, hskip, hparse]

/-- Cancellation is not recorded again. -/
theorem statement_of_cancelled (hskip : Parser.skipSeparators { p with deferred := #[] } = q)
    (hparse : Grammar.parse q = .error e r) (he : e.isCancelled) (hr : r.cancelled) :
    p.statement = (.error e, r) := by
  have hrecord : r.record e = r := if_pos he
  rw [statement_of_error hskip hparse, hrecord, if_pos hr]

end

/-! ## Parsers that were stopped -/

/-- Without time, one attempt to skip a token is the last one. -/
theorem skipWhile_of_expired (h : p.expired) (condition : Parser → Bool) :
    p.skipWhile condition = if condition p then p.cancel else p := by
  have hstopped (q : Parser) (hq : q.cancelled) : q.skipWhile condition = q := by
    rw [skipWhile, advance_of_cancelled hq]
    simp
  have hcancel : p.cancel.cancelled := by
    unfold cancel
    split
    · next hc => exact hc
    · rfl
  rw [skipWhile, advance_of_expired h, hstopped _ hcancel, ite_self]

/-- A parser that was stopped, and stands at the end of the text. -/
structure Stopped (p : Parser) : Prop where
  expired : p.expired
  cancelled : p.cancelled
  last : p.Last .eof

/-- The log and the count of tokens are the same. -/
structure Keeps (p q : Parser) : Prop where
  errors : q.errors = p.errors
  tokenCount : q.tokenCount = p.tokenCount
  place : q.current.span = p.current.span

theorem Keeps.refl (p : Parser) : p.Keeps p := ⟨rfl, rfl, rfl⟩

theorem Keeps.trans (h : p.Keeps q) (h' : q.Keeps r) : p.Keeps r :=
  ⟨h'.errors.trans h.errors, h'.tokenCount.trans h.tokenCount, h'.place.trans h.place⟩

theorem Stays.keeps (h : p.Stays q) : p.Keeps q := by
  rw [h]
  exact ⟨rfl, rfl, rfl⟩

namespace Stopped

theorem stays (hp : p.Stopped) (h : p.Stays q) : q.Stopped := by
  rw [h]
  exact ⟨hp.expired, hp.cancelled, hp.last.kind, hp.last.peek, hp.last.strict⟩

theorem atEnd (hp : p.Stopped) : p.atEnd := Production.Ends.atEnd hp.last

theorem skipSeparators (hp : p.Stopped) : p.skipSeparators = p := by
  rw [Parser.skipSeparators, skipWhile_of_expired hp.expired, if_neg]
  rw [hp.cancelled]
  exact Bool.false_ne_true

/-- No statement is read any more, for want of time. -/
theorem statement (hp : p.Stopped) :
    (∃ e, p.statement.1 = .error e ∧ e.isCancelled) ∧ p.statement.2.Stopped ∧
      p.Keeps p.statement.2 := by
  have hclear : Stopped { p with deferred := #[] } :=
    ⟨hp.expired, hp.cancelled, hp.last.kind, hp.last.peek, hp.last.strict⟩
  obtain ⟨e, q, hparse, he, hstays⟩ := hclear.last.parse_cancelled hclear.cancelled
  have hq := hclear.stays hstays
  have hkeeps := hstays.keeps
  rw [statement_of_cancelled hclear.skipSeparators hparse he hq.cancelled]
  exact ⟨⟨e, rfl, he⟩, hq, hkeeps.errors, hkeeps.tokenCount, hkeeps.place⟩

theorem next? (hp : p.Stopped) : p.next? = (none, p) := by
  have hskip := hp.skipSeparators
  have hnext := next?_ended (p := p) (by rw [hskip]; exact hp.atEnd)
  rwa [hskip] at hnext

theorem statements (hp : p.Stopped) : p.statements = (.ok [], p) := by
  rw [Parser.statements, hp.next?]

theorem results (hp : p.Stopped) : p.results = ([], p) := by
  rw [Parser.results, hp.next?]

theorem run (hp : p.Stopped) (op : Operation) : (op.run p).Stopped ∧ p.Keeps (op.run p) := by
  cases op with
  | statement => exact hp.statement.2
  | next => rw [Operation.run, hp.next?]; exact ⟨hp, .refl p⟩
  | all => rw [Operation.run, hp.statements]; exact ⟨hp, .refl p⟩

/-- A parser that was stopped stays as it is. -/
theorem continues (hp : p.Stopped) (h : p.Continues q) : q.Stopped ∧ p.Keeps q := by
  induction h with
  | refl => exact ⟨hp, .refl p⟩
  | run _ op ih =>
    have hrun := ih.1.run op
    exact ⟨hrun.1, ih.2.trans hrun.2⟩
  | setDialect _ d ih =>
    obtain ⟨⟨hexpired, hcancelled, hkind, hpeek, hstrict⟩, hkeeps⟩ := ih
    exact ⟨⟨hexpired, hcancelled, hkind, hpeek, hstrict⟩, hkeeps.errors, hkeeps.tokenCount, hkeeps.place⟩

end Stopped

/-! ## Parsers whose time is over -/

/-- A parser whose time is over, at the first token of its source. -/
structure Waiting (first : Token) (p : Parser) : Prop where
  current : p.current = first
  expired : p.expired
  running : p.cancelled = false
  strict : p.recovering = false

/-- The errors behind cancellation: it is the last of them, and at most one other is before it. -/
def LogsCancelled (place : Span) (errors : Array ParseError) : Prop :=
  ∃ before, errors.toList = before ++ [⟨.cancelled, place⟩] ∧ before.length ≤ 1 ∧
    ∀ e ∈ before, ¬e.isCancelled ∧ e.span = place

/-- What holds of every parser of a session without time: it waits at the first token, or was stopped
there. At the end of the text there is no token to be stopped by. -/
inductive Overdue (first : Token) (p : Parser) : Prop
  | waiting (h : p.Waiting first) (count : p.tokenCount = 1) (log : ∀ e ∈ p.errors, ¬e.isCancelled)
      (empty : first.isEof = false → p.errors = #[])
  | stopped (h : p.Stopped) (count : p.tokenCount = 1) (text : first.isEof = false)
      (log : LogsCancelled first.span p.errors)

namespace Waiting

variable {first : Token}

theorem expiring (hp : p.Waiting first) : p.Expiring first.kind :=
  ⟨by rw [hp.current], hp.expired, hp.running, hp.strict⟩

theorem not_cancelled (hp : p.Waiting first) : ¬p.cancelled := hp.expiring.not_cancelled

theorem clear (hp : p.Waiting first) : Waiting first { p with deferred := #[] } :=
  ⟨hp.current, hp.expired, hp.running, hp.strict⟩

/-- Another record of errors does not matter. -/
theorem stays (hp : p.Waiting first) (h : p.Stays q) : q.Waiting first := by
  rw [h]
  exact ⟨hp.current, hp.expired, hp.running, hp.strict⟩

theorem cancel (hp : p.Waiting first) : p.cancel.Stopped := by
  obtain ⟨hcancelled, hlast⟩ := hp.expiring.cancel
  refine ⟨?_, hcancelled, hlast⟩
  rw [Parser.cancel, if_neg hp.not_cancelled]
  exact hp.expired

/-- The first token stops the parser, and that is recorded. -/
theorem stop (hp : p.Waiting first) (count : p.tokenCount = 1) (text : first.isEof = false)
    (hlength : p.errors.size ≤ 1) (hlog : ∀ e ∈ p.errors, ¬e.isCancelled ∧ e.span = first.span)
    (h : p.cancel.Stays q) : Overdue first q ∧ q.Stopped := by
  have hq := hp.cancel.stays h
  have herrors : q.errors = p.errors.push ⟨.cancelled, first.span⟩ := by
    rw [h.keeps.errors, Parser.cancel, if_neg hp.not_cancelled, hp.current]
  have hcount : q.tokenCount = 1 := by
    rw [h.keeps.tokenCount, Parser.cancel, if_neg hp.not_cancelled]
    exact count
  refine ⟨.stopped hq hcount text ⟨p.errors.toList, ?_, ?_, ?_⟩, hq⟩
  · rw [herrors, Array.toList_push]
  · rwa [Array.length_toList]
  · exact fun e he => hlog e (Array.mem_toList_iff.1 he)

/-- The same where no error was recorded before. -/
theorem stop_first (hp : p.Waiting first) (count : p.tokenCount = 1) (text : first.isEof = false)
    (hempty : p.errors = #[]) (h : p.cancel.Stays q) : Overdue first q ∧ q.Stopped :=
  hp.stop count text (by rw [hempty]; exact Nat.zero_le 1)
    (by rw [hempty]; exact fun e he => (Array.not_mem_empty e he).elim) h

/-- Where a separator stands first, it stops the parser. -/
theorem skipSeparators_cases (hp : p.Waiting first) :
    p.skipSeparators = p.cancel ∧ first.isEof = false ∨
      p.skipSeparators = p ∧ p.atSeparator = false := by
  rw [Parser.skipSeparators, skipWhile_of_expired hp.expired]
  by_cases h : p.atSeparator
  · refine .inl ⟨if_pos h, ?_⟩
    have hend := Ready.not_atEnd_of_atSeparator h
    rw [Parser.atEnd, hp.current] at hend
    simpa using hend
  · exact .inr ⟨if_neg h, by simpa using h⟩

/-- Behind no separator, text that is left ends no statement. -/
theorem not_atTerminator (hp : p.Waiting first) (hseparator : p.atSeparator = false)
    (text : first.isEof = false) : p.atTerminator = false := by
  rw [atSeparator, hp.running, Bool.not_false, Bool.true_and, Bool.or_eq_false_iff] at hseparator
  rw [atTerminator, hseparator.1, hseparator.2, Parser.atEnd, hp.current, text]
  rfl

/-- Synchronizing stops the parser. -/
theorem synchronize (hp : p.Waiting first) (hterminator : p.atTerminator = false) :
    p.synchronize = p.cancel := by
  rw [Parser.synchronize, skipWhile_of_expired hp.expired, if_pos (by rw [hterminator]; rfl),
    hp.cancel.skipSeparators]

end Waiting

/-- At the end of the text no statement is read. -/
theorem parse_atEnd (h : p.atEnd) :
    Grammar.parse p = .error (p.expectedError "statement") p := by
  have hkind : p.current.kind = .eof := beq_iff_eq.1 h
  rw [Grammar.parse, Grammar.statement, Production.run_bind, Production.run_kind, hkind]
  simp [Grammar.namedStatement, Grammar.atAssignment, Token.isName, hkind]

namespace Waiting

variable {first : Token}

/-- The record of an error that is not cancellation. -/
theorem record (hp : p.Waiting first) {e : ParseError} (he : ¬e.isCancelled)
    (hstays : Parser.Stays { p with deferred := #[] } q) :
    (q.record e).Waiting first ∧ (q.record e).errors = p.errors.push e ∧
      (q.record e).tokenCount = p.tokenCount ∧ (q.record e).atSeparator = p.atSeparator := by
  have hq := hp.clear.stays hstays
  rw [Parser.record, if_neg he]
  refine ⟨⟨hq.current, hq.expired, hq.running, hq.strict⟩, ?_, ?_, ?_⟩
  · rw [hstays]
    exact Array.append_empty
  · rw [hstays]
  · rw [hstays]
    rfl

/-- Where the text is at its end, a statement is missing. -/
theorem statement_atEnd (hp : p.Waiting first) (count : p.tokenCount = 1)
    (log : ∀ e ∈ p.errors, ¬e.isCancelled) (text : first.isEof) : Overdue first p.statement.2 := by
  have hskip {q : Parser} (hq : q.Waiting first) : q.skipSeparators = q :=
    hq.skipSeparators_cases.elim (fun h => by rw [text] at h; cases h.2) And.left
  have hend : Parser.atEnd { p with deferred := #[] } := by rw [atEnd, hp.clear.current, text]
  have hlive : ¬(Parser.expectedError { p with deferred := #[] } "statement").isCancelled := by
    rw [expectedError, if_neg hp.clear.not_cancelled]
    exact Bool.false_ne_true
  obtain ⟨hq, herrors, hcount, -⟩ := hp.record hlive (.refl _)
  rw [statement_of_error (hskip hp.clear) (parse_atEnd hend), if_neg hq.not_cancelled]
  revert hq herrors hcount
  generalize Parser.record _ _ = q
  intro hq herrors hcount
  have hterminator : q.atTerminator := by
    rw [atTerminator, atEnd, hq.current, text, Bool.or_true, Bool.true_or]
  dsimp only
  rw [Parser.synchronize, skipWhile_of_expired hq.expired, if_neg (by rw [hterminator]; exact Bool.false_ne_true),
    hskip hq]
  refine .waiting hq (hcount.trans count) ?_ fun hmore => by rw [text] at hmore; cases hmore
  rw [herrors]
  exact Array.forall_mem_push.2 ⟨hlive, log⟩

/-- Otherwise the parser is stopped on the way. -/
theorem statement_stops (hp : p.Waiting first) (count : p.tokenCount = 1) (empty : p.errors = #[])
    (text : first.isEof = false) : Overdue first p.statement.2 ∧ p.statement.2.Stopped := by
  have hc := hp.clear
  have hstop {q : Parser} (h : Parser.Stays (Parser.cancel { p with deferred := #[] }) q) :
      Overdue first q ∧ q.Stopped := hc.stop_first count text empty h
  rcases hc.skipSeparators_cases with ⟨hskip, -⟩ | ⟨hskip, hseparator⟩
  · obtain ⟨e, q, hparse, he, hstays⟩ := hc.cancel.last.parse_cancelled hc.cancel.cancelled
    rw [statement_of_cancelled hskip hparse he (hstop hstays).2.cancelled]
    exact hstop hstays
  · have hexpired := hc.expiring.parse
    cases hparse : Grammar.parse { p with deferred := #[] } with
    | ok s q =>
      rw [hparse] at hexpired
      have hq := hstop hexpired.2
      have hsemicolons : q.skipSemicolons = q := by
        rw [Parser.skipSemicolons, skipWhile_of_expired hq.2.expired, hq.2.last.kind]
        rfl
      rwa [statement_of_ok hskip hparse, hsemicolons]
    | error e q =>
      rw [hparse] at hexpired
      rcases hexpired with ⟨he, hstays⟩ | ⟨he, hspan, hstays⟩
      · rw [statement_of_cancelled hskip hparse he (hstop hstays).2.cancelled]
        exact hstop hstays
      · obtain ⟨hq, herrors, hcount, hsame⟩ := hp.record he hstays
        have hterminator := hq.not_atTerminator (hsame.trans hseparator) text
        rw [statement_of_error hskip hparse, if_neg hq.not_cancelled, hq.synchronize hterminator]
        rw [empty] at herrors
        refine hq.stop (hcount.trans count) text (by rw [herrors]; exact le_refl 1) ?_ (.refl _)
        rw [herrors]
        intro d hd
        rw [Array.mem_singleton.1 hd]
        exact ⟨he, by rw [hspan, hc.current]⟩

end Waiting

namespace Overdue

variable {first : Token}

theorem count (hp : Overdue first p) : p.tokenCount = 1 := by
  cases hp <;> assumption

theorem statement (hp : Overdue first p) :
    Overdue first p.statement.2 ∧ (first.isEof = false → p.statement.2.Stopped) := by
  cases hp with
  | waiting h count log empty =>
    cases htext : first.isEof with
    | true => exact ⟨h.statement_atEnd count log htext, nofun⟩
    | false => exact (h.statement_stops count (empty htext) htext).imp id fun hq _ => hq
  | stopped h count text log =>
    obtain ⟨-, hq, hkeeps⟩ := h.statement
    refine ⟨.stopped hq (hkeeps.tokenCount.trans count) text ?_, fun _ => hq⟩
    rw [hkeeps.errors]
    exact log

/-- The next statement, or none at the end of the text. -/
theorem next? (hp : Overdue first p) :
    Overdue first p.next?.2 ∧ (first.isEof = false → p.next?.2.Stopped) ∧
      (p.next?.1 ≠ none → p.next?.2.Stopped) := by
  cases hp with
  | waiting h count log empty =>
    rcases h.skipSeparators_cases with ⟨hskip, text⟩ | ⟨hskip, -⟩
    · have hstop := h.stop_first count text (empty text) (.refl _)
      have hend : p.skipSeparators.atEnd := by
        rw [hskip]
        exact hstop.2.atEnd
      rw [next?_ended hend, hskip]
      exact ⟨hstop.1, fun _ => hstop.2, fun _ => hstop.2⟩
    · cases htext : first.isEof with
      | true =>
        have hend : p.skipSeparators.atEnd := by rw [hskip, atEnd, h.current, htext]
        rw [next?_ended hend, hskip]
        exact ⟨.waiting h count log empty, (fun hmore => by cases hmore), fun hnone => (hnone rfl).elim⟩
      | false =>
        have hmore : ¬p.skipSeparators.atEnd := by
          rw [hskip, atEnd, h.current, htext]
          exact Bool.false_ne_true
        have hstop := h.statement_stops count (empty htext) htext
        rw [next?_found hmore, hskip]
        exact ⟨hstop.1, fun _ => hstop.2, fun _ => hstop.2⟩
  | stopped h count text log =>
    rw [h.next?]
    exact ⟨.stopped h count text log, fun _ => h, fun _ => h⟩

theorem results (hp : Overdue first p) :
    p.results.1.length ≤ 1 ∧ Overdue first p.results.2 ∧
      (first.isEof = false → p.results.2.Stopped) := by
  have hnext := hp.next?
  rw [Parser.results]
  revert hnext
  generalize p.next? = answer
  obtain ⟨result, q⟩ := answer
  rintro ⟨hq, hstopped, hfound⟩
  cases result with
  | none => exact ⟨Nat.zero_le 1, hq, hstopped⟩
  | some result =>
    have hstop : q.Stopped := hfound (Option.some_ne_none _)
    dsimp only
    rw [hstop.results, ite_self]
    exact ⟨le_refl 1, hq, hstopped⟩

theorem statements (hp : Overdue first p) : Overdue first p.statements.2 := by
  have hnext := hp.next?
  rw [Parser.statements]
  revert hnext
  generalize p.next? = answer
  obtain ⟨result, q⟩ := answer
  rintro ⟨hq, hstopped, hfound⟩
  rcases result with _ | e | s
  · exact hq
  · exact hq
  · have hstop : q.Stopped := hfound (Option.some_ne_none _)
    dsimp only
    rw [hstop.statements]
    split <;> exact hq

theorem continues (hp : Overdue first p) (h : p.Continues q) : Overdue first q := by
  induction h with
  | refl => exact hp
  | run _ op ih =>
    cases op with
    | statement => exact ih.statement.1
    | next => exact ih.next?.1
    | all => exact ih.statements
  | setDialect _ d ih =>
    cases ih with
    | waiting h count log empty =>
      exact .waiting ⟨h.current, h.expired, h.running, h.strict⟩ count log empty
    | stopped h count text log =>
      have hq := (h.continues (.setDialect .refl d)).1
      exact .stopped hq count text log

/-- Cancellation is recorded once. -/
theorem countP_le (hp : Overdue first p) : p.errors.toList.countP ParseError.isCancelled ≤ 1 := by
  cases hp with
  | waiting h count log empty =>
    rw [List.countP_eq_zero.2 fun e he => log e (Array.mem_toList_iff.1 he)]
    exact Nat.zero_le 1
  | stopped h count text log =>
    obtain ⟨before, heq, -, hbefore⟩ := log
    rw [heq, List.countP_append, List.countP_eq_zero.2 fun e he => (hbefore e he).1]
    exact le_refl 1

/-- Only text stops a parser. -/
theorem stopped_of_cancelled (hp : Overdue first p) (hc : p.cancelled) :
    p.Stopped ∧ first.isEof = false ∧ LogsCancelled first.span p.errors := by
  cases hp with
  | waiting h => exact absurd hc h.not_cancelled
  | stopped h _ text log => exact ⟨h, text, log⟩

end Overdue

/-! ## Sessions without time -/

/-- A session begins at the first token of its source. -/
theorem overdue_ofSource (source : String) (d : Dialect) (pools : Pools) :
    Overdue (ofSource source d true pools).current (ofSource source d true pools) := by
  rw [ofSource_eq, countCurrent_eq]
  refine .waiting ⟨rfl, rfl, rfl, rfl⟩ ?_ (fun e he => (Array.not_mem_empty e he).elim) fun _ => rfl
  simp

/-- Time that is over from the start stops a session at its first token. Up to then no token is used up,
cancellation is recorded at most once, and a parser that was stopped never changes again: it stands at the
end of the text and answers with no statement or, asked for one, with an error that says so. A run to the
end gives at most one result. It is stopped exactly where the source has a token; then cancellation is the
last error, and at most one other is before it, at that token. -/
theorem cancelled_once (source : String) (d : Dialect) (pools : Pools) :
    let start := ofSource source d true pools
    (∀ p, start.Continues p →
      p.tokenCount = 1 ∧ p.errors.toList.countP ParseError.isCancelled ≤ 1 ∧
      (p.cancelled → p.atEnd ∧ p.next?.1 = none ∧ p.statements.1 = .ok [] ∧
        (∃ e, p.statement.1 = .error e ∧ e.cause.kind = .cancelled) ∧
        ∀ q, p.Continues q → q.cancelled ∧ q.errors = p.errors ∧ q.tokenCount = p.tokenCount)) ∧
    start.results.1.length ≤ 1 ∧
    ∃ first others, Lexer.tokenize source d = first :: others ∧
      (start.results.2.cancelled ↔ first.kind ≠ .eof) ∧
      (start.results.2.cancelled → ∃ before,
        start.results.2.errors.toList = before ++ [⟨.cancelled, first.span⟩] ∧ before.length ≤ 1 ∧
        ∀ e ∈ before, e.cause.kind ≠ .cancelled ∧ e.span = first.span) := by
  intro start
  have hstart := overdue_ofSource source d pools
  have hfirst : start.current = (Lexer.ofSource source d).next.1 := by
    simp only [start, ofSource_eq, countCurrent_eq]
  have htokens : ∃ others, Lexer.tokenize source d = start.current :: others := by
    rw [Lexer.tokenize, Lexer.tokens_eq, hfirst]
    split
    · exact ⟨[], rfl⟩
    · exact ⟨_, rfl⟩
  obtain ⟨others, htokens⟩ := htokens
  obtain ⟨hlength, hlast, hstops⟩ := hstart.results
  refine ⟨fun p hp => ?_, hlength, start.current, others, htokens, ?_, fun hc => ?_⟩
  · have hp := hstart.continues hp
    refine ⟨hp.count, hp.countP_le, fun hc => ?_⟩
    have hstopped := (hp.stopped_of_cancelled hc).1
    obtain ⟨e, hanswer, he⟩ := hstopped.statement.1
    refine ⟨hstopped.atEnd, by rw [hstopped.next?], by rw [hstopped.statements],
      ⟨e, hanswer, ParseCause.kind_eq_cancelled.2 (beq_iff_eq.1 he)⟩, fun q hq => ?_⟩
    obtain ⟨hq, hkeeps⟩ := hstopped.continues hq
    exact ⟨hq.cancelled, hkeeps.errors, hkeeps.tokenCount⟩
  · constructor
    · intro hc hend
      have htext := (hlast.stopped_of_cancelled hc).2.1
      rw [Token.isEof, hend] at htext
      cases htext
    · exact fun htext => (hstops (beq_eq_false_iff_ne.2 htext)).cancelled
  · obtain ⟨before, heq, hle, hbefore⟩ := (hlast.stopped_of_cancelled hc).2.2
    refine ⟨before, heq, hle, fun e he => ⟨fun hkind => ?_, (hbefore e he).2⟩⟩
    exact (hbefore e he).1 (beq_iff_eq.2 (ParseCause.kind_eq_cancelled.1 hkind))

/-! ## What is read without time -/

/-- The first token is followed by what ends a statement. The word that ends a batch is a name behind
some words. -/
def EndsBehindFirst (p : Parser) : Prop :=
  p.peek.kind = .semicolon ∨ p.peek.kind = .eof ∨
    p.isBatchSeparator p.peek ∧ ∀ word, p.current.kind = .keyword word → word.takesName = false

/-- A statement is read from the first token, and nothing behind that token belongs to it. -/
def ReadsFirst (p : Parser) : Prop := ∃ s q, Grammar.parse p = .ok s q ∧ q.current = p.peek

/-- A statement that is read without time is a word by itself. -/
theorem Waiting.statement_ok {first : Token} (hp : p.Waiting first) {s : Statement}
    (h : p.statement.1 = .ok s) :
    ∃ word : Keyword, first.kind = .keyword word ∧ word.isReserved ∧ bareStatement? word = some s := by
  have hc := hp.clear
  rcases hc.skipSeparators_cases with ⟨hskip, -⟩ | ⟨hskip, -⟩
  · obtain ⟨e, q, hparse, he, hstays⟩ := hc.cancel.last.parse_cancelled hc.cancel.cancelled
    rw [statement_of_error hskip hparse] at h
    cases h
  · have hexpired := hc.expiring.parse
    cases hparse : Grammar.parse { p with deferred := #[] } with
    | ok s' q =>
      rw [statement_of_ok hskip hparse] at h
      rw [hparse] at hexpired
      cases h
      exact hexpired.1
    | error e q =>
      rw [statement_of_error hskip hparse] at h
      cases h

/-- Where a keyword stands, no separator has to be skipped. -/
theorem Ready.statement_of_parse (hp : p.Ready) {word : Keyword} {s : Statement} {q : Parser}
    (hkind : p.current.kind = .keyword word) (hparse : Grammar.parse p = .ok s q) :
    p.statement = (.ok s, q.skipSemicolons) := by
  have hclear : { p with deferred := #[] } = p := by rw [← hp.settled]
  have hseparator : ¬p.atSeparator := by
    intro h
    rw [atSeparator, Bool.and_eq_true, Bool.or_eq_true, beq_iff_eq] at h
    rcases h.2 with hsemicolon | hbatch
    · cases hkind.symm.trans hsemicolon
    · cases hkind.symm.trans (kind_of_isBatchSeparator hbatch)
  have hskip : Parser.skipSeparators { p with deferred := #[] } = p := by
    rw [hclear, Parser.skipSeparators, Parser.skipWhile]
    exact if_neg hseparator
  exact statement_of_ok hskip hparse

/-- A word by itself is read, where there is time and the statement ends behind it. -/
theorem Ready.statement_bare (hp : p.Ready) {word : Keyword} {s : Statement}
    (hkind : p.current.kind = .keyword word) (hword : word.isReserved) (hends : p.EndsBehindFirst)
    (hs : bareStatement? word = some s) : p.statement.1 = .ok s := by
  have hcancelled := hp.not_cancelled (.refl p) hp.sound
  have hparse := parse_bare hcancelled hp.not_expired hkind hword
    (hends.imp_right fun h => h.imp_right fun h => ⟨h.1, h.2 word hkind⟩) hs
  rw [hp.statement_of_parse hkind hparse]

/-- The same where nothing else is read. -/
theorem Ready.statement_first (hp : p.Ready) {word : Keyword} {s : Statement}
    (hkind : p.current.kind = .keyword word) (hword : word.isReserved) (hreads : p.ReadsFirst)
    (hs : bareStatement? word = some s) : p.statement.1 = .ok s := by
  obtain ⟨s', q, hparse, hbehind⟩ := hreads
  have hsame : s' = s := Underway.parse_first ⟨hp.sound, hp.settled, hp.due⟩ hp.live hkind hword hs
    hparse hbehind
  rw [hp.statement_of_parse hkind hparse, hsame]

/-- What is read without time is a reserved word that is a statement by itself, the first token of its
source. It is what is read with time, where the statement ends behind that token or nothing else is read of
it. -/
theorem statement_expired (source : String) (d : Dialect) (pools pools' : Pools) {s : Statement}
    (h : (ofSource source d true pools).statement.1 = .ok s) :
    let live := ofSource source d false pools'
    (∃ word : Keyword, live.current.kind = .keyword word ∧ word.isReserved ∧
        bareStatement? word = some s) ∧
      (live.EndsBehindFirst ∨ live.ReadsFirst → live.statement.1 = .ok s) := by
  intro live
  have hstart : (ofSource source d true pools).Waiting live.current := by
    refine ⟨?_, ?_, ?_, ?_⟩
    all_goals simp only [live, ofSource_eq, countCurrent_eq]
  obtain ⟨word, hkind, hword, hs⟩ := hstart.statement_ok h
  have hlive : live.Ready := ready_ofSource source d pools'
  refine ⟨⟨word, hkind, hword, hs⟩, fun hstop => ?_⟩
  rcases hstop with hends | hreads
  · exact hlive.statement_bare hkind hword hends hs
  · exact hlive.statement_first hkind hword hreads hs

/-- Tells the end of a transaction from other answers. -/
theorem eq_commit {answer : Except ParseError Statement} {work : Bool}
    (h : (match answer with | .ok (.commit w none) => w == work | _ => false) = true) :
    answer = .ok (.commit work none) := by
  split at h
  · rw [eq_of_beq h]
  · cases h

/-- Tells where nothing is read but the first token. -/
theorem readsFirst_of
    (h : EStateM.run' (Grammar.parse >>= fun _ => Production.current) p = some p.peek) :
    p.ReadsFirst := by
  delta EStateM.run' EStateM.run at h
  rw [Production.run_bind] at h
  cases hparse : Grammar.parse p with
  | ok s q =>
    rw [hparse] at h
    exact ⟨s, q, hparse, Option.some.inj h⟩
  | error e q =>
    rw [hparse] at h
    cases h

/-- A transaction ends, and behind the word for that another statement starts. -/
theorem statement_expired_commit :
    (ofSource "COMMIT SELECT 1" .mySql true {}).statement.1 = .ok (.commit false none) ∧
      (ofSource "COMMIT SELECT 1" .mySql false {}).ReadsFirst ∧
      (ofSource "COMMIT SELECT 1" .mySql false {}).statement.1 = .ok (.commit false none) := by
  have hexpired : (ofSource "COMMIT SELECT 1" .mySql true {}).statement.1 = .ok (.commit false none) :=
    eq_commit (by decide +kernel)
  have hreads : (ofSource "COMMIT SELECT 1" .mySql false {}).ReadsFirst :=
    readsFirst_of (by decide +kernel)
  exact ⟨hexpired, hreads, (statement_expired "COMMIT SELECT 1" .mySql {} {} hexpired).2 (.inr hreads)⟩

/-- Without time, a word behind the first one is missing. -/
theorem statement_truncated :
    (ofSource "COMMIT WORK" .mySql true {}).statement.1 = .ok (.commit false none) ∧
      (ofSource "COMMIT WORK" .mySql false {}).statement.1 ≠ .ok (.commit false none) := by
  have hlive : (ofSource "COMMIT WORK" .mySql false {}).statement.1 = .ok (.commit true none) :=
    eq_commit (by decide +kernel)
  refine ⟨eq_commit (by decide +kernel), ?_⟩
  rw [hlive]
  nofun

end SqlFrontend.Parser
