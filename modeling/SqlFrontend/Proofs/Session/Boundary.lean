import SqlFrontend.Parsing.Session
import SqlFrontend.Proofs.Grammar.Statement

/-!
# Between statements

A source is read statement by statement. What a statement leaves behind is the place behind it and the
record of its errors, and nothing else.

Results:
* `Parser.Ready`: what holds of a parser between statements, as long as time is not limited.
* `Ready.statement`, `Ready.next?`, `Ready.statements`: each operation answers with an error that it
  logs or without one, and leads back to such a parser.
* `Parser.Runs`: the run of a parser to its end. `Ready.runs_results` says that there is one, and
  that `Parser.results` gives what it yields.
* `Ready.results_ok_atEnd`, `Ready.results_error_atEnd`: a run in which a single statement is read.
* `Parser.after`, `Parser.InSession`: the parsers that operations lead to.
-/

namespace SqlFrontend

/-- The error that an operation answers with. -/
def failure? {α : Type} : Except ParseError α → Option ParseError
  | .error e => some e
  | .ok _ => none

/-- How errors are logged: the answered one behind those before, and others at its place behind it. -/
inductive Logged (before : List ParseError) : Option ParseError → List ParseError → Prop
  | none : Logged before none before
  | some (e : ParseError) (others : List ParseError) (place : ∀ d ∈ others, d.span = e.span) :
      Logged before (some e) (before ++ e :: others)

theorem Logged.eq {before log : List ParseError} (h : Logged before .none log) : log = before := by
  cases h
  rfl

namespace Parser

/-! ## Parsers between statements -/

/-- What holds between statements: the parser is outside of all routines and goes on behind no error
by itself, no error is deferred, and each recorded one was due. -/
structure Ready (p : Parser) : Prop where
  sound : p.Sound
  live : p.expired = false
  plain : p.recovering = false
  outside : p.routineDepth = 0
  settled : p.deferred = #[]
  due : ∀ e ∈ p.errors, e.cause.Due p

/-- What an operation does that answers with an error or without one. -/
structure Answers (p : Parser) (error? : Option ParseError) (p' : Parser) : Prop where
  reaches : p.Reaches p'
  ready : p'.Ready
  logged : Logged p.errors.toList error? p'.errors.toList

theorem ready_ofSource (source : String) (d : Dialect) (pools : Pools) :
    (ofSource source d false pools).Ready := by
  have hsound := sound_ofSource source d false pools
  rw [ofSource_eq, countCurrent_eq] at hsound ⊢
  exact ⟨hsound, rfl, rfl, rfl, rfl, Array.forall_mem_empty _⟩

variable {p q r : Parser} {error? : Option ParseError}

namespace Answers

/-- An operation behind one that answered without an error. -/
theorem behind (h' : Answers q error? r) (h : Answers p none q) : Answers p error? r :=
  ⟨h.reaches.trans h'.reaches, h'.ready, h.logged.eq ▸ h'.logged⟩

/-- An operation before one that answers without an error. -/
theorem before (h : Answers p error? q) (h' : Answers q none r) : Answers p error? r :=
  ⟨h.reaches.trans h'.reaches, h'.ready, h'.logged.eq.symm ▸ h.logged⟩

end Answers

/-- Decides whether a parser stands before what separates statements. -/
def atSeparator (p : Parser) : Bool :=
  !p.cancelled && (p.current.kind == .semicolon || p.atBatchSeparator)

/-- Nothing is skipped where the condition does not hold. -/
theorem skipWhile_of_eq_false {condition : Parser → Bool} (h : condition p = false) :
    p.skipWhile condition = p := by
  rw [Parser.skipWhile, h]
  rfl

theorem skipSeparators_of_not_atSeparator (h : ¬p.atSeparator) : p.skipSeparators = p :=
  skipWhile_of_eq_false (Bool.eq_false_iff.2 h)

namespace Ready

theorem setDialect (hp : p.Ready) (d : Dialect) : (p.setDialect d).Ready :=
  ⟨hp.sound.setDialect d, hp.live, hp.plain, hp.outside, hp.settled,
    fun e he => (hp.due e he).mono id⟩

theorem not_expired (hp : p.Ready) : ¬p.expired := by
  rw [hp.live]
  nofun

theorem not_cancelled (hp : p.Ready) (h : p.Reaches q) (hq : q.Sound) : ¬q.cancelled := by
  intro hc
  have := (hq.stopped hc).1
  rw [h.expired, hp.live] at this
  cases this

/-- A parser between statements is the same as itself. -/
theorem state (hp : p.Ready) : (Likeness.same .equal p.errors).state p p :=
  Likeness.same_self hp.sound rfl hp.due hp.settled

/-- Outside of quoted bodies no error is recorded while a statement is read. -/
theorem errors_eq (hp : p.Ready) (h : p.Reaches q) (hs : Likeness.Same .equal p.errors q q) :
    q.errors = p.errors := by
  rcases hs.kept with hr | he | hkept
  · rw [h.recovering, hp.plain] at hr
    cases hr
  · rw [h.expired, hp.live] at he
    cases he
  · exact hkept

theorem answers (hp : p.Ready) (h : p.Reaches q) (hs : (Likeness.same .equal p.errors).state q q) :
    Answers p none q := by
  refine ⟨h, ⟨hs.1.sound, h.expired.trans hp.live, h.recovering.trans hp.plain,
    h.routineDepth.trans hp.outside, hs.2, hs.1.due⟩, ?_⟩
  rw [hp.errors_eq h hs.1]
  exact .none

theorem advance (hp : p.Ready) : Answers p none p.advance :=
  hp.answers (.advance p) (((Likeness.same .equal p.errors).advance hp.state).resolve_right id)

theorem skipWhile (hp : p.Ready) {condition : Parser → Bool}
    (hc : ∀ x y : Parser, x.AlikeHere Eq .equal y → condition x = condition y) :
    Answers p none (p.skipWhile condition) :=
  hp.answers (.skipWhile p condition)
    ((Likeness.Lockstep.skipWhile (L := .same .equal p.errors) hc hp.state).resolve_right id)

theorem skipSemicolons (hp : p.Ready) : Answers p none p.skipSemicolons :=
  hp.skipWhile fun x y h => by rw [h.current.kind]

theorem skipSeparators (hp : p.Ready) : Answers p none p.skipSeparators :=
  hp.skipWhile fun x y h => by rw [h.cancelled, h.current.kind, h.atBatchSeparator]

theorem synchronize (hp : p.Ready) : Answers p none p.synchronize := by
  have hrest : Answers p none (p.skipWhile fun p => !p.atTerminator) :=
    hp.skipWhile fun x y h => by rw [h.atTerminator]
  exact hrest.before hrest.ready.skipSeparators

theorem not_atEnd_of_atSeparator (h : p.atSeparator) : ¬p.atEnd := by
  intro he
  rw [atEnd, Token.isEof, beq_iff_eq] at he
  have hword (word : String) : p.current.isWord word = false := by
    rw [Token.isWord, he]
    rfl
  rw [atSeparator, atBatchSeparator, isBatchSeparator, he] at h
  cases hd : p.dialect.batchSeparator? <;> simp [hd, hword] at h

theorem passed (hp : p.Ready) : p.skipSeparators.atSeparator = false :=
  hp.sound.skipWhile_stops fun _ => not_atEnd_of_atSeparator

theorem skipSeparators_twice (hp : p.Ready) :
    p.skipSeparators.skipSeparators = p.skipSeparators := by
  exact skipSeparators_of_not_atSeparator (by rw [hp.passed]; nofun)

/-- Behind the separators a statement starts, or the text ends. -/
theorem not_atTerminator (hp : p.Ready) (h : ¬p.skipSeparators.atEnd) :
    ¬p.skipSeparators.atTerminator := by
  have hstart := hp.skipSeparators
  have hlive := hstart.ready.not_cancelled (.refl _) hstart.ready.sound
  have hpassed := hp.passed
  rw [atSeparator, Bool.not_eq_true] at *
  rw [hlive, Bool.not_false, Bool.true_and, Bool.or_eq_false_iff] at hpassed
  rw [atTerminator, hpassed.1, hpassed.2, h]
  rfl

end Ready

/-! ## Statements -/

/-- A failure is recorded with the errors that were deferred on the way. -/
theorem Ready.record (hp : p.Ready) (h : p.Reaches q) {e : ParseError}
    (hf : Likeness.SameFailure .equal p.errors e q e q) : Answers p (some e) (q.record e) := by
  have hlive : ¬e.isCancelled := fun he =>
    hp.not_cancelled h hf.same.sound (hf.due.cancelled (by simpa [ParseError.isCancelled] using he))
  have hlog : (q.errors.push e ++ q.deferred).toList =
      p.errors.toList ++ e :: q.deferred.toList := by
    rw [hp.errors_eq h hf.same]
    simp
  rw [Parser.record, if_neg hlive]
  refine ⟨h.trans (.of_course rfl), ⟨hf.same.sound.congr rfl rfl rfl rfl rfl,
    h.expired.trans hp.live, h.recovering.trans hp.plain, h.routineDepth.trans hp.outside, rfl,
    fun d hmem => ?_⟩, ?_⟩
  · rcases Array.mem_append.1 hmem with hmem | hmem
    · rcases Array.mem_push.1 hmem with hmem | rfl
      · exact (hf.same.due d hmem).mono id
      · exact hf.due.mono id
    · exact (hf.deferred d hmem).1.mono id
  · rw [hlog]
    exact .some e _ fun d hd => (hf.deferred d (Array.mem_toList_iff.1 hd)).2

/-- Reads a statement. Where text is left, some is used up. -/
theorem Ready.statement (hp : p.Ready) :
    Answers p (failure? p.statement.1) p.statement.2 ∧
      (¬p.skipSeparators.atEnd → Beyond p.skipSeparators p.statement.2) := by
  have hclear : { p with deferred := #[] } = p := by rw [← hp.settled]
  have hstart := hp.skipSeparators
  have hq := hstart.ready
  have hterminator := hp.not_atTerminator
  have houtcome := Likeness.parse_outcome hq.state
  rw [Parser.statement, hclear]
  revert houtcome
  generalize p.skipSeparators = q at hstart hq hterminator ⊢
  cases Grammar.parse q with
  | ok s p' =>
    intro houtcome
    cases houtcome with
    | ok hs hl _ hk =>
      have hbehind := hq.answers hl hs
      have hlast := hbehind.ready.skipSemicolons
      exact ⟨(hlast.behind hbehind).behind hstart, fun _ =>
        hk.1.trans_notBefore (hlast.reaches.notBefore hbehind.ready.sound)⟩
    | past h => cases h; contradiction
  | error e p' =>
    intro houtcome
    cases houtcome with
    | error hf hl _ =>
      have hrecord := hq.record hl hf
      have hlive := hrecord.ready.not_cancelled (.refl _) hrecord.ready.sound
      dsimp only
      rw [if_neg hlive]
      exact ⟨(hrecord.before hrecord.ready.synchronize).behind hstart, fun he =>
        hrecord.reaches.beyond_synchronize hq.sound (hterminator he)⟩
    | past h => cases h; contradiction

theorem Ready.statement_ok (hp : p.Ready) (hskip : p.skipSeparators = p) {s : Statement} {p' : Parser}
    (h : Grammar.parse p = .ok s p') : p.statement = (.ok s, p'.skipSemicolons) := by
  have hclear : { p with deferred := #[] } = p := by rw [← hp.settled]
  rw [Parser.statement, hclear, hskip, h]

theorem Ready.statement_error (hp : p.Ready) (hskip : p.skipSeparators = p) {e : ParseError}
    {p' : Parser} (h : Grammar.parse p = .error e p') : p.statement.1 = .error e := by
  have hclear : { p with deferred := #[] } = p := by rw [← hp.settled]
  rw [Parser.statement, hclear, hskip, h]

/-! ## Runs -/

theorem next?_ended (h : p.skipSeparators.atEnd) : p.next? = (none, p.skipSeparators) := by
  rw [Parser.next?]
  exact if_pos h

theorem next?_found (h : ¬p.skipSeparators.atEnd) :
    p.next? = (some p.skipSeparators.statement.1, p.skipSeparators.statement.2) := by
  rw [Parser.next?]
  exact if_neg h

/-- The next statement. It uses up text behind what separates statements. -/
theorem Ready.next? (hp : p.Ready) (h : ¬p.skipSeparators.atEnd) :
    Answers p (failure? p.skipSeparators.statement.1) p.skipSeparators.statement.2 ∧
      Beyond p.skipSeparators p.skipSeparators.statement.2 := by
  have hstart := hp.skipSeparators
  have hstatement := hstart.ready.statement
  rw [hp.skipSeparators_twice] at hstatement
  exact ⟨hstatement.1.behind hstart, hstatement.2 h⟩

theorem Ready.remaining_next? (hp : p.Ready) (h : ¬p.skipSeparators.atEnd) :
    p.skipSeparators.statement.2.remaining < p.remaining :=
  ((hp.skipSeparators.reaches.notBefore hp.sound).trans_beyond (hp.next? h).2).remaining

/-- Statement by statement, since each leaves less text. -/
@[elab_as_elim]
theorem Ready.induction {motive : Parser → Prop} (hp : p.Ready)
    (ended : ∀ p : Parser, p.Ready → p.skipSeparators.atEnd → motive p)
    (found : ∀ p : Parser, p.Ready → ¬p.skipSeparators.atEnd →
      motive p.skipSeparators.statement.2 → motive p) : motive p := by
  induction hn : p.remaining using Nat.strong_induction_on generalizing p with
  | _ n ih =>
    subst hn
    by_cases h : p.skipSeparators.atEnd
    · exact ended p hp h
    · exact found p hp h (ih _ (hp.remaining_next? h) (hp.next? h).1.ready rfl)

theorem results_ended (h : p.skipSeparators.atEnd) : p.results = ([], p.skipSeparators) := by
  rw [results, next?_ended h]

theorem Ready.results_found (hp : p.Ready) (h : ¬p.skipSeparators.atEnd) :
    p.results = (p.skipSeparators.statement.1 :: p.skipSeparators.statement.2.results.1,
      p.skipSeparators.statement.2.results.2) := by
  rw [results, next?_found h]
  exact if_pos (hp.remaining_next? h)

/-- Runs of parsers that are alike behind what separates statements. -/
theorem Ready.results_congr (hp : p.Ready) (hq : q.Ready)
    (h : p.skipSeparators = q.skipSeparators) : p.results = q.results := by
  by_cases hend : p.skipSeparators.atEnd
  · rw [results_ended hend, results_ended (h ▸ hend), h]
  · rw [hp.results_found hend, hq.results_found (h ▸ hend), h]

/-- At the end of the text a run gives nothing. -/
theorem results_of_atEnd (h : p.atEnd) : p.results = ([], p) := by
  have hskip := skipSeparators_of_not_atSeparator (mt Ready.not_atEnd_of_atSeparator (not_not.2 h))
  rw [results_ended (hskip.symm ▸ h), hskip]

/-! ### A single statement -/

/-- Recording an error leaves a parser where it is. -/
theorem record_eq (p : Parser) (e : ParseError) :
    p.record e = { p with errors := (p.record e).errors, deferred := (p.record e).deferred } := by
  rw [Parser.record]
  split <;> rfl

theorem synchronize_of_atEnd (h : p.atEnd) : p.synchronize = p := by
  have hstay : (p.skipWhile fun p => !p.atTerminator) = p :=
    skipWhile_of_eq_false (by simp [atTerminator, h])
  rw [Parser.synchronize, hstay]
  exact skipSeparators_of_not_atSeparator (mt Ready.not_atEnd_of_atSeparator (not_not.2 h))

/-- A statement that takes all of the text is the only one. -/
theorem Ready.results_ok_atEnd (hp : p.Ready) (hmore : ¬p.skipSeparators.atEnd) {s : Statement}
    (h : Grammar.parse p.skipSeparators = .ok s q) (hend : q.atEnd) : p.results = ([.ok s], q) := by
  have hstay : q.skipSemicolons = q := by
    refine skipWhile_of_eq_false ?_
    rw [atEnd, Token.isEof, beq_iff_eq] at hend
    rw [hend]
    rfl
  have hstatement := hp.skipSeparators.ready.statement_ok hp.skipSeparators_twice h
  rw [hp.results_found hmore, hstatement, hstay, results_of_atEnd hend]

/-- An error behind which no text is left is the only one. -/
theorem Ready.results_error_atEnd (hp : p.Ready) (hmore : ¬p.skipSeparators.atEnd) {e : ParseError}
    (h : Grammar.parse p.skipSeparators = .error e q) (hend : q.atEnd) :
    p.results = ([.error e], q.record e) := by
  have hclear : { p.skipSeparators with deferred := #[] } = p.skipSeparators := by
    rw [← hp.skipSeparators.ready.settled]
  have hcurrent : (q.record e).current = q.current := by rw [record_eq]
  have hend' : (q.record e).atEnd := by rwa [atEnd, hcurrent]
  have hstatement : p.skipSeparators.statement = (.error e, q.record e) := by
    rw [Parser.statement, hclear, hp.skipSeparators_twice, h]
    dsimp only
    rw [synchronize_of_atEnd hend', ite_self]
  rw [hp.results_found hmore, hstatement, results_of_atEnd hend']

/-! ### Whole runs -/

/-- A parser is asked for statements until there is none. -/
inductive Runs : Parser → List (Except ParseError Statement) → Parser → Prop
  | ended {p q : Parser} (h : p.next? = (none, q)) : Runs p [] q
  | found {p q r : Parser} {result : Except ParseError Statement}
      {results : List (Except ParseError Statement)} (h : p.next? = (some result, q))
      (others : Runs q results r) : Runs p (result :: results) r

/-- Every run ends, with the results that `results` gives. -/
theorem Ready.runs_results (hp : p.Ready) : p.Runs p.results.1 p.results.2 := by
  refine hp.induction (fun p hp h => ?_) fun p hp h ih => ?_
  · rw [results_ended h]
    exact .ended (next?_ended h)
  · rw [hp.results_found h]
    exact .found (next?_found h) ih

/-- A run passes all tokens. -/
theorem Ready.after_results (hp : p.Ready) :
    p.Reaches p.results.2 ∧ p.results.2.Ready ∧ p.results.2.atEnd := by
  refine hp.induction (fun p hp h => ?_) fun p hp h ih => ?_
  · rw [results_ended h]
    exact ⟨hp.skipSeparators.reaches, hp.skipSeparators.ready, h⟩
  · rw [hp.results_found h]
    exact ⟨(hp.next? h).1.reaches.trans ih.1, ih.2⟩

theorem statements_ended (h : p.skipSeparators.atEnd) :
    p.statements = (.ok [], p.skipSeparators) := by
  rw [statements, next?_ended h]

theorem Ready.statements_found (hp : p.Ready) (h : ¬p.skipSeparators.atEnd) :
    p.statements = match p.skipSeparators.statement with
      | (.error e, q) => (.error e, q)
      | (.ok s, q) => (q.statements.1.map (s :: ·), q.statements.2) := by
  have hless := hp.remaining_next? h
  rw [Parser.statements, next?_found h]
  revert hless
  generalize p.skipSeparators.statement = answer
  obtain ⟨result, q⟩ := answer
  intro hless
  cases result with
  | error e => rfl
  | ok s => exact if_pos hless

/-- Reads statements up to the first error. -/
theorem Ready.statements (hp : p.Ready) :
    Answers p (failure? p.statements.1) p.statements.2 := by
  refine hp.induction (fun p hp h => ?_) fun p hp h ih => ?_
  · rw [statements_ended h]
    exact hp.skipSeparators
  · have hnext := (hp.next? h).1
    rw [hp.statements_found h]
    revert ih hnext
    generalize p.skipSeparators.statement = answer
    obtain ⟨result, q⟩ := answer
    intro ih hnext
    cases result with
    | error e => exact hnext
    | ok s =>
      have hlast := ih.behind hnext
      revert hlast
      dsimp only
      cases q.statements.1 <;> exact id

/-! ## Operations -/

/-- What a parser is asked for: a statement, the next one if there is one, or all the rest. -/
inductive Operation where
  | statement
  | next
  | all
  deriving DecidableEq, Repr

namespace Operation

/-- The parser behind an operation. -/
def run (op : Operation) (p : Parser) : Parser :=
  match op with
  | statement => p.statement.2
  | next => p.next?.2
  | all => p.statements.2

/-- The error that an operation answers with. -/
def failure? (op : Operation) (p : Parser) : Option ParseError :=
  match op with
  | statement => SqlFrontend.failure? p.statement.1
  | next => p.next?.1.bind SqlFrontend.failure?
  | all => SqlFrontend.failure? p.statements.1

end Operation

theorem Ready.run (hp : p.Ready) (op : Operation) : Answers p (op.failure? p) (op.run p) := by
  cases op with
  | statement => exact hp.statement.1
  | all => exact hp.statements
  | next =>
    rw [Operation.failure?, Operation.run]
    by_cases h : p.skipSeparators.atEnd
    · rw [next?_ended h]
      exact hp.skipSeparators
    · rw [next?_found h]
      exact (hp.next? h).1

/-- The parser behind several operations. -/
def after (p : Parser) (ops : List Operation) : Parser := ops.foldl (fun q op => op.run q) p

theorem Ready.after (hp : p.Ready) (ops : List Operation) :
    p.Reaches (p.after ops) ∧ (p.after ops).Ready := by
  induction ops generalizing p with
  | nil => exact ⟨.refl p, hp⟩
  | cons op ops ih =>
    have hfirst := hp.run op
    have hothers := ih hfirst.ready
    exact ⟨hfirst.reaches.trans hothers.1, hothers.2⟩

/-- The parsers of a session without a limit of time, in which the dialect may change. -/
inductive InSession : Parser → Prop
  | start (source : String) (d : Dialect) (pools : Pools) :
      InSession (ofSource source d false pools)
  | run {p : Parser} (h : InSession p) (op : Operation) : InSession (op.run p)
  | setDialect {p : Parser} (h : InSession p) (d : Dialect) : InSession (p.setDialect d)

theorem InSession.ready (h : p.InSession) : p.Ready := by
  induction h with
  | start source d pools => exact ready_ofSource source d pools
  | run _ op ih => exact (ih.run op).ready
  | setDialect _ d ih => exact ih.setDialect d

end Parser

end SqlFrontend
