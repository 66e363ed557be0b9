import SqlFrontend.Proofs.Session.Boundary

/-!
# Sessions side by side

Two parsers between statements that productions treat alike are asked for statements side by side.
They give the same statements and errors that are shown alike, and stay alike, as long as the record
of an error leaves them so.

* `ParseError.Alike`, `AnswerAlike`: errors, and answers, that are shown alike.
* `Likeness.Records`: what a likeness has to say of errors.
* `Likeness.Abreast`: two parsers between statements. `Abreast.results` follows them to the end, and
  `Abreast.after` through any operations.
-/

namespace SqlFrontend

/-! ## Errors -/

/-- Causes that are shown alike. The token of one may have another place. -/
structure ParseCause.Alike (c c' : ParseCause) : Prop where
  kind : c.kind = c'.kind
  message : c.message = c'.message
  expected : c.expected? = c'.expected?
  found : c.found? = c'.found?

theorem ParseCause.Alike.refl (c : ParseCause) : c.Alike c := ⟨rfl, rfl, rfl, rfl⟩

/-- Errors that are shown alike, at places that correspond. -/
structure ParseError.Alike (place : Span → Span → Prop) (e e' : ParseError) : Prop where
  cause : e.cause.Alike e'.cause
  span : place e.span e'.span

theorem ParseError.alike_unexpected {place : Span → Span → Prop} {t t' : Token} (what : String)
    (h : t.Alike place t') : (unexpected what t).Alike place (unexpected what t') := by
  have hdescribe : t.describe = t'.describe := by
    rw [Token.describe, Token.describe, h.kind, h.literal]
  have hmessage (t : Token) : (ParseCause.unexpected what t).message =
      if t.kind = .illegal then t.literal else "expected " ++ what ++ ", got " ++ t.describe := rfl
  have hcause : (ParseCause.unexpected what t).Alike (.unexpected what t') := by
    constructor
    · rw [ParseCause.kind, ParseCause.kind, h.kind]
    · rw [hmessage, hmessage, h.kind, h.literal, hdescribe]
    · rfl
    · rw [ParseCause.found?, ParseCause.found?, hdescribe]
  exact ⟨hcause, h.span⟩

/-- Equal statements, or errors that are shown alike. -/
inductive AnswerAlike {α : Type} (place : Span → Span → Prop) :
    Except ParseError α → Except ParseError α → Prop
  | ok (a : α) : AnswerAlike place (.ok a) (.ok a)
  | error {e e' : ParseError} (h : e.Alike place e') : AnswerAlike place (.error e) (.error e')

/-! ## Parsers side by side -/

namespace Likeness

/-- Errors are shown alike, and parsers that record them stay alike. -/
def Records (L : Likeness) : Prop :=
  ∀ {e e' : ParseError} {p q : Parser}, L.failed e p e' q →
    e.Alike L.place e' ∧ L.state (p.record e) (q.record e')

/-- Parsers between statements that are alike, in texts that correspond as a whole. -/
structure Abreast (L : Likeness) (p q : Parser) : Prop where
  left : p.Ready
  right : q.Ready
  state : L.state p q
  whole : ∀ x, ¬L.limit.past x

namespace Abreast

variable {L : Likeness} {p q : Parser}

theorem skipSeparators (h : L.Abreast p q) : L.Abreast p.skipSeparators q.skipSeparators :=
  ⟨h.left.skipSeparators.ready, h.right.skipSeparators.ready,
    (Lockstep.skipWhile (fun x y h => by rw [h.cancelled, h.current.kind, h.atBatchSeparator])
      h.state).resolve_right (h.whole _), h.whole⟩

theorem atEnd (h : L.Abreast p q) : p.skipSeparators.atEnd = q.skipSeparators.atEnd :=
  (L.alike h.skipSeparators.state).atEnd

/-- Without a limit of time, the record of an error finds no session cancelled. -/
theorem not_cancelled_record (hp : p.Ready) {r : Parser} {e : ParseError} (h : p.Reaches r)
    (hs : (r.record e).Sound) : ¬(r.record e).cancelled := by
  have hexpired : (r.record e).expired = r.expired := by
    rw [Parser.record]
    split <;> rfl
  intro hc
  have hstopped := (hs.stopped hc).1
  rw [hexpired, h.expired, hp.live] at hstopped
  cases hstopped

theorem statement (hL : L.Records) (h : L.Abreast p q) :
    AnswerAlike L.place p.statement.1 q.statement.1 ∧
      L.Abreast p.statement.2 q.statement.2 := by
  have hready := And.intro h.left.statement.1.ready h.right.statement.1.ready
  suffices hs : AnswerAlike L.place p.statement.1 q.statement.1 ∧
      L.state p.statement.2 q.statement.2 from ⟨hs.1, hready.1, hready.2, hs.2, h.whole⟩
  have hp : { p with deferred := #[] } = p := by rw [← h.left.settled]
  have hq : { q with deferred := #[] } = q := by rw [← h.right.settled]
  have hstart := h.skipSeparators
  have houtcome := parse_outcome hstart.state
  rw [Parser.statement, Parser.statement, hp, hq]
  revert houtcome
  generalize Grammar.parse p.skipSeparators = r, Grammar.parse q.skipSeparators = r'
  intro houtcome
  cases houtcome with
  | ok hs _ _ _ =>
    refine ⟨.ok _, ?_⟩
    exact (Lockstep.skipWhile (fun x y h => by rw [h.current.kind]) hs).resolve_right (h.whole _)
  | error hf hl hr =>
    obtain ⟨halike, hrecord⟩ := hL hf
    dsimp only
    rw [if_neg (not_cancelled_record hstart.left hl (L.left hrecord)),
      if_neg (not_cancelled_record hstart.right hr (L.right hrecord))]
    exact ⟨.error halike, (Lockstep.state_synchronize hrecord).resolve_right (h.whole _)⟩
  | past hpassed => cases hpassed <;> exact absurd ‹L.limit.past _› (h.whole _)

/-- Both give alike answers up to the end, and are alike there. -/
theorem results (hL : L.Records) (h : L.Abreast p q) :
    List.Forall₂ (AnswerAlike L.place) p.results.1 q.results.1 ∧
      L.Abreast p.results.2 q.results.2 := by
  have hall : ∀ q, L.Abreast p q → List.Forall₂ (AnswerAlike L.place) p.results.1 q.results.1 ∧
      L.Abreast p.results.2 q.results.2 := by
    refine h.left.induction (fun p hp hend q h => ?_) fun p hp hend ih q h => ?_
    · rw [Parser.results_ended hend, Parser.results_ended (h.atEnd ▸ hend)]
      exact ⟨.nil, h.skipSeparators⟩
    · have hstatement := h.skipSeparators.statement hL
      have hothers := ih _ hstatement.2
      rw [hp.results_found hend, h.right.results_found (h.atEnd ▸ hend)]
      exact ⟨.cons hstatement.1 hothers.1, hothers.2⟩
  exact hall q h

theorem statements (hL : L.Records) (h : L.Abreast p q) :
    L.Abreast p.statements.2 q.statements.2 := by
  have hall : ∀ q, L.Abreast p q → L.Abreast p.statements.2 q.statements.2 := by
    refine h.left.induction (fun p hp hend q h => ?_) fun p hp hend ih q h => ?_
    · rw [Parser.statements_ended hend, Parser.statements_ended (h.atEnd ▸ hend)]
      exact h.skipSeparators
    · have hstatement := h.skipSeparators.statement hL
      rw [hp.statements_found hend, h.right.statements_found (h.atEnd ▸ hend)]
      revert ih hstatement
      generalize p.skipSeparators.statement = answer, q.skipSeparators.statement = answer'
      obtain ⟨result, p'⟩ := answer
      obtain ⟨result', q'⟩ := answer'
      intro ih hstatement
      cases hstatement.1 with
      | error _ => exact hstatement.2
      | ok _ => exact ih q' hstatement.2
  exact hall q h

theorem run (hL : L.Records) (h : L.Abreast p q) (op : Parser.Operation) :
    L.Abreast (op.run p) (op.run q) := by
  cases op with
  | statement => exact (h.statement hL).2
  | all => exact h.statements hL
  | next =>
    rw [Parser.Operation.run, Parser.Operation.run]
    by_cases hend : p.skipSeparators.atEnd
    · rw [Parser.next?_ended hend, Parser.next?_ended (h.atEnd ▸ hend)]
      exact h.skipSeparators
    · rw [Parser.next?_found hend, Parser.next?_found (h.atEnd ▸ hend)]
      exact (h.skipSeparators.statement hL).2

theorem after (hL : L.Records) (h : L.Abreast p q) (ops : List Parser.Operation) :
    L.Abreast (p.after ops) (q.after ops) := by
  induction ops generalizing p q with
  | nil => exact h
  | cons op ops ih => exact ih (h.run hL op)

end Abreast

end Likeness

end SqlFrontend
