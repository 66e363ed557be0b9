import SqlFrontend.Proofs.Grammar.Descent
import SqlFrontend.Proofs.Session.Boundary

/-!
# Progress

Each statement uses up at least one token that does not only separate statements, whether it is
understood or not. So a run ends, with no more results than there are such tokens.

Results:
* `Parser.pending`: the tokens that statements are made of, from a parser on.
* `Ready.pending_next?`: the next statement passes some of them.
* `Ready.length_results_le`: a run gives no more results than there are.
-/

namespace SqlFrontend

/-- Decides whether a token only separates statements, or ends the text. -/
def Token.separates (d : Dialect) (t : Token) : Bool :=
  t.kind == .semicolon || t.isEof ||
    match d.batchSeparator? with
    | some word => t.isWord word
    | none => false

namespace Parser

/-- The tokens that are left to be read, without those that separate statements. -/
def pending (p : Parser) : List Token := p.upcoming.filter fun t => !t.separates p.dialect

theorem atTerminator_eq (p : Parser) : p.atTerminator = p.current.separates p.dialect := rfl

variable {p q : Parser}

theorem pending_of_atEnd (h : p.atEnd) : p.pending = [] := by
  have hseparates : p.current.separates p.dialect := by
    rw [← atTerminator_eq, atTerminator, h]
    simp
  rw [pending, upcoming_of_atEnd h, List.filter_cons_of_neg (by simp [hseparates])]
  rfl

/-- The current token is the first of those that are left. -/
theorem Sound.pending_advance (hp : p.Sound) (he : ¬p.expired) :
    p.pending = [p.current].filter (fun t => !t.separates p.dialect) ++ p.advance.pending := by
  by_cases h : p.atEnd
  · have hseparates : p.current.separates p.dialect := by
      rw [← atTerminator_eq, atTerminator, h]
      simp
    rw [pending_of_atEnd h, pending_of_atEnd (hp.atEnd_advance h),
      List.filter_cons_of_neg (by simp [hseparates])]
    rfl
  · have hc : ¬p.cancelled := fun hc => h (hp.stopped hc).2
    rw [pending, pending, upcoming_advance h hc he, advance_dialect, ← List.filter_append]
    rfl

/-- On the way from one parser to another tokens are passed from the first on. -/
theorem Reaches.upcoming (h : p.Reaches q) (hp : p.Sound) (hc : ¬p.cancelled) (he : ¬p.expired)
    (hq : ¬q.atEnd) : ∃ passed, p.upcoming = passed ++ q.upcoming := by
  have hinv := h.invariant_of_live
    (I := fun x => x.Sound ∧ (x.atEnd ∨ ∃ passed, p.upcoming = passed ++ x.upcoming)) hc he
    ⟨hp, .inr ⟨[], rfl⟩⟩ (fun x hxc hxe ⟨hx, hto⟩ => ?_) fun x y hxy ⟨hx, hto⟩ => ?_
  · exact hinv.2.resolve_left hq
  · refine ⟨hx.advance, ?_⟩
    by_cases hend : x.atEnd
    · exact .inl (hx.atEnd_advance hend)
    · obtain ⟨passed, hpassed⟩ := hto.resolve_left hend
      refine .inr ⟨passed ++ [x.current], ?_⟩
      rw [hpassed, upcoming_advance hend hxc hxe, List.append_assoc]
      rfl
  · have hcurrent : x.course.current = y.course.current := by rw [hxy]
    have hsame : x.course.upcoming = y.course.upcoming := by rw [hxy]
    refine ⟨hx.of_course hxy, hto.imp (fun hend => ?_) fun ⟨passed, hpassed⟩ => ⟨passed, ?_⟩⟩
    · exact (congrArg Token.isEof hcurrent).symm.trans hend
    · exact hpassed.trans (congrArg (passed ++ ·) hsame)

theorem Reaches.pending (h : p.Reaches q) (hp : p.Sound) (hc : ¬p.cancelled) (he : ¬p.expired) :
    ∃ passed, p.pending = passed ++ q.pending := by
  by_cases hq : q.atEnd
  · exact ⟨p.pending, by rw [pending_of_atEnd hq, List.append_nil]⟩
  · obtain ⟨passed, hpassed⟩ := h.upcoming hp hc he hq
    refine ⟨passed.filter fun t => !t.separates p.dialect, ?_⟩
    rw [Parser.pending, Parser.pending, hpassed, h.dialect, List.filter_append]

/-- The next statement passes at least its first token. -/
theorem Ready.pending_next? (hp : p.Ready) (h : ¬p.skipSeparators.atEnd) :
    ∃ passed, passed ≠ [] ∧ p.pending = passed ++ p.skipSeparators.statement.2.pending := by
  have hstart := hp.skipSeparators
  have hq := hstart.ready
  have hc := hp.not_cancelled hstart.reaches hq.sound
  have hfirst : p.skipSeparators.current.separates p.skipSeparators.dialect = false := by
    rw [← atTerminator_eq]
    simpa using hp.not_atTerminator h
  have hadvance := hq.sound.pending_advance hq.not_expired
  rw [List.filter_cons_of_pos (by simp [hfirst])] at hadvance
  have hrest := hq.statement.1.reaches.of_less (hp.next? h).2.remaining
  have hlive := (Reaches.advance p.skipSeparators).expired
  obtain ⟨before, hbefore⟩ := hstart.reaches.pending hp.sound
    (hp.not_cancelled (.refl p) hp.sound) hp.not_expired
  obtain ⟨others, hothers⟩ := hrest.pending hq.sound.advance
    (hq.not_cancelled (.advance _) hq.sound.advance) (by rw [hlive]; exact hq.not_expired)
  refine ⟨before ++ p.skipSeparators.current :: others, by simp, ?_⟩
  rw [hbefore, hadvance, hothers]
  simp

/-- A run gives no more results than tokens are left for statements. -/
theorem Ready.length_results_le (hp : p.Ready) : p.results.1.length ≤ p.pending.length := by
  refine hp.induction (fun p hp h => ?_) fun p hp h ih => ?_
  · rw [results_ended h]
    exact Nat.zero_le _
  · obtain ⟨passed, hne, hpassed⟩ := hp.pending_next? h
    have hpos := List.length_pos_iff.2 hne
    rw [hp.results_found h, hpassed, List.length_cons, List.length_append]
    omega

theorem pending_ofSource (source : String) (d : Dialect) (pools : Pools) :
    (ofSource source d false pools).pending =
      (Lexer.tokenize source d).filter fun t => !t.separates d := by
  rw [pending, upcoming_ofSource, dialect_ofSource]

/-- Reading ends on every source. In a session, as long as text is left behind what separates
statements, there is a next statement or an error, and some token of it is passed; a run gives no more
results than there are such tokens, and no error comes from a guard of a recursion.

While a statement is read, tokens are passed and quoted bodies are opened, which are shorter sources.
What a production gives depends on nested readings only from parsers with less before them: a shorter
source, or fewer tokens of it. -/
theorem reading_ends (source : String) (d : Dialect) (pools : Pools) {p : Parser}
    (hp : p.InSession) :
    (¬p.skipSeparators.atEnd → ∃ result passed, p.next?.1 = some result ∧ passed ≠ [] ∧
        p.pending = passed ++ p.next?.2.pending) ∧
      (p.Runs p.results.1 p.results.2 ∧ p.results.1.length ≤ p.pending.length ∧
        ∀ e ∈ p.results.2.errors, ¬e.cause.IsGuard) ∧
      (ofSource source d false pools).results.1.length ≤
        ((Lexer.tokenize source d).filter fun t => !t.separates d).length ∧
      p.skipSeparators.Underway ∧
      ∀ q : Parser, q.Underway →
        q.advance.Underway ∧
        (q.current.kind.isText → (q.nested q.current.literal).Underway ∧
          (q.nested q.current.literal).lexer.source.utf8ByteSize <
            q.lexer.source.utf8ByteSize) ∧
        Grammar.parse q = Grammar.Nested.tied.statement q ∧
        Grammar.Nested.tied.unfolded.AgreesAt q .tied ∧
        ∀ N : Grammar.Nested,
          (∀ r : Parser, r.Underway →
            toLex (r.lexer.source.utf8ByteSize, r.upcoming.length) <
              toLex (q.lexer.source.utf8ByteSize, q.upcoming.length) →
            N.AgreesAt r .tied) →
          N.unfolded.AgreesAt q .tied := by
  have hready := hp.ready
  have hstart := hready.skipSeparators.ready
  have hfresh := (ready_ofSource source d pools).length_results_le
  rw [pending_ofSource] at hfresh
  refine ⟨fun h => ?_, ⟨hready.runs_results, hready.length_results_le, fun e he => ?_⟩, hfresh,
    ⟨hstart.sound, hstart.settled, hstart.due⟩, fun q hq => ⟨hq.advance, fun ht => ?_, rfl, ?_,
      fun N hN => ?_⟩⟩
  · obtain ⟨passed, hne, hpassed⟩ := hready.pending_next? h
    rw [next?_found h]
    exact ⟨_, passed, rfl, hne, hpassed⟩
  · exact (hready.after_results.2.1.due e he).genuine
  · exact ⟨hq.nested _, hq.sound.nested_source_lt ht⟩
  · exact Grammar.Nested.unfolded_agreesAt hq fun r _ _ => ⟨rfl, rfl, rfl, rfl, rfl, rfl⟩
  · exact Grammar.Nested.unfolded_agreesAt hq hN

/-- A number is passed, although no statement starts with one. -/
theorem reading_ends_number :
    let p := (ofSource ";1" .postgreSql false {}).setDialect .sqlServer
    p.InSession ∧ ¬p.skipSeparators.atEnd ∧ ∃ result passed, p.next?.1 = some result ∧
      passed ≠ [] ∧ p.pending = passed ++ p.next?.2.pending := by
  intro p
  have hp : p.InSession := .setDialect (.start _ _ _) _
  have hstart : p.skipSeparators.atEnd = false := by decide +kernel
  rw [← Bool.not_eq_true] at hstart
  exact ⟨hp, hstart, (reading_ends "" .postgreSql {} hp).1 hstart⟩

end Parser

end SqlFrontend
