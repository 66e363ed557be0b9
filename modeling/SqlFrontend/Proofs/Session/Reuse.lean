import SqlFrontend.Proofs.Grammar.Statement
import SqlFrontend.Proofs.Session.Ownership

/-!
# Nodes that are used again

Whether the nodes of a statement are new or were in use before does not show. What a source gives, and
what it takes from the pools and gives back, is the same on every thread, whatever the thread did before.

Results:
* `Likeness.Same.statement`, `Same.next?`, `Same.results`: parsers that are equal but for their pools give
  the same answers, and are equal but for their pools behind them.
* `Parser.results_reused`: two threads that start with empty pools and do anything with them read any
  source alike.
-/

namespace SqlFrontend

namespace Likeness.Same

variable {how : Pools.Comparison} {errors : Array ParseError} {p q : Parser}

/-! ## Between statements -/

/-- Behind the record of errors, only what is recorded later counts. -/
theorem rebase (h : Same how errors p q) : Same how p.errors p q :=
  ⟨h.sound, h.eq, h.pools, h.due, .inr (.inr rfl)⟩

/-- What depends on no pools goes the same way. -/
theorem skipWhile {condition : Parser → Bool}
    (hc : ∀ (x : Parser) (pools : Pools), condition { x with pools } = condition x)
    (h : Same how errors p q) : Same how errors (p.skipWhile condition) (q.skipWhile condition) := by
  have hcondition {x y : Parser} (hxy : Same how errors x y) : condition y = condition x :=
    hxy.field (hc x)
  have hremaining {x y : Parser} (hxy : Same how errors x y) : y.remaining = x.remaining :=
    hxy.field fun _ => rfl
  fun_induction Parser.skipWhile p condition generalizing q with
  | case1 p hp hless ih =>
    rw [Parser.skipWhile.eq_def q, hcondition h, if_pos hp, hremaining h, hremaining h.advance,
      if_pos hless]
    exact ih h.advance
  | case2 p hp hless =>
    rw [Parser.skipWhile.eq_def q, hcondition h, if_pos hp, hremaining h, hremaining h.advance,
      if_neg hless]
    exact h.advance
  | case3 p hp =>
    rw [Parser.skipWhile.eq_def q, hcondition h, if_neg hp]
    exact h

theorem skipSemicolons (h : Same how errors p q) :
    Same how errors p.skipSemicolons q.skipSemicolons := h.skipWhile fun _ _ => rfl

theorem skipSeparators (h : Same how errors p q) :
    Same how errors p.skipSeparators q.skipSeparators := h.skipWhile fun _ _ => rfl

theorem synchronize (h : Same how errors p q) : Same how errors p.synchronize q.synchronize :=
  skipSeparators (h.skipWhile fun _ _ => rfl)

/-- An error is recorded alike, also where it says that time is over. -/
theorem record {e : ParseError} {p' q' : Parser} (h : SameFailure how errors e p' e q') :
    Same how (p'.record e).errors (p'.record e) (q'.record e) := by
  obtain ⟨hsame, -, hdue, hdeferred⟩ := h
  by_cases hc : e.isCancelled
  · rw [Parser.record, Parser.record, if_pos hc, if_pos hc]
    exact hsame.rebase
  · rw [Parser.record, Parser.record, if_neg hc, if_neg hc]
    refine ⟨hsame.sound.congr rfl rfl rfl rfl rfl, ?_, hsame.pools, fun d hmem => ?_,
      .inr (.inr rfl)⟩
    · rw [hsame.eq]
    · rcases Array.mem_append.1 hmem with hmem | hmem
      · rcases Array.mem_push.1 hmem with hmem | rfl
        · exact (hsame.due d hmem).mono id
        · exact hdue.mono id
      · exact (hdeferred d hmem).1.mono id

/-! ## Statements -/

theorem statement (h : Same how errors p q) : p.statement.1 = q.statement.1 ∧
    Same how p.statement.2.errors p.statement.2 q.statement.2 := by
  have hstart : (same how errors).state { p with deferred := #[] } { q with deferred := #[] } :=
    ⟨h.withDeferred #[], rfl⟩
  have hsettled : (same how errors).state ({ p with deferred := #[] } : Parser).skipSeparators
      ({ q with deferred := #[] } : Parser).skipSeparators :=
    (Lockstep.skipWhile (fun _ _ h => by rw [h.cancelled, h.current.kind, h.atBatchSeparator])
      hstart).resolve_right id
  have houtcome := parse_outcome hsettled
  rw [Parser.statement, Parser.statement]
  revert houtcome
  generalize Grammar.parse ({ p with deferred := #[] } : Parser).skipSeparators = r,
    Grammar.parse ({ q with deferred := #[] } : Parser).skipSeparators = r'
  intro houtcome
  cases houtcome with
  | ok hstate _ _ _ => exact ⟨rfl, hstate.1.skipSemicolons.rebase⟩
  | @error e e' p' q' hfailed _ _ =>
    obtain rfl : e = e' := hfailed.error
    have hrecord := record hfailed
    have hcancelled : (q'.record e).cancelled = (p'.record e).cancelled := hrecord.field fun _ => rfl
    dsimp only
    rw [hcancelled]
    split
    · exact ⟨rfl, hrecord⟩
    · exact ⟨rfl, hrecord.synchronize.rebase⟩
  | past h => cases h <;> contradiction

theorem next? {answer : Option (Except ParseError Statement)} {p' : Parser} (h : Same how errors p q)
    (hp : p.next? = (answer, p')) : ∃ q', q.next? = (answer, q') ∧ Same how p'.errors p' q' := by
  have hstart := h.skipSeparators
  have hend : q.skipSeparators.atEnd = p.skipSeparators.atEnd := hstart.field fun _ => rfl
  rw [Parser.next?] at hp ⊢
  dsimp only at hp ⊢
  rw [hend]
  by_cases hatEnd : p.skipSeparators.atEnd
  · rw [if_pos hatEnd] at hp ⊢
    cases hp
    exact ⟨_, rfl, hstart.rebase⟩
  · rw [if_neg hatEnd] at hp ⊢
    cases hp
    obtain ⟨hanswer, hsame⟩ := hstart.statement
    exact ⟨_, by rw [hanswer], hsame⟩

/-- A run gives the same to its end. -/
theorem results (h : Same how errors p q) : p.results.1 = q.results.1 ∧
    Same how p.results.2.errors p.results.2 q.results.2 := by
  have hremaining {errors : Array ParseError} {x y : Parser} (hxy : Same how errors x y) :
      y.remaining = x.remaining := hxy.field fun _ => rfl
  fun_induction Parser.results p generalizing q errors with
  | case1 p p' hnext =>
    obtain ⟨q', hq, hsame⟩ := h.next? hnext
    rw [Parser.results.eq_def q, hq]
    exact ⟨rfl, hsame⟩
  | case2 p result p' hnext hless others last hothers ih =>
    obtain ⟨q', hq, hsame⟩ := h.next? hnext
    obtain ⟨hsameOthers, hsameLast⟩ := hothers ▸ ih hsame
    rw [Parser.results.eq_def q, hq]
    dsimp only
    rw [hremaining h, hremaining hsame, if_pos hless]
    exact ⟨congrArg (result :: ·) hsameOthers, hsameLast⟩
  | case3 p result p' hnext hless =>
    obtain ⟨q', hq, hsame⟩ := h.next? hnext
    rw [Parser.results.eq_def q, hq]
    dsimp only
    rw [hremaining h, hremaining hsame, if_neg hless]
    exact ⟨rfl, hsame⟩

end Likeness.Same

/-! ## Sources -/

/-- Where the pools at the beginning hold only new nodes, a source is read alike, and takes and gives
back alike. -/
theorem Likeness.same_ofSource (source : String) (d : Dialect) (expired : Bool) {P Q : Pools}
    (hP : P.IsFresh) (hQ : Q.IsFresh) :
    Same (.since P Q) #[] (.ofSource source d expired P) (.ofSource source d expired Q) := by
  have hstart (pools : Pools) : (Parser.ofSource source d expired pools).pools = pools := by
    rw [Parser.ofSource_eq, Parser.countCurrent_eq]
  have herrors : (Parser.ofSource source d expired P).errors = #[] := by
    rw [Parser.ofSource_eq, Parser.countCurrent_eq]
  refine ⟨Parser.sound_ofSource source d expired P, ?_, ?_, ?_, .inr (.inr herrors)⟩
  · rw [hstart, Parser.ofSource_eq, Parser.ofSource_eq, Parser.countCurrent_eq, Parser.countCurrent_eq]
    rfl
  · rw [hstart, hstart]
    exact ⟨⟨hP, hQ⟩, fun kind => by rw [P.turnover_self, Q.turnover_self]⟩
  · rw [herrors]
    exact Array.forall_mem_empty _

/-- What two threads did before does not show. Whatever they read, kept, gave back, dropped, took and gave
back, from empty pools on: then they read any source with the same results, the same errors and the same
count of tokens, and the counters of each of their pools change by the same amounts. -/
theorem Parser.results_reused (actions actions' : List PoolAction) (source : String) (d : Dialect)
    (expired : Bool) :
    let P := (Held.after {} actions).pools
    let Q := (Held.after {} actions').pools
    let run := (ofSource source d expired P).results
    let run' := (ofSource source d expired Q).results
    run.1 = run'.1 ∧ run.2.errors = run'.2.errors ∧ run.2.tokenCount = run'.2.tokenCount ∧
      ∀ kind, P.turnover run.2.pools kind = Q.turnover run'.2.pools kind := by
  intro P Q run run'
  have hP : P.IsFresh := (Held.owned_empty.after actions).fresh
  have hQ : Q.IsFresh := (Held.owned_empty.after actions').fresh
  obtain ⟨hresults, hlast⟩ := (Likeness.same_ofSource source d expired hP hQ).results
  exact ⟨hresults, (hlast.field fun _ => rfl).symm, (hlast.field fun _ => rfl).symm, hlast.pools.2⟩

end SqlFrontend
