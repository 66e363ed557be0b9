import SqlFrontend.Proofs.Session.Boundary
import SqlFrontend.Proofs.Shape.Statement

/-!
# Statements of a session are well formed

Whatever was read before, with errors or without, a parser whose pools hold only new nodes answers with
statements that are well formed at every depth.

Results:
* `Parser.Delivers`: what an operation comes to: the statements it answers with are well formed, and
  where it answers without an error, it passed its tokens.
* `Clean.statement`, `Clean.results`, `Clean.statements`: the operations of a session, one by one.
* `Operation.answered`: the statements that an operation answers with.
* `Parser.answered_wellFormed`: they are well formed, and so are those of a run to the end.
-/

namespace SqlFrontend.Parser

/-! ## Operations one by one -/

/-- An operation leads from one parser to another and answers with statements, perhaps behind an
error. -/
structure Delivers (p : Parser) (error? : Option ParseError) (ss : List Statement) (q : Parser) :
    Prop where
  clean : q.Clean
  wellFormed : ∀ s ∈ ss, s.WellFormed
  passes : error? = none → p.Passes q

variable {p q r : Parser} {error? : Option ParseError} {ss ts : List Statement}

theorem Delivers.append (h : Delivers p none ss q) (h' : Delivers q error? ts r) :
    Delivers p error? (ss ++ ts) r :=
  ⟨h'.clean, List.forall_mem_append.2 ⟨h.wellFormed, h'.wellFormed⟩,
    fun he => (h.passes rfl).trans (h'.passes he)⟩

theorem Passes.delivers (h : p.Passes q) : Delivers p none [] q := ⟨h.clean, nofun, fun _ => h⟩

theorem Clean.statement (hp : p.Clean) :
    Delivers p (failure? p.statement.1) p.statement.1.toOption.toList p.statement.2 := by
  have hclear : p.Passes { p with deferred := #[] } :=
    .update hp hp.pools rfl rfl rfl rfl rfl rfl
  have hstart := hclear.trans (.skipSeparators hclear.clean)
  have hparse := Production.Yields.parse (P := fun _ => True) _ hstart.clean trivial
  rw [Parser.statement]
  revert hparse
  generalize Grammar.parse { p with deferred := #[] }.skipSeparators = answer
  intro hparse
  cases hparse with
  | ok hpasses hvalue =>
    have hlast := (hstart.trans hpasses).trans (.skipSemicolons hpasses.clean)
    exact ⟨hlast.clean, List.forall_mem_singleton.2 hvalue, fun _ => hlast⟩
  | @error e _ hclean _ =>
    have hrecord := (hclean.record e).1
    refine ⟨?_, List.forall_mem_nil _, fun hnone => by cases hnone⟩
    dsimp only
    split
    · exact hrecord
    · exact hrecord.synchronize.1

theorem Clean.next? (hp : p.Clean) :
    Delivers p (p.next?.1.bind failure?) (p.next?.1.bind Except.toOption).toList p.next?.2 := by
  have hstart := (Passes.skipSeparators hp).delivers
  by_cases h : p.skipSeparators.atEnd
  · rw [next?_ended h]
    exact hstart
  · rw [next?_found h]
    exact hstart.append hstart.clean.statement

/-! ## Several statements -/

theorem Clean.results (hp : p.Clean) :
    Delivers p (p.results.1.filterMap failure?).head? (p.results.1.filterMap Except.toOption)
      p.results.2 := by
  fun_induction Parser.results p with
  | case1 p q hnext =>
    have hfirst := hp.next?
    rw [hnext] at hfirst
    exact hfirst
  | case2 p result q hnext _ others last hothers ih =>
    have hfirst := hp.next?
    rw [hnext] at hfirst
    have hrest := ih hfirst.clean
    rw [hothers] at hrest
    cases result with
    | ok s => exact hfirst.append hrest
    | error e => exact ⟨hrest.clean, hrest.wellFormed, nofun⟩
  | case3 p result q hnext _ =>
    have hfirst := hp.next?
    rw [hnext] at hfirst
    cases result <;> exact hfirst

theorem Clean.statements (hp : p.Clean) :
    Delivers p (failure? p.statements.1) (p.statements.1.toOption.getD []) p.statements.2 := by
  fun_induction Parser.statements p with
  | case1 p q hnext =>
    have hfirst := hp.next?
    rw [hnext] at hfirst
    exact hfirst
  | case2 p e q hnext =>
    have hfirst := hp.next?
    rw [hnext] at hfirst
    exact hfirst
  | case3 p s q hnext _ others last hothers ih =>
    have hfirst := hp.next?
    rw [hnext] at hfirst
    have hrest := ih hfirst.clean
    rw [hothers] at hrest
    cases others with
    | ok ss => exact hfirst.append hrest
    | error e => exact ⟨hrest.clean, nofun, nofun⟩
  | case4 p s q hnext _ =>
    have hfirst := hp.next?
    rw [hnext] at hfirst
    exact hfirst

/-! ## Sessions -/

/-- The statements that an operation answers with. -/
def Operation.answered (op : Operation) (p : Parser) : List Statement :=
  match op with
  | statement => p.statement.1.toOption.toList
  | next => (p.next?.1.bind Except.toOption).toList
  | all => p.statements.1.toOption.getD []

theorem Clean.run (hp : p.Clean) (op : Operation) :
    Delivers p (op.failure? p) (op.answered p) (op.run p) := by
  cases op with
  | statement => exact hp.statement
  | next => exact hp.next?
  | all => exact hp.statements

theorem Clean.after (hp : p.Clean) (ops : List Operation) : (p.after ops).Clean := by
  induction ops generalizing p with
  | nil => exact hp
  | cons op ops ih => exact ih (hp.run op).clean

/-- Every statement that is answered is well formed at every depth, at any point of a session and under
any limit of time, and so is every statement of a run to the end. The pools have to hold only new
nodes, as pools do that begin empty: what is given back to them is emptied. -/
theorem answered_wellFormed (source : String) (d : Dialect) (expired : Bool) {pools : Pools}
    (hpools : pools.IsFresh) (ops : List Operation) :
    let p := (ofSource source d expired pools).after ops
    (∀ op : Operation, ∀ s ∈ op.answered p, s.WellFormed) ∧
      ∀ s, .ok s ∈ p.results.1 → s.WellFormed := by
  intro p
  have hp : p.Clean := (clean_ofSource source d expired hpools).after ops
  refine ⟨fun op => (hp.run op).wellFormed, fun s hs => hp.results.wellFormed s ?_⟩
  exact List.mem_filterMap.2 ⟨.ok s, hs, rfl⟩

/-- Behind an error, a statement is answered. -/
theorem answered_wellFormed_second :
    let p := (ofSource "SELECT; SELECT a FROM (SELECT b FROM c) d" .mySql false {}).after [.next]
    Pools.IsFresh {} ∧ (p.results.1.filterMap Except.toOption).length = 1 ∧
      (∀ op : Operation, ∀ s ∈ op.answered p, s.WellFormed) ∧
      ∀ s, .ok s ∈ p.results.1 → s.WellFormed :=
  ⟨Pools.isFresh_empty, by decide +kernel,
    answered_wellFormed "SELECT; SELECT a FROM (SELECT b FROM c) d" .mySql false
      Pools.isFresh_empty [.next]⟩

end SqlFrontend.Parser
