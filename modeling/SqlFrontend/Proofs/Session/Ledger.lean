import SqlFrontend.Proofs.Ledger.Statement
import SqlFrontend.Proofs.Session.WellFormed

/-!
# Ledgers of sessions

A parser that keeps to a ledger goes on to do so, whatever is asked of it and whether or not it meets
errors. What is charged for the statements that it answers with is covered by what happens to the pools.

Results:
* `Ledger.Settles`: what an operation comes to: a way to a parser that keeps to the ledger, and
  statements that are paid for.
* `Keeps.run`, `Keeps.results`: the operations of a session, and a run to the end.
* `Keeps.statement_ok`: for strict ledgers too, a single statement is paid for.
* `Keeps.setDialect`: another ledger goes on behind a change of the dialect.
-/

namespace SqlFrontend.Ledger

open SqlFrontend.Parser

variable {M : Type} [AddCommMonoid M] [PartialOrder M] [IsOrderedAddMonoid M] {L : Ledger M}
variable {p q r : Parser} {ss ts : List Statement}

/-! ## Operations one by one -/

/-- An operation leads from one parser to another, and statements that it answers with are paid for. -/
structure Settles (L : Ledger M) (p : Parser) (ss : List Statement) (q : Parser) : Prop where
  leads : L.Leads p q
  value : ¬L.strict → L.each .statement ss ≤ L.income p.pools q.pools

theorem Leads.settles (h : L.Leads p q) : L.Settles p [] q := ⟨h, h.fair⟩

theorem Settles.append (h : L.Settles p ss q) (h' : L.Settles q ts r) : L.Settles p (ss ++ ts) r := by
  refine ⟨h.leads.trans h'.leads, fun hs => ?_⟩
  rw [each, List.map_append, List.sum_append, ← L.income_add p.pools q.pools r.pools]
  exact add_le_add (h.value hs) (h'.value hs)

theorem Keeps.skipSeparators (hp : L.Keeps p) :
    L.Leads p p.skipSeparators ∧ p.skipSeparators.pools = p.pools := hp.skipWhile _

theorem Keeps.skipSemicolons (hp : L.Keeps p) :
    L.Leads p p.skipSemicolons ∧ p.skipSemicolons.pools = p.pools := hp.skipWhile _

/-- A statement is read behind what separates statements, with nothing deferred. -/
theorem Keeps.beforeStatement (hp : L.Keeps p) :
    L.Leads p { p with deferred := #[] }.skipSeparators ∧
      { p with deferred := #[] }.skipSeparators.pools = p.pools := by
  have hclear : L.Leads p { p with deferred := #[] } :=
    .of_place ⟨hp.dialect, hp.pools, hp.current, hp.peek, hp.errors, Array.forall_mem_empty _⟩ rfl
      (.of_course rfl) (le_refl _)
  exact ⟨hclear.trans hclear.keeps.skipSeparators.1, hclear.keeps.skipSeparators.2⟩

theorem Keeps.statement (hp : L.Keeps p) :
    L.Settles p p.statement.1.toOption.toList p.statement.2 := by
  obtain ⟨hstart, hpools⟩ := hp.beforeStatement
  have hparse := Pays.parse _ hstart.keeps
  rw [Parser.statement]
  revert hstart hpools hparse
  generalize { p with deferred := #[] }.skipSeparators = start
  intro hstart hpools
  generalize Grammar.parse start = answer, Grammar.parse start.halting = other
  intro hparse
  cases hparse with
  | @ok s q _ hleads hvalue _ =>
    obtain ⟨hlast, hsame⟩ := hleads.keeps.skipSemicolons
    refine ⟨(hstart.trans hleads).trans hlast, fun hs => ?_⟩
    rw [hsame, ← hpools]
    simpa [Except.toOption] using hvalue (counts_of_not_strict hs)
  | @error e q _ hleads honest hstopped =>
    have hrecord := (hstart.trans hleads).trans (hleads.keeps.record honest hstopped)
    dsimp only
    split
    · exact hrecord.settles
    · exact (hrecord.trans hrecord.keeps.synchronize).settles

/-- A statement is paid for by a strict ledger as well, since outside of quoted bodies no error is passed.
A tidy one pays for it if nothing is given twice on the way. -/
theorem Keeps.statement_ok (hp : L.Keeps p) (hplain : p.recovering = false) {s : Statement}
    (h : p.statement.1 = .ok s) (honce : L.tidy → ∀ r, p.Meets p.statement.2 r → ¬r.GivesTwice) :
    L.total (.statement s) ≤ L.income p.pools p.statement.2.pools := by
  obtain ⟨hstart, hpools⟩ := hp.beforeStatement
  have hrecovering := hstart.recovering
  have hparse := Pays.parse _ hstart.keeps
  rw [Parser.statement] at h honce ⊢
  revert h honce hstart hpools hrecovering hparse
  generalize { p with deferred := #[] }.skipSeparators = start
  generalize Grammar.parse start = answer, Grammar.parse start.halting = other
  intro h honce hstart hpools hrecovering hparse
  cases hparse with
  | @ok s' q _ hleads hvalue _ =>
    obtain rfl : s' = s := Except.ok.inj h
    obtain ⟨hlast, hsame⟩ := hleads.keeps.skipSemicolons
    have hpaid := hvalue ⟨fun _ hr => ?_, fun ht r hr => ?_⟩
    · rw [zero_add, hpools] at hpaid
      rw [hsame]
      exact hpaid
    · rw [hrecovering, hplain] at hr
      cases hr
    · exact honce ht r ((hr.behind hstart.reaches).before hlast.reaches)
  | error => cases h

theorem Keeps.next? (hp : L.Keeps p) :
    L.Settles p (p.next?.1.bind Except.toOption).toList p.next?.2 := by
  have hstart := hp.skipSeparators.1.settles
  by_cases h : p.skipSeparators.atEnd
  · rw [next?_ended h]
    exact hstart
  · rw [next?_found h]
    exact hstart.append hstart.leads.keeps.statement

/-! ## Several statements -/

theorem Keeps.results (hp : L.Keeps p) :
    L.Settles p (p.results.1.filterMap Except.toOption) p.results.2 := by
  fun_induction Parser.results p with
  | case1 p q hnext =>
    have hfirst := hp.next?
    rw [hnext] at hfirst
    exact hfirst
  | case2 p result q hnext _ others last hothers ih =>
    have hfirst := hp.next?
    rw [hnext] at hfirst
    have hrest := ih hfirst.leads.keeps
    rw [hothers] at hrest
    cases result <;> exact hfirst.append hrest
  | case3 p result q hnext _ =>
    have hfirst := hp.next?
    rw [hnext] at hfirst
    cases result <;> exact hfirst

theorem Keeps.statements (hp : L.Keeps p) :
    L.Settles p (p.statements.1.toOption.getD []) p.statements.2 := by
  fun_induction Parser.statements p with
  | case1 p q hnext =>
    have hfirst := hp.next?
    rw [hnext] at hfirst
    exact hfirst
  | case2 p e q hnext =>
    have hfirst := hp.next?
    rw [hnext] at hfirst
    exact hfirst
  | case3 p s q hnext _ others last hothers ih =>
    have hfirst := hp.next?
    rw [hnext] at hfirst
    have hrest := ih hfirst.leads.keeps
    rw [hothers] at hrest
    cases others with
    | ok ss => exact hfirst.append hrest
    | error e => exact (hfirst.leads.trans hrest.leads).settles
  | case4 p s q hnext _ =>
    have hfirst := hp.next?
    rw [hnext] at hfirst
    exact hfirst

/-! ## Sessions -/

theorem Keeps.run (hp : L.Keeps p) (op : Operation) : L.Settles p (op.answered p) (op.run p) := by
  cases op with
  | statement => exact hp.statement
  | next => exact hp.next?
  | all => exact hp.statements

theorem Keeps.after (hp : L.Keeps p) (ops : List Operation) : L.Leads p (p.after ops) := by
  induction ops generalizing p with
  | nil => exact .refl hp
  | cons op ops ih =>
    have hfirst := (hp.run op).leads
    exact hfirst.trans (ih hfirst.keeps)

/-- Behind a change of the dialect a parser keeps to a ledger of the new dialect that takes any error. -/
theorem Keeps.setDialect (hp : L.Keeps p) {N : Type} [AddCommMonoid N] [PartialOrder N]
    [IsOrderedAddMonoid N] {K : Ledger N} (honest : ∀ cause, K.Honest cause) :
    K.Keeps (p.setDialect K.dialect) :=
  ⟨rfl, hp.pools, hp.current, hp.peek, fun e he => ⟨honest _, (hp.errors e he).2⟩,
    fun e he => ⟨honest _, (hp.deferred e he).2⟩⟩

end SqlFrontend.Ledger
