import SqlFrontend.Proofs.Session.ErrorLog
import SqlFrontend.Proofs.Session.WellFormed

/-!
# What is accepted without an error

Where a run to the end records no error, it passed all tokens of the source. An illegal token is passed
only in a text in parentheses that is skipped: the columns of a table that a function returns or that is
declared, the details of a generated column, the types of the parameters of a routine that is dropped.

Results:
* `Clean.accepted_results`: the tokens that a run passes where all its results are statements.
* `Parser.accepted_of_results`: so are all tokens of its source.
* `Parser.skipped_of_illegal`: an illegal token of a source that is read without an error is skipped.
-/

namespace SqlFrontend

/-! ## Illegal tokens among accepted ones -/

theorem Enclosed.closed {depth : ℕ} {ts : List Token} (h : Enclosed depth ts) :
    ∃ c ∈ ts, c.kind = .rightParen := by
  induction h with
  | last ht => exact ⟨_, List.mem_singleton_self _, ht⟩
  | opening _ _ ih | closing _ _ ih | other _ _ _ _ ih =>
    obtain ⟨c, hc, hkind⟩ := ih
    exact ⟨c, List.mem_cons_of_mem _ hc, hkind⟩

/-- Behind each enclosed token a parenthesis is closed, unless the token closes the last one. -/
theorem Enclosed.behind {depth : ℕ} {before behind : List Token} {t : Token}
    (h : Enclosed depth (before ++ t :: behind)) (ht : t.kind ≠ .rightParen) :
    ∃ c ∈ behind, c.kind = .rightParen := by
  generalize hts : before ++ t :: behind = ts at h
  induction h generalizing before with
  | last hlast =>
    cases before with
    | nil =>
      cases hts
      exact absurd hlast ht
    | cons u before => simp at hts
  | opening _ hrest ih | closing _ hrest ih | other _ _ _ hrest ih =>
    cases before with
    | nil =>
      cases hts
      exact hrest.closed
    | cons u before => exact ih (List.cons.inj hts).2

/-- Behind a token that is skipped a parenthesis is closed, unless the token closes the last one. -/
theorem Skipped.closed {before behind : List Token} {t : Token} (h : Skipped before t behind)
    (ht : t.kind ≠ .rightParen) : ∃ c ∈ behind, c.kind = .rightParen := by
  obtain ⟨_, _, inner', rest, -, rfl, -, hinner⟩ := h
  obtain ⟨c, hc, hclosed⟩ := hinner.behind ht
  exact ⟨c, List.mem_append_left _ hc, hclosed⟩

theorem Accepted.skipped {ts before behind : List Token} {t : Token} (h : Accepted ts)
    (heq : ts = before ++ t :: behind) (ht : t.kind = .illegal) : Skipped before t behind := by
  refine (h before t behind heq).resolve_left fun hproper => ?_
  rw [ht] at hproper
  cases hproper

namespace Parser

variable {p : Parser}

/-- What is left behind the tokens that are accepted is the end of the text. -/
theorem Clean.accepted_results (hp : p.Clean) (hs : p.Steady) (hready : p.Ready)
    (h : ∀ result ∈ p.results.1, failure? result = none) :
    ∃ passed, Accepted passed ∧ p.upcoming = passed ++ [p.results.2.current] := by
  have hnone : (p.results.1.filterMap failure?).head? = none := by
    rw [List.head?_eq_none_iff, List.filterMap_eq_nil_iff]
    exact h
  obtain ⟨hsteady, passed, haccepted, heq⟩ := (hp.results.passes hnone).tokens hs
  refine ⟨passed, haccepted, ?_⟩
  rw [heq, upcoming_of_atEnd hready.after_results.2.2]

/-- Where all results are statements, all tokens before the end of the text are accepted. -/
theorem accepted_of_results (source : String) (d : Dialect) {pools : Pools} (hpools : pools.IsFresh)
    (h : ∀ result ∈ (ofSource source d false pools).results.1, failure? result = none) :
    ∃ passed finish, Lexer.tokenize source d = passed ++ [finish] ∧ finish.kind = .eof ∧
      Accepted passed := by
  have hready := ready_ofSource source d pools
  have hsteady : (ofSource source d false pools).Steady := by
    rw [ofSource_eq, countCurrent_eq]
    exact ⟨rfl, rfl, rfl⟩
  obtain ⟨passed, haccepted, heq⟩ :=
    (clean_ofSource source d false hpools).accepted_results hsteady hready h
  rw [upcoming_ofSource] at heq
  exact ⟨passed, _, heq, eq_of_beq hready.after_results.2.2, haccepted⟩

/-- No illegal token is accepted silently but for those in texts that are skipped. Where a run to the end
records no error, each illegal token of the source stands in parentheses behind `RETURNS TABLE`, behind
`GENERATED` and `AS IDENTITY`, behind `DECLARE`, names and `TABLE`, or behind `DROP` and names. -/
theorem skipped_of_illegal (source : String) (d : Dialect) {pools : Pools} (hpools : pools.IsFresh)
    (h : (ofSource source d false pools).results.2.errors = #[]) :
    ∀ before t behind, Lexer.tokenize source d = before ++ t :: behind → t.kind = .illegal →
      Skipped before t behind := by
  intro before t behind htokens ht
  obtain ⟨added, hadded, -, hall⟩ := (ready_ofSource source d pools).errors_results
  have hempty : added = [] := by
    rw [h] at hadded
    exact (List.append_eq_nil_iff.1 hadded.symm).2
  obtain ⟨passed, finish, hpassed, hfinish, haccepted⟩ :=
    accepted_of_results source d hpools (hall.1 hempty)
  -- the last token is the end of the text, so the illegal one stands before it
  rcases List.eq_nil_or_concat behind with rfl | ⟨behind, u, rfl⟩
  · obtain ⟨-, hlast⟩ := List.append_inj' (htokens.symm.trans hpassed) rfl
    obtain rfl := List.singleton_inj.1 hlast
    rw [ht] at hfinish
    cases hfinish
  · rw [hpassed, List.concat_eq_append, ← List.cons_append, ← List.append_assoc] at htokens
    obtain ⟨heq, -⟩ := List.append_inj' htokens rfl
    rw [List.concat_eq_append]
    exact (haccepted.skipped heq ht).behind [u]

/-- The types of the parameters of each function that is dropped are skipped, legal or not. -/
theorem skipped_of_illegal_drop :
    let p := ofSource "DROP FUNCTION f(~), g(int, ~)" .postgreSql false {}
    Pools.IsFresh {} ∧ p.results.2.errors = #[] ∧
      ∀ before t behind, Lexer.tokenize "DROP FUNCTION f(~), g(int, ~)" .postgreSql =
        before ++ t :: behind → t.kind = .illegal → Skipped before t behind := by
  intro p
  have hnone : p.results.2.errors = #[] := Array.eq_empty_of_size_eq_zero (by decide +kernel)
  exact ⟨Pools.isFresh_empty, hnone,
    skipped_of_illegal "DROP FUNCTION f(~), g(int, ~)" .postgreSql Pools.isFresh_empty hnone⟩

/-- A source with an illegal token that is read without an error. -/
theorem illegal_skipped :
    (∃ t ∈ Lexer.tokenize "DROP FUNCTION f(~)" .postgreSql, t.kind = .illegal) ∧
      (ofSource "DROP FUNCTION f(~)" .postgreSql false {}).results.2.errors = #[] :=
  ⟨by decide +kernel, Array.eq_empty_of_size_eq_zero (by decide +kernel)⟩

end Parser

end SqlFrontend
