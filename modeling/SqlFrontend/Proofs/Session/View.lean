import SqlFrontend.Proofs.Session.Boundary
import SqlFrontend.Proofs.Tree.Pool
import SqlFrontend.Summary.Statement

/-!
# Reading the summary of a view

* `selectedNumber?_eq`, `view?_eq`: what the results of a reading are, from what is shown of them.
* `results_summary_view_endings`: a view with a check option and an option `DATA` is printed with two
  clauses behind its query, and only one of them is read there.
-/

namespace SqlFrontend

namespace Parser

/-- The view that a text defines, if its results are one definition of a view. -/
def view? : List (Except ParseError Statement) → Option CreateView
  | [.ok (.createView v)] => some v
  | _ => none

theorem view?_eq {results : List (Except ParseError Statement)} {v : CreateView}
    (h : view? results = some v) : results = [.ok (.createView v)] := by
  unfold view? at h
  split at h
  · cases h
    rfl
  · cases h

/-- The number that a query selects, if it selects one number from nowhere. -/
def selectedNumber? : Query → Option Int
  | .select ⟨false, none, [.literal (.integer n)], [], [], [], none, [], none, [], none, none, none⟩ =>
    some n
  | _ => none

theorem selectedNumber?_eq {q : Query} {n : Int} (h : selectedNumber? q = some n) :
    q = .select { Select.fresh with columns := [.literal (.integer n)] } := by
  unfold selectedNumber? at h
  split at h
  · cases h
    rfl
  · cases h

/-- The query that a text is, if its results are one query. -/
def query? : List (Except ParseError Statement) → Option Query
  | [.ok (.query q)] => some q
  | _ => none

theorem query?_eq {results : List (Except ParseError Statement)} {q : Query}
    (h : query? results = some q) : results = [.ok (.query q)] := by
  unfold query? at h
  split at h
  · cases h
    rfl
  · cases h

/-- A view with a check option and an option `DATA` is printed with a clause for each behind its query, and
its text is no longer that of a view: the second clause is not read. -/
theorem results_summary_view_endings :
    let source (text : String) := ofSource text .postgreSql false {}
    let text := "CREATE VIEW v WITH (DATA) AS SELECT 1 WITH CHECK OPTION"
    (∀ token ∈ Lexer.tokenize text .postgreSql,
      token.kind ≠ .quotedIdentifier ∧ token.kind ≠ .string) ∧
    ∃ v, (source text).results.1 = [.ok (.createView v)] ∧
      (source v.query.summary).results.1 = [.ok (.query v.query)] ∧
      v.summary = "CREATE VIEW v AS SELECT 1 WITH CHECK OPTION WITH DATA" ∧
      ∃ result ∈ (source v.summary).results.1, failure? result ≠ none := by
  intro source text
  obtain ⟨v, hv⟩ : ∃ v, view? (source text).results.1 = some v :=
    Option.isSome_iff_exists.1 (by decide +kernel)
  have hshown : ((view? (source text).results.1).map fun v =>
      (selectedNumber? v.query, v.summary)) =
      some (some 1, "CREATE VIEW v AS SELECT 1 WITH CHECK OPTION WITH DATA") := by decide +kernel
  rw [hv] at hshown
  simp only [Option.map_some, Option.some.injEq, Prod.mk.injEq] at hshown
  obtain ⟨hquery, hsummary⟩ := hshown
  have hquery := selectedNumber?_eq hquery
  obtain ⟨q, hq⟩ : ∃ q, query? (source "SELECT 1").results.1 = some q :=
    Option.isSome_iff_exists.1 (by decide +kernel)
  have hnumber : ((query? (source "SELECT 1").results.1).bind selectedNumber?) = some 1 := by
    decide +kernel
  rw [hq] at hnumber
  have hq' := selectedNumber?_eq (by simpa using hnumber)
  refine ⟨by decide +kernel, v, view?_eq hv, ?_, hsummary, ?_⟩
  · rw [hquery, ← hq']
    have : q.summary = "SELECT 1" := by rw [hq']; decide +kernel
    rw [this, query?_eq hq]
  · rw [hsummary]
    decide +kernel

end Parser

end SqlFrontend
