import SqlFrontend.Proofs.Session.Boundary

/-!
# The log of errors

The errors of a parser are a log of what its operations answered, in order. The errors behind an
answered one are those of the same quoted body, and stand at its place.

Results:
* `Ready.prefix_after`: operations only add to the log.
* `Ready.errors_results`: what a run adds. The errors among its results are some of it, in order, and
  where it adds nothing all results are statements.
-/

namespace SqlFrontend

namespace Logged

variable {before log : List ParseError} {error? : Option ParseError}

/-- What is added to the log: an answered error with others behind it, or nothing. -/
theorem added (h : Logged before error? log) :
    ∃ added, log = before ++ added ∧ error?.toList.Sublist added ∧ (added = [] ↔ error? = .none) := by
  cases h with
  | none => exact ⟨[], by simp, by simp, by simp⟩
  | some e others hplace => exact ⟨e :: others, rfl, by simp, by simp⟩

end Logged

namespace Parser

variable {p : Parser}

theorem Ready.prefix_after (hp : p.Ready) (ops : List Operation) :
    p.errors.toList <+: (p.after ops).errors.toList := by
  induction ops generalizing p with
  | nil => exact List.prefix_rfl
  | cons op ops ih =>
    have hfirst := hp.run op
    obtain ⟨added, hadded, -⟩ := hfirst.logged.added
    have hone : p.errors.toList <+: (op.run p).errors.toList := ⟨added, hadded.symm⟩
    exact hone.trans (ih hfirst.ready)

/-- What a run adds to the log. -/
theorem Ready.errors_results (hp : p.Ready) :
    ∃ added, p.results.2.errors.toList = p.errors.toList ++ added ∧
      (p.results.1.filterMap failure?).Sublist added ∧
      (added = [] ↔ ∀ result ∈ p.results.1, failure? result = none) := by
  refine hp.induction (fun p hp h => ?_) fun p hp h ih => ?_
  · rw [results_ended h]
    refine ⟨[], ?_, List.Sublist.refl [], by simp⟩
    rw [List.append_nil]
    exact hp.skipSeparators.logged.eq
  · rw [hp.results_found h]
    obtain ⟨first, hfirst, hsome, hnone⟩ := (hp.next? h).1.logged.added
    obtain ⟨others, hothers, hsub, hall⟩ := ih
    refine ⟨first ++ others, ?_, ?_, ?_⟩
    · rw [hothers, hfirst, List.append_assoc]
    · have hcons (result : Except ParseError Statement)
          (results : List (Except ParseError Statement)) :
          (result :: results).filterMap failure? =
            (failure? result).toList ++ results.filterMap failure? := by
        rw [List.filterMap_cons]
        cases failure? result <;> rfl
      rw [hcons]
      exact hsome.append hsub
    · rw [List.append_eq_nil_iff, hnone, hall, List.forall_mem_cons]

/-- The errors of a parser are an exact log: an operation that answers with an error adds it, with
others at its place behind it, and any other operation adds nothing. So the log only grows, its length
is the number of errors, the errors among the results of a run stand in it in order, and a run from
the beginning leaves it empty if and only if every result is a statement. -/
theorem errors_logged (source : String) (d : Dialect) (pools : Pools) (ops : List Operation) :
    let fresh := ofSource source d false pools
    let p := fresh.after ops
    (∀ op : Operation, Logged p.errors.toList (op.failure? p) (op.run p).errors.toList) ∧
      (∀ more, p.errors.toList <+: (p.after more).errors.toList) ∧
      (∀ nanoseconds, (p.metrics nanoseconds).errors = p.errors.toList.length) ∧
      (∃ added, p.results.2.errors.toList = p.errors.toList ++ added ∧
        (p.results.1.filterMap failure?).Sublist added ∧
        (added = [] ↔ ∀ result ∈ p.results.1, failure? result = none)) ∧
      (fresh.results.1.filterMap failure?).Sublist fresh.results.2.errors.toList ∧
      (fresh.results.2.errors = #[] ↔ ∀ result ∈ fresh.results.1, failure? result = none) := by
  intro fresh p
  have hfresh : fresh.Ready := ready_ofSource source d pools
  have hp : p.Ready := (hfresh.after ops).2
  obtain ⟨added, hadded, hsub, hall⟩ := hfresh.errors_results
  have hempty : fresh.errors = #[] := by
    change (ofSource source d false pools).errors = #[]
    rw [ofSource_eq, countCurrent_eq]
  rw [hempty, List.nil_append] at hadded
  refine ⟨fun op => (hp.run op).logged, hp.prefix_after, fun _ => rfl, hp.errors_results, ?_, ?_⟩
  · rw [hadded]
    exact hsub
  · rw [← hall, ← hadded, Array.toList_eq_nil_iff]

end Parser

end SqlFrontend
