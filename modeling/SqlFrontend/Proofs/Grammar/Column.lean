import SqlFrontend.Proofs.Grammar.Following
import SqlFrontend.Proofs.Parsing.Success

/-!
# Clauses of a column that follow

Results:
* `Follows.columnProperty?`: a clause about a column is read the same before whatever goes on with no
  clause.
-/

namespace SqlFrontend.Junction

variable {J : Junction} {n : ℕ} {p q p' : Parser} {k : TokenKind}

namespace Follows

/-! ## References -/

theorem columnNames? (hJ : J.Quiet) : J.Follows .any n Grammar.columnNames? := by
  refine bindCheck (hJ.lacks rfl) fun _ => ite (fun _ => ?_) fun _ => ret
  exact Closes.inParens fun _ => .list .name

theorem referentialAction : J.Follows .any n Grammar.referentialAction := by
  refine ofStrict (fun _ => .referentialAction) (bindConsumeKeyword ret (bindConsumeKeyword ret ?_))
  refine bindConsumeKeyword ?_ (bindConsumeKeyword ?_ expected)
  · refine ofStrict (fun _ => ?_) (bindConsumeKeyword ret (expectKeyword.bind fun _ => ret).inside)
    exact .strict (.bindIf .consumeKeyword .ret (.bind .expectKeyword fun _ => .ret))
  · exact expectKeyword.bind fun _ => ret

theorem foreignKey (hJ : J.Quiet) :
    J.FollowsUnless (fun _ p => p.current.kind = .dot) .any n Grammar.foreignKey := by
  refine .bind (E := fun _ _ => False) expectKeyword.anyway (fun _ => ?_) fun _ _ _ _ h _ => h.elim
  refine .bind (objectName hJ) (fun table => Follows.anyway ?_) fun table p key p' hdot heq => ?_
  · have haction {f : ReferentialAction → Production (Production.Step ForeignKey ForeignKey)}
        (hf : ∀ action, J.Follows .any n (f action)) : J.Follows .any n (do
          Production.advance
          Production.advance
          f (← Grammar.referentialAction)) :=
      (advanceAny hJ.behind).bind fun _ => (advanceAny hJ.behind).bind fun _ => referentialAction.bind hf
    refine (columnNames? hJ).bind fun columns => loop fun key => ?_
    refine bindCheckKeywords (hJ.lacks rfl) (hJ.lacks rfl) fun _ => ite (fun _ => haction fun _ => ret) fun _ => ?_
    exact bindCheckKeywords (hJ.lacks rfl) (hJ.lacks rfl) fun _ => ite (fun _ => haction fun _ => ret) fun _ => ret
  · have hcolumns : Grammar.columnNames? p = .ok [] p := by
      rw [Grammar.columnNames?, Production.run_bind, Production.run_check, hdot]
      rfl
    obtain ⟨columns, x, hx, heq⟩ := Production.ok_of_bind heq
    rw [hcolumns] at hx
    cases hx
    rw [Production.run_loop_done (a := ⟨table, [], none, none⟩) (q := p)] at heq
    · cases heq
      exact hdot
    · simp [hdot]

/-! ## Clauses -/

theorem skipClustering (hJ : J.Quiet) : J.Follows .any n Grammar.skipClustering :=
  (consumeKeyword (hJ.lacks rfl)).bind fun _ => ite (fun _ => ret) fun _ => skipKeyword (hJ.lacks rfl)

theorem identity (hJ : J.Quiet) : J.Follows .any n Grammar.identity := by
  refine bindCheck (hJ.lacks rfl) fun _ => ite (fun _ => Closes.inParens fun b => ?_) fun _ => ret
  refine .bind .integer fun seed => .bindIfThen .consume (.map _ .integer) .ret fun increment => ?_
  exact .stay

theorem generated (hJ : J.Quiet) : J.Follows .any n Grammar.generated := by
  refine (consumeKeyword (hJ.lacks rfl)).bind fun always => ?_
  extract_lets last rest
  have hlast (u : Unit) : J.Follows .any n (last u) := ret
  have hrest (u : Unit) : J.Follows .any n (rest u) := by
    refine expectKeyword.bind fun _ => expectKeyword.bind fun _ => ?_
    exact bindCheck (hJ.lacks rfl) fun _ => ite (fun _ => Closes.skipParens.bind hlast) fun _ => hlast ()
  refine ite (fun _ => hrest ()) fun _ => ?_
  exact expectKeyword.bind fun _ => expectKeyword.bind hrest

theorem columnProperty? (hJ : J.Quiet) {column : ColumnDefinition} :
    J.FollowsUnless (fun _ p => p.current.kind = .dot) .inside n (Grammar.columnProperty? .tied column) := by
  refine .bindKind fun k => ?_
  split
  case h_11 =>
    refine .facing (.bind (foreignKey hJ) (fun key => Follows.anyway ret) fun key p column' p' hdot heq => ?_)
    cases heq
    exact hdot
  all_goals refine Follows.anyway (facing ?_)
  · exact advance.bind fun _ => name.bind fun _ => ret
  · exact advance.bind fun _ => expectKeyword.bind fun _ => ret
  · exact advance.bind fun _ => ret
  · exact advance.bind fun _ => expectKeyword.bind fun _ => (skipClustering hJ).bind fun _ => ret
  · exact advance.bind fun _ => (skipKeyword (hJ.lacks rfl)).bind fun _ => ret
  · exact advance.bind fun _ => ret
  · exact advance.bind fun _ => ret
  · exact advance.bind fun _ => (identity hJ).bind fun _ => ret
  · exact advance.bind fun _ => (generated hJ).bind fun _ => ret
  · exact advance.bind fun _ => (expression hJ).bind fun _ => ret
  · exact advance.bind fun _ => (Closes.inParens fun _ => .expression_tied).bind fun _ => ret
  · exact advance.bind fun _ => name.bind fun _ => ret
  · refine bindCheckPeek (hJ.lacks rfl) id fun _ => ite (fun _ => ?_) fun _ => ret
    exact advance.bind fun _ => (advanceAny hJ.behind).bind fun _ => ret
  · exact ret

end Follows

end SqlFrontend.Junction
