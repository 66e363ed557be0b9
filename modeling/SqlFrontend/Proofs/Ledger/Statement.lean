import SqlFrontend.Grammar.Statement
import SqlFrontend.Proofs.Ledger.Routine
import SqlFrontend.Proofs.Ledger.Table

/-!
# What statements are charged for

* `Pays.statement`: any statement, for readings of nested constructs that pay for what they make.
* `Ledger.paying_below`: the readings of nested constructs do. The induction is on the text that is
  left.
* `Pays.parse`: what is charged for a statement, with all that is nested in it, is covered by what
  happened to the pools.
-/

namespace SqlFrontend.Ledger

variable {M : Type} [AddCommMonoid M] [PartialOrder M] [IsOrderedAddMonoid M] {L : Ledger M}

/-- A statement that is made of one component is worth no more than the component. -/
theorem total_ofComponent {s : Statement} {c : Component} (h : Component.ofStatement s = [c]) :
    L.total (.statement s) ≤ 0 + L.total c := total_statement_le (by simp [h])

namespace Pays

variable {N : Grammar.Nested}

/-! ## Definitions -/

theorem orReplace : L.Quiet Grammar.orReplace := by
  refine .bind .checkKeywords fun _ => .bind .checkKeywords fun _ => .ite (fun _ => ?_) fun _ => .stay
  exact .bind .advance fun _ => .bind .advance fun _ => .stay

theorem clustering : L.Quiet Grammar.clustering :=
  .bindIf .consumeKeyword .stay (.bindIf .consumeKeyword .stay .stay)

theorem create (h : L.Paying N) : L.Pays 0 (Grammar.create N) fun s => L.total (.statement s) := by
  refine .bind .expectKeyword fun _ => .bind orReplace fun orReplace => ?_
  refine .bind .consumeAny fun temporary => .bind .consumeKeyword fun unique => ?_
  refine .bind clustering fun clustered => .bind .kind fun k => ?_
  have hplain : false = true → L.dialect.supports .materializedView = true := nofun
  split
  · exact (createTable h).map fun _ => total_ofComponent rfl
  · exact (createIndex h).map fun _ => total_ofComponent rfl
  · exact (createView h hplain).map fun _ => total_ofComponent rfl
  · refine .bind .span fun place => .know .require fun _ hview => .bind .advance fun _ => ?_
    exact (createView h fun _ => hview).map fun _ => total_ofComponent rfl
  · exact createProcedure h
  · exact createFunction h
  · exact (createTrigger h).map fun _ => total_ofComponent rfl
  · exact .bindIf .checkWord (createProcedure h) .expected

/-! ## Begin -/

theorem transactionFollows : L.Quiet Grammar.transactionFollows := by
  refine .bind .peekKind fun k => ?_
  split
  all_goals first | exact .stay | skip
  exact .bindGet (fun _ => rfl) fun _ => .bindGet (fun _ => rfl) fun _ => .stay

theorem begin (h : L.Paying N) : L.Pays 0 (Grammar.begin N) fun s => L.total (.statement s) := by
  have htransaction : L.Pays 0 (Statement.beginTransaction <$> Grammar.beginTransaction)
      fun s => L.total (.statement s) := .mapBare beginTransaction fun _ => rfl
  refine .bindIf .peekKeyword (tryCatch h) (.bindIf transactionFollows htransaction ?_)
  refine .bindGet (fun _ => rfl) fun p => .know .dialect fun d _ => ?_
  refine .ite (fun _ => ?_) fun _ => htransaction
  exact (block h).map fun _ => total_ofComponent rfl

/-! ## Dispatch -/

theorem keywordStatement (h : L.Paying N) {word : Keyword} :
    L.Pays 0 (Grammar.keywordStatement N word) fun s => L.total (.statement s) := by
  unfold Grammar.keywordStatement
  split
  case h_1 => exact (selections h).map fun _ => total_ofComponent rfl
  case h_2 => exact (withTables h).map fun _ => total_ofComponent rfl
  case h_3 => exact (insert h).map fun _ => total_ofComponent rfl
  case h_4 => exact (update h).map fun _ => total_ofComponent rfl
  case h_5 => exact (delete h).map fun _ => total_ofComponent rfl
  case h_6 => exact create h
  case h_7 => exact drop.map fun _ => total_ofComponent rfl
  case h_8 => exact (alterTable h).seq fun _ => .ret (total_ofComponent rfl)
  case h_9 => exact begin h
  case h_10 => exact .mapBare startTransaction fun _ => rfl
  case h_11 => exact commit
  case h_12 => exact rollback
  case h_13 => exact savepoint
  case h_14 => exact savepoint
  case h_15 => exact releaseSavepoint
  case h_16 => exact explain h
  case h_17 => exact .bind .expectKeyword fun _ => (declaration h).map fun _ => total_ofComponent rfl
  case h_18 => exact conditional h
  case h_19 => exact whileLoop h
  case h_20 => exact plainLoop h
  case h_21 => exact repeatLoop h
  case h_22 => exact forLoop h
  case h_23 => exact choiceStatement h
  case h_24 => exact returnStatement h
  case h_25 => exact set h
  case h_26 => exact openCursor h
  case h_27 => exact fetch h
  case h_28 => exact closeCursor
  case h_29 => exact deallocate
  case h_30 => exact leave h
  case h_31 => exact leave h
  case h_32 => exact leave h
  case h_33 => exact iterate h
  case h_34 => exact iterate h
  case h_35 => exact raise h
  case h_36 => exact raise h
  case h_37 => exact throwStatement h
  case h_38 => exact signal h
  case h_39 => exact signal h
  case h_40 => exact call h
  case h_41 => exact call h
  case h_42 => exact call h
  case h_43 => exact .expected

theorem atAssignment : L.Quiet Grammar.atAssignment := by
  refine .bind .kind fun k => ?_
  split
  · exact .checkPeek
  · exact .checkPeek
  · exact .stay

theorem namedStatement (h : L.Paying N) :
    L.Pays 0 (Grammar.namedStatement N) fun s => L.total (.statement s) := by
  refine .bind .atName fun _ => .bind .checkPeek fun _ => .ite (fun _ => ?_) fun _ => ?_
  · exact .bind .name fun label => .bind .advance fun _ => labelled h
  refine .bindIf atAssignment ?_ (.bind .check fun _ => .bind .checkPeek fun _ => ?_)
  · exact (assignments h).map fun items => total_statement_le (by simp [Component.ofStatement])
  · exact .ite (fun _ => .bind angleLabel fun _ => labelled h) fun _ => .expected

theorem statement (h : L.Paying N) :
    L.Pays 0 (Grammar.statement N) fun s => L.total (.statement s) := by
  refine .bind .kind fun k => ?_
  split
  · exact .ite (fun _ => keywordStatement h) fun _ => namedStatement h
  · exact namedStatement h

/-- A nested construct, where the readings of those with less text left pay for what they make. -/
theorem within {α : Type} {f : Grammar.Nested → Production α} {made : α → M} {bound : ℕ}
    (hf : ∀ {N : Grammar.Nested}, L.Paying N → L.Pays 0 (f N) made)
    (h : ∀ left < bound, L.Paying (.below left)) :
    L.Pays 0 (Grammar.within bound fun left _ => f (.below left)) made := by
  intro p hp
  rw [Grammar.within, Grammar.within]
  by_cases hless : p.remaining < bound
  · rw [dif_pos hless]
    refine (hf (h _ hless) p hp).behind (.refl hp) (fun _ => ?_) fun _ => dif_pos hless
    rw [L.income_self, zero_add]
  · rw [dif_neg hless]
    exact .error (.refl hp) (hp.honest_expectedError _).1 (hp.honest_expectedError _).2

end Pays

/-! ## Closing the circle -/

theorem paying_below (bound : ℕ) : L.Paying (.below bound) := by
  induction bound using Nat.strong_induction_on with
  | _ bound ih =>
    have hbelow : ∃ bound', Grammar.Nested.below bound = .below bound' := ⟨bound, rfl⟩
    rw [Grammar.Nested.below.eq_def] at hbelow ⊢
    exact {
      below := hbelow
      expression := .within (fun h => .expression h) ih
      primary := .within (fun h => .primary h) ih
      selections := .within (fun h => .selections h) ih
      query := .within (fun h => .query h) ih
      statement := .within (fun h => .statement h) ih
      block := .within (fun h => .block h) ih }

/-- What is charged for a statement is covered by what happened to the pools while it was read. -/
theorem Pays.parse : L.Pays 0 Grammar.parse fun s => L.total (.statement s) :=
  fun p hp => statement (paying_below p.remaining) p hp

end SqlFrontend.Ledger
