import SqlFrontend.Grammar.Statement
import SqlFrontend.Proofs.Shape.Routine
import SqlFrontend.Proofs.Shape.Table

/-!
# The shape of statements

* `Yields.statement`: any statement is well formed, for readings of nested constructs that yield well
  shaped trees.
* `Nested.shaped_below`: the readings of nested constructs do. The induction is on the text that is
  left.
* `Yields.parse`: statements are well formed, with all that is nested in them.
-/

namespace SqlFrontend

namespace Production.Yields

variable {P : Parser → Prop} {N : Grammar.Nested}

/-! ## Definitions -/

theorem orReplace : Yields P Grammar.orReplace fun _ _ => True := by
  refine .bind .checkKeywords fun replaces => .bind .checkKeywords fun alters =>
    .ite (fun hwords => ?_) fun _ => .stay
  refine .bind (.passTo fun p hp _ => ?_) fun _ => .bind .advance fun _ => .stay
  rcases Bool.or_eq_true_iff.1 hwords with hreplace | halter
  · simp [hp.1.2 hreplace, TokenKind.isProper]
  · simp [hp.2 halter, TokenKind.isProper]

theorem clustering : Yields P Grammar.clustering fun _ _ => True :=
  .bindIf .consumeKeyword .stay (.bindIf .consumeKeyword .stay .stay)

theorem create (h : N.Shaped) : Yields P (Grammar.create N) fun s _ => s.WellFormed := by
  refine .bind .expectKeyword fun _ => .bind orReplace fun orReplace => ?_
  refine .bind .consumeAny fun temporary => .bind .consumeKeyword fun unique => ?_
  refine .bind clustering fun clustered => .bind .kind fun k => ?_
  split
  · exact .map (createTable h)
  · exact .map (createIndex h)
  · exact .map (createView h)
  · refine .bind .span fun place => .bind .require fun _ => .bind .advance fun _ => ?_
    exact .map (createView h)
  · exact createProcedure h
  · exact createFunction h
  · exact .map (createTrigger h)
  · exact .bindIf .checkWord (createProcedure h) .expected

/-! ## Begin -/

theorem transactionFollows : Yields P Grammar.transactionFollows fun _ p => P p := by
  refine .bind .peekKind fun k => ?_
  split
  all_goals first | exact .ret fun _ hp => hp.1 | skip
  exact .bind .get fun p => .bind .get fun q => .ret fun _ hp => hp.1.1.1

theorem begin (h : N.Shaped) : Yields P (Grammar.begin N) fun s _ => s.WellFormed := by
  have htransaction {P : Parser → Prop} :
      Yields P (Statement.beginTransaction <$> Grammar.beginTransaction) fun s _ => s.WellFormed :=
    .map (beginTransaction.mono fun _ _ _ => by simp [Statement.WellFormed])
  refine .bindIf .peekKeyword (tryCatch h) (.bindIf transactionFollows htransaction ?_)
  refine .bind .get fun p => .bind .dialect fun d => .ite (fun _ => .map ?_) fun _ => htransaction
  exact (block h).mono fun b _ hb => by simpa [Statement.WellFormed] using hb

/-! ## Dispatch -/

theorem keywordStatement (h : N.Shaped) {word : Keyword}
    (hword : ∀ p, P p → p.current.kind.isProper) :
    Yields P (Grammar.keywordStatement N word) fun s _ => s.WellFormed := by
  have hquery {m : Production Query} {Q : Query → Parser → Prop} (hm : Yields P m Q)
      (hQ : ∀ q p, Q q p → Shapely q.parts) :
      Yields P (Statement.query <$> m) fun s _ => s.WellFormed :=
    .map (hm.mono fun q p hq => by simpa [Statement.WellFormed] using hQ q p hq)
  unfold Grammar.keywordStatement
  split
  case h_1 => exact hquery (selections h) fun _ _ => And.right
  case h_2 => exact hquery (withTables h) fun _ _ => id
  case h_3 => exact .map (insert h)
  case h_4 => exact .map (update h)
  case h_5 => exact .map (delete h)
  case h_6 => exact create h
  case h_7 => exact .map drop
  case h_8 => exact .seq (alterTable h) fun _ hchange => .ret fun _ _ => hchange
  case h_9 => exact begin h
  case h_10 => exact .map (startTransaction.mono fun _ _ _ => by simp [Statement.WellFormed])
  case h_11 => exact commit
  case h_12 => exact rollback
  case h_13 => exact savepoint
  case h_14 => exact savepoint
  case h_15 => exact releaseSavepoint
  case h_16 => exact explain h
  case h_17 =>
    have hdeclaration := YieldsBehind.declaration (P := fun _ => True) h
    refine .ofBehind (.bind .expectKeyword fun _ => .map (hdeclaration.mono le_rfl (fun _ => le_rfl) ?_))
    exact fun d _ hd => by simpa [Statement.WellFormed] using hd
  case h_18 => exact conditional h
  case h_19 => exact whileLoop h
  case h_20 => exact plainLoop h
  case h_21 => exact repeatLoop h
  case h_22 => exact forLoop h
  case h_23 => exact choiceStatement h
  case h_24 => exact returnStatement h
  case h_25 => exact set h
  case h_26 => exact openCursor h
  case h_27 => exact fetch h
  case h_28 => exact closeCursor
  case h_29 => exact deallocate
  case h_30 => exact leave h hword
  case h_31 => exact leave h hword
  case h_32 => exact leave h hword
  case h_33 => exact iterate h hword
  case h_34 => exact iterate h hword
  case h_35 => exact raise h
  case h_36 => exact raise h
  case h_37 => exact throwStatement h
  case h_38 => exact signal h hword
  case h_39 => exact signal h hword
  case h_40 => exact call h hword
  case h_41 => exact call h hword
  case h_42 => exact call h hword
  case h_43 => exact .expected

theorem atAssignment : Yields P Grammar.atAssignment fun _ _ => True := by
  refine .bind .kind fun k => ?_
  split
  · exact .quiet .checkPeek
  · exact .quiet .checkPeek
  · exact .stay

/-- The name of a label, with a colon behind it. -/
theorem labelName : Yields (fun p => p.peek.kind = .colon) Production.name
    fun _ p => p.Steady → p.current.kind.isProper := by
  refine .bindIf .atName (.bind .current fun _ => .bind (.passTo fun p hp _ => ⟨hp.1.2 rfl, ?_⟩)
    fun _ => .ret fun _ => id) .expected
  rw [hp.1.1]

theorem namedStatement (h : N.Shaped) :
    Yields P (Grammar.namedStatement N) fun s _ => s.WellFormed := by
  refine .bind .atName fun _ => .bind .checkPeek fun isLabel => .ite (fun hlabel => ?_) fun _ => ?_
  · have hcolon : Yields (fun p => p.peek.kind = .colon)
        (do let label ← Production.name; Production.advance; Grammar.labelled N label)
        fun s _ => s.WellFormed :=
      .bind labelName fun label => .bind (.pass fun p hp hs => hp hs) fun _ => labelled h
    exact fun p hp hP => hcolon p hp (hP.2 (Bool.and_eq_true_iff.1 hlabel).2)
  refine .bindIf atAssignment (.map ?_) (.bind .check fun _ => .bind .checkPeek fun _ => ?_)
  · refine (assignments h).mono fun items _ hitems => ?_
    simpa [Statement.WellFormed] using hitems
  · exact .ite (fun _ => .bind angleLabel fun _ => labelled h) fun _ => .expected

theorem statement (h : N.Shaped) : Yields P (Grammar.statement N) fun s _ => s.WellFormed := by
  refine .bind .kind fun k => ?_
  split
  · refine .ite (fun _ => keywordStatement h fun p hp => ?_) fun _ => namedStatement h
    rw [hp.2]
  · exact namedStatement h

end Production.Yields

/-! ## Closing the circle -/

namespace Grammar

/-- A nested construct, where the readings of those with less text left are well shaped. -/
theorem Nested.yields_within {α : Type} {f : Nested → Production α} {G : α → Prop} {bound : ℕ}
    {P : Parser → Prop} (hf : ∀ {N : Nested} {P : Parser → Prop}, N.Shaped → (f N).Yields P fun a _ => G a)
    (h : ∀ left < bound, (Nested.below left).Shaped) :
    (within bound fun left _ => f (.below left)).Yields P fun a _ => G a := by
  intro p hp _
  rw [within]
  split
  · next hless => exact hf (P := fun _ => True) (h _ hless) p hp trivial
  · exact .error hp rfl

theorem Nested.shaped_below (bound : ℕ) : (Nested.below bound).Shaped := by
  induction bound using Nat.strong_induction_on with
  | _ bound ih =>
    rw [below.eq_def]
    exact {
      expression := yields_within (fun h => .expression h) ih
      primary := yields_within (fun h => .primary h) ih
      selections := yields_within (fun h => .selections h) ih
      query := yields_within (fun h => .query h) ih
      statement := yields_within (fun h => .statement h) ih
      block := yields_within (fun h => .block h) ih }

end Grammar

/-- Statements are well formed, with all that is nested in them. -/
theorem Production.Yields.parse {P : Parser → Prop} :
    Yields P Grammar.parse fun s _ => s.WellFormed :=
  fun p hp hP => statement (Grammar.Nested.shaped_below p.remaining) p hp hP

end SqlFrontend
