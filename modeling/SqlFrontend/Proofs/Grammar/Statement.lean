import SqlFrontend.Grammar.Statement
import SqlFrontend.Proofs.Grammar.Command
import SqlFrontend.Proofs.Grammar.Routine
import SqlFrontend.Proofs.Grammar.Table

/-!
# Statements in lockstep

* `Lockstep.statement`: any statement, for given readings of nested constructs.
* `Likeness.nested_below`: the readings of nested constructs do the same behind the beginnings of two
  texts. The induction is on the text that is left.
* `Likeness.parse_outcome`: statements are read alike, with all that is nested in them.
-/

namespace SqlFrontend.Likeness

variable {L : Likeness} {b : Parser × Parser} {l : Level} {N N' : Grammar.Nested}

namespace Lockstep

/-! ## Definitions -/

theorem orReplace :
    L.Lockstep b .moved Grammar.orReplace Grammar.orReplace fun _ => .moved :=
  .bindOr .checkKeywords (fun _ => .checkKeywords)
    (.bind .advance fun _ => .bind .advance fun _ => .stay) .stay

theorem clustering :
    L.Lockstep b .moved Grammar.clustering Grammar.clustering fun _ => .moved :=
  .bindIf .consumeKeyword .ret (.bindIf .consumeKeyword .stay .stay)

theorem create (h : L.Nested b N N') :
    L.Lockstep b l (Grammar.create N) (Grammar.create N') fun _ => .moved := by
  refine .bind .expectKeyword fun _ => .bind .orReplace fun orReplace => ?_
  refine .bind .consumeAny fun temporary => .bind .consumeKeyword fun unique => ?_
  refine .bind .clustering fun clustered => .bind .kind fun k => ?_
  split
  · exact .map _ (.createTable h)
  · exact .map _ (.createIndex h)
  · exact .map _ (.createView h)
  · refine .bindSpan fun t t' => .bind .require fun _ => .bind .advance fun _ => ?_
    exact .map _ (.createView (h.noting t t'))
  · exact .createProcedure h
  · exact .createFunction h
  · exact .map _ (.createTrigger h)
  · exact .bindIf .checkWord (.createProcedure h) (.expected (by decide))

/-! ## Begin -/

theorem transactionFollows :
    L.LockstepAt b l (.keyword .BEGIN) Grammar.transactionFollows Grammar.transactionFollows
      fun _ => l := by
  refine .bindPeek fun k => ?_
  split
  all_goals first
    | exact .of .stay
    | refine .bindGet fun p q hpq _ => .bindGet fun p' q' hpq' hk => .of ?_
      have hpeek := (L.alike hpq').peek (Token.closes_of_isOpen (hk ▸ rfl))
      rw [(L.alike hpq).isBatchSeparator hpeek]
      exact .stay

theorem begin (h : L.Nested b N N') :
    L.LockstepAt b l (.keyword .BEGIN) (Grammar.begin N) (Grammar.begin N') fun _ => .moved := by
  refine .bindIfPeek (.of (.tryCatch h)) (.bind transactionFollows fun x => .ite (fun _ => ?_) fun _ => ?_)
  · exact .map _ .beginTransaction
  refine .bindGet fun p q hpq => .bind .dialect fun d => ?_
  rw [(L.alike hpq).routineDepth]
  exact .ite (fun _ => .map _ (.block h)) fun _ => .map _ .beginTransaction

/-! ## Dispatch -/

theorem keywordStatement (h : L.Nested b N N') {word : Keyword} :
    L.LockstepAt b .token (.keyword word) (Grammar.keywordStatement N word)
      (Grammar.keywordStatement N' word) fun _ => .moved := by
  unfold Grammar.keywordStatement
  split
  case h_9 => exact begin h
  all_goals refine .of ?_
  case h_1 => exact .map _ (.selections h)
  case h_2 => exact .map _ (.withTables h)
  case h_3 => exact .map _ (.insert h)
  case h_4 => exact .map _ (.update h)
  case h_5 => exact .map _ (.delete h)
  case h_6 => exact .create h
  case h_7 => exact .map _ .drop
  case h_8 => exact .bind (.alterTable h) fun _ => .stay
  case h_10 => exact .map _ .startTransaction
  case h_11 => exact .commit
  case h_12 => exact .rollback
  case h_13 => exact .savepoint
  case h_14 => exact .savepoint
  case h_15 => exact .releaseSavepoint
  case h_16 => exact .explain h
  case h_17 => exact .bind .expectKeyword fun _ => .map _ (.declaration h)
  case h_18 => exact .conditional h
  case h_19 => exact .whileLoop h
  case h_20 => exact .plainLoop h
  case h_21 => exact .repeatLoop h
  case h_22 => exact .forLoop h
  case h_23 => exact .choiceStatement h
  case h_24 => exact .returnStatement h
  case h_25 => exact .set h
  case h_26 => exact .openCursor h
  case h_27 => exact .fetch h
  case h_28 => exact .closeCursor
  case h_29 => exact .deallocate
  case h_30 => exact .leave h
  case h_31 => exact .leave h
  case h_32 => exact .leave h
  case h_33 => exact .iterate h
  case h_34 => exact .iterate h
  case h_35 => exact .raise h
  case h_36 => exact .raise h
  case h_37 => exact .throwStatement h
  case h_38 => exact .signal h
  case h_39 => exact .signal h
  case h_40 => exact .call h
  case h_41 => exact .call h
  case h_42 => exact .call h
  case h_43 => exact .expected (by decide)

theorem atAssignment {kind : TokenKind} (hkind : kind ≠ .keyword .END) :
    L.LockstepAt b l kind Grammar.atAssignment Grammar.atAssignment fun _ => l := by
  refine .bindKind ?_
  split
  · exact .bindPeek fun _ => .of .stay
  · next word =>
    have : Certain (TokenKind.keyword word).isOpen := ⟨TokenKind.isOpen_of_ne nofun hkind⟩
    exact .bindPeek fun _ => .of .stay
  · exact .of .stay

/-- The word `END` is reserved, so no such statement starts with it. -/
theorem namedStatement (h : L.Nested b N N') {kind : TokenKind} (hkind : kind ≠ .keyword .END) :
    L.LockstepAt b l kind (Grammar.namedStatement N) (Grammar.namedStatement N')
      fun _ => .moved := by
  refine .bindAnd .atName ?_ (.bind (atAssignment hkind) fun _ => .ite (fun _ => ?_) fun _ => ?_)
  · exact .bind .name fun label => .bind .advance fun _ => .labelled h
  · exact .map _ (.assignments h)
  · refine .bindAnd .check ?_ (.expected (by decide))
    exact .bind .angleLabel fun label => .labelled h

theorem statement (h : L.Nested b N N') :
    L.Lockstep b l (Grammar.statement N) (Grammar.statement N') fun _ => .moved := by
  refine .strict (.bindKinds fun k => ?_)
  split
  · next word =>
    refine .ite (fun _ => keywordStatement h) fun hreserved => namedStatement h fun hend => hreserved ?_
    rw [TokenKind.keyword.inj hend]
    rfl
  · next hother => exact namedStatement h (hother _)

end Lockstep

/-! ## Closing the circle -/

/-- A nested construct, where the readings do the same in what is left behind its beginning. -/
theorem reads_within {α : Type} {f : Grammar.Nested → Production α} {m n : ℕ}
    (hm : b.1.remaining ≤ m) (hn : b.2.remaining ≤ n)
    (hf : ∀ {c N N'}, L.Nested c N N' → L.Lockstep c .start (f N) (f N') fun _ => .moved)
    (hbelow : ∀ c : Parser × Parser, c.1.remaining < b.1.remaining →
      L.Nested c (.below c.1.remaining) (.below c.2.remaining)) :
    L.Reads b (Grammar.within m fun left _ => f (.below left))
      (Grammar.within n fun left _ => f (.below left)) := by
  intro p q hpq hlevel
  have hp : p.remaining < m := hlevel.1.remaining.trans_le hm
  have hq : q.remaining < n := hlevel.2.remaining.trans_le hn
  rw [Grammar.within, Grammar.within, dif_pos hp, dif_pos hq]
  exact hf (hbelow (p, q) hlevel.1.remaining) (p, q) ⟨.refl p, .refl q⟩ p q hpq ⟨.refl p, .refl q⟩

theorem readsAll_below {m n : ℕ} (hm : b.1.remaining ≤ m) (hn : b.2.remaining ≤ n)
    (hbelow : ∀ c : Parser × Parser, c.1.remaining < b.1.remaining →
      L.Nested c (.below c.1.remaining) (.below c.2.remaining)) :
    L.ReadsAll b (.below m) (.below n) := by
  rw [Grammar.Nested.below.eq_def m, Grammar.Nested.below.eq_def n]
  exact {
    expression := reads_within hm hn (fun h => .expression h) hbelow
    primary := reads_within hm hn (fun h => .primary h) hbelow
    selections := reads_within hm hn (fun h => .selections h) hbelow
    query := reads_within hm hn (fun h => .query h) hbelow
    statement := reads_within hm hn (fun h => .statement h) hbelow
    block := reads_within hm hn (fun h => .block h) hbelow }

/-- The readings of nested constructs do the same, in every likeness. -/
theorem nested_below (L : Likeness) {m n : ℕ} (hm : b.1.remaining ≤ m) (hn : b.2.remaining ≤ n) :
    L.Nested b (.below m) (.below n) := by
  induction hk : b.1.remaining using Nat.strong_induction_on generalizing L b m n with
  | _ k ih =>
    subst hk
    exact ⟨readsAll_below hm hn fun c hc => ih _ hc L (le_refl _) (le_refl _) rfl,
      readsAll_below hm hn fun c hc => ih _ hc _ (le_refl _) (le_refl _) rfl⟩

/-- Statements are read alike. -/
theorem parse_outcome {p q : Parser} (h : L.state p q) :
    Outcome L (p, q) p q (fun _ => .moved) (Grammar.parse p) (Grammar.parse q) := by
  have hnested : L.Nested (p, q) (.below p.remaining) (.below q.remaining) :=
    L.nested_below (le_refl _) (le_refl _)
  exact Lockstep.statement hnested (p, q) ⟨.refl p, .refl q⟩ p q h
    (show Level.start.Holds _ p q from ⟨.refl p, .refl q⟩)

end SqlFrontend.Likeness
