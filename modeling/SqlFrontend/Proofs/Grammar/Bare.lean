import SqlFrontend.Proofs.Grammar.Descent
import SqlFrontend.Proofs.Kinship.Statement
import SqlFrontend.Proofs.Parsing.Expiry
import SqlFrontend.Proofs.Parsing.Success

/-!
# Statements of one word

Some statements may end behind their first word. They are all that can be read when time is over, for
everything behind the first word is missing then.

Results:
* `bareStatement?`: what such a word stands for.
* `Expires.statement`: when time is over, a statement fails, or is one of them.
* `parse_bare`: where a statement ends behind such a word, it is the one that the word stands for.
* `BehindFirst`: how far a production comes behind the current token. `Underway.parse_first` says that a
  statement that passes nothing else is the one that the word stands for.
-/

namespace SqlFrontend

/-- The statement that a word is by itself. -/
def bareStatement? : Keyword → Option Statement
  | .BEGIN => some (.beginTransaction {})
  | .COMMIT => some (.commit false none)
  | .ROLLBACK => some (.rollback ⟨false, none, none⟩)
  | .RETURN => some (.returnValue none)
  | .EXIT | .LEAVE | .BREAK => some (.leave none none)
  | .CONTINUE | .ITERATE => some (.iterate none none)
  | .RAISE => some (.raise ⟨false, none, none, [], none, []⟩)
  | .THROW => some (.throwing none)
  | .SIGNAL => some (.signal ⟨false, none, none, []⟩)
  | .RESIGNAL => some (.signal ⟨true, none, none, []⟩)
  | _ => none

namespace Production

variable {N : Grammar.Nested}

/-! ## The end of the text -/

namespace Ends

variable {stopped : Bool}

theorem skipTransactionWord : Ends stopped .eof Grammar.skipTransactionWord fun _ => True :=
  discard consumeAny

theorem consumeWork : Ends stopped .eof Grammar.consumeWork (· = false) :=
  bind checkKeyword fun _ hwork => bind skipTransactionWord fun _ _ => ret hwork

theorem transactionName? : Ends stopped .eof Grammar.transactionName? (· = none) := by
  refine bindGet fun p hp => ?_
  have hbatch : p.atBatchSeparator = false := by
    rw [Parser.atBatchSeparator, Parser.isBatchSeparator]
    split
    · exact isWord hp (by decide) _
    · rfl
  rw [hbatch]
  refine bindIf checkKeyword ?_
  exact bindOr atName check (ret rfl)

theorem transactionModes : Ends stopped .eof Grammar.transactionModes (· = []) :=
  many (bind atTerminator fun x hx => by
    rw [hx]
    exact ret rfl)

theorem skipChain : Ends stopped .eof Grammar.skipChain fun _ => True :=
  bindIf consumeKeyword (ret trivial)

theorem whenCondition : Ends stopped .eof (Grammar.whenCondition N) (· = none) := behind

theorem raiseLevel : Ends stopped .eof Grammar.raiseLevel (· = none) := bindKind (ret rfl)

theorem atExpressionStart : Ends stopped .eof Grammar.atExpressionStart (· = false) :=
  bindKind (bind atName fun x hx => bindGet fun _ _ => by
    rw [hx]
    exact ret rfl)

theorem labelled {label : String} {S : Statement → Prop} :
    Ends stopped .eof (Grammar.labelled N label) S := bindKind expected

end Ends

theorem Looks.transactionFollows : Looks Grammar.transactionFollows := by
  refine .bind .peekKind fun k => ?_
  split
  all_goals first
    | exact .ret
    | exact .bind .get fun _ => .bind .get fun _ => .ret

/-! ## When time is over -/

namespace Expires

/-- Behind a word that has to stand here, something is missing. -/
theorem behindWord {α : Type} {word : Keyword} {f : Unit → Production α} {S : α → Prop}
    (h : Ends true .eof (f ()) fun _ => False) :
    Expires (.keyword word) (Production.expectKeyword word >>= f) S :=
  fails expectKeyword fun _ => h

theorem mapFails {α β : Type} {k : TokenKind} {m : Production α} {g : α → β} {S : β → Prop}
    (h : Expires k m fun _ => False) : Expires k (g <$> m) S := h.map fun _ => False.elim

/-- The node of a selection comes from its pool before the first word is passed. -/
theorem selections (h : Kinship.Needy true N) {S : Query → Prop} : Expires (.keyword .SELECT) (Grammar.selections N) S := by
  have hnode {node : Select} :
      Expires (.keyword .SELECT) (Grammar.selectInto N node) fun _ => False := by
    refine behindWord (.bind (.bindIf (S := fun _ => True) .consumeKeyword ?_) fun _ _ => ?_)
    · exact .bind .skipKeyword fun _ _ => .ret trivial
    · refine .bind (.bindIf (S := fun _ => True) .checkKeyword (.ret trivial)) fun _ _ => ?_
      exact .fails (.list (.fails h.expression))
  refine bind (S := fun _ => False) ?_ fun _ => False.elim
  exact bindPools (fun _ => rfl) fun _ => onFailure hnode

theorem create {S : Statement → Prop} : Expires (.keyword .CREATE) (Grammar.create N) S := by
  refine behindWord (.bind (.bindOr (S := fun _ => True) .checkKeywords .checkKeywords ?_) fun _ _ => ?_)
  · exact .ret trivial
  · refine .bind .consumeAny fun _ _ => .bind .consumeKeyword fun _ _ => ?_
    refine .bind (.bindIf (S := fun _ => True) .consumeKeyword ?_) fun _ _ => ?_
    · exact .bindIf .consumeKeyword (.ret trivial)
    · exact .bindKind (.bindIf .checkWord .expected)

theorem beginTransaction :
    Expires (.keyword .BEGIN) (Statement.beginTransaction <$> Grammar.beginTransaction)
      fun s => bareStatement? .BEGIN = some s := by
  refine map (S := (· = {})) ?_ fun node hnode => by rw [hnode]; rfl
  refine bind expectKeyword fun _ _ => .bind (S := (· = [])) (.bindKind (.ret rfl)) fun locking hlocking => ?_
  rw [hlocking]
  refine .bind .skipTransactionWord fun _ _ => .bind .dialect fun d _ => .ite (fun _ => ?_) fun _ => ?_
  · refine .bind .transactionName? fun name hname => .ret ?_
    rw [hname]
  · refine .bind .transactionModes fun modes hmodes => .ret ?_
    rw [hmodes]
    rfl

theorem block {S : Block → Prop} : Expires (.keyword .BEGIN) (Grammar.block N none) S := by
  have hsection (p : Parser) (hp : p.Expiring (.keyword .BEGIN)) :
      Grammar.declarationSection N p = .ok [] p := by
    simp [Grammar.declarationSection, hp.kind]
  refine bindLook (S := fun _ => True) (fun p hp => ⟨[], hsection p hp, trivial⟩) fun _ _ => ?_
  refine behindWord ?_
  refine .bind (.many (.bind .skipSemicolons fun _ _ => .behind)) fun inner hinner => ?_
  exact .bind .statements fun _ _ => .bind .behind fun _ _ => .fails .expectKeyword

theorem tryCatch {S : Statement → Prop} : Expires (.keyword .BEGIN) (Grammar.tryCatch N) S :=
  behindWord (.fails .expectKeyword)

theorem begin : Expires (.keyword .BEGIN) (Grammar.begin N)
    fun s => bareStatement? .BEGIN = some s := by
  refine bindLooks .checkPeek fun _ => ite (fun _ => tryCatch) fun _ => ?_
  refine bindLooks .transactionFollows fun _ => ite (fun _ => beginTransaction) fun _ => ?_
  refine bindLooks .get fun _ => bindLooks .dialect fun _ => ite (fun _ => ?_) fun _ => beginTransaction
  exact mapFails block

theorem namedStatement {k : TokenKind} {S : Statement → Prop} :
    Expires k (Grammar.namedStatement N) S := by
  refine bindLooks .atName fun _ => bindLooks .checkPeek fun _ => ite (fun _ => ?_) fun _ => ?_
  · exact fails name fun _ => .bind .advance fun _ _ => .labelled
  have hlooks : Looks Grammar.atAssignment := by
    refine .bind .kind fun k => ?_
    split
    all_goals first
      | exact .ret
      | exact .checkPeek
  refine bindLooks hlooks fun _ => ite (fun _ => ?_) fun _ => ?_
  · refine mapFails (list (fails ?_ fun _ => ?_))
    · exact bind name fun _ _ => .loop (.bindIf .consume (.ret trivial))
    · exact .bindIf .consume (.fails .expect)
  · refine bindCheck (bindLooks .checkPeek fun _ => ite (fun hangle => ?_) fun _ => expected)
    rw [Bool.and_eq_true, beq_iff_eq] at hangle
    rw [hangle.1]
    exact bind (S := fun _ => False) (fails expect fun _ => .fails .expect) fun _ => False.elim

theorem commit : Expires (.keyword .COMMIT) Grammar.commit
    fun s => bareStatement? .COMMIT = some s := by
  refine bind expectKeyword fun _ _ => .bind .consumeWork fun work hwork => ?_
  refine .bind .transactionName? fun name hname => .bind .skipChain fun _ _ => .ret ?_
  rw [hwork, hname]
  rfl

theorem rollback : Expires (.keyword .ROLLBACK) Grammar.rollback
    fun s => bareStatement? .ROLLBACK = some s := by
  refine bind expectKeyword fun _ _ => .bind .consumeWork fun work hwork => ?_
  refine .bind .transactionName? fun name hname => .bind .behind fun savepoint hsavepoint => ?_
  refine .bind .skipChain fun _ _ => .ret ?_
  rw [hwork, hname, hsavepoint]
  rfl

/-- A loop or a block is left, under a label or a condition that is missing. -/
theorem leave {word : Keyword} : Expires (.keyword word) (Grammar.leave N) (· = .leave none none) := by
  refine bindLooks .check fun _ => bind advance fun _ _ => ?_
  have hbehind (label : Option String) (hlabel : label = none) : Ends true .eof
      (Grammar.whenCondition N >>= fun condition => pure (Statement.leave label condition))
      (· = Statement.leave none none) := by
    refine .bind .whenCondition fun condition hcondition => .ret ?_
    rw [hlabel, hcondition]
  exact .ite (fun _ => .bind .trailingName? hbehind) fun _ => .bind (S := (· = none)) (.ret rfl) hbehind

theorem iterate {word : Keyword} :
    Expires (.keyword word) (Grammar.iterate N) (· = .iterate none none) := by
  refine bind advance fun _ _ => .bind .trailingName? fun label hlabel => ?_
  refine .bind .whenCondition fun condition hcondition => .ret ?_
  rw [hlabel, hcondition]

theorem returnStatement : Expires (.keyword .RETURN) (Grammar.returnStatement N)
    fun s => bareStatement? .RETURN = some s := by
  refine bind expectKeyword fun _ _ => .bindIf .checkKeywords (.bindAnd .checkKeyword ?_ ?_)
  · exact .mono .checkPeek fun _ _ => trivial
  · exact .bindIf .atExpressionStart (.ret rfl)

theorem throwStatement : Expires (.keyword .THROW) (Grammar.throwStatement N)
    fun s => bareStatement? .THROW = some s :=
  bind expectKeyword fun _ _ => .bindIf .atExpressionStart (.ret rfl)

theorem raise : Expires (.keyword .RAISE) (Grammar.raise N)
    fun s => bareStatement? .RAISE = some s := by
  refine bindMissed (by decide) (bind expectKeyword fun _ _ => .bind .raiseLevel fun level hlevel => ?_)
  refine .bind .raiseSubject fun subject hsubject => ?_
  rw [hsubject]
  refine .bind .behind fun options hoptions => .ret ?_
  rw [hlevel, hoptions]
  rfl

theorem raiseError {S : Statement → Prop} : Expires (.keyword .RAISERROR) (Grammar.raise N) S := by
  refine bind (S := (· = true)) consume fun x hx => ?_
  rw [hx]
  exact .map (S := fun _ => False) (.fails .inParens) fun _ => False.elim

theorem signal {word : Keyword} : Expires (.keyword word) (Grammar.signal N)
    (· = .signal ⟨TokenKind.keyword word == .keyword .RESIGNAL, none, none, []⟩) := by
  refine bindCheck (bind advance fun _ _ => .bind .signalledCondition fun condition hcondition => ?_)
  rw [hcondition]
  refine .bind .behind fun properties hproperties => .ret ?_
  rw [hproperties]
  rfl

theorem savepoint {S : Statement → Prop} : Expires (.keyword .SAVEPOINT) Grammar.savepoint S :=
  bindMissed (by decide) (behindWord (.map (S := fun _ => False) .name fun _ => False.elim))

theorem save {S : Statement → Prop} : Expires (.keyword .SAVE) Grammar.savepoint S := by
  refine bind (S := (· = true)) consume fun x hx => ?_
  rw [hx]
  exact .bindIf .consumeKeyword (.fails .expectKeyword)

theorem call {word : Keyword} {S : Statement → Prop} :
    Expires (.keyword word) (Grammar.call N) S := by
  refine bindLooks .check fun _ => bind advance fun _ _ => ?_
  refine .bind (S := (· = false)) (.bindIf .check (.bindIf .check (.ret rfl))) fun x hx => ?_
  rw [hx, Bool.and_false]
  exact .namedCall

theorem keywordStatement (h : Kinship.Needy true N) {word : Keyword} :
    Expires (.keyword word) (Grammar.keywordStatement N word)
      fun s => bareStatement? word = some s := by
  have hloop {label : Option String} {word : Keyword} :
      Ends true .eof (Grammar.loopBody N word label) fun _ => False :=
    .bind .statements fun _ _ => .fails (.fails .expectKeyword)
  unfold Grammar.keywordStatement
  split
  case h_1 => exact mapFails (selections h)
  case h_2 => exact mapFails (behindWord (.bind .consumeKeyword fun _ _ => .fails (.list (.fails .name))))
  case h_3 => exact mapFails (behindWord (.bind .skipKeyword fun _ _ => .fails .objectName))
  case h_4 => exact mapFails (behindWord (.fails .tableRef))
  case h_5 => exact mapFails (behindWord (.bind .skipKeyword fun _ _ => .fails .tableRef))
  case h_6 => exact create
  case h_7 => exact mapFails (behindWord (.fails .objectKind))
  case h_8 => exact bind (behindWord (.fails .expectKeyword)) fun _ => False.elim
  case h_9 => exact begin
  case h_10 => exact mapFails (behindWord (.fails .expectKeyword))
  case h_11 => exact commit
  case h_12 => exact rollback
  case h_13 => exact savepoint
  case h_14 => exact save
  case h_15 =>
    exact behindWord (.bind .skipKeyword fun _ _ => .map (S := fun _ => False) .name fun _ => id)
  case h_16 =>
    refine behindWord (.bind (S := fun _ => True) (.loop ?_) fun _ _ => .fails h.statement)
    refine .bind (S := (· = none)) (.bindKind (.ret rfl)) fun x hx => ?_
    rw [hx]
    exact .ret trivial
  case h_17 => exact behindWord (.map (S := fun _ => False) .declaration fun _ => id)
  case h_18 => exact behindWord (.fails h.expression)
  case h_19 => exact behindWord (.fails h.expression)
  case h_20 => exact behindWord (.fails hloop)
  case h_21 => exact behindWord (.bind .statements fun _ _ => .fails .expectKeyword)
  case h_22 => exact behindWord (.fails .name)
  case h_23 =>
    refine bindLooks .span fun _ => behindWord (.bindIf .checkKeyword ?_)
    exact .fails (.map (S := fun _ => False) h.expression fun _ => id)
  case h_24 => exact returnStatement
  case h_25 =>
    refine behindWord (.bindIf .consumeKeyword (.bindIf .atOptionName ?_))
    exact .map (S := fun _ => False) .assignments fun _ => id
  case h_26 => exact behindWord (.fails .qualifiedName)
  case h_27 =>
    refine behindWord (.bind (S := fun _ => True) (.bindKind (.ret trivial)) fun _ _ => ?_)
    exact .bindIf .consumeKeyword (.bind .skipKeyword fun _ _ => .fails .qualifiedName)
  case h_28 => exact behindWord (.map (S := fun _ => False) .qualifiedName fun _ => id)
  case h_29 =>
    exact behindWord (.bind .skipWord fun _ _ => .map (S := fun _ => False) .qualifiedName fun _ => id)
  case h_30 => exact leave.mono fun s hs => hs ▸ rfl
  case h_31 => exact leave.mono fun s hs => hs ▸ rfl
  case h_32 => exact leave.mono fun s hs => hs ▸ rfl
  case h_33 => exact iterate.mono fun s hs => hs ▸ rfl
  case h_34 => exact iterate.mono fun s hs => hs ▸ rfl
  case h_35 => exact raise
  case h_36 => exact raiseError
  case h_37 => exact throwStatement
  case h_38 => exact signal.mono fun s hs => hs ▸ rfl
  case h_39 => exact signal.mono fun s hs => hs ▸ rfl
  case h_40 => exact call
  case h_41 => exact call
  case h_42 => exact call
  case h_43 => exact .expected

/-- A statement that is read when time is over is a reserved word that may stand by itself. -/
theorem statement (h : Kinship.Needy true N) {k : TokenKind} :
    Expires k (Grammar.statement N)
      fun s => ∃ word : Keyword, k = .keyword word ∧ word.isReserved ∧ bareStatement? word = some s := by
  refine bindKind ?_
  split
  · next word =>
    refine ite (fun hword => ?_) fun _ => namedStatement
    exact (keywordStatement h).mono fun s hs => ⟨word, rfl, hword, hs⟩
  · exact namedStatement

end Expires

end Production

namespace Parser

variable {p : Parser} {k : TokenKind}

/-- When time is over, a statement fails, or is a word that may stand by itself. -/
theorem Expiring.parse (h : p.Expiring k) :
    Production.TimedOut p
      (fun s => ∃ word : Keyword, k = .keyword word ∧ word.isReserved ∧ bareStatement? word = some s)
      (Grammar.parse p) :=
  Production.Expires.statement (Kinship.needy_below true p.remaining) p h

/-- A parser that was stopped reads no statement. -/
theorem Last.parse_cancelled (h : p.Last .eof) (hc : p.cancelled) :
    ∃ e q, Grammar.parse p = .error e q ∧ e.isCancelled ∧ p.Stays q := by
  have hstatement : Production.Ends true .eof (Grammar.statement (.below p.remaining))
      fun _ => False := .statement
  have hends := hstatement p h fun _ => hc
  rw [Grammar.parse]
  revert hends
  cases Grammar.statement (.below p.remaining) p with
  | ok s q => exact fun hs => hs.1.elim
  | error e q => exact fun he => ⟨e, q, rfl, he.2 rfl⟩

end Parser

/-! ## When there is time -/

/-- The word that ends a batch is an identifier. -/
theorem Parser.kind_of_isBatchSeparator {p : Parser} {t : Token} (h : p.isBatchSeparator t) :
    t.kind = .identifier := by
  rw [isBatchSeparator] at h
  split at h
  · exact Kinship.identifier_of_isWord h
  · cases h

namespace Production

/-- Where a statement may end, a production reads nothing and gives a value. What takes any name does so
only where no batch ends. -/
def Rests {α : Type} (atBatch : Bool) (m : Production α) (a : α) : Prop :=
  ∀ p : Parser, p.atTerminator → (p.atBatchSeparator → atBatch) → m p = .ok a p

namespace Rests

variable {α β : Type} {atBatch : Bool} {m n : Production α} {a : α} {f : α → Production β} {b : β}

/-- The tokens that a statement may end before. -/
theorem kind_cases {p : Parser} (h : p.atTerminator) :
    p.current.kind = .semicolon ∨ p.current.kind = .eof ∨
      p.current.kind = .identifier ∧ p.atBatchSeparator := by
  rw [Parser.atTerminator, Bool.or_eq_true, Bool.or_eq_true, beq_iff_eq] at h
  refine h.elim (fun h => h.imp_right fun he => .inl (beq_iff_eq.1 he)) fun hbatch => ?_
  exact .inr (.inr ⟨Parser.kind_of_isBatchSeparator hbatch, hbatch⟩)

theorem ret : Rests atBatch (pure a) a := fun _ _ _ => rfl

theorem bind (h : Rests atBatch m a) (hf : Rests atBatch (f a) b) : Rests atBatch (m >>= f) b := by
  intro p hp hbatch
  rw [run_bind, h p hp hbatch]
  exact hf p hp hbatch

/-- What is looked at does not matter. -/
theorem bindLooks (h : Looks m) (hf : ∀ a, Rests atBatch (f a) b) : Rests atBatch (m >>= f) b := by
  intro p hp hbatch
  obtain ⟨a, hm⟩ := h p
  rw [run_bind, hm]
  exact hf a p hp hbatch

/-- A choice by a test that does not pass. -/
theorem bindIf {t : Production Bool} (ht : Rests atBatch t false) (h : Rests atBatch n a) :
    Rests atBatch (t >>= fun x => if x = true then m else n) a := ht.bind h

/-- What is read by the kind of the current token. -/
theorem bindKind {f : TokenKind → Production β} (hsemicolon : Rests atBatch (f .semicolon) b)
    (hend : Rests atBatch (f .eof) b)
    (hidentifier : ∀ p : Parser, p.current.kind = .identifier → p.atBatchSeparator → atBatch →
      f .identifier p = .ok b p) : Rests atBatch (kind >>= f) b := by
  intro p hp hbatch
  rw [run_bind, run_kind]
  rcases kind_cases hp with hk | hk | ⟨hk, hword⟩
  · rw [hk]
    exact hsemicolon p hp hbatch
  · rw [hk]
    exact hend p hp hbatch
  · rw [hk]
    exact hidentifier p hk hword (hbatch hword)

theorem check {k : TokenKind} (hsemicolon : (TokenKind.semicolon == k) = false)
    (hend : (TokenKind.eof == k) = false) (hidentifier : (TokenKind.identifier == k) = false) :
    Rests atBatch (Production.check k) false := by
  intro p hp _
  rw [run_check]
  rcases kind_cases hp with hk | hk | ⟨hk, -⟩
  · rw [hk, hsemicolon]
  · rw [hk, hend]
  · rw [hk, hidentifier]

theorem checkKeyword {word : Keyword} : Rests atBatch (Production.checkKeyword word) false :=
  check rfl rfl rfl

theorem consumeKeyword {word : Keyword} : Rests atBatch (Production.consumeKeyword word) false :=
  checkKeyword.bindIf ret

theorem behind {word : Keyword} {item : Production α} :
    Rests atBatch (Production.behind word item) none := consumeKeyword.bindIf ret

theorem atTerminator : Rests atBatch Production.atTerminator true := by
  intro p hp _
  rw [run_atTerminator, hp]

/-- Only the word that ends a batch is a name. -/
theorem atName : Rests false Production.atName false := by
  intro p hp hbatch
  rw [run_atName, Token.isName]
  rcases kind_cases hp with hk | hk | ⟨-, hword⟩
  · rw [hk]
  · rw [hk]
  · exact Bool.noConfusion (hbatch hword)

theorem trailingName? : Rests atBatch Production.trailingName? none := by
  intro p hp _
  have hnone : p.atTrailingName = false := by
    rw [Parser.atTrailingName, Token.isIdentifier]
    rcases kind_cases hp with hk | hk | ⟨hk, hword⟩
    · rw [hk]
      rfl
    · rw [hk]
      rfl
    · rw [hk, hword]
      rfl
  change (if p.atTrailingName = true then _ else pure none : Production (Option String)) p = _
  rw [hnone]
  rfl

theorem many {item? : Production (Option α)} (h : Rests atBatch item? none) :
    Rests atBatch (Production.many item?) [] := by
  intro p hp hbatch
  refine run_loop_done ?_
  rw [run_bind, h p hp hbatch]
  rfl

/-! ## Parts of statements -/

theorem skipTransactionWord : Rests atBatch Grammar.skipTransactionWord () := by
  have hword : Rests atBatch
      (consumeAny [.keyword .WORK, .keyword .TRANSACTION, .keyword .TRAN]) false :=
    bindIf (bindKind ret ret fun _ _ _ _ => rfl) ret
  intro p hp hbatch
  rw [Grammar.skipTransactionWord, run_discard, hword p hp hbatch]

theorem consumeWork : Rests atBatch Grammar.consumeWork false :=
  checkKeyword.bind (skipTransactionWord.bind ret)

theorem transactionName? : Rests atBatch Grammar.transactionName? none := by
  intro p hp hbatch
  change (Production.checkKeyword .TO >>= fun x => if (p.atBatchSeparator || x) = true then pure none
    else _ : Production (Option String)) p = _
  cases hword : p.atBatchSeparator with
  | true => rfl
  | false =>
    have hrest : Rests false (Production.checkKeyword .TO >>= fun x =>
        if (false || x) = true then pure none else do
          if (← Production.atName) || (← Production.check .string) then some <$> takeLiteral
          else return none) none :=
      checkKeyword.bind (atName.bind ((check rfl rfl rfl).bind ret))
    exact hrest p hp (by rw [hword]; exact id)

theorem transactionModes : Rests atBatch Grammar.transactionModes [] :=
  many (atTerminator.bind ret)

theorem lockingMode : Rests atBatch Grammar.lockingMode [] := bindKind ret ret fun _ _ _ _ => rfl

theorem skipChain : Rests atBatch Grammar.skipChain () := consumeKeyword.bindIf ret

theorem whenCondition : Rests atBatch (Grammar.whenCondition N) none := behind

/-- The word that ends a batch starts no expression. -/
theorem atExpressionStart : Rests atBatch Grammar.atExpressionStart false := by
  intro p hp _
  rw [Grammar.atExpressionStart, run_bind, run_kind]
  rcases kind_cases hp with hk | hk | ⟨hk, hword⟩
  · simp [hk, Token.isName]
  · simp [hk, Token.isName]
  · simp [hk, hword]

theorem raiseLevel : Rests false Grammar.raiseLevel none :=
  bindKind ret ret fun _ _ _ h => Bool.noConfusion h

theorem raiseSubject : Rests false (Grammar.raiseSubject N) (none, [], none) :=
  bindIf (check rfl rfl rfl) (consumeKeyword.bindIf (atName.bindIf ret))

theorem signalledCondition : Rests false Grammar.signalledCondition (none, none) :=
  consumeKeyword.bindIf (atName.bindIf ret)

end Rests

end Production

/-- Decides whether a word takes any name behind it, be it the one that ends a batch. -/
def Keyword.takesName : Keyword → Bool
  | .RAISE | .SIGNAL | .RESIGNAL => true
  | _ => false

namespace Parser

variable {p : Parser} {word : Keyword} {N : Grammar.Nested}

/-- The current token is a word, and the statement may end behind it. -/
structure Bare (word : Keyword) (p : Parser) : Prop where
  kind : p.current.kind = .keyword word
  peek : p.peek.kind = .semicolon ∨ p.peek.kind = .eof ∨
    p.isBatchSeparator p.peek ∧ word.takesName = false
  advance : p.advance.current = p.peek

theorem isBatchSeparator_advance (p : Parser) (t : Token) :
    p.advance.isBatchSeparator t = p.isBatchSeparator t := by
  rw [isBatchSeparator, advance_dialect, isBatchSeparator]

/-- Behind the word, what reads nothing where a statement may end reads nothing. -/
theorem Bare.run_advance {α : Type} {m : Production α} {a : α} (h : p.Bare word)
    (hm : Production.Rests (!word.takesName) m a) :
    (Production.advance >>= fun _ => m) p = .ok a p.advance := by
  have hbatch : p.advance.atBatchSeparator = p.isBatchSeparator p.peek := by
    rw [atBatchSeparator, h.advance, isBatchSeparator_advance]
  refine hm p.advance ?_ fun hword => ?_
  · rw [atTerminator, hbatch, atEnd, Token.isEof, h.advance]
    rcases h.peek with hk | hk | ⟨hword, -⟩
    · rw [hk]
      rfl
    · rw [hk]
      rfl
    · rw [hword, Bool.or_true]
  · have hidentifier := kind_of_isBatchSeparator (hbatch ▸ hword)
    rcases h.peek with hk | hk | ⟨-, hname⟩
    · cases hk.symm.trans hidentifier
    · cases hk.symm.trans hidentifier
    · rw [hname]
      rfl

theorem Bare.run_expectKeyword {α : Type} {m : Production α} {a : α} (h : p.Bare word)
    (hm : Production.Rests (!word.takesName) m a) :
    (Production.expectKeyword word >>= fun _ => m) p = .ok a p.advance := by
  rw [Production.run_bind, Production.run_expectKeyword, if_pos h.kind]
  exact h.run_advance hm

/-- A transaction begins where no block does. -/
theorem Bare.begin (h : p.Bare .BEGIN) :
    Grammar.begin N p = (Statement.beginTransaction <$> Grammar.beginTransaction) p := by
  have htry : (p.peek.kind == .keyword .TRY) = false := by
    rcases h.peek with hk | hk | ⟨hword, -⟩
    · rw [hk]
      rfl
    · rw [hk]
      rfl
    · rw [kind_of_isBatchSeparator hword]
      rfl
  have hfollows : Grammar.transactionFollows p = .ok true p := by
    rw [Grammar.transactionFollows, Production.run_bind, Production.run_peekKind]
    rcases h.peek with hk | hk | ⟨hword, -⟩
    · rw [hk]
      rfl
    · rw [hk]
      rfl
    · rw [kind_of_isBatchSeparator hword]
      simp [hword]
  simp [Grammar.begin, htry, hfollows]

theorem Bare.beginTransaction (h : p.Bare .BEGIN) :
    Grammar.beginTransaction p = .ok {} p.advance := by
  refine h.run_expectKeyword (.bind .lockingMode (.bind .skipTransactionWord ?_))
  refine .bindLooks .dialect fun d => ?_
  split
  · exact .bind .transactionName? .ret
  · exact .bind .transactionModes .ret

/-- A word that may stand by itself, with nothing behind it. -/
theorem Bare.keywordStatement {s : Statement} (h : p.Bare word) (hs : bareStatement? word = some s) :
    Grammar.keywordStatement N word p = .ok s p.advance := by
  cases word <;> simp only [bareStatement?, reduceCtorEq, Option.some.injEq] at hs <;> subst hs
  case BEGIN =>
    change Grammar.begin N p = _
    rw [h.begin, Production.run_map, h.beginTransaction]
  case COMMIT =>
    exact h.run_expectKeyword (.bind .consumeWork (.bind .transactionName? (.bind .skipChain .ret)))
  case ROLLBACK =>
    refine h.run_expectKeyword (.bind .consumeWork (.bind .transactionName? (.bind .behind ?_)))
    exact .bind .skipChain .ret
  case RETURN =>
    refine h.run_expectKeyword (.bindIf (.bindIf .checkKeyword .ret) (.bind .checkKeyword ?_))
    exact .bindLooks .checkPeek fun _ => .bindIf .atExpressionStart .ret
  case THROW => exact h.run_expectKeyword (.bindIf .atExpressionStart .ret)
  case RAISE =>
    change (Production.consumeKeyword .RAISERROR >>= _) p = _
    rw [Production.run_bind, Production.run_consumeKeyword, h.kind, if_neg (by decide)]
    exact h.run_expectKeyword (.bind .raiseLevel (.bind .raiseSubject (.bind .behind .ret)))
  case SIGNAL | RESIGNAL =>
    change (Production.checkKeyword .RESIGNAL >>= _) p = _
    rw [Production.run_bind, Production.run_checkKeyword, h.kind]
    exact h.run_advance (.bind .signalledCondition (.bind .behind .ret))
  case CONTINUE | ITERATE => exact h.run_advance (.bind .trailingName? (.bind .whenCondition .ret))
  case EXIT | LEAVE | BREAK =>
    change (Production.checkKeyword .BREAK >>= _) p = _
    rw [Production.run_bind, Production.run_checkKeyword, h.kind]
    refine h.run_advance ?_
    first
      | exact .bind .trailingName? (.bind .whenCondition .ret)
      | exact .bind .ret (.bind .whenCondition .ret)

/-- A statement that ends behind such a word is the one that the word stands for. -/
theorem parse_bare {s : Statement} (hcancelled : ¬p.cancelled) (hexpired : ¬p.expired)
    (hkind : p.current.kind = .keyword word) (hword : word.isReserved)
    (hbehind : p.peek.kind = .semicolon ∨ p.peek.kind = .eof ∨
      p.isBatchSeparator p.peek ∧ word.takesName = false)
    (hs : bareStatement? word = some s) : Grammar.parse p = .ok s p.advance := by
  have hadvance : p.advance.current = p.peek := by
    rw [Parser.advance_of_live hcancelled hexpired, Parser.countCurrent_eq]
  rw [Grammar.parse, Grammar.statement, Production.run_bind, Production.run_kind, hkind]
  dsimp only
  rw [if_pos hword]
  exact Bare.keywordStatement ⟨hkind, hbehind, hadvance⟩ hs

end Parser

/-! ## Behind the first word -/

namespace Production

open Likeness (same)

variable {α β : Type} {p : Parser} {m : Production α} {k : α → Level}

/-- A production comes to a level behind the current token, that is, behind the place of the next one. -/
def BehindFirst (p : Parser) (m : Production α) (k : α → Level) : Prop :=
  ∀ a q, m p = .ok a q → (k a).Holds (p.advance, p.advance) q q

namespace BehindFirst

/-- What is read behind the current token starts at the next one. -/
theorem bindPasses {pass : Production Unit} {f : Unit → Production α} (hp : p.Underway)
    (hpass : ∀ q, pass p = .ok () q → q = p.advance)
    (hf : (same .equal p.errors).Lockstep (p.advance, p.advance) .start (f ()) (f ()) k) :
    BehindFirst p (pass >>= f) k := by
  intro a q h
  obtain ⟨⟨⟩, x, hx, hrest⟩ := ok_of_bind h
  rw [hpass x hx] at hrest
  have hstate := ((same .equal p.errors).advance hp.same).resolve_right id
  have houtcome := hf (p.advance, p.advance) ⟨.refl _, .refl _⟩ _ _ hstate ⟨.refl _, .refl _⟩
  rw [hrest] at houtcome
  cases houtcome with
  | ok hs _ _ hlevel => exact hlevel
  | past h => cases h; contradiction

theorem advance {f : Unit → Production α} (hp : p.Underway)
    (hf : (same .equal p.errors).Lockstep (p.advance, p.advance) .start (f ()) (f ()) k) :
    BehindFirst p (Production.advance >>= f) k := by
  refine bindPasses hp (fun q hq => ?_) hf
  cases hq
  rfl

theorem expectKeyword {word : Keyword} {f : Unit → Production α} (hp : p.Underway)
    (hf : (same .equal p.errors).Lockstep (p.advance, p.advance) .start (f ()) (f ()) k) :
    BehindFirst p (Production.expectKeyword word >>= f) k := by
  refine bindPasses hp (fun q hq => ?_) hf
  rw [run_expectKeyword] at hq
  split at hq
  · cases hq
    rfl
  · cases hq

/-- What is looked at before does not matter. -/
theorem bindLooks {s : Production β} {f : β → Production α} (hs : Looks s)
    (hf : ∀ b, BehindFirst p (f b) k) : BehindFirst p (s >>= f) k := by
  intro a q h
  obtain ⟨b, hb⟩ := hs p
  rw [run_bind, hb] at h
  exact hf b a q h

/-- What is seen there. -/
theorem bindRuns {s : Production β} {b : β} {f : β → Production α} (hs : s p = .ok b p)
    (hf : BehindFirst p (f b) k) : BehindFirst p (s >>= f) k := by
  intro a q h
  rw [run_bind, hs] at h
  exact hf a q h

theorem ite {c : Prop} [Decidable c] {n : Production α} (hthen : BehindFirst p m k)
    (helse : BehindFirst p n k) : BehindFirst p (if c then m else n) k := by
  split
  · exact hthen
  · exact helse

theorem map {g : α → β} {j : β → Level} (h : BehindFirst p m k) (hj : ∀ a, (j (g a)).Follows (k a)) :
    BehindFirst p (g <$> m) j := by
  intro b q hb
  obtain ⟨a, ha, rfl⟩ := ok_of_map hb
  exact (hj a).holds (h a q ha)

/-! ## Words that are statements by themselves -/

variable {N : Grammar.Nested}

theorem commit (hp : p.Underway) :
    BehindFirst p Grammar.commit (Level.besides (.commit false none)) := by
  refine expectKeyword hp (.bind .consumeWork fun work => .bind .transactionName? fun name => ?_)
  refine .bind .skipChain fun _ => ?_
  cases work <;> cases name <;> exact .ret

theorem rollback (hp : p.Underway) :
    BehindFirst p Grammar.rollback (Level.besides (.rollback ⟨false, none, none⟩)) := by
  refine expectKeyword hp (.bind .consumeWork fun work => .bind .transactionName? fun name => ?_)
  refine .bind (.behind (.bind .skipKeyword fun _ => .name)) fun savepoint => ?_
  refine .bind .skipChain fun _ => ?_
  cases work <;> cases name <;> cases savepoint <;> exact .ret

theorem beginTransaction (hp : p.Underway) :
    BehindFirst p (Statement.beginTransaction <$> Grammar.beginTransaction)
      (Level.besides (.beginTransaction {})) := by
  refine map (k := Level.besides {}) ?_ fun node => ?_
  · refine expectKeyword hp (.bind .lockingMode fun locking => .bind .skipTransactionWord fun _ => ?_)
    refine .bind .dialect fun d => .ite (fun _ => ?_) fun _ => ?_
    · refine .bind .transactionName? fun name => ?_
      cases locking <;> cases name <;> exact .ret
    · refine .bind .transactionModes fun modes => ?_
      cases locking <;> cases modes <;> first | exact .ret | exact .rest
  · by_cases hnode : node = {}
    · subst hnode
      infer_instance
    · rw [Level.besides_of_ne hnode]
      infer_instance

section

variable (hp : p.Underway) (h : (same .equal p.errors).Nested (p.advance, p.advance) N N)
include hp h

theorem leave : BehindFirst p (Grammar.leave N) (Level.besides (.leave none none)) := by
  refine bindLooks .check fun plain => advance hp ?_
  have hbehind (label : Option String) :
      (same .equal p.errors).Lockstep (p.advance, p.advance) (Level.start.item label)
        (Grammar.whenCondition N >>= fun condition => pure (Statement.leave label condition))
        (Grammar.whenCondition N >>= fun condition => pure (Statement.leave label condition))
        (Level.besides (Statement.leave none none)) := by
    refine .bind (.whenCondition h) fun condition => ?_
    cases label <;> cases condition <;> exact .ret
  exact .ite (fun _ => .bind .trailingName? hbehind) fun _ => .bind (.ret (a := none)) hbehind

theorem iterate : BehindFirst p (Grammar.iterate N) (Level.besides (.iterate none none)) := by
  refine advance hp (.bind .trailingName? fun label => .bind (.whenCondition h) fun condition => ?_)
  cases label <;> cases condition <;> exact .ret

theorem raise (hk : p.current.kind = .keyword .RAISE) : BehindFirst p (Grammar.raise N)
    (Level.besides (.raise ⟨false, none, none, [], none, []⟩)) := by
  have hmissed : Production.consumeKeyword .RAISERROR p = .ok false p := by
    simp [hk]
  refine bindRuns hmissed (expectKeyword hp (.bind .raiseLevel fun level => ?_))
  refine .bind (.raiseSubject h) fun subject => .bind (.behind (.assignments h)) fun options => ?_
  by_cases hsubject : subject = (none, [], none)
  · subst hsubject
    rw [Level.besides_self]
    cases level <;> cases options <;> first | exact .ret | exact .rest
  · rw [Level.besides_of_ne hsubject]
    cases level <;> exact .ret

theorem signal : BehindFirst p (Grammar.signal N)
    (Level.besides (.signal ⟨p.current.kind == .keyword .RESIGNAL, none, none, []⟩)) := by
  have hagain : Production.checkKeyword .RESIGNAL p =
      .ok (p.current.kind == .keyword .RESIGNAL) p := run_checkKeyword _
  refine bindRuns hagain (advance hp (.bind .signalledCondition fun condition => ?_))
  refine .bind (.behind (.assignments h)) fun properties => ?_
  by_cases hcondition : condition = (none, none)
  · subst hcondition
    rw [Level.besides_self]
    cases properties <;> first | exact .ret | exact .rest
  · rw [Level.besides_of_ne hcondition]
    exact .ret

theorem tryCatch : BehindFirst p (Grammar.tryCatch N) fun _ => .moved := by
  refine expectKeyword hp (.bind .expectKeyword fun _ => .bind (.statementsToEnd h) fun body => ?_)
  refine .bind .expectKeyword fun _ => .bind .expectKeyword fun _ => .bind .skipSemicolons fun _ => ?_
  refine .bind .expectKeyword fun _ => .bind .expectKeyword fun _ => ?_
  refine .bind (.statementsToEnd h) fun handler => ?_
  exact .bind .expectKeyword fun _ => .bind .expectKeyword fun _ => .ret

/-- The value may start at once, so its reading has to lead on. -/
theorem returnStatement
    (hvalue : (same .equal p.errors).Lockstep (p.advance, p.advance) .start N.expression N.expression
      fun _ => .moved) :
    BehindFirst p (Grammar.returnStatement N) (Level.besides (.returnValue none)) := by
  refine expectKeyword hp (.bindIf .checkKeywords ?_ ?_)
  · exact .bind .advance fun _ => .bind h.selections fun _ => .ret
  · refine .bindTests (.mono .checkKeyword (.refl _) fun _ => .start _) (fun _ _ => ?_) fun _ _ => rfl
    extract_lets rest
    have hrest (u : Unit) : (same .equal p.errors).Lockstep (p.advance, p.advance) .start (rest u)
        (rest u) (Level.besides (Statement.returnValue none)) :=
      .bindIf .atExpressionStart (.bind hvalue fun _ => .ret) .ret
    exact .ite (fun _ => .bind .advance hrest) fun _ => hrest ()

theorem throwStatement
    (hnumber : (same .equal p.errors).Lockstep (p.advance, p.advance) .start N.expression N.expression
      fun _ => .moved) :
    BehindFirst p (Grammar.throwStatement N) (Level.besides (.throwing none)) := by
  refine expectKeyword hp (.bindIf .atExpressionStart ?_ .ret)
  refine .bind hnumber fun errorNumber => .bind .expect fun _ => ?_
  refine .bind h.expression fun message => .bind .expect fun _ => ?_
  exact .bind h.expression fun _ => .ret

theorem block (hk : p.current.kind = .keyword .BEGIN)
    (hstatement : (same .equal p.errors).Lockstep (p.advance, p.advance) .start N.statement N.statement
      fun _ => .moved) : BehindFirst p (Grammar.block N none) fun _ => .moved := by
  have hsection : Grammar.declarationSection N p = .ok [] p := by
    simp [Grammar.declarationSection, hk]
  have hdeclarations := (Likeness.Lockstep.innerDeclarations h).mono (.refl .start) fun inner =>
    .start (Level.start.items inner)
  refine bindRuns hsection (expectKeyword hp (.bind hdeclarations fun inner => ?_))
  refine .bind (.statements_fromHere hstatement) fun body => ?_
  refine .bind (.behind (.exceptionHandlers h)) fun handlers => .bind .expectKeyword fun _ => ?_
  exact .bind .trailingName? fun endLabel => .ret

theorem begin (hk : p.current.kind = .keyword .BEGIN)
    (hstatement : (same .equal p.errors).Lockstep (p.advance, p.advance) .start N.statement N.statement
      fun _ => .moved) :
    BehindFirst p (Grammar.begin N) (Level.besides (.beginTransaction {})) := by
  refine bindLooks .checkPeek fun _ => ite ?_ ?_
  · exact fun s q hs => (inferInstance : (Level.besides _ s).Follows .moved).holds (tryCatch hp h s q hs)
  refine bindLooks .transactionFollows fun _ => ite (beginTransaction hp) ?_
  refine bindLooks .get fun _ => bindLooks .dialect fun _ => ite ?_ (beginTransaction hp)
  exact (block hp h hk hstatement).map fun _ => inferInstance

end

/-- A word that may stand by itself. -/
theorem keywordStatement (hp : p.Underway) (hend : ¬p.atEnd) {word : Keyword} {s : Statement}
    (hk : p.current.kind = .keyword word) (hs : bareStatement? word = some s) :
    BehindFirst p (Grammar.keywordStatement (.below p.remaining) word) (Level.besides s) := by
  have hbeyond := hp.sound.beyond_advance hend
  have hnested := (same .equal p.errors).nested_below (b := (p, p)) (le_refl _) (le_refl _)
  have h := (same .equal p.errors).nested_below (b := (p.advance, p.advance))
    hbeyond.remaining.le hbeyond.remaining.le
  have hexpression := hnested.outside.expression.fromHere ⟨hbeyond, hbeyond⟩
  have hstatement := hnested.outside.statement.fromHere ⟨hbeyond, hbeyond⟩
  cases word <;> simp only [bareStatement?, reduceCtorEq, Option.some.injEq] at hs <;> subst hs
  case BEGIN => exact begin hp h hk hstatement
  case COMMIT => exact commit hp
  case ROLLBACK => exact rollback hp
  case RETURN => exact returnStatement hp h hexpression
  case THROW => exact throwStatement hp h hexpression
  case RAISE => exact raise hp h hk
  case SIGNAL | RESIGNAL =>
    have hsignal := signal hp h
    rw [hk] at hsignal
    exact hsignal
  case CONTINUE | ITERATE => exact iterate hp h
  case EXIT | LEAVE | BREAK => exact leave hp h

end BehindFirst

end Production

/-- A statement of which nothing is read behind such a word is the one that the word stands for. -/
theorem Parser.Underway.parse_first {p q : Parser} {word : Keyword} {s s' : Statement} (hp : p.Underway)
    (hlive : p.expired = false) (hk : p.current.kind = .keyword word) (hword : word.isReserved)
    (hs : bareStatement? word = some s) (hparse : Grammar.parse p = .ok s' q)
    (hbehind : q.current = p.peek) : s' = s := by
  have hend : ¬p.atEnd := by
    rw [atEnd, Token.isEof, hk]
    exact Bool.false_ne_true
  have hfirst : Grammar.parse p = Grammar.keywordStatement (.below p.remaining) word p := by
    rw [Grammar.parse, Grammar.statement, Production.run_bind, Production.run_kind, hk]
    dsimp only
    rw [if_pos hword]
  have hreaches : p.Reaches q := by
    have houtcome := Likeness.parse_outcome hp.same
    rw [hparse] at houtcome
    cases houtcome with
    | ok _ hleft _ _ => exact hleft
    | past h => cases h; contradiction
  have hcome := Production.BehindFirst.keywordStatement hp hend hk hs s' q (hfirst ▸ hparse)
  by_contra hne
  rw [Level.besides_of_ne hne] at hcome
  -- Nothing is left in less text than from the next token on.
  have hnext : p.advance.current = q.current := by
    have hcancelled : ¬p.cancelled := fun hc => by
      rw [(hp.sound.stopped hc).1] at hlive
      cases hlive
    rw [advance_of_live hcancelled (by rw [hlive]; exact Bool.false_ne_true), countCurrent_eq, hbehind]
  have hsame : q.remaining = p.advance.remaining := by
    rw [remaining, remaining, atEnd, atEnd, hreaches.source, advance_source, hnext]
  exact absurd hcome.1.remaining (by rw [hsame]; exact lt_irrefl _)

end SqlFrontend
