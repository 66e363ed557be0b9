import SqlFrontend.Proofs.Grammar.Following
import SqlFrontend.Proofs.Grammar.Label
import SqlFrontend.Proofs.Parsing.Telling

/-!
# Heads of routines

The definition of a routine is its head, its characteristics and its body, and again characteristics. The
head reaches from the first word to the parameters or the type of the values, with the options that SQL
Server has there and of which nothing is kept.

Results:
* `Grammar.routineHead`, `Grammar.routineRest`: the head, and what is read behind it.
* `Grammar.splits_create`: where a definition is one of a routine, it is the head and what is read behind it.
* `Junction.Tells.routineHead`: a head is read the same before whatever may stand behind it, or it has other
  parameters. The last parameter may take the first word behind the head for its type, and its own type
  for its name.
-/

namespace SqlFrontend

/-- The head of a definition of a routine. A function has a type of its values, a procedure has none. -/
structure RoutineHead where
  orReplace : Bool
  name : ObjectName
  parameters : List Parameter
  returns : Option DataType

namespace RoutineHead

/-- The definition with given characteristics and a given body. -/
def statement (head : RoutineHead) (options : RoutineOptions) (body : Block) : Statement :=
  let routine : Routine := ⟨head.orReplace, head.name, head.parameters, options, body⟩
  match head.returns with
  | none => .createProcedure routine
  | some type => .createFunction routine type

/-- A definition shows its head, its characteristics and its body. -/
theorem statement_inj {head head' : RoutineHead} {options options' : RoutineOptions} {body body' : Block}
    (h : head.statement options body = head'.statement options' body') :
    head = head' ∧ options = options' ∧ body = body' := by
  obtain ⟨orReplace, name, parameters, _ | type⟩ := head
  all_goals
    obtain ⟨orReplace', name', parameters', _ | type'⟩ := head'
    all_goals cases h
    exact ⟨rfl, rfl, rfl⟩

end RoutineHead

/-- Definitions of routines. -/
def Statement.IsRoutine : Statement → Prop
  | createProcedure _ | createFunction _ _ => True
  | _ => False

theorem RoutineHead.isRoutine_statement (head : RoutineHead) (options : RoutineOptions) (body : Block) :
    (head.statement options body).IsRoutine := by
  obtain ⟨orReplace, name, parameters, _ | type⟩ := head <;> trivial

namespace Grammar

open Production

/-! ## Productions -/

/-- Options of SQL Server behind the parameters of a routine. -/
def executionOptions? : Production (Option (List String)) := do
  match ← kind with
  | .keyword .WITH =>
    if (← dialect) = .sqlServer && (← peekIsName) then
      advance
      some <$> list name
    else return none
  | _ => return none

section

variable (nested : Nested)

/-- The head of a procedure, from the word for it on. -/
def procedureHead (orReplace : Bool) : Production RoutineHead := do
  unless ← consumeKeyword .PROCEDURE do
    expectWord "PROC"
  let name ← objectName
  let parameters ← parameters nested
  return ⟨orReplace, name, parameters, none⟩

/-- The head of a function, from the word for it on. -/
def functionHead (orReplace : Bool) : Production RoutineHead := do
  expectKeyword .FUNCTION
  let name ← objectName
  let parameters ← parameters nested
  unless ← consumeKeyword .RETURNS do
    fail .functionWithoutReturns (← span)
  return ⟨orReplace, name, parameters, some (← returnType)⟩

/-- The head of a procedure or of a function. -/
def namedHead (orReplace : Bool) : Production RoutineHead := do
  match ← kind with
  | .keyword .PROCEDURE => procedureHead nested orReplace
  | .keyword .FUNCTION => functionHead nested orReplace
  | .keyword .TABLE | .keyword .INDEX | .keyword .VIEW | .keyword .MATERIALIZED | .keyword .TRIGGER =>
    expected "PROCEDURE or FUNCTION"
  | _ =>
    if ← checkWord "PROC" then procedureHead nested orReplace else expected "PROCEDURE or FUNCTION"

/-- The head of a definition of a routine. -/
def routineHead : Production RoutineHead := do
  expectKeyword .CREATE
  let orReplace ← orReplace
  let _ ← consumeAny [.keyword .TEMPORARY, .keyword .TEMP]
  let _ ← consumeKeyword .UNIQUE
  let _ ← clustering
  let head ← namedHead nested orReplace
  let _ ← many executionOptions?
  return head

/-- What stands behind the head of a routine. -/
def routineRest (head : RoutineHead) : Production Statement := do
  let options ← routineOptions {}
  let body ← routineBody nested
  let options ← routineOptions options
  return head.statement options body

end

/-! ## Options that are passed -/

/-- Where options of SQL Server stand. -/
def AtExecutionOptions (p : Parser) : Prop :=
  p.current.kind = .keyword .WITH ∧ p.dialect = .sqlServer ∧ p.peek.isName

theorem run_executionOptions? {p : Parser} (h : AtExecutionOptions p) :
    executionOptions? p = (some <$> list name) p.advance := by
  obtain ⟨hkind, hdialect, hname⟩ := h
  rw [executionOptions?, run_bind, run_kind, hkind]
  simp [hdialect, hname, peekIsName]

theorem run_executionOptions?_none {p : Parser} (h : ¬AtExecutionOptions p) :
    executionOptions? p = .ok none p := by
  obtain ⟨k, hk⟩ : ∃ k, p.current.kind = k := ⟨_, rfl⟩
  rw [executionOptions?, run_bind, run_kind, hk]
  dsimp only
  split
  · simpa [peekIsName] using fun hdialect hname => absurd ⟨hk, hdialect, hname⟩ h
  · rfl

/-- Options of SQL Server are read among the characteristics, and nothing of them is kept. -/
theorem run_routineOption?_with {p : Parser} (options : RoutineOptions) (h : AtExecutionOptions p) :
    routineOption? options p = ((fun _ => some options) <$> list name) p.advance := by
  obtain ⟨hkind, hdialect, hname⟩ := h
  rw [routineOption?, run_bind, run_kind, hkind]
  simp [hdialect, hname, peekIsName]
  cases list name p.advance <;> rfl

/-- A round of the characteristics. -/
def routineRound (options : RoutineOptions) : Production (Step RoutineOptions RoutineOptions) := do
  match ← routineOption? options with
  | some options => return .more options
  | none => return .done options

theorem routineOptions_eq_loop (options : RoutineOptions) :
    routineOptions options = loop routineRound options := rfl

theorem run_loop_stuck {σ α : Type} {round : σ → Production (Step σ α)} {s s' : σ} {p q : Parser}
    (h : round s p = .ok (.more s') q) (hless : ¬q.remaining < p.remaining) :
    loop round s p = .error (q.expectedError "more input") q := by
  rw [loop.eq_def, h]
  exact if_neg hless

theorem run_loop_error {σ α : Type} {round : σ → Production (Step σ α)} {s : σ} {e : ParseError}
    {p q : Parser} (h : round s p = .error e q) : loop round s p = .error e q := by
  rw [loop.eq_def, h]

/-- Before the characteristics, the options of SQL Server are passed without a trace. -/
theorem routineOptions_eq (options : RoutineOptions) :
    routineOptions options = many executionOptions? >>= fun _ => routineOptions options := by
  have hpassed (p : Parser) (before : List (List String)) :
      routineOptions options p = match loop (collect executionOptions?) before p with
        | .ok _ q => routineOptions options q
        | .error e q => .error e q := by
    induction hk : p.remaining using Nat.strong_induction_on generalizing p before with
    | _ k ih =>
      subst hk
      by_cases h : AtExecutionOptions p
      · have hoption := run_routineOption?_with options h
        have hpassed := run_executionOptions? h
        cases hnames : list name p.advance with
        | error e q =>
          rw [run_map, hnames] at hoption hpassed
          have hround : routineRound options p = .error e q := by rw [routineRound, run_bind, hoption]
          have hcollect : collect executionOptions? before p = .error e q := by
            rw [collect, run_bind, hpassed]
          rw [routineOptions_eq_loop, run_loop_error hround, run_loop_error hcollect]
        | ok names q =>
          rw [run_map, hnames] at hoption hpassed
          have hround : routineRound options p = .ok (.more options) q := by
            rw [routineRound, run_bind, hoption]
            rfl
          have hcollect : collect executionOptions? before p = _ := run_collect hpassed
          by_cases hless : q.remaining < p.remaining
          · rw [routineOptions_eq_loop, run_loop_more hround hless, run_loop_more hcollect hless]
            exact ih _ hless q (names :: before) rfl
          · rw [routineOptions_eq_loop, run_loop_stuck hround hless, run_loop_stuck hcollect hless]
      · rw [run_loop_done (run_collect (run_executionOptions?_none h))]
  funext p
  rw [run_bind, many_eq_collect, hpassed p []]
  cases loop (collect executionOptions?) [] p <;> rfl

/-! ## Heads as fronts of definitions -/

/-- Where the opening succeeds, the whole does what follows from its result. Where the whole gives something
of a kind, the opening succeeds. -/
structure Splits {α β : Type} (P : β → Prop) (opening : Production α) (rest : α → Production β)
    (whole : Production β) : Prop where
  opens : Opens opening rest whole
  found : ∀ p b r, P b → whole p = .ok b r → ∃ a q, opening p = .ok a q

namespace Splits

variable {α β γ : Type} {P : β → Prop} {m : Production γ} {f : γ → Production α} {g : γ → Production β}
  {opening : Production α} {rest : α → Production β} {whole : Production β}

theorem ret {a : α} : Splits P (pure a) rest (rest a) :=
  ⟨.ret, fun p _ _ _ _ => ⟨a, p, rfl⟩⟩

theorem bind (h : ∀ x, Splits P (f x) rest (g x)) : Splits P (m >>= f) rest (m >>= g) := by
  refine ⟨.bind fun x => (h x).opens, fun p b r hb hrun => ?_⟩
  obtain ⟨x, p', hm, hrun⟩ := ok_of_bind hrun
  obtain ⟨a, q, ha⟩ := (h x).found p' b r hb hrun
  refine ⟨a, q, ?_⟩
  rw [run_bind, hm]
  exact ha

theorem ite {c : Prop} [Decidable c] {other : Production α} {otherwise : Production β}
    (h : c → Splits P opening rest whole) (h' : ¬c → Splits P other rest otherwise) :
    Splits P (if c then opening else other) rest (if c then whole else otherwise) := by
  split
  · exact h ‹_›
  · exact h' ‹_›

theorem never {what : String} (h : Gives whole fun b => ¬P b) :
    Splits P (Production.expected what) rest whole :=
  ⟨.expected what, fun p b r hb hrun => absurd hb (h p b r hrun)⟩

/-- What is passed behind the opening belongs to it, if what follows passes it as well. -/
theorem through {passed : Production γ} (h : Splits P opening rest whole)
    (hrest : ∀ a, rest a = passed >>= fun _ => rest a) :
    Splits P (opening >>= fun a => passed >>= fun _ => pure a) rest whole := by
  refine ⟨fun p a q hrun => ?_, fun p b r hb hrun => ?_⟩
  · obtain ⟨a', x, ha, hrun⟩ := ok_of_bind hrun
    obtain ⟨_, y, hpassed, hrun⟩ := ok_of_bind hrun
    cases hrun
    rw [h.opens p a x ha]
    refine (congrFun (hrest a) x).trans ?_
    rw [run_bind, hpassed]
  · obtain ⟨a, x, ha⟩ := h.found p b r hb hrun
    rw [h.opens p a x ha, hrest] at hrun
    obtain ⟨_, y, hpassed, -⟩ := ok_of_bind hrun
    refine ⟨a, y, ?_⟩
    rw [run_bind, ha]
    dsimp only
    rw [run_bind, hpassed]
    rfl

end Splits

section

variable {nested : Nested} {orReplace : Bool}

/-- The characteristics pass what the head passes at its end. -/
theorem routineRest_eq (head : RoutineHead) :
    routineRest nested head = many executionOptions? >>= fun _ => routineRest nested head := by
  rw [routineRest, ← bind_assoc, ← routineOptions_eq]

theorem splits_createProcedure : Splits Statement.IsRoutine (procedureHead nested orReplace)
    (routineRest nested) (createProcedure nested orReplace) := by
  refine .bind fun _ => ?_
  have hrest : Splits Statement.IsRoutine
      (do
        let name ← objectName
        let parameters ← parameters nested
        return ⟨orReplace, name, parameters, none⟩)
      (routineRest nested)
      (do
        let name ← objectName
        let parameters ← parameters nested
        return .createProcedure (← routineEnd nested orReplace name parameters)) := by
    refine .bind fun name => .bind fun parameters => ?_
    simp only [routineEnd, bind_assoc, pure_bind]
    exact .ret
  exact .ite (fun _ => hrest) fun _ => .bind fun _ => hrest

theorem splits_createFunction : Splits Statement.IsRoutine (functionHead nested orReplace)
    (routineRest nested) (createFunction nested orReplace) := by
  refine .bind fun _ => .bind fun name => .bind fun parameters => .bind fun found => ?_
  have hrest : Splits Statement.IsRoutine
      (do return ⟨orReplace, name, parameters, some (← returnType)⟩) (routineRest nested)
      (do
        let returns ← returnType
        return .createFunction (← routineEnd nested orReplace name parameters) returns) := by
    refine .bind fun returns => ?_
    simp only [routineEnd, bind_assoc, pure_bind]
    exact .ret
  exact .ite (fun _ => hrest) fun _ => .bind fun _ => .bind fun _ => hrest

/-- Where a definition is one of a routine, it is the head and what is read behind it. -/
theorem splits_create : Splits Statement.IsRoutine (routineHead nested) (routineRest nested)
    (create nested) := by
  refine .bind fun _ => .bind fun orReplace => .bind fun temporary => .bind fun unique => ?_
  refine .bind fun clustered => ?_
  refine (?_ : Splits _ (namedHead nested orReplace) _ _).through routineRest_eq
  refine .bind fun k => ?_
  have hother {α : Type} {m : Production α} {f : α → Statement} (hf : ∀ a, ¬(f a).IsRoutine) :
      Gives (f <$> m) fun s => ¬s.IsRoutine := .map fun _ a _ _ => hf a
  split
  · exact splits_createProcedure
  · exact splits_createFunction
  · exact .never (hother (f := .createTable) fun _ => id)
  · exact .never (hother (f := .createIndex) fun _ => id)
  · exact .never (hother (f := .createView) fun _ => id)
  · exact .never (.after fun _ => .after fun _ => .after fun _ => hother (f := .createView) fun _ => id)
  · exact .never (hother (f := .createTrigger) fun _ => id)
  · split
    all_goals first
      | contradiction
      | exact .bind fun isWord => .ite (fun _ => splits_createProcedure) fun _ => .never .expected

/-- The first word of a definition leads to it. -/
theorem statement_of_create {p : Parser} (h : p.current.kind = .keyword .CREATE) :
    statement nested p = create nested p := by
  rw [statement, run_bind, run_kind, h]
  rfl

end

end Grammar

/-! ## Heads that are read alike -/

namespace Likeness.Lockstep

variable {L : Likeness} {b : Parser × Parser} {l : Level} {N N' : Grammar.Nested} {orReplace : Bool}

theorem executionOptions? : L.Lockstep b .start Grammar.executionOptions? Grammar.executionOptions?
    Level.start.item := by
  refine .bindKinds fun k => ?_
  split
  · refine .bindDialect fun d => .bindPeek fun _ => .of (.ite (fun _ => ?_) fun _ => .ret)
    exact .bind .advance fun _ => .mapSome (.list .name)
  · exact .of .ret

theorem procedureHead (h : L.Nested b N N') : L.Lockstep b l (Grammar.procedureHead N orReplace)
    (Grammar.procedureHead N' orReplace) fun _ => .moved := by
  refine .strict (.bindUnless .consumeKeyword (.expectWord (by decide)) (.bind .objectName fun name => ?_))
  exact .bind (.parameters h) fun parameters => .stay

theorem functionHead (h : L.Nested b N N') : L.Lockstep b l (Grammar.functionHead N orReplace)
    (Grammar.functionHead N' orReplace) fun _ => .moved := by
  refine .bind .expectKeyword fun _ => .bind .objectName fun name => .bind (.parameters h) fun parameters => ?_
  have hrest : L.Lockstep b .moved
      (do return RoutineHead.mk orReplace name parameters (some (← Grammar.returnType)))
      (do return RoutineHead.mk orReplace name parameters (some (← Grammar.returnType)))
      fun _ => .moved := .bind .returnType fun returns => .stay
  refine .bindIf .consumeKeyword hrest (.bindSpan fun t t' => ?_)
  exact .bind (k := fun _ => .moved) .fail fun _ => hrest.noting t t'

theorem namedHead (h : L.Nested b N N') : L.Lockstep b l (Grammar.namedHead N orReplace)
    (Grammar.namedHead N' orReplace) fun _ => .moved := by
  refine .strict (.bind .kind fun k => ?_)
  split
  · exact .procedureHead h
  · exact .functionHead h
  · exact .expected (by decide)
  · exact .expected (by decide)
  · exact .expected (by decide)
  · exact .expected (by decide)
  · exact .expected (by decide)
  · exact .bindIf .checkWord (.procedureHead h) (.expected (by decide))

theorem routineHead (h : L.Nested b N N') : L.Lockstep b l (Grammar.routineHead N)
    (Grammar.routineHead N') fun _ => .moved := by
  refine .bind .expectKeyword fun _ => .bind .orReplace fun orReplace => .bind .consumeAny fun _ => ?_
  refine .bind .consumeKeyword fun _ => .bind .clustering fun _ => .bind (.namedHead h) fun head => ?_
  exact .bind (.many .executionOptions?) fun _ => .stay

theorem returnType_strict :
    L.Lockstep b .start Grammar.returnType Grammar.returnType fun _ => .moved := by
  refine .bindCurrentPeek (fun t t' _ ht => ?_) fun t _ _ ht => ?_
  swap
  · rw [Token.not_startsWith_of_closes ht]
    rfl
  rw [ht.literal]
  extract_lets done rest
  have hrest {l : Level} (u : Unit) : L.Lockstep b l (rest u) (rest u) fun _ => .moved := by
    refine .strict (.bindIf .consumeKeyword (.bindIf .check ?_ .stay) .dataType)
    exact .bind .skipParens fun _ => .stay
  exact .ite (fun _ => .bind .advance hrest) fun _ => hrest ()

end Likeness.Lockstep

/-! ## Heads before what may follow them -/

namespace TokenKind

/-- The words that the characteristics of a routine start with. -/
def startsOption : TokenKind → Bool
  | .keyword .LANGUAGE | .keyword .SQL | .keyword .SECURITY | .keyword .DETERMINISTIC | .keyword .NOT
  | .keyword .CONTAINS | .keyword .NO | .keyword .READS | .keyword .MODIFIES | .keyword .COMMENT
  | .keyword .IMMUTABLE | .keyword .STABLE | .keyword .VOLATILE => true
  | _ => false

/-- The words that the body of a routine starts with, and the sign before a label. -/
def startsBody : TokenKind → Bool
  | .keyword .AS | .keyword .IS | .keyword .BEGIN | .keyword .DECLARE | .lt => true
  | _ => false

/-- What stands behind the head of a routine starts with one of these. -/
def followsHead (k : TokenKind) : Bool := k.startsOption || k.startsBody

theorem eq_of_startsBody {k : TokenKind} (h : k.startsBody) :
    k = .keyword .AS ∨ k = .keyword .IS ∨ k = .keyword .BEGIN ∨ k = .keyword .DECLARE ∨ k = .lt := by
  unfold startsBody at h
  split at h <;> simp at h ⊢

theorem continues_of_startsOption {k : TokenKind} (h : k.startsOption) : k.continues = false := by
  unfold startsOption at h
  split at h <;> first | rfl | cases h

theorem continues_of_followsHead {k : TokenKind} (h : k.followsHead) : k.continues = false := by
  rcases Bool.or_eq_true_iff.1 h with hoption | hbody
  · exact continues_of_startsOption hoption
  · rcases eq_of_startsBody hbody with rfl | rfl | rfl | rfl | rfl <;> rfl

/-- Of the words for characteristics, only the one that negates could be part of an operator. -/
theorem operator?_of_startsOption {k : TokenKind} (h : k.startsOption) (hnot : k ≠ .keyword .NOT)
    (next : TokenKind) : Grammar.operator? k next = none := by
  unfold startsOption at h
  split at h <;> first | rfl | exact absurd rfl hnot | cases h

/-- Whether the word that a body starts with is an operator does not depend on what is behind it. -/
theorem operator?_of_startsBody {k : TokenKind} (h : k.startsBody) (next next' : TokenKind) :
    Grammar.operator? k next = Grammar.operator? k next' := by
  rcases eq_of_startsBody h with rfl | rfl | rfl | rfl | rfl <;> rfl

end TokenKind

/-- A body starts with no name. -/
theorem Token.not_isName_of_startsBody {t : Token} (h : t.kind.startsBody) : t.isName = false := by
  rw [Token.isName]
  rcases TokenKind.eq_of_startsBody h with hk | hk | hk | hk | hk <;> rw [hk] <;> rfl

namespace Junction

/-- What follows a head of a routine. -/
structure BehindHead (J : Junction) : Prop extends Quiet J where
  hereFollows : J.here.kind.followsHead
  thereFollows : J.there.kind.followsHead

variable {J : Junction} {s : Spot} {n : ℕ} {p q p' : Parser} {k : TokenKind}

theorem BehindHead.lacksWord (h : J.BehindHead) (hk : k.followsHead = false) : J.Lacks k :=
  ⟨fun heq => Bool.false_ne_true (hk.symm.trans (heq ▸ h.hereFollows)),
    fun heq => Bool.false_ne_true (hk.symm.trans (heq ▸ h.thereFollows))⟩

namespace Follows

/-! ### Parts of heads -/

theorem parameterMode : J.Follows .inside n Grammar.parameterMode := by
  refine bindKind fun k => facing ?_
  split
  · exact advance.bind fun _ => ret
  · exact advance.bind fun _ => ret
  · exact advance.bind fun _ => ret
  · exact ret

theorem variadic (hJ : J.BehindHead) : J.Follows .any n Grammar.variadic := by
  refine bindCheckIf (hJ.lacksWord rfl) (bindTestInside (g := Token.span) (fun _ => rfl) fun place => ?_) ret
  exact require.bind fun _ => (advanceAny hJ.behind).bind fun _ => ret

theorem initialValue (hJ : J.BehindHead) :
    J.Follows .any n (Grammar.initialValue .tied [.keyword .DEFAULT, .assign]) := by
  refine (consumeAny fun k hk => hJ.lacksWord ?_).bind fun found => ite (fun _ => ?_) fun _ => ret
  · simp only [List.mem_cons, List.not_mem_nil, or_false] at hk
    rcases hk with rfl | rfl <;> rfl
  · exact (expression hJ.toQuiet).map _

theorem parameterIsOutput (hJ : J.BehindHead) : J.Follows .any n Grammar.parameterIsOutput := by
  refine (consumeWord (hJ.lacks rfl)).bind fun _ => ite (fun _ => ret) fun _ => ?_
  refine (consumeKeyword (hJ.lacksWord rfl)).bind fun _ => ite (fun _ => ret) fun _ => ?_
  exact ((consumeWord (hJ.lacks rfl)).map _).bind fun _ => ret

theorem returnType (hJ : J.BehindHead) : J.Follows .any n Grammar.returnType := by
  refine ofStrict (fun _ => .returnType_strict) (bindTestInside (g := id) (fun _ => rfl) fun t => ?_)
  refine bindCheckPeek (hJ.lacksWord rfl) id fun isTable => ?_
  extract_lets done rest
  have hrest (u : Unit) : J.Follows .any n (rest u) := by
    refine (consumeKeyword (hJ.lacksWord rfl)).bind fun _ => ite (fun _ => ?_) fun _ => dataType hJ.toQuiet
    refine bindCheck (hJ.lacks rfl) fun _ => ite (fun _ => ?_) fun _ => ret
    exact Closes.skipParens.bind fun _ => ret
  exact ite (fun _ => advance.bind hrest) fun _ => (hrest ()).inside

theorem orReplace (hJ : J.BehindHead) : J.Follows .any n Grammar.orReplace := by
  refine bindCheckKeywords (hJ.lacksWord rfl) (hJ.lacksWord rfl) fun _ => ?_
  refine bindCheckKeywords (hJ.lacksWord rfl) (hJ.lacksWord rfl) fun _ => ite (fun _ => ?_) fun _ => ret
  exact (advanceAny hJ.behind).bind fun _ => (advanceAny hJ.behind).bind fun _ => ret

theorem clustering (hJ : J.BehindHead) : J.Follows .any n Grammar.clustering := by
  refine (consumeKeyword (hJ.lacks rfl)).bind fun _ => ite (fun _ => ret) fun _ => ?_
  exact (consumeKeyword (hJ.lacks rfl)).bind fun _ => ite (fun _ => ret) fun _ => ret

/-- Options of SQL Server are told by a name behind the word for them. Where the word stands alone, nothing
is said. -/
theorem executionOptions? (hJ : J.BehindHead) : J.FollowsUnless
    (fun options p => options = none ∧ p.current.kind = .keyword .WITH) .any n Grammar.executionOptions? := by
  intro p q hpq hless options p' heq hend
  have hnext : J.Follows .inside n (do Production.advance; some <$> Production.list Production.name) :=
    advance.bind fun _ => (list (hJ.lacks rfl) name).map _
  by_cases h : Grammar.AtExecutionOptions p
  · rw [Grammar.run_executionOptions? h] at heq
    obtain ⟨hkind, hdialect, hname⟩ := h
    have hinside : J.Stands .inside p q := by
      refine hpq.imp_right ?_
      rintro ⟨xs, hat⟩
      cases xs with
      | nil => exact absurd (hat.left.current ▸ hkind) (hJ.lacks rfl).here
      | cons x xs => exact ⟨x, xs, hat⟩
    obtain ⟨hreaches, hto⟩ := hnext p q hinside hless options p' heq
    refine ⟨hreaches, ?_⟩
    rcases hinside with hpast | ⟨x, xs, hat⟩
    · exact .inl (hpast.reaches hreaches)
    have hthere : Grammar.AtExecutionOptions q := by
      refine ⟨by rw [hat.current.2, ← hat.current.1, hkind], hat.dialect ▸ hdialect, ?_⟩
      cases xs with
      | nil => rw [hat.left.peek] at hname; rw [hat.right.peek]; exact hJ.named hname
      | cons y ys => rw [hat.right.peek, ← hname, hat.left.peek]
    rw [Grammar.run_executionOptions? hthere]
    exact hto
  · rw [Grammar.run_executionOptions?_none h] at heq
    cases heq
    refine ⟨.refl p, hpq.imp_right ?_⟩
    rintro ⟨xs, hat⟩
    refine ⟨q, Grammar.run_executionOptions?_none ?_, .refl q, xs, hat⟩
    rintro ⟨hkind, -⟩
    cases xs with
    | nil => exact (hJ.lacks rfl).there (hat.right.current ▸ hkind)
    | cons x xs => exact hend ⟨rfl, by rw [hat.current.1, ← hat.current.2, hkind]⟩

theorem executionOptions (hJ : J.BehindHead) : J.FollowsUnless
    (fun _ p => p.current.kind = .keyword .WITH) .any n (Production.many Grammar.executionOptions?) := by
  refine .loop fun before => .bind (executionOptions? hJ) (fun options => ?_) ?_
  · cases options <;> exact Follows.anyway ret
  · rintro options p step p' ⟨rfl, hwith⟩ heq
    cases heq
    exact ⟨_, rfl, hwith⟩

end Follows

namespace Tells

/-! ### Heads -/

theorem run_parameterName? (p : Parser) : Grammar.parameterName? p =
    if p.current.isName && p.peek.isName then .ok (some p.current.literal) p.advance else .ok none p := by
  cases hname : p.current.isName <;> cases hpeek : p.peek.isName <;>
    simp [Grammar.parameterName?, Production.peekIsName, Production.name, hname, hpeek]

/-- A parameter has a name if a name follows that. -/
theorem parameterName? (hJ : J.BehindHead) :
    J.Tells (fun _ _ => False) (· ≠ ·) .inside Grammar.parameterName? := by
  intro p q hpq name p' heq _
  rw [run_parameterName?] at heq
  rcases hpq with hpast | ⟨x, xs, hat⟩
  · split at heq <;> cases heq
    · exact ⟨.advance p, .inl (hpast.reaches (.advance p))⟩
    · exact ⟨.refl p, .inl hpast⟩
  have hrun := run_parameterName? q
  rw [hat.current.2] at hrun
  rw [hat.current.1] at heq
  by_cases hname : x.isName && p.peek.isName
  · have hname' : x.isName && q.peek.isName := by
      obtain ⟨hcurrent, hpeek⟩ := Bool.and_eq_true_iff.1 hname
      refine Bool.and_eq_true_iff.2 ⟨hcurrent, ?_⟩
      cases xs with
      | nil => rw [hat.left.peek] at hpeek; rw [hat.right.peek]; exact hJ.named hpeek
      | cons y ys => rw [hat.right.peek, ← hpeek, hat.left.peek]
    rw [if_pos hname] at heq
    rw [if_pos hname'] at hrun
    cases heq
    exact ⟨.advance p, .inr ⟨q.advance, ⟨xs, hat.advance⟩, .inl ⟨hrun, .advance q⟩⟩⟩
  · rw [if_neg hname] at heq
    cases heq
    refine ⟨.refl p, .inr ⟨q, ⟨x :: xs, hat⟩, ?_⟩⟩
    by_cases hname' : x.isName && q.peek.isName
    · refine .inr ⟨?_, fun name q' hq' => ?_⟩
      · obtain ⟨hcurrent, hpeek⟩ := Bool.and_eq_true_iff.1 hname'
        rw [hcurrent, Bool.true_and] at hname
        cases xs with
        | nil => exact ⟨hat.right.peek ▸ hpeek, hat.left.peek ▸ hname⟩
        | cons y ys => exact absurd (hat.left.peek ▸ hat.right.peek ▸ hpeek) hname
      · rw [hrun, if_pos hname'] at hq'
        cases hq'
        exact (Option.some_ne_none _).symm
    · rw [if_neg hname'] at hrun
      exact .inl ⟨hrun, .refl q⟩

theorem parameter (hJ : J.BehindHead) :
    J.Tells (fun _ _ => False) (· ≠ ·) .any (Grammar.parameter .tied) := by
  refine ofStrict (fun _ => .parameter (Likeness.nested_tied _)) ?_
  refine thenTells (fun _ => Follows.parameterMode) fun mode => ?_
  refine thenTells (fun _ => Follows.variadic hJ) fun variadic => ?_
  refine ofStrict (fun _ => .strict (.bind .parameterName? fun name => .bind .dataType fun type =>
    .bind (.initialValue (Likeness.nested_tied _)) fun initial => .bind .parameterIsOutput fun _ => .stay)) ?_
  refine (parameterName? hJ).bind (fun name => Follows.tells fun n => ?_) (fun _ _ _ _ h => h.elim) ?_
  · refine (Follows.dataType hJ.toQuiet).bind fun type => (Follows.initialValue hJ).bind fun initial => ?_
    exact (Follows.parameterIsOutput hJ).bind fun isOutput => .ret
  · intro name name' p q parameter p' parameter' q' hne h h' heq
    have hnamed (name : Option String) : (do
        let type ← Grammar.dataType
        let initial ← Grammar.initialValue .tied [.keyword .DEFAULT, .assign]
        let mode := if ← Grammar.parameterIsOutput then some ParameterMode.output else mode
        return { mode, variadic, name, type, initial : Parameter }).Gives
          fun parameter => parameter.name = name :=
      .after fun _ => .after fun _ => .after fun _ => .ret rfl
    rw [← hnamed name p parameter p' h, ← hnamed name' q parameter' q' h', heq] at hne
    exact hne rfl

/-- A head without parentheses ends before a point. -/
theorem run_parameters_dot (h : p.current.kind = .dot) : Grammar.parameters .tied p = .ok [] p := by
  simp [Grammar.parameters, h]

theorem parameters (hJ : J.BehindHead) :
    J.Tells (fun _ _ => False) (· ≠ ·) .any (Grammar.parameters .tied) := by
  refine bindRead (g := fun p => p.current.kind == .leftParen) (fun _ => rfl) (fun xs p q hat _ => ?_)
    fun isOpen => ite (fun _ => Follows.tells fun _ => ?_) fun _ => ?_
  · cases xs with
    | nil =>
      have hlacks : J.Lacks .leftParen := hJ.lacks rfl
      rw [hat.left.current, hat.right.current, beq_false_of_ne hlacks.here, beq_false_of_ne hlacks.there]
    | cons => rw [hat.current.1, hat.current.2]
  · refine Closes.inParens fun b => .bindIf .check .ret (.list (.parameter (Likeness.nested_tied _)))
  · refine bindRead (g := Parser.current) (fun _ => rfl) (fun xs p q hat _ => ?_) fun token => ?_
    · have hlacks : J.Lacks .identifier := hJ.lacks rfl
      cases xs with
      | nil =>
        rw [hat.left.current, hat.right.current, if_neg fun h => hlacks.here h.1,
          if_neg fun h => hlacks.there h.1]
      | cons => rw [hat.current.1, hat.current.2]
    · exact ite (fun _ => list (hJ.lacks rfl) (parameter hJ)) fun _ => Follows.tells fun _ => .ret

/-- Behind a name of an object, nothing is said where what follows it stops before a point. -/
theorem objectName {α : Type} {f : ObjectName → Production α} {E : α → Parser → Prop} {D : α → α → Prop}
    (hJ : J.BehindHead) (hf : ∀ name, J.Tells E D .any (f name))
    (hdot : ∀ name p a p', p.current.kind = .dot → f name p = .ok a p' → E a p') :
    J.Tells E D .any (Grammar.objectName >>= f) :=
  (FollowsUnless.tells (D := fun _ _ => False) fun _ => Follows.objectName hJ.toQuiet).bind hf hdot
    fun _ _ _ _ _ _ _ _ h => h.elim

theorem procedureHead (hJ : J.BehindHead) {orReplace : Bool} :
    J.Tells (fun _ p => p.current.kind = .dot) (· ≠ ·) .any (Grammar.procedureHead .tied orReplace) := by
  have hrest : J.Tells (fun _ p => p.current.kind = .dot) (· ≠ ·) .any (do
      let name ← Grammar.objectName
      let parameters ← Grammar.parameters .tied
      return RoutineHead.mk orReplace name parameters none) := by
    refine objectName hJ (fun name => ?_) fun name p head p' hdot heq => ?_
    · refine (parameters hJ).bind (fun parameters => Follows.tells fun n => .ret) (fun _ _ _ _ h => h.elim) ?_
      intro parameters parameters' p q head p' head' q' hne heq heq' hsame
      cases heq
      cases heq'
      exact hne (congrArg RoutineHead.parameters hsame)
    · rw [Production.run_bind, run_parameters_dot hdot] at heq
      cases heq
      exact hdot
  refine thenTells (fun _ => Follows.consumeKeyword (hJ.lacksWord rfl)) fun found => ?_
  refine ite (fun _ => hrest) fun _ => ?_
  exact thenTells (fun _ => Follows.expectWord (by decide)) fun _ => hrest

theorem functionHead (hJ : J.BehindHead) {orReplace : Bool} :
    J.Tells (fun _ p => p.current.kind = .dot) (· ≠ ·) .any (Grammar.functionHead .tied orReplace) := by
  have hvalues (name : ObjectName) (parameters : List Parameter) (n : ℕ) : J.Follows .any n (do
      unless ← Production.consumeKeyword .RETURNS do
        Production.fail .functionWithoutReturns (← Production.span)
      return RoutineHead.mk orReplace name parameters (some (← Grammar.returnType))) := by
    refine (Follows.consumeKeyword (hJ.lacksWord rfl)).bind fun found => .ite (fun _ => ?_) fun _ => ?_
    · exact (Follows.returnType hJ).bind fun _ => .ret
    · refine .never fun p head p' heq => ?_
      cases heq
  refine thenTells (fun _ => Follows.expectKeyword) fun _ => ?_
  refine objectName hJ (fun name => ?_) fun name p head p' hdot heq => ?_
  · refine (parameters hJ).bind (fun parameters => Follows.tells (hvalues name parameters))
      (fun _ _ _ _ h => h.elim) ?_
    intro parameters parameters' p q head p' head' q' hne heq heq' hsame
    have hgives (ps : List Parameter) : (do
        unless ← Production.consumeKeyword .RETURNS do
          Production.fail .functionWithoutReturns (← Production.span)
        return RoutineHead.mk orReplace name ps (some (← Grammar.returnType))).Gives
          fun head => head.parameters = ps :=
      .after fun found => .ite (fun _ => .after fun _ => .ret rfl)
        fun _ => .after fun _ => .after fun _ => .after fun _ => .ret rfl
    refine hne ?_
    rw [← hgives parameters p head p' heq, ← hgives parameters' q head' q' heq', hsame]
  · rw [Production.run_bind, run_parameters_dot hdot] at heq
    simp [hdot] at heq
    cases heq

theorem namedHead (hJ : J.BehindHead) {orReplace : Bool} :
    J.Tells (fun _ p => p.current.kind = .dot) (· ≠ ·) .any (Grammar.namedHead .tied orReplace) := by
  refine ofStrict (fun _ => .namedHead (Likeness.nested_tied _)) ?_
  refine bindTestInside (g := Token.kind) (fun _ => rfl) fun k => ?_
  have hinside {m : Production RoutineHead} (h : J.Tells (fun _ p => p.current.kind = .dot) (· ≠ ·) .any m) :
      J.Tells (fun _ p => p.current.kind = .dot) (· ≠ ·) .inside m := fun p q hpq => h p q hpq.near
  split
  · exact hinside (procedureHead hJ)
  · exact hinside (functionHead hJ)
  · exact Follows.tells fun _ => .expected
  · exact Follows.tells fun _ => .expected
  · exact Follows.tells fun _ => .expected
  · exact Follows.tells fun _ => .expected
  · exact Follows.tells fun _ => .expected
  · refine bindTestInside (g := fun t => t.isWord "PROC") (fun _ => rfl) fun isWord => ?_
    refine ite (fun _ => ?_) fun _ => ?_
    · exact hinside (procedureHead hJ)
    · exact Follows.tells fun _ => .expected

/-- A head is read the same before whatever may follow it, or it has other parameters. Nothing is said where
it stops before a point or before the word for options of SQL Server. -/
theorem routineHead (hJ : J.BehindHead) :
    J.Tells (fun _ p => p.current.kind = .dot ∨ p.current.kind = .keyword .WITH) (· ≠ ·) .inside
      (Grammar.routineHead .tied) := by
  have hlacks {word : Keyword} (hword : TokenKind.followsHead (.keyword word) = false) :
      J.Lacks (.keyword word) := hJ.lacksWord hword
  refine thenTells (fun _ => Follows.expectKeyword.inside) fun _ => ?_
  refine thenTells (fun _ => Follows.orReplace hJ) fun orReplace => ?_
  refine thenTells (fun _ => Follows.consumeAny fun k hk => ?_) fun temporary => ?_
  · simp only [List.mem_cons, List.not_mem_nil, or_false] at hk
    rcases hk with rfl | rfl
    · exact hlacks rfl
    · exact hlacks rfl
  refine thenTells (fun _ => Follows.consumeKeyword (hlacks rfl)) fun unique => ?_
  refine thenTells (fun _ => Follows.clustering hJ) fun clustered => ?_
  have hstop (p : Parser) (hp : p.current.kind = .dot) :
      Production.many Grammar.executionOptions? p = .ok [] p := by
    refine Production.run_loop_done (Production.run_collect (Grammar.run_executionOptions?_none fun h => ?_))
    rw [h.1] at hp
    cases hp
  have hgives (head : RoutineHead) : (do
      let _ ← Production.many Grammar.executionOptions?
      return head).Gives fun head' => head = head' := .after fun _ => .ret rfl
  refine (namedHead hJ).bind (fun head => ?_) (fun head p head' p' hdot heq => ?_) ?_
  · refine (FollowsUnless.tells (D := fun _ _ => False) fun _ => Follows.executionOptions hJ).bind
      (fun _ => Follows.tells fun _ => .ret) (fun _ p _ p' hwith heq => ?_) fun _ _ _ _ _ _ _ _ h => h.elim
    cases heq
    exact .inr hwith
  · rw [Production.run_bind, hstop p hdot] at heq
    cases heq
    exact .inl hdot
  · intro head head' p q found p' found' q' hne heq heq'
    rwa [← hgives head p found p' heq, ← hgives head' q found' q' heq']

end Tells

end Junction

end SqlFrontend
