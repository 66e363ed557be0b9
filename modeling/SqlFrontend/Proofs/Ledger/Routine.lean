import SqlFrontend.Grammar.Trigger
import SqlFrontend.Proofs.Grammar.Routine
import SqlFrontend.Proofs.Ledger.Control

/-!
# What routines and triggers are charged for

* `Pays.quotedBody`: a quoted body is read by a parser of its own, with the same pools. It makes
  something only if that parser met no error.
* `Pays.createProcedure`, `Pays.createFunction`, `Pays.createTrigger`: definitions. Variadic parameters,
  the procedural language and triggers in place of a change are charged for where the dialect does not
  have them.
-/

namespace SqlFrontend.Ledger.Pays

variable {M : Type} [AddCommMonoid M] [PartialOrder M] [IsOrderedAddMonoid M] {L : Ledger M}
variable {N : Grammar.Nested}

/-! ## Parameters -/

theorem parameterMode : L.Quiet Grammar.parameterMode := by
  refine .bind .kind fun k => ?_
  split
  · exact .bind .advance fun _ => .stay
  · exact .bind .advance fun _ => .stay
  · exact .bind .advance fun _ => .stay
  · exact .stay

theorem variadic : L.Quiet Grammar.variadic
    fun isVariadic => isVariadic = true → L.dialect.supports .variadic = true := by
  refine .bindIf .checkKeyword (.bind .span fun place => .know .require fun _ hvariadic => ?_) (.found nofun)
  exact .bind .advance fun _ => .found fun _ => hvariadic

theorem parameterName? : L.Quiet Grammar.parameterName? :=
  .bind .atName fun _ => .bind .peekIsName fun _ => .ite (fun _ => name.mapQuiet) fun _ => .stay

theorem parameterIsOutput : L.Quiet Grammar.parameterIsOutput :=
  .bindIf .consumeWord .stay (.bindIf .consumeKeyword .stay (.bind .skipWord fun _ => .stay))

theorem parameter (h : L.Paying N) :
    L.Pays 0 (Grammar.parameter N) fun p => L.total (.parameter p) := by
  refine .bind parameterMode fun mode => .know variadic fun isVariadic hvariadic => ?_
  refine .bind parameterName? fun name => dataType.seq fun type => (initialValue h).seq fun initial => ?_
  refine .bind parameterIsOutput fun _ => .ret (total_le rfl ?_ (by simp [Component.fields]))
  cases isVariadic with
  | false => rfl
  | true => exact hvariadic rfl

theorem parameters (h : L.Paying N) : L.Pays 0 (Grammar.parameters N) (L.each .parameter) := by
  have hnone : L.Pays 0 (Pure.pure []) (L.each .parameter) := .ret (le_refl 0)
  refine .bindIf .check (.inParens (.bindIf .check hnone (list (parameter h)))) ?_
  exact .bind .current fun t => .ite (fun _ => list (parameter h)) fun _ => hnone

theorem returnType : L.Pays 0 Grammar.returnType fun type => L.total (.dataType type) := by
  refine .bind .current fun t => .bind .peekKeyword fun atTable => ?_
  extract_lets done rest
  have hdone (u : Unit) : L.Pays 0 (done u) fun type => L.total (.dataType type) :=
    .ret (total_ofName _)
  have hrest (u : Unit) : L.Pays 0 (rest u) fun type => L.total (.dataType type) :=
    .bindIf .consumeKeyword (.bindIf .check (.bind .skipParens hdone) (hdone ())) .dataType
  exact .ite (fun _ => .bind .advance hrest) fun _ => hrest ()

/-! ## Characteristics -/

theorem language : L.Quiet Grammar.language
    fun language => language = "PLPGSQL" → L.dialect.supports .plpgsql = true := by
  refine .bind .span fun place => .bind .name fun name => .ite (fun _ => ?_) fun hother => .found ?_
  · exact .know .require fun _ hplpgsql => .found fun _ => hplpgsql
  · exact fun hlanguage => absurd hlanguage hother

theorem securityMode : L.Quiet Grammar.securityMode :=
  .bindIf .consumeKeyword .stay (.bind .expectKeyword fun _ => .stay)

/-- The language of a routine is one that the dialect has. -/
def Speaks (L : Ledger M) (options : RoutineOptions) : Prop :=
  options.isPlpgsql = true → L.dialect.supports .plpgsql = true

theorem speaks_iff {options : RoutineOptions} : Speaks L options ↔
    (options.language = some "PLPGSQL" → L.dialect.supports .plpgsql = true) := by
  rw [Speaks, RoutineOptions.isPlpgsql, beq_iff_eq]

theorem routineOption? {options : RoutineOptions} (hspeaks : Speaks L options) :
    L.Quiet (Grammar.routineOption? options) fun item => ∀ next ∈ item, Speaks L next := by
  have hsame {next : RoutineOptions} (hnext : next.language = options.language) :
      L.Quiet (Pure.pure (some next)) fun item => ∀ next ∈ item, Speaks L next := by
    refine .found fun other hother => ?_
    rw [← Option.mem_some_iff.1 hother, speaks_iff, hnext]
    exact speaks_iff.1 hspeaks
  have hdata {word : Keyword} {next : RoutineOptions} (hnext : next.language = options.language) :
      L.Quiet (do Production.expectKeyword word; Production.expectKeyword .DATA; return some next)
        fun item => ∀ next ∈ item, Speaks L next :=
    .bind .expectKeyword fun _ => .bind .expectKeyword fun _ => hsame hnext
  refine .bind .kind fun k => .bind .peekKind fun k' => ?_
  split
  · refine .bind .advance fun _ => .know language fun name hname => .found fun next hnext => ?_
    rw [← Option.mem_some_iff.1 hnext, speaks_iff]
    exact fun heq => hname (Option.some.inj heq)
  · exact .bind .advance fun _ => hsame rfl
  · exact .bind .advance fun _ => .bind securityMode fun _ => hsame rfl
  · exact .bind .advance fun _ => hsame rfl
  · exact .bind .advance fun _ => .bind .advance fun _ => hsame rfl
  · exact .bind .advance fun _ => .bind .expectKeyword fun _ => hsame rfl
  · exact .bind .advance fun _ => .bind .advance fun _ => hsame rfl
  · exact .bind .advance fun _ => hdata rfl
  · exact .bind .advance fun _ => hdata rfl
  · exact .bind .advance fun _ => .bind .takeLiteral fun _ => hsame rfl
  · exact .bind .advance fun _ => hsame rfl
  · exact .bind .advance fun _ => hsame rfl
  · exact .bind .advance fun _ => hsame rfl
  · refine .know .dialect fun d _ => .bind .peekIsName fun _ => .ite (fun _ => ?_) fun _ => .found nofun
    exact .bind .advance fun _ => .bind (.discard (.listQuiet .name)) fun _ => hsame rfl
  · exact .found nofun

theorem routineOptions {options : RoutineOptions} (hspeaks : Speaks L options) :
    L.Quiet (Grammar.routineOptions options) (Speaks L) := by
  refine .loopWith (I := fun _ => 0) (J := Speaks L) (fun options hspeaks => ?_) (le_refl 0) hspeaks
  refine .know (routineOption? hspeaks) fun options? hnext => ?_
  cases options? with
  | none => exact .give (le_refl 0) hspeaks
  | some next => exact .give (le_refl 0) (hnext next rfl)

/-! ## Bodies -/

theorem atBlockStart : L.Quiet Grammar.atBlockStart := by
  refine .bind .kind fun k => .bind .peekKind fun k' => ?_
  split
  iterate 5
    · exact .stay
  · exact .know .dialect fun d _ => .stay
  · exact .stay
  · exact .stay

theorem labelledBlock (h : L.Paying N) :
    L.Pays 0 (Grammar.labelledBlock N) fun b => L.total (.block b) :=
  .bindIf .check (.bind angleLabel.mapQuiet fun _ => block h) (.retThen (block h))

theorem quotedText (h : L.Paying N) : L.Pays 0 (Grammar.quotedText N) fun b => L.total (.block b) := by
  refine .bindIfThen .atBlockStart (labelledBlock h) ((statements h).map fun body => ?_) fun body => ?_
  · simpa using total_ofBody body
  · exact .bind .skipSemicolons fun _ => .bindGet (fun _ => rfl) fun p =>
      .ite (fun _ => .ret (zero_add _).ge) fun _ => .expected

theorem cancelled_cancel (p : Parser) : p.cancel.cancelled := by
  unfold Parser.cancel
  split
  · assumption
  · rfl

/-- A quoted body is cancelled only where the time is over. -/
theorem expired_of_nested {p q : Parser} {body : String} (h : (p.nested body).Reaches q)
    (hc : q.cancelled) : p.advance.expired := by
  have hstart : (p.nested body).expired = p.expired := by
    rw [Parser.nested, Parser.ofSource_eq, Parser.countCurrent_eq]
  rw [(Parser.Reaches.advance p).expired, ← hstart, ← h.expired]
  exact ((h.sound (Parser.Sound.nested body)).stopped hc).1

/-- Behind a quoted body its pools are taken over, and what happened to them counts. Its errors become
those of the parser around it, so it makes something only if there are none. -/
theorem quotedOutcome {made : Block → M} {p : Parser} {r r' : EStateM.Result ParseError Parser Block}
    (hp : L.Keeps p) (htext : p.current.kind.isText)
    (h : L.Paid 0 (p.nested p.current.literal) made (fun _ => True) r r') :
    L.Paid 0 p made (fun _ => True) (Grammar.quotedOutcome p.current.span r p.advance)
      (Grammar.quotedOutcome p.current.span r p.advance.halting) := by
  have hopened : (p.nested p.current.literal).pools = p.pools ∧
      (p.nested p.current.literal).errors.size = 0 := by
    rw [Parser.nested, Parser.ofSource_eq, Parser.countCurrent_eq]
    exact ⟨rfl, rfl⟩
  obtain ⟨hpools, hnone⟩ := hopened
  have hreaches (pools : Pools) : p.Reaches { p.advance with pools } :=
    (Parser.Reaches.advance p).trans (.of_course rfl)
  have htaken {q : Parser} (hq : L.Leads (p.nested p.current.literal) q) :
      L.Leads p { p.advance with pools := q.pools } :=
    ⟨hp.advance.keeps.setPools hq.keeps.pools, hreaches q.pools, hp.advance.errors,
      fun hs => hpools ▸ hq.fair hs⟩
  have hcancelled {q : Parser} {other} (hq : L.Leads (p.nested p.current.literal) q) (hc : q.cancelled) :
      L.Paid 0 p made (fun _ => True)
        (.error ⟨.cancelled, p.current.span⟩ (Parser.cancel { p.advance with pools := q.pools })) other :=
    .error ((htaken hq).trans ((htaken hq).keeps.cancel (expired_of_nested hq.reaches hc)))
      (L.honest _ trivial) fun _ => cancelled_cancel _
  have hdeferred {q : Parser} {other} (hq : L.Leads (p.nested p.current.literal) q) (hlive : ¬q.cancelled)
      (e : ParseError) (others : List ParseError)
      (hall : ∀ d ∈ e :: others, L.Honest d.cause ∧ (d.isCancelled → q.cancelled)) :
      L.Paid 0 p made (fun _ => True)
        (.error ⟨e.cause, p.current.span⟩
          (Parser.defer { p.advance with pools := q.pools } (atPlace p.current.span others)))
        other := by
    obtain ⟨hfirst, hothers⟩ := List.forall_mem_cons.1 hall
    obtain ⟨hkeeps, hleads, herrors, hfair⟩ := htaken hq
    refine .error ⟨⟨hkeeps.dialect, hkeeps.pools, hkeeps.current, hkeeps.peek, hkeeps.errors,
      fun d hd => ?_⟩, hleads.trans (.of_course rfl), herrors, hfair⟩ hfirst.1
      fun he => absurd (hfirst.2 he) hlive
    rcases Array.mem_append.1 hd with hd | hd
    · exact hkeeps.deferred d hd
    · obtain ⟨d', hd', rfl⟩ := List.mem_map.1 (List.mem_toArray.1 hd)
      exact ⟨(hothers d' hd').1, fun he => absurd ((hothers d' hd').2 he) hlive⟩
  cases h with
  | @ok b q _ hleads hvalue hkind =>
    rw [Likeness.quotedOutcome_ok _ b q _]
    split
    · next hc => exact hcancelled hleads hc
    · next hlive =>
      split
      · next hempty =>
        have hinner (hcounts : L.Counts p { p.advance with pools := q.pools }) :
            L.Counts (p.nested p.current.literal) q := by
          refine ⟨fun _ _ => ?_, fun ht x hx => hcounts.once ht x ?_⟩
          · rw [hnone, ← Array.length_toList, hempty, List.length_nil]
          · exact .quoted (.refl p) (hreaches q.pools) htext hx
        refine .ok (htaken hleads) (fun hcounts => hpools ▸ hvalue (hinner hcounts)) trivial fun _ => ?_
        rw [Likeness.quotedOutcome_ok, if_neg hlive, hempty]
        rfl
      · next first others herrors =>
        refine hdeferred hleads hlive first others fun d hd => hleads.keeps.errors d ?_
        rw [← Array.mem_toList_iff, herrors]
        exact hd
  | @error e q _ hleads honest hstopped =>
    rw [Likeness.quotedOutcome_error _ e q _]
    split
    · next hc => exact hcancelled hleads hc
    · next hlive =>
      split
      · exact hdeferred hleads hlive e [] (List.forall_mem_singleton.2 ⟨honest, hstopped⟩)
      · next first others herrors =>
        refine hdeferred hleads hlive first (others ++ [e]) fun d hd => ?_
        rw [← List.cons_append, List.mem_append, List.mem_singleton, ← herrors] at hd
        rcases hd with hd | rfl
        · exact hleads.keeps.errors d (Array.mem_toList_iff.1 hd)
        · exact ⟨honest, hstopped⟩

theorem quotedBody (h : L.Paying N) {p : Parser} (hp : L.Keeps p) (htext : p.current.kind.isText) :
    L.Paid 0 p (fun b => L.total (.block b)) (fun _ => True) (Grammar.quotedBody N p)
      (Grammar.quotedBody N p.halting) := by
  rw [Likeness.quotedBody_eq, Likeness.quotedBody_eq, Parser.advance_halting]
  exact quotedOutcome hp htext (quotedText h (p.nested p.current.literal) (hp.nested _))

theorem routineBody (h : L.Paying N) :
    L.Pays 0 (Grammar.routineBody N) fun b => L.total (.block b) := by
  refine .bindUnless .consumeKeyword .skipKeyword (.know .dialect fun d _ => ?_)
  refine bindIfKind (fun _ => id) (fun p hp hkind => quotedBody h hp (by rw [hkind]; rfl)) ?_
  refine bindIfKind (fun _ hx => (Bool.and_eq_true_iff.1 hx).2)
    (fun p hp hkind => quotedBody h hp (by rw [hkind]; rfl)) ?_
  refine .bindIf atBlockStart (.inRoutine (labelledBlock h)) (.ite (fun _ => ?_) fun _ => ?_)
  · exact (Pays.inRoutine (statements h)).map fun body => by simpa using total_ofBody body
  · refine (Pays.inRoutine h.statement).seq fun s => .ret ?_
    simpa using total_ofBody (L := L) [s]

/-! ## Definitions of routines -/

theorem routineEnd (h : L.Paying N) {orReplace : Bool} {name : ObjectName} {parameters : List Parameter}
    {others : M} :
    L.Pays (L.each .parameter parameters + others) (Grammar.routineEnd N orReplace name parameters)
      fun r => L.total (.routine r) + others := by
  have hinitial : Speaks L {} := nofun
  refine .know (routineOptions hinitial) fun options hoptions => (routineBody h).seq fun body => ?_
  refine .know (routineOptions hoptions) fun options hoptions => .ret ?_
  rw [add_right_comm]
  refine add_le_add_left (total_le rfl ?_ (by simp [Component.fields])) others
  rw [Component.isSupported, Bool.or_eq_true, Bool.not_eq_true', ← Bool.not_eq_true]
  exact not_or_of_imp hoptions

theorem createProcedure (h : L.Paying N) {orReplace : Bool} :
    L.Pays 0 (Grammar.createProcedure N orReplace) fun s => L.total (.statement s) := by
  refine .bindUnless .consumeKeyword .expectWord (.bind objectName fun name => ?_)
  refine (parameters h).seq fun ps => ?_
  rw [add_comm]
  refine (routineEnd h).chain fun r _ => .ret (total_statement_le ?_)
  simp [Component.ofStatement]

theorem createFunction (h : L.Paying N) {orReplace : Bool} :
    L.Pays 0 (Grammar.createFunction N orReplace) fun s => L.total (.statement s) := by
  refine .bind .expectKeyword fun _ => .bind objectName fun name => (parameters h).seq fun ps => ?_
  have hrest : L.Pays (0 + L.each .parameter ps)
      (do
        let returns ← Grammar.returnType
        return Statement.createFunction (← Grammar.routineEnd N orReplace name ps) returns)
      fun s => L.total (.statement s) := by
    rw [zero_add]
    refine returnType.seq fun returns => (routineEnd h).chain fun r _ => .ret (total_statement_le ?_)
    simp [Component.ofStatement]
  exact .bind .consumeKeyword fun _ => .ite (fun _ => hrest) fun _ =>
    .bind .span fun place => .failThen trivial (by decide)

/-! ## Triggers -/

/-- A trigger in place of a change is charged for where the dialect does not have it. -/
def Fires (L : Ledger M) (timing : TriggerTiming) : Prop :=
  timing = .insteadOf → L.dialect.supports .insteadOf = true

theorem insteadOf : L.Quiet Grammar.insteadOf (Fires L) := by
  refine .bind .span fun place => .know .require fun _ hinstead => ?_
  exact .bind .expectKeyword fun _ => .bind .expectKeyword fun _ => .found fun _ => hinstead

theorem batchTiming : L.Quiet Grammar.batchTiming (Fires L) := by
  refine .bind .kind fun k => ?_
  split
  · exact .bind .advance fun _ => .found nofun
  · exact .bind .advance fun _ => .found nofun
  · exact insteadOf
  · exact .expected

theorem timing : L.Quiet Grammar.timing (Fires L) := by
  refine .bind .kind fun k => ?_
  split
  · exact .bind .advance fun _ => .found nofun
  · exact .bind .advance fun _ => .found nofun
  · exact insteadOf
  · exact .expected

theorem changedColumns : L.Quiet Grammar.changedColumns := by
  refine .bind .name fun first => .bind (.manyQuiet ?_) fun others => .stay
  refine .bind .check fun atComma => .bind .peekIsName fun _ => .ite (fun _ => ?_) fun _ => .stay
  exact .bind .advance fun _ => name.mapQuiet

theorem triggerEvent : L.Quiet Grammar.triggerEvent := by
  refine .bind .kind fun k => ?_
  split
  · exact .bind .advance fun _ => .stay
  · exact .bind .advance fun _ => .stay
  · exact .bind .advance fun _ => .bind (.behindQuiet changedColumns) fun columns => .stay
  · exact .expected

theorem triggerEvents : L.Quiet Grammar.triggerEvents :=
  .bind triggerEvent fun _ =>
    .bind (.manyQuiet (.bindIf .consumeAny triggerEvent.mapQuiet .stay)) fun _ => .stay

theorem triggerCall (h : L.Paying N) :
    L.Pays 0 (Grammar.triggerCall N) fun b => L.total (.triggerBody b) := by
  refine .bindUnless .consumeKeyword .expectKeyword (.bind qualifiedName fun function => ?_)
  exact (parenArguments h).seq fun args => .ret (total_le rfl rfl (by simp [Component.fields]))

/-- A trigger that does what a block says is charged for the block. -/
theorem total_blockBody (b : Block) : L.total (.triggerBody (.block b)) ≤ 0 + L.total (.block b) :=
  total_le rfl rfl (by simp [Component.fields])

theorem triggerBody (h : L.Paying N) :
    L.Pays 0 (Grammar.triggerBody N) fun b => L.total (.triggerBody b) := by
  refine .bindIf .consumeKeyword (triggerCall h) (.bindIf .checkKeyword ?_ ?_)
  · exact (Pays.inRoutine (block h)).map total_blockBody
  · exact (Pays.inRoutine h.statement).map fun s => total_le rfl rfl (by simp [Component.fields])

theorem batchTriggerBody (h : L.Paying N) :
    L.Pays 0 (Grammar.batchTriggerBody N) fun b => L.total (.triggerBody b) := by
  refine .bind .checkKeyword fun _ => .bind .peekKeyword fun _ => .ite (fun _ => ?_) fun _ => ?_
  · exact (Pays.inRoutine (block h)).map total_blockBody
  · refine (Pays.inRoutine (statements h)).seq fun body => .ret ?_
    exact (total_blockBody _).trans (by simpa using total_ofBody body)

theorem forEachRow : L.Quiet Grammar.forEachRow := by
  refine .bindIf .consumeKeyword (.bind .skipKeyword fun _ => .bindIf .consumeKeyword .stay ?_) .stay
  exact .bind .expectKeyword fun _ => .stay

/-- A trigger is worth no more than its condition and its body. -/
theorem total_trigger {t : Trigger} {x : M} (htiming : Fires L t.timing)
    (h : L.maybe .expr t.condition + L.total (.triggerBody t.body) ≤ x) :
    L.total (.trigger t) ≤ x := by
  refine total_le rfl ?_ (by simpa [Component.fields] using h)
  rw [Component.isSupported, Bool.or_eq_true, bne_iff_ne]
  exact not_or_of_imp htiming

theorem batchTrigger (h : L.Paying N) {orReplace : Bool} {name : ObjectName} :
    L.Pays 0 (Grammar.batchTrigger N orReplace name) fun t => L.total (.trigger t) := by
  refine .bind objectName fun table => .know batchTiming fun timing htiming => ?_
  refine .bind triggerEvents fun events => .bind .expectKeyword fun _ => ?_
  exact (batchTriggerBody h).seq fun body => .ret (total_trigger htiming (by simp))

theorem rowTrigger (h : L.Paying N) {orReplace : Bool} {name : ObjectName} :
    L.Pays 0 (Grammar.rowTrigger N orReplace name) fun t => L.total (.trigger t) := by
  refine .know timing fun timing htiming => .bind triggerEvents fun events => ?_
  refine .bind .expectKeyword fun _ => .bind objectName fun table => .bind forEachRow fun forEachRow => ?_
  refine (whenCondition h).seq fun condition => (triggerBody h).seq fun body => .ret ?_
  exact total_trigger htiming (by simp)

theorem createTrigger (h : L.Paying N) {orReplace : Bool} :
    L.Pays 0 (Grammar.createTrigger N orReplace) fun t => L.total (.trigger t) := by
  refine .bind .expectKeyword fun _ => .bind objectName fun name => ?_
  exact .bindIf .consumeKeyword (batchTrigger h) (rowTrigger h)

end SqlFrontend.Ledger.Pays
