import SqlFrontend.Grammar.Trigger
import SqlFrontend.Proofs.Grammar.Control

/-!
# Routines and triggers in lockstep

* `Lockstep.parameters`, `Lockstep.routineOptions`: what is declared before a body.
* `Lockstep.routineBody`: bodies. The parser of a quoted body is the same on both sides, so its errors
  are, and they are due to the source around it unless time is over.
* `Lockstep.createProcedure`, `Lockstep.createFunction`, `Lockstep.createTrigger`: definitions.
-/

namespace SqlFrontend.Likeness

variable {L : Likeness} {b : Parser × Parser} {l : Level} {N N' : Grammar.Nested}

namespace Lockstep

/-! ## Parameters -/

theorem parameterMode :
    L.Lockstep b l Grammar.parameterMode Grammar.parameterMode fun _ => l.any := by
  refine .weak (.bind .kind fun k => ?_)
  split
  · exact .bind .advance fun _ => .ret
  · exact .bind .advance fun _ => .ret
  · exact .bind .advance fun _ => .ret
  · exact .ret

theorem variadic : L.Lockstep b l Grammar.variadic Grammar.variadic fun _ => l.any := by
  refine .weak (.bindIf .checkKeyword (.bindSpan fun t t' => .bind .require fun _ => ?_) .stay)
  exact .bind .advance fun _ => .ret

theorem parameterName? :
    L.Lockstep b l Grammar.parameterName? Grammar.parameterName? fun _ => l.any :=
  .weak (.bindAnd .atName
    (.bind (k := fun _ => .moved) .name fun _ => .ret) .ret)

theorem parameterIsOutput :
    L.Lockstep b .moved Grammar.parameterIsOutput Grammar.parameterIsOutput fun _ => .moved :=
  .bindIf .consumeWord .ret (.bindIf .consumeKeyword .ret (.bind .skipWord fun _ => .stay))

theorem parameter (h : L.Nested b N N') :
    L.Lockstep b l (Grammar.parameter N) (Grammar.parameter N') fun _ => .moved := by
  refine .strict (.bind .parameterMode fun mode => .bind .variadic fun variadic => ?_)
  refine .bind .parameterName? fun name => .bind .dataType fun type => ?_
  exact .bind (.initialValue h) fun initial => .bind .parameterIsOutput fun _ => .stay

theorem parameters (h : L.Nested b N N') :
    L.Lockstep b .moved (Grammar.parameters N) (Grammar.parameters N') fun _ => .moved := by
  refine .bindIf .check (.inParens (.bindIf .check .ret (.list (.parameter h)))) ?_
  refine .bindCurrent fun t t' ht => ?_
  rw [ht.kind, ht.literal]
  exact .ite (fun _ => .list (.parameter h)) fun _ => .stay

theorem returnType :
    L.Lockstep b .moved Grammar.returnType Grammar.returnType fun _ => .moved := by
  refine .bindCurrentPeek (fun t t' _ ht => ?_) fun t _ _ ht => ?_
  swap
  · rw [Token.not_startsWith_of_closes ht]
    rfl
  rw [ht.literal]
  extract_lets done rest
  have hrest (u : Unit) : L.Lockstep b .moved (rest u) (rest u) fun _ => .moved := by
    refine .bindIf .consumeKeyword (.bindIf .check ?_ .stay) .dataType
    exact .bind .skipParens fun _ => .stay
  exact .ite (fun _ => .bind .advance hrest) fun _ => hrest ()

/-! ## Characteristics -/

theorem language : L.Lockstep b .moved Grammar.language Grammar.language fun _ => .moved := by
  refine .bindSpan fun t t' => .bind .name fun name => .ite (fun _ => ?_) fun _ => .stay
  exact .bind .require fun _ => .stay

theorem securityMode :
    L.Lockstep b .moved Grammar.securityMode Grammar.securityMode fun _ => .moved :=
  .bindIf .consumeKeyword .ret (.bind .expectKeyword fun _ => .stay)

theorem routineOption? {options : RoutineOptions} :
    L.Lockstep b .start (Grammar.routineOption? options) (Grammar.routineOption? options)
      Level.start.item := by
  have hdata {word : Keyword} {found : RoutineOptions} : L.Lockstep b .moved
      (do Production.expectKeyword word; Production.expectKeyword .DATA; return some found)
      (do Production.expectKeyword word; Production.expectKeyword .DATA; return some found)
      Level.start.item :=
    .bind .expectKeyword fun _ => .bind .expectKeyword fun _ => .ret
  refine .bindNextKinds (fun k k' => ?_) fun k _ _ hk => ?_
  · split
    case h_14 =>
      refine .bindDialect fun d => .bindPeek fun _ => .of (.ite (fun _ => ?_) fun _ => .ret)
      exact .bind .advance fun _ => .bind (.discard (.list .name)) fun _ => .ret
    all_goals refine .of ?_
    · exact .bind .advance fun _ => .bind .language fun _ => .ret
    · exact .bind .advance fun _ => .ret
    · exact .bind .advance fun _ => .bind .securityMode fun _ => .ret
    · exact .bind .advance fun _ => .ret
    · exact .bind .advance fun _ => .bind .advance fun _ => .ret
    · exact .bind .advance fun _ => .bind .expectKeyword fun _ => .ret
    · exact .bind .advance fun _ => .bind .advance fun _ => .ret
    · exact .bind .advance fun _ => hdata
    · exact .bind .advance fun _ => hdata
    · exact .bind .advance fun _ => .bind .takeLiteral fun _ => .ret
    · exact .bind .advance fun _ => .ret
    · exact .bind .advance fun _ => .ret
    · exact .bind .advance fun _ => .ret
    · exact .ret
  · rcases TokenKind.eq_of_isOpen hk with rfl | rfl <;> rfl

theorem routineOptions {options : RoutineOptions} :
    L.Lockstep b .moved (Grammar.routineOptions options) (Grammar.routineOptions options)
      fun _ => .moved := by
  refine .loop fun options => .bind .routineOption? fun options? => ?_
  cases options? <;> exact .ret

/-! ## Bodies -/

theorem atBlockStart : L.Lockstep b l Grammar.atBlockStart Grammar.atBlockStart fun _ => l.any := by
  refine .weak (.bindNextKinds (fun k k' => .of ?_) fun k _ _ hk => ?_)
  · split
    · exact .ret
    · exact .ret
    · exact .ret
    · exact .ret
    · exact .ret
    · exact .bind .dialect fun _ => .ret
    · exact .ret
    · exact .ret
  · rcases TokenKind.eq_of_isOpen hk with rfl | rfl <;> rfl

theorem labelledBlock (h : L.Nested b N N') :
    L.Lockstep b l (Grammar.labelledBlock N) (Grammar.labelledBlock N') fun _ => .moved :=
  .strict (.bindIf .check (.bind (.map _ .angleLabel) fun _ => .block h)
    (.bind (k := fun _ => .start) .ret fun _ => .block h))

theorem quotedText (h : L.Nested b N N') :
    L.Lockstep b .moved (Grammar.quotedText N) (Grammar.quotedText N') fun _ => .moved := by
  refine .bindIfThen .atBlockStart (.labelledBlock h) (.map _ (.statements h)) fun body => ?_
  refine .bind .skipSemicolons fun _ => .bindGet fun p q hpq => ?_
  rw [(L.alike hpq).atEnd]
  exact .ite (fun _ => .stay) fun _ => .expected (by decide)

end Lockstep

/-! ## Quoted bodies -/

/-- What a quoted body is read to: its block, or an error. -/
theorem quotedOutcome_ok (place : Span) (body : Block) (inner p : Parser) :
    Grammar.quotedOutcome place (.ok body inner) p =
      if inner.cancelled then .error ⟨.cancelled, place⟩ (Parser.cancel { p with pools := inner.pools })
      else match inner.errors.toList with
        | [] => .ok body { p with pools := inner.pools }
        | first :: others => .error ⟨first.cause, place⟩
            (Parser.defer { p with pools := inner.pools } (atPlace place others)) := by
  cases hc : inner.cancelled
  all_goals
    simp only [Grammar.quotedOutcome, Grammar.leaveQuoted, hc]
    cases inner.errors.toList <;> rfl

theorem quotedOutcome_error (place : Span) (e : ParseError) (inner p : Parser) :
    Grammar.quotedOutcome place (.error e inner) p =
      if inner.cancelled then .error ⟨.cancelled, place⟩ (Parser.cancel { p with pools := inner.pools })
      else match inner.errors.toList with
        | [] => .error ⟨e.cause, place⟩
            (Parser.defer { p with pools := inner.pools } (atPlace place []))
        | first :: others => .error ⟨first.cause, place⟩
            (Parser.defer { p with pools := inner.pools } (atPlace place (others ++ [e]))) := by
  cases hc : inner.cancelled
  all_goals
    simp only [Grammar.quotedOutcome, Grammar.leaveQuoted, hc]
    cases inner.errors.toList <;> rfl

/-- The parser of a quoted body is opened before or behind the token that holds its text. -/
theorem quotedBody_eq (nested : Grammar.Nested) (p : Parser) :
    Grammar.quotedBody nested p = Grammar.quotedOutcome p.current.span
      (Grammar.quotedText nested (p.nested p.current.literal)) p.advance := by
  have hsame : p.advance.nested p.current.literal = p.nested p.current.literal := by
    rw [Parser.nested, Parser.nested, Parser.advance_dialect, Parser.pools_advance,
      (Parser.Reaches.advance p).expired]
  rw [← hsame]
  rfl

section

variable {p q inner inner' : Parser} {e : Parser × Parser} {k : Block → Level} {t t' : Token}

/-- Time is over for the source around a quoted body if it is over for the body. -/
theorem Outcome.quotedCancelled (hpq : L.state p q) (hseen : Parser.Seen L.state t t' p q)
    (htext : t.kind.isText) (hinner : Same L.how #[] inner inner') (hexpired : inner.expired → p.expired)
    (hc : inner.cancelled) :
    Outcome L e p q k
      (.error ⟨.cancelled, t.span⟩ (Parser.cancel { p with pools := inner.pools }))
      (.error ⟨.cancelled, t'.span⟩ (Parser.cancel { q with pools := inner'.pools })) := by
  have hp : p.expired := hexpired (hinner.sound.stopped hc).1
  have hq : q.expired := (L.alike hpq).expired ▸ hp
  have hcancel (x : Parser) (pools : Pools) (hx : x.expired) :
      x.Reaches (Parser.cancel { x with pools }) := by
    rw [← Parser.advance_of_expired (p := { x with pools }) hx]
    exact (Lockstep.reaches_withPools (.refl x) pools).trans (.advance _)
  have hleft := hcancel p inner.pools hp
  have hright := hcancel q inner'.pools hq
  have hlater := hseen.later (hleft.notBefore (L.left hpq)) (hright.notBefore (L.right hpq))
  rcases L.cancel (L.withPools hpq hinner.pools) hp with hs | hpast
  · refine .error (L.relay hs hlater htext (ParseCause.due_cancelled ?_)) hleft hright
    rw [Parser.cancel]
    split
    · assumption
    · rfl
  · exact .past (.error hpast hleft)

/-- The errors of a quoted body are errors of the source around it, at one place. -/
theorem Outcome.quotedErrors (hpq : L.state p q) (hseen : Parser.Seen L.state t t' p q)
    (htext : t.kind.isText) (hinner : Same L.how #[] inner inner') (hc : ¬inner.cancelled) {first : ParseError}
    {others : List ParseError} (hfirst : first.cause.Due inner)
    (hothers : ∀ d ∈ others, d.cause.Due inner) :
    Outcome L e p q k
      (.error ⟨first.cause, t.span⟩
        (Parser.defer { p with pools := inner.pools } (atPlace t.span others)))
      (.error ⟨first.cause, t'.span⟩
        (Parser.defer { q with pools := inner'.pools } (atPlace t'.span others))) := by
  have hmono {d : ParseError} (hd : d.cause.Due inner) :
      d.cause.Due { p with pools := inner.pools } := hd.mono fun h => absurd h hc
  have hlater : Parser.Seen L.state t t' { p with pools := inner.pools }
      { q with pools := inner'.pools } := L.seen_update hseen ⟨rfl, rfl⟩ ⟨rfl, rfl⟩
  refine .error (L.relays (L.withPools hpq hinner.pools) hlater htext (hmono hfirst) fun d hd =>
    hmono (hothers d hd)) ?_ ?_ <;> exact .of_course rfl

theorem Outcome.quoted (hpq : L.state p q) (hseen : Parser.Seen L.state t t' p q)
    (htext : t.kind.isText) (hlevel : Level.moved.Holds e p q)
    {base base' : Parser} {k : Block → Level} (hexpired : base.expired → p.expired)
    {r r' : EStateM.Result ParseError Parser Block} {b : Parser × Parser}
    (h : Outcome (same L.how #[]) b base base' k r r') :
    Outcome L e p q (fun _ => .moved) (Grammar.quotedOutcome t.span r p)
      (Grammar.quotedOutcome t'.span r' q) := by
  cases h with
  | @ok body inner inner' hs hl hr hk =>
    have hinner := hs.1
    rw [quotedOutcome_ok, quotedOutcome_ok, hinner.field (f := Parser.cancelled) fun _ => rfl,
      hinner.field (f := Parser.errors) fun _ => rfl]
    by_cases hc : inner.cancelled
    · rw [if_pos hc, if_pos hc]
      exact .quotedCancelled hpq hseen htext hinner (fun he => hexpired (hl.expired ▸ he)) hc
    · rw [if_neg hc, if_neg hc]
      have hdue := hinner.due
      simp only [← Array.mem_toList_iff] at hdue
      revert hdue
      cases inner.errors.toList with
      | nil =>
        intro _
        refine .ok (L.withPools hpq hinner.pools) (.of_course rfl) (.of_course rfl) ?_
        exact hlevel.update (f := fun x => { x with pools := inner.pools })
          (g := fun x => { x with pools := inner'.pools }) (fun _ => ⟨rfl, rfl, rfl⟩)
          fun _ => ⟨rfl, rfl, rfl⟩
      | cons first others =>
        intro hdue
        exact .quotedErrors hpq hseen htext hinner hc (hdue first List.mem_cons_self) fun d hd =>
          hdue d (List.mem_cons_of_mem _ hd)
  | past h => cases h <;> contradiction
  | @error d d' inner inner' hf hl hr =>
    obtain ⟨hinner, rfl, hd, -⟩ := hf
    rw [quotedOutcome_error, quotedOutcome_error, hinner.field (f := Parser.cancelled) fun _ => rfl,
      hinner.field (f := Parser.errors) fun _ => rfl]
    by_cases hc : inner.cancelled
    · rw [if_pos hc, if_pos hc]
      exact .quotedCancelled hpq hseen htext hinner (fun he => hexpired (hl.expired ▸ he)) hc
    · rw [if_neg hc, if_neg hc]
      have hdue := hinner.due
      simp only [← Array.mem_toList_iff] at hdue
      revert hdue
      cases inner.errors.toList with
      | nil =>
        intro _
        exact .quotedErrors hpq hseen htext hinner hc hd (List.forall_mem_nil _)
      | cons first others =>
        intro hdue
        refine .quotedErrors hpq hseen htext hinner hc (hdue first List.mem_cons_self) fun x hx => ?_
        rcases List.mem_append.1 hx with hx | hx
        · exact hdue x (List.mem_cons_of_mem _ hx)
        · rwa [List.mem_singleton.1 hx]

end

namespace Lockstep

/-- Opening a quoted body leads beyond the token that holds it. -/
theorem quotedBody_outcome (h : L.Nested b N N') {e : Parser × Parser}
    (he : Level.start.Holds b e.1 e.2) {p q : Parser} (hpq : L.state p q)
    (hlevel : Level.moved.Holds e p q) (htext : p.current.kind.isText) :
    Outcome L e p q (fun _ => .moved) (Grammar.quotedBody N p) (Grammar.quotedBody N' q) := by
  have hcurrent := (L.alike hpq).current
  have hq : q.current.kind.isText := hcurrent.kind ▸ htext
  have hinside : (same L.how #[]).Nested b N N' := ⟨h.inside, h.inside⟩
  have hbeyond : Level.moved.Holds b (p.nested p.current.literal) (q.nested p.current.literal) := by
    refine ((hlevel.of_later he).moved (L.left hpq |>.beyond_nested htext) ?_)
    rw [hcurrent.literal]
    exact (L.right hpq).beyond_nested hq
  have hnested := quotedText hinside b ⟨.refl _, .refl _⟩ _ _
    (same_nested hpq p.current.literal) hbeyond
  have hexpired : (p.nested p.current.literal).expired → p.advance.expired := by
    intro hx
    rw [Parser.nested, Parser.ofSource_eq, Parser.countCurrent_eq] at hx
    rw [(Parser.Reaches.advance p).expired]
    exact hx
  have hp := L.left hpq
  have hseen := (L.seen_current hpq).later hp.notBefore_advance (L.right hpq).notBefore_advance
  rw [quotedBody_eq, quotedBody_eq, ← hcurrent.literal]
  rcases L.advance hpq with hs | hpast
  · have hlater := hlevel.advance hp (L.right hpq)
    exact (Outcome.quoted hs hseen htext hlater hexpired hnested).trans (.advance p) (.advance q)
  · have hshorter := L.limit.shorter hpast hpq
    have hlater := (hlevel.self hshorter).advance hp hp
    have hseen' := (L.seen_current hpq).later hp.notBefore_advance (hshorter.trans hp.notBefore_advance)
    have hself := Outcome.quoted (L.limit.self hpast) hseen' htext hlater hexpired hnested
    exact .past (hself.carry hpast (.advance p))

/-- A quoted body that is read where its token was seen. -/
theorem ifQuoted (h : L.Nested b N N') {k : TokenKind} (hk : k.isText) {f : Bool → Bool}
    (hf : ∀ x, f x = true → x = true) {n n' : Production Block}
    (helse : L.Lockstep b .moved n n' fun _ => .moved) :
    L.Lockstep b .moved
      (Production.check k >>= fun x => if f x = true then Grammar.quotedBody N else n)
      (Production.check k >>= fun x => if f x = true then Grammar.quotedBody N' else n')
      fun _ => .moved := by
  intro e he p q hpq hlevel
  have hkind := (L.alike hpq).current.kind
  change Outcome L e p q _
    ((if f (p.current.kind == k) = true then Grammar.quotedBody N else n) p)
    ((if f (q.current.kind == k) = true then Grammar.quotedBody N' else n') q)
  rw [← hkind]
  by_cases hcheck : f (p.current.kind == k) = true
  · rw [if_pos hcheck, if_pos hcheck]
    refine quotedBody_outcome h he hpq hlevel ?_
    rw [eq_of_beq (hf _ hcheck)]
    exact hk
  · rw [if_neg hcheck, if_neg hcheck]
    exact helse e he p q hpq hlevel

theorem routineBody (h : L.Nested b N N') :
    L.Lockstep b .moved (Grammar.routineBody N) (Grammar.routineBody N') fun _ => .moved := by
  refine .bindUnless .consumeKeyword .skipKeyword (.bind .dialect fun d => ?_)
  refine .ifQuoted h rfl (f := id) (fun _ => id) (.ifQuoted h rfl (fun x hx => ?_) ?_)
  · exact (Bool.and_eq_true_iff.1 hx).2
  · refine .bindIf .atBlockStart (.inRoutine (.labelledBlock h)) (.ite (fun _ => ?_) fun _ => ?_)
    · exact .map _ (.inRoutine (.statements h))
    · exact .bind (.inRoutine h.statement) fun statement => .stay

/-! ## Definitions of routines -/

theorem routineEnd (h : L.Nested b N N') {orReplace : Bool} {name : ObjectName}
    {parameters : List Parameter} :
    L.Lockstep b .moved (Grammar.routineEnd N orReplace name parameters)
      (Grammar.routineEnd N' orReplace name parameters) fun _ => .moved := by
  refine .bind .routineOptions fun options => .bind (.routineBody h) fun body => ?_
  exact .bind .routineOptions fun _ => .stay

theorem createProcedure (h : L.Nested b N N') {orReplace : Bool} :
    L.Lockstep b l (Grammar.createProcedure N orReplace) (Grammar.createProcedure N' orReplace)
      fun _ => .moved := by
  refine .strict (.bindUnless .consumeKeyword (.expectWord (by decide)) (.bind .objectName fun name => ?_))
  exact .bind (.parameters h) fun parameters => .bind (.routineEnd h) fun _ => .stay

theorem createFunction (h : L.Nested b N N') {orReplace : Bool} :
    L.Lockstep b l (Grammar.createFunction N orReplace) (Grammar.createFunction N' orReplace)
      fun _ => .moved := by
  refine .bind .expectKeyword fun _ => .bind .objectName fun name => ?_
  refine .bind (.parameters h) fun parameters => ?_
  have hrest : L.Lockstep b .moved
      (do
        let returns ← Grammar.returnType
        return Statement.createFunction (← Grammar.routineEnd N orReplace name parameters) returns)
      (do
        let returns ← Grammar.returnType
        return Statement.createFunction (← Grammar.routineEnd N' orReplace name parameters) returns)
      fun _ => .moved :=
    .bind .returnType fun returns => .bind (.routineEnd h) fun _ => .stay
  refine .bindIf .consumeKeyword hrest (.bindSpan fun t t' => ?_)
  exact .bind (k := fun _ => .moved) .fail fun _ => hrest.noting t t'

/-! ## Triggers -/

theorem insteadOf : L.Lockstep b l Grammar.insteadOf Grammar.insteadOf fun _ => .moved := by
  refine .bindSpan fun t t' => .bind .require fun _ => ?_
  exact .bind .expectKeyword fun _ => .bind .expectKeyword fun _ => .stay

theorem batchTiming : L.Lockstep b l Grammar.batchTiming Grammar.batchTiming fun _ => .moved := by
  refine .strict (.bind .kind fun k => ?_)
  split
  · exact .bind .advance fun _ => .stay
  · exact .bind .advance fun _ => .stay
  · exact .insteadOf
  · exact .expected (by decide)

theorem timing : L.Lockstep b l Grammar.timing Grammar.timing fun _ => .moved := by
  refine .strict (.bind .kind fun k => ?_)
  split
  · exact .bind .advance fun _ => .stay
  · exact .bind .advance fun _ => .stay
  · exact .insteadOf
  · exact .expected (by decide)

theorem changedColumns :
    L.Lockstep b l Grammar.changedColumns Grammar.changedColumns fun _ => .moved := by
  refine .bind .name fun first => .bind (.many ?_) fun others => .stay
  exact .bindAnd .check (.bind .advance fun _ => .mapSome .name) .ret

theorem triggerEvent :
    L.Lockstep b l Grammar.triggerEvent Grammar.triggerEvent fun _ => .moved := by
  refine .strict (.bind .kind fun k => ?_)
  split
  · exact .bind .advance fun _ => .stay
  · exact .bind .advance fun _ => .stay
  · exact .bind .advance fun _ => .bind (.behind .changedColumns) fun columns => .stay
  · exact .expected (by decide)

theorem triggerEvents :
    L.Lockstep b l Grammar.triggerEvents Grammar.triggerEvents fun _ => .moved := by
  refine .bind .triggerEvent fun first => .bind (.many ?_) fun others => .stay
  exact .bindIf .consumeAny (.mapSome .triggerEvent) .ret

theorem triggerCall (h : L.Nested b N N') :
    L.Lockstep b .moved (Grammar.triggerCall N) (Grammar.triggerCall N') fun _ => .moved := by
  refine .bindUnless .consumeKeyword .expectKeyword (.bind .qualifiedName fun function => ?_)
  exact .bind (.inParens (.bindIf .check .ret (.list h.expression))) fun args => .stay

theorem triggerBody (h : L.Nested b N N') :
    L.Lockstep b .moved (Grammar.triggerBody N) (Grammar.triggerBody N') fun _ => .moved := by
  refine .bindIf .consumeKeyword (.triggerCall h) (.bindIf .checkKeyword ?_ ?_)
  · exact .map _ (.inRoutine (.block h))
  · exact .map _ (.inRoutine h.statement)

theorem batchTriggerBody (h : L.Nested b N N') :
    L.Lockstep b .moved (Grammar.batchTriggerBody N) (Grammar.batchTriggerBody N')
      fun _ => .moved := by
  refine .bindTests .checkKeyword (fun _ _ => .ite (fun _ => ?_) fun _ => ?_) fun _ _ => rfl
  · exact .map _ (.inRoutine (.block h))
  · exact .bind (.inRoutine (.statements h)) fun body => .stay

theorem forEachRow :
    L.Lockstep b .moved Grammar.forEachRow Grammar.forEachRow fun _ => .moved := by
  refine .bindIf .consumeKeyword (.bind .skipKeyword fun _ => .bindIf .consumeKeyword .ret ?_) .stay
  exact .bind .expectKeyword fun _ => .stay

theorem batchTrigger (h : L.Nested b N N') {orReplace : Bool} {name : ObjectName} :
    L.Lockstep b .moved (Grammar.batchTrigger N orReplace name)
      (Grammar.batchTrigger N' orReplace name) fun _ => .moved := by
  refine .bind .objectName fun table => .bind .batchTiming fun timing => ?_
  refine .bind .triggerEvents fun events => .bind .expectKeyword fun _ => ?_
  exact .bind (.batchTriggerBody h) fun body => .stay

theorem rowTrigger (h : L.Nested b N N') {orReplace : Bool} {name : ObjectName} :
    L.Lockstep b .moved (Grammar.rowTrigger N orReplace name)
      (Grammar.rowTrigger N' orReplace name) fun _ => .moved := by
  refine .bind .timing fun timing => .bind .triggerEvents fun events => ?_
  refine .bind .expectKeyword fun _ => .bind .objectName fun table => ?_
  refine .bind .forEachRow fun forEachRow => .bind (.whenCondition h) fun condition => ?_
  exact .bind (.triggerBody h) fun body => .stay

theorem createTrigger (h : L.Nested b N N') {orReplace : Bool} :
    L.Lockstep b l (Grammar.createTrigger N orReplace) (Grammar.createTrigger N' orReplace)
      fun _ => .moved := by
  refine .bind .expectKeyword fun _ => .bind .objectName fun name => ?_
  exact .bindIf .consumeKeyword (.batchTrigger h) (.rowTrigger h)

end Lockstep

end SqlFrontend.Likeness
