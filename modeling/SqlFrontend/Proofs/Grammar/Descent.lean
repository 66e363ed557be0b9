import SqlFrontend.Proofs.Grammar.Statement

/-!
# The descent of the grammar

Productions refer to each other in circles. Each reference is to a parser that has less before it: a
shorter source, or the same source with fewer tokens left. So the circles have exactly one solution.

Results:
* `Parser.Underway`: what holds of a parser while a statement is read, in its source or in the text of
  a quoted body.
* `Grammar.Nested.tied`: the readings of all constructs, with all that is nested in them.
* `Nested.unfolded_agreesAt`: what a production reads depends on what is nested readings give where
  less is left. `Nested.agreesAt_tied` says that no other readings solve the equations of the grammar.
-/

namespace SqlFrontend

/-! ## Parsers that read a statement -/

/-- What holds of a parser while a statement is read: no error is deferred, and each recorded one was
due. -/
structure Parser.Underway (p : Parser) : Prop where
  sound : p.Sound
  settled : p.deferred = #[]
  due : ∀ e ∈ p.errors, e.cause.Due p

namespace Parser.Underway

variable {p : Parser}

theorem same (hp : p.Underway) : (Likeness.same .equal p.errors).state p p :=
  Likeness.same_self hp.sound rfl hp.due hp.settled

theorem of_same {errors : Array ParseError} {q : Parser}
    (h : (Likeness.same .equal errors).state p q) : p.Underway := ⟨h.1.sound, h.2, h.1.due⟩

theorem advance (hp : p.Underway) : p.advance.Underway :=
  of_same (((Likeness.same .equal p.errors).advance hp.same).resolve_right id)

theorem atDepth (hp : p.Underway) (n : ℕ) : Underway { p with routineDepth := n } :=
  ⟨hp.sound.congr rfl rfl rfl rfl rfl, hp.settled, fun e he => (hp.due e he).mono id⟩

theorem withPools (hp : p.Underway) (pools : Pools) : Underway { p with pools } :=
  ⟨hp.sound.congr rfl rfl rfl rfl rfl, hp.settled, fun e he => (hp.due e he).mono id⟩

theorem skipWhile (hp : p.Underway) (condition : Parser → Bool) :
    (p.skipWhile condition).Underway := by
  fun_induction Parser.skipWhile p condition with
  | case1 p _ _ ih => exact ih hp.advance
  | case2 p => exact hp.advance
  | case3 p => exact hp

theorem synchronize (hp : p.Underway) : p.synchronize.Underway := (hp.skipWhile _).skipWhile _

/-- With the error of a production, those that were deferred are recorded. -/
theorem record {e : ParseError} {errors : Array ParseError}
    (hf : Likeness.SameFailure .equal errors e p e p) (he : ¬e.isCancelled) :
    (p.record e).Underway := by
  rw [Parser.record, if_neg he]
  refine ⟨hf.same.sound.congr rfl rfl rfl rfl rfl, rfl, fun d hd => ?_⟩
  rcases Array.mem_append.1 hd with hd | hd
  · rcases Array.mem_push.1 hd with hd | rfl
    · exact (hf.same.due d hd).mono id
    · exact hf.due.mono id
  · exact (hf.deferred d hd).1.mono id

/-- Where errors do not end a list, the reading goes on behind its statement. -/
theorem recovering (hp : p.Underway) {found : Option Statement} {q : Parser}
    (h : Production.recovering Grammar.parse p = .ok found q) : q.Underway := by
  have houtcome := Likeness.parse_outcome hp.same
  rw [Production.recovering] at h
  revert houtcome h
  generalize Grammar.parse p = r
  intro h houtcome
  cases houtcome with
  | ok hs _ _ _ =>
    cases h
    exact of_same hs
  | error hf _ _ =>
    dsimp only at h
    split at h
    · next hlive =>
      cases h
      have he : ¬ParseError.isCancelled _ := fun he => by
        rw [hf.due.cancelled (beq_iff_eq.1 he), Bool.not_true, Bool.and_false] at hlive
        cases hlive
      exact (record hf he).synchronize
    · cases h
  | past hpast => cases hpast <;> contradiction

/-- A quoted body is read by a parser of a shorter source. -/
theorem nested (hp : p.Underway) (body : String) : (p.nested body).Underway :=
  of_same (Likeness.same_nested hp.same body)

end Parser.Underway

/-- Equal parsers have equal results. -/
theorem Likeness.Outcome.eq_of_same {α : Type} {errors : Array ParseError} {b : Parser × Parser}
    {p q : Parser} {k : α → Level} {r r' : EStateM.Result ParseError Parser α}
    (h : Outcome (.same .equal errors) b p q k r r') : r = r' := by
  have heq {x y : Parser} (hxy : Same .equal errors x y) : x = y := by
    have hpools : x.pools = y.pools := hxy.pools
    rw [hxy.eq, ← hpools]
  cases h with
  | ok hs _ _ _ => rw [heq hs.1]
  | error hf _ _ => rw [heq hf.same, hf.error]
  | past h => cases h <;> contradiction

/-! ## The equations of the grammar -/

namespace Grammar.Nested

/-- The readings of constructs with all that is nested in them, in a text of any length. -/
def tied : Nested where
  expression p := Grammar.expression (below p.remaining) p
  primary p := Grammar.primary (below p.remaining) p
  selections p := Grammar.selections (below p.remaining) p
  query p := Grammar.query (below p.remaining) p
  statement p := Grammar.statement (below p.remaining) p
  block p := Grammar.block (below p.remaining) none p

/-- The productions, for given readings of what is nested in them. -/
def unfolded (N : Nested) : Nested where
  expression := Grammar.expression N
  primary := Grammar.primary N
  selections := Grammar.selections N
  query := Grammar.query N
  statement := Grammar.statement N
  block := Grammar.block N none

/-- Two readings of all constructs give the same from one parser on. -/
structure AgreesAt (p : Parser) (N N' : Nested) : Prop where
  expression : N.expression p = N'.expression p
  primary : N.primary p = N'.primary p
  selections : N.selections p = N'.selections p
  query : N.query p = N'.query p
  statement : N.statement p = N'.statement p
  block : N.block p = N'.block p

theorem below_agreesAt {p : Parser} {n : ℕ} (h : p.remaining < n) :
    (below n).AgreesAt p tied := by
  rw [below]
  constructor <;> exact dif_pos h

open Likeness in
/-- Readings that agree with the tied ones where less is left do the same behind a parser. -/
theorem nested_of_agreesAt {N : Nested} {p : Parser} (errors : Array ParseError)
    (h : ∀ q : Parser, q.Underway → q.extent < p.extent → N.AgreesAt q tied) :
    (Likeness.same .equal errors).Nested (p, p) N (below p.remaining) := by
  have hreads (errors : Array ParseError) :
      (Likeness.same .equal errors).ReadsAll (p, p) N (below p.remaining) := by
    have hbelow := ((Likeness.same .equal errors).nested_below (b := (p, p)) (le_refl _)
      (le_refl _)).outside
    have hagree {x y : Parser} (hxy : (Likeness.same .equal errors).state x y)
        (hlevel : Level.moved.Holds (p, p) x y) : N.AgreesAt x (below p.remaining) := by
      have htied := h x (.of_same hxy) hlevel.1.extent
      have hthere := below_agreesAt hlevel.1.remaining
      exact ⟨htied.expression.trans hthere.expression.symm,
        htied.primary.trans hthere.primary.symm, htied.selections.trans hthere.selections.symm,
        htied.query.trans hthere.query.symm, htied.statement.trans hthere.statement.symm,
        htied.block.trans hthere.block.symm⟩
    exact {
      expression := fun x y hxy hl => (hagree hxy hl).expression ▸ hbelow.expression x y hxy hl
      primary := fun x y hxy hl => (hagree hxy hl).primary ▸ hbelow.primary x y hxy hl
      selections := fun x y hxy hl => (hagree hxy hl).selections ▸ hbelow.selections x y hxy hl
      query := fun x y hxy hl => (hagree hxy hl).query ▸ hbelow.query x y hxy hl
      statement := fun x y hxy hl => (hagree hxy hl).statement ▸ hbelow.statement x y hxy hl
      block := fun x y hxy hl => (hagree hxy hl).block ▸ hbelow.block x y hxy hl }
  exact ⟨hreads errors, hreads #[]⟩

/-- What a production reads depends on its nested readings only where less is left. -/
theorem unfolded_agreesAt {N : Nested} {p : Parser} (hp : p.Underway)
    (h : ∀ q : Parser, q.Underway → q.extent < p.extent → N.AgreesAt q tied) :
    N.unfolded.AgreesAt p tied := by
  have hnested := nested_of_agreesAt p.errors h
  have heq {α : Type} {m m' : Production α}
      (hm : (Likeness.same .equal p.errors).Lockstep (p, p) .start m m' fun _ => .moved) :
      m p = m' p :=
    (hm (p, p) ⟨.refl p, .refl p⟩ p p hp.same ⟨.refl p, .refl p⟩).eq_of_same
  have hexpression := heq (Likeness.Lockstep.expression hnested)
  have hprimary := heq (Likeness.Lockstep.primary hnested)
  have hselections := heq (Likeness.Lockstep.selections hnested)
  have hquery := heq (Likeness.Lockstep.query hnested)
  have hstatement := heq (Likeness.Lockstep.statement hnested)
  have hblock : Grammar.block N none p = Grammar.block (below p.remaining) none p :=
    heq (Likeness.Lockstep.block hnested)
  exact ⟨hexpression, hprimary, hselections, hquery, hstatement, hblock⟩

/-- Readings that solve the equations of the grammar are the tied ones. The induction is on what is
left: the bytes of the source, and the tokens in it. -/
theorem agreesAt_tied {N : Nested} (h : ∀ q : Parser, q.Underway → N.AgreesAt q N.unfolded)
    {p : Parser} (hp : p.Underway) : N.AgreesAt p tied := by
  induction hn : p.extent using WellFoundedLT.induction generalizing p with
  | _ n ih =>
    subst hn
    have hunfolded := unfolded_agreesAt hp fun q hq hless => ih _ hless hq rfl
    have hthere := h p hp
    exact ⟨hthere.expression.trans hunfolded.expression, hthere.primary.trans hunfolded.primary,
      hthere.selections.trans hunfolded.selections, hthere.query.trans hunfolded.query,
      hthere.statement.trans hunfolded.statement, hthere.block.trans hunfolded.block⟩

end Grammar.Nested

end SqlFrontend
