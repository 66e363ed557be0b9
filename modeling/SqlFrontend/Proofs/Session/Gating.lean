import SqlFrontend.Proofs.Session.Ledger

/-!
# Constructs that a dialect refuses

A construct that is gated is read behind a check, wherever it stands. So the statements of a session hold
none that the dialect does not have, and an error that says so is right.

Results:
* `gatingLedger`: the ledger that charges for every construct that the dialect does not have.
* `Candid.unavailable`: what an error that blames the dialect says of it.
* `Parser.answered_supported`: statements hold, at any depth, only what the dialect has, and a construct
  is refused only by a dialect that does not have it.
-/

namespace SqlFrontend

/-- Decides whether a dialect has everything in a statement, at every depth. -/
def Statement.Supported (s : Statement) (d : Dialect) : Prop :=
  (Component.statement s).Throughout fun c => c.isSupported d = true

/-- The ledger that charges for every construct that the dialect does not have. There is no income. -/
def gatingLedger (d : Dialect) : Ledger ℕ where
  dialect := d
  strict := False
  tidy := False
  coin _ := 0
  penalty := 1
  pardon := 0
  income _ _ := 0
  Honest cause := cause.Candid d
  honest _ h := h
  income_self _ := rfl
  income_add _ _ _ := rfl
  pardon_le := le_refl 0
  strict_of_tidy := False.elim
  settled := .inr (.inl ⟨fun _ => le_refl 0, Nat.zero_le 1, rfl⟩)
  coin_le _ _ := le_refl 0
  fair_taken _ _ _ := le_refl 0
  fair_given _ _ _ _ _ _ := le_refl 0

theorem gatingLedger_own (d : Dialect) (c : Component) :
    (gatingLedger d).own c = 0 ↔ c.isSupported d = true := by
  have hcoin : c.pooledKind?.elim 0 (gatingLedger d).coin = 0 := by cases c.pooledKind? <;> rfl
  have hpardon : (if c.mayHide then (gatingLedger d).pardon else 0) = 0 := ite_self 0
  rw [Ledger.own, hcoin, hpardon, zero_add, add_zero]
  change (if c.isSupported d then 0 else 1) = 0 ↔ _
  split <;> simp_all

/-- Nothing is charged for a statement if and only if the dialect has everything in it. -/
theorem gatingLedger_total (d : Dialect) (s : Statement) :
    (gatingLedger d).total (.statement s) = 0 ↔ s.Supported d := by
  rw [Ledger.total, Component.total_eq_zero, Statement.Supported]
  simp only [gatingLedger_own]

/-- A statement that is paid for without an income costs nothing. -/
theorem Ledger.Settles.supported {d : Dialect} {p q : Parser} {ss : List Statement}
    (h : (gatingLedger d).Settles p ss q) : ∀ s ∈ ss, s.Supported d := by
  intro s hs
  have hsum := Nat.le_zero.1 (h.value id)
  rw [Ledger.each, List.sum_eq_zero_iff_forall_eq_nat, List.forall_mem_map] at hsum
  exact (gatingLedger_total d s).1 (hsum s hs)

/-! ## Errors that blame the dialect -/

theorem ParseCause.featureUnavailable_message_injective :
    ∀ f ∈ Feature.all, ∀ d ∈ Dialect.all, ∀ f' ∈ Feature.all, ∀ d' ∈ Dialect.all,
      (featureUnavailable f d).message = (featureUnavailable f' d').message → f = f' ∧ d = d' := by
  decide +kernel

theorem Feature.mem_all (f : Feature) : f ∈ all := by cases f <;> decide

theorem Dialect.mem_all (d : Dialect) : d ∈ all := by cases d <;> decide

/-- Only an error that blames the dialect begins as such errors do. -/
theorem ParseCause.Candid.head? {d : Dialect} {cause : ParseCause} (h : cause.Candid d) :
    cause.message.toList.head? = some 'f' ↔ ∃ f d', cause = .featureUnavailable f d' := by
  unfold ParseCause.message
  cases cause with
  | unexpected what found =>
    have hworded : found.Worded := h
    dsimp only
    split
    · next hillegal =>
      obtain ⟨text, htext⟩ := hworded hillegal
      simp [htext]
    · simp
  | _ => simp [toString]

/-- An error that blames the dialect names the dialect that is read, which does not have what it names. -/
theorem ParseCause.Candid.unavailable {d d' : Dialect} {cause : ParseCause} {f : Feature}
    (h : cause.Candid d) (hmessage : cause.message = (featureUnavailable f d').message) :
    d' = d ∧ d.supports f = false := by
  have hblames : (featureUnavailable f d').message.toList.head? = some 'f' := by
    unfold ParseCause.message
    simp [toString]
  obtain ⟨f₁, d₁, rfl⟩ := h.head?.1 (hmessage ▸ hblames)
  obtain ⟨rfl, rfl⟩ := featureUnavailable_message_injective f₁ f₁.mem_all d₁ d₁.mem_all f f.mem_all
    d' d'.mem_all hmessage
  exact h

/-! ## Sessions -/

namespace Parser

/-- A parser keeps to the ledger from its start on. -/
theorem keeps_gatingLedger (source : String) (d : Dialect) (expired : Bool) {pools : Pools}
    (hpools : pools.IsFresh) : (gatingLedger d).Keeps (ofSource source d expired pools) :=
  .ofSource (L := gatingLedger d) source expired hpools

/-- Every statement that is answered holds, at any depth and in quoted bodies too, only what the dialect
has, and so does every statement of a run to the end. Errors that say that the dialect does not have
something are recorded only where it does not. -/
theorem answered_supported (source : String) (d : Dialect) (expired : Bool) {pools : Pools}
    (hpools : pools.IsFresh) (ops : List Operation) :
    let p := (ofSource source d expired pools).after ops
    (∀ op : Operation, ∀ s ∈ op.answered p, s.Supported d) ∧
      (∀ s, .ok s ∈ p.results.1 → s.Supported d) ∧
      ∀ e ∈ p.errors ++ p.results.2.errors, ∀ f d',
        e.cause.message = (ParseCause.featureUnavailable f d').message →
          d' = d ∧ d.supports f = false := by
  intro p
  have hp : (gatingLedger d).Keeps p := ((keeps_gatingLedger source d expired hpools).after ops).keeps
  refine ⟨fun op => (hp.run op).supported, fun s hs => hp.results.supported s ?_, fun e he f d' => ?_⟩
  · exact List.mem_filterMap.2 ⟨.ok s, hs, rfl⟩
  · rcases Array.mem_append.1 he with he | he
    · exact (hp.errors e he).1.unavailable
    · exact (hp.results.leads.keeps.errors e he).1.unavailable

/-- One view is refused in MySQL, the other one is not. -/
theorem answered_supported_view :
    let p := (ofSource "DROP MATERIALIZED VIEW v; DROP VIEW w" .mySql false {}).after []
    Pools.IsFresh {} ∧ (p.results.1.filterMap Except.toOption).length = 1 ∧
      p.results.2.errors.toList.map (fun e => e.cause) = [.featureUnavailable .materializedView .mySql] ∧
      (∀ op : Operation, ∀ s ∈ op.answered p, s.Supported .mySql) ∧
      (∀ s, .ok s ∈ p.results.1 → s.Supported .mySql) ∧
      ∀ e ∈ p.errors ++ p.results.2.errors, ∀ f d',
        e.cause.message = (ParseCause.featureUnavailable f d').message →
          d' = .mySql ∧ Dialect.mySql.supports f = false :=
  ⟨Pools.isFresh_empty, by decide +kernel, by decide +kernel,
    answered_supported "DROP MATERIALIZED VIEW v; DROP VIEW w" .mySql false Pools.isFresh_empty []⟩

end Parser

end SqlFrontend
