import Mathlib.Algebra.Order.BigOperators.Group.List
import SqlFrontend.Proofs.Grammar.Repetition
import SqlFrontend.Proofs.Lexing.Tiling
import SqlFrontend.Proofs.Parsing.Pools
import SqlFrontend.Proofs.Parsing.Run

/-!
# Ledgers

A ledger weighs what a production makes against what happens to the pools meanwhile. Every component of
a tree has a charge of its own, and every change of the pools brings an income. What is charged for a
value is never more than what was in hand before, with the income on the way.

Results:
* `Ledger`: charges, an income, and the causes of errors that may be recorded.
* `Ledger.Keeps`, `Ledger.Leads`: parsers whose record keeps to a ledger, and the way between them.
* `Ledger.Counts`: the ways on which a ledger says something. A strict one passes over those with errors,
  and a tidy one over those on which something is given twice.
* `Ledger.Pays`: with a budget, a production makes values of a charge and of a kind.
* `Pays.seq`, `Pays.loop`, `Pays.many`, `Pays.taking`: the rules for putting productions together. A
  node that is taken from a pool goes back to it where the rest fails.
-/

namespace SqlFrontend

/-! ## Causes -/

/-- The literal of an illegal token says what is wrong with it. -/
def Token.Worded (t : Token) : Prop := t.kind = .illegal → ∃ text, t.literal = "un" ++ text

theorem Lexer.next_worded (lexer : Lexer) : lexer.next.1.Worded := lexer.next_literal.1

/-- What an error blames is so: a token that says what is wrong with it, or a construct that the dialect
does not have. -/
def ParseCause.Candid (d : Dialect) : ParseCause → Prop
  | .unexpected _ found => found.Worded
  | .featureUnavailable feature d' => d' = d ∧ d.supports feature = false
  | _ => True

/-! ## Parsers that stop at errors -/

namespace Parser

/-- The same parser, but it stops at errors. -/
def halting (p : Parser) : Parser := { p with recovering := false }

theorem advance_halting (p : Parser) : p.halting.advance = p.advance.halting := by
  by_cases hc : p.cancelled
  · rw [advance_of_cancelled hc, advance_of_cancelled (p := p.halting) hc]
  by_cases he : p.expired
  · rw [advance_of_expired he, advance_of_expired (p := p.halting) he, cancel, cancel, if_neg hc]
    exact if_neg hc
  · rw [advance_of_live hc he, advance_of_live (p := p.halting) hc he, countCurrent_eq,
      countCurrent_eq]
    rfl

end Parser

/-! ## Ledgers -/

/-- Charges for components, and an income from changes of the pools. -/
structure Ledger (M : Type) [AddCommMonoid M] [PartialOrder M] [IsOrderedAddMonoid M] where
  /-- The dialect that is read. -/
  dialect : Dialect
  /-- Whether the ledger is about readings without errors only. -/
  strict : Prop
  /-- Whether the ledger is about readings only on which nothing is given twice. -/
  tidy : Prop
  /-- The charge for a node from a pool. -/
  coin : PooledKind → M
  /-- The charge for a construct that the dialect does not have. -/
  penalty : M
  /-- The charge for a component that may have had other parts before. -/
  pardon : M
  income : Pools → Pools → M
  /-- The causes of errors that may be recorded. -/
  Honest : ParseCause → Prop
  honest : ∀ cause, cause.Candid dialect → Honest cause
  income_self : ∀ s, income s s = 0
  income_add : ∀ s t u, income s t + income t u = income s u
  pardon_le : pardon ≤ 0
  strict_of_tidy : tidy → strict
  /-- Where something may be given twice, no charge is negative, or a pardon makes up for everything. -/
  settled : tidy ∨ ((∀ kind, 0 ≤ coin kind) ∧ 0 ≤ penalty ∧ pardon = 0) ∨ ∀ x y, pardon + x ≤ y
  coin_le : ∀ kind s, coin kind ≤ income s (s.taken kind)
  fair_taken : ¬strict → ∀ kind s, 0 ≤ income s (s.taken kind)
  fair_given : ¬strict → ∀ c kind s t, c.pooledKind? = some kind →
    0 ≤ income s (s.taken kind) + income t (t.given c)

namespace Ledger

variable {M : Type} [AddCommMonoid M] [PartialOrder M] [IsOrderedAddMonoid M] (L : Ledger M)

/-! ## Charges -/

/-- The charge for a component by itself. -/
def own (c : Component) : M :=
  c.pooledKind?.elim 0 L.coin + (if c.isSupported L.dialect then 0 else L.penalty) +
    (if c.mayHide then L.pardon else 0)

/-- The charge for a component with all that is in it. -/
def total (c : Component) : M := c.total L.own

/-- The charge for several components. -/
def sum (cs : List Component) : M := (cs.map L.total).sum

/-- The charge for components of one type. -/
@[simp] abbrev each {α : Type} (make : α → Component) (items : List α) : M :=
  (items.map fun a => L.total (make a)).sum

/-- The charge for a component that may be missing. -/
@[simp] abbrev maybe {α : Type} (make : α → Component) (item : Option α) : M :=
  item.elim 0 fun a => L.total (make a)

theorem total_eq (c : Component) : L.total c = L.own c + L.sum c.fields := c.total_eq L.own

@[simp] theorem sum_nil : L.sum [] = 0 := rfl

@[simp] theorem sum_cons (c : Component) (cs : List Component) :
    L.sum (c :: cs) = L.total c + L.sum cs := List.sum_cons

@[simp] theorem sum_append (cs ds : List Component) : L.sum (cs ++ ds) = L.sum cs + L.sum ds := by
  rw [sum, List.map_append, List.sum_append]
  rfl

@[simp] theorem sum_map {α : Type} (make : α → Component) (items : List α) :
    L.sum (items.map make) = L.each make items := by
  rw [sum, List.map_map]
  rfl

@[simp] theorem each_toList {α : Type} (make : α → Component) (item : Option α) :
    (item.toList.map fun a => L.total (make a)).sum = L.maybe make item := by
  cases item <;> simp

@[simp] theorem each_getD {α : Type} (make : α → Component) (items : Option (List α)) :
    ((items.getD []).map fun a => L.total (make a)).sum = items.elim 0 (L.each make) := by
  cases items <;> rfl

@[simp] theorem sum_flatMap {α : Type} (make : α → List Component) (items : List α) :
    L.sum (items.flatMap make) = (items.map fun a => L.sum (make a)).sum := by
  induction items with
  | nil => rfl
  | cons a items ih => rw [List.flatMap_cons, sum_append, ih, List.map_cons, List.sum_cons]

variable {L}

/-- What is charged for a column depends on its parts, and on whether its value or its condition may have
given way to others. -/
theorem total_columnDefinition (column : ColumnDefinition) :
    L.total (.columnDefinition column) =
      (if column.initial.isSome || column.check.isSome then L.pardon else 0) +
        (L.total (.dataType column.type) + (L.maybe .expr column.initial + L.maybe .expr column.check)) := by
  simp [L.total_eq (.columnDefinition column), own, Component.fields, Component.pooledKind?,
    Component.isSupported, Component.mayHide]

/-- A component that is no node, and that the dialect has, is worth no more than its fields. -/
theorem total_le {c : Component} {x : M} (hkind : c.pooledKind? = none)
    (hsupported : c.isSupported L.dialect = true) (h : L.sum c.fields ≤ x) : L.total c ≤ x := by
  have hpardon : (if c.mayHide then L.pardon else 0) ≤ 0 := by
    split
    · exact L.pardon_le
    · exact le_refl 0
  rw [L.total_eq, own, hkind, if_pos hsupported, Option.elim_none, zero_add, zero_add]
  exact (add_le_of_nonpos_left hpardon).trans h

/-- Nodes are supported everywhere. -/
theorem isSupported_of_pooledKind? {c : Component} {kind : PooledKind} {d : Dialect}
    (h : c.pooledKind? = some kind) : c.isSupported d = true := by
  cases c <;> first | rfl | cases h

/-- A node is worth no more than the charge for its kind and its fields. -/
theorem total_node_le {c : Component} {kind : PooledKind} (hkind : c.pooledKind? = some kind) :
    L.total c ≤ L.coin kind + L.sum c.fields := by
  have hpardon : (if c.mayHide then L.pardon else 0) ≤ 0 := by
    split
    · exact L.pardon_le
    · exact le_refl 0
  rw [L.total_eq, own, hkind, if_pos (isSupported_of_pooledKind? hkind), Option.elim_some, add_zero]
  exact add_le_add_left (add_le_of_nonpos_right hpardon) _

/-- Where no pardon makes up for it, no charge is negative. -/
theorem sum_nonneg (h : (∀ kind, 0 ≤ L.coin kind) ∧ 0 ≤ L.penalty ∧ L.pardon = 0)
    (cs : List Component) : 0 ≤ L.sum cs := by
  obtain ⟨hcoin, hpenalty, hpardon⟩ := h
  have hown (c : Component) : 0 ≤ L.own c := by
    refine add_nonneg (add_nonneg ?_ ?_) ?_
    · cases c.pooledKind? with
      | none => exact le_refl 0
      | some kind => exact hcoin kind
    · split
      · exact le_refl 0
      · exact hpenalty
    · rw [hpardon, ite_self]
  have htotal (c : Component) : 0 ≤ L.total c := by
    induction c using Component.induction with
    | _ c ih =>
      rw [L.total_eq]
      refine add_nonneg (hown c) (List.sum_nonneg fun x hx => ?_)
      obtain ⟨d, hd, rfl⟩ := List.mem_map.1 hx
      exact ih d hd
  refine List.sum_nonneg fun x hx => ?_
  obtain ⟨d, -, rfl⟩ := List.mem_map.1 hx
  exact htotal d

/-- Where something may be given twice, a component that may have had other parts before is worth no more
than the fields that it has, or everything is made up for. -/
theorem total_le_of_mayHide {c : Component} {x : M} (htidy : ¬L.tidy) (hhide : c.mayHide = true)
    (h : L.pardon = 0 → (∀ cs, 0 ≤ L.sum cs) → L.total c ≤ x) : L.total c ≤ x := by
  rcases L.settled.resolve_left htidy with hsettled | hsettled
  · exact h hsettled.2.2 (sum_nonneg hsettled)
  · rw [L.total_eq, own, if_pos hhide, add_comm _ L.pardon, add_assoc]
    exact hsettled _ x

/-! ## Parsers that keep to a ledger -/

variable (L)

/-- The dialect is that of the ledger, the pools hand out new nodes, the tokens at hand are those of a
lexer, and every error in the record is one that may be recorded. -/
structure Keeps (p : Parser) : Prop where
  dialect : p.dialect = L.dialect
  pools : p.pools.IsFresh
  current : p.current.Worded
  peek : p.peek.Worded
  errors : ∀ e ∈ p.errors, L.Honest e.cause ∧ (e.isCancelled → p.cancelled)
  deferred : ∀ e ∈ p.deferred, L.Honest e.cause ∧ (e.isCancelled → p.cancelled)

/-- The way from one parser to another. -/
structure Leads (p q : Parser) : Prop where
  keeps : L.Keeps q
  reaches : p.Reaches q
  errors : p.errors.size ≤ q.errors.size
  fair : ¬L.strict → 0 ≤ L.income p.pools q.pools

/-- A way counts unless, for a strict ledger, an error was passed on it, or, for a tidy one, something
is given twice there. -/
structure Counts (p q : Parser) : Prop where
  clean : L.strict → p.recovering → q.errors.size = p.errors.size
  once : L.tidy → ∀ r, p.Meets q r → ¬r.GivesTwice

variable {L} {p q r : Parser}

theorem Leads.refl (h : L.Keeps p) : L.Leads p p :=
  ⟨h, .refl p, le_refl _, fun _ => (L.income_self _).ge⟩

theorem Leads.trans (h : L.Leads p q) (h' : L.Leads q r) : L.Leads p r := by
  refine ⟨h'.keeps, h.reaches.trans h'.reaches, h.errors.trans h'.errors, fun hs => ?_⟩
  rw [← L.income_add p.pools q.pools r.pools]
  exact add_nonneg (h.fair hs) (h'.fair hs)

theorem Leads.recovering (h : L.Leads p q) : q.recovering = p.recovering := h.reaches.recovering

/-- Where a ledger is not strict, every way counts. -/
theorem counts_of_not_strict (hs : ¬L.strict) : L.Counts p q :=
  ⟨fun h => absurd h hs, fun h => absurd (L.strict_of_tidy h) hs⟩

/-- Where a way counts, both of its parts do. -/
theorem Counts.parts (h : L.Counts p r) (hpq : L.Leads p q) (hqr : L.Leads q r) :
    L.Counts p q ∧ L.Counts q r := by
  have hboth (hs : L.strict) (hr : p.recovering) :
      q.errors.size = p.errors.size ∧ r.errors.size = q.errors.size := by
    have hsame := h.clean hs hr
    have hle := hpq.errors
    have hle' := hqr.errors
    omega
  refine ⟨⟨fun hs hr => (hboth hs hr).1, fun ht x hx => ?_⟩,
    ⟨fun hs hr => (hboth hs (hpq.recovering ▸ hr)).2, fun ht x hx => ?_⟩⟩
  · exact h.once ht x (hx.before hqr.reaches)
  · exact h.once ht x (hx.behind hpq.reaches)

/-- What changes nothing but the place leads on. -/
theorem Leads.of_place (hkeeps : L.Keeps q) (hpools : q.pools = p.pools) (hreaches : p.Reaches q)
    (herrors : p.errors.size ≤ q.errors.size) : L.Leads p q :=
  ⟨hkeeps, hreaches, herrors, fun _ => by rw [hpools, L.income_self]⟩

namespace Keeps

/-- Only the record and the tokens at hand count. -/
theorem congr (hp : L.Keeps p) (hdialect : q.dialect = p.dialect) (hpools : q.pools = p.pools)
    (hcurrent : q.current = p.current) (hpeek : q.peek = p.peek) (herrors : q.errors = p.errors)
    (hdeferred : q.deferred = p.deferred) (hcancelled : q.cancelled = p.cancelled) : L.Keeps q := by
  obtain ⟨h1, h2, h3, h4, h5, h6⟩ := hp
  rw [← hdialect] at h1
  rw [← hpools] at h2
  rw [← hcurrent] at h3
  rw [← hpeek] at h4
  rw [← herrors, ← hcancelled] at h5
  rw [← hdeferred, ← hcancelled] at h6
  exact ⟨h1, h2, h3, h4, h5, h6⟩

theorem setPools (hp : L.Keeps p) {pools : Pools} (h : pools.IsFresh) :
    L.Keeps { p with pools } :=
  ⟨hp.dialect, h, hp.current, hp.peek, hp.errors, hp.deferred⟩

theorem cancel (hp : L.Keeps p) (hexpired : p.expired) : L.Leads p p.cancel := by
  have hreaches : p.Reaches p.cancel := Parser.advance_of_expired hexpired ▸ .advance p
  revert hreaches
  unfold Parser.cancel
  split
  · exact fun _ => .refl hp
  · intro hreaches
    have hfinish : Token.Worded ⟨.eof, "", p.current.span⟩ := nofun
    refine .of_place ⟨hp.dialect, hp.pools, hfinish, hfinish, fun e he => ?_, fun e he => ?_⟩ rfl hreaches
      (by simp)
    · rcases Array.mem_push.1 he with he | rfl
      · exact ⟨(hp.errors e he).1, fun _ => rfl⟩
      · exact ⟨L.honest _ trivial, fun _ => rfl⟩
    · exact ⟨(hp.deferred e he).1, fun _ => rfl⟩

theorem advance (hp : L.Keeps p) : L.Leads p p.advance := by
  by_cases hc : p.cancelled
  · rw [Parser.advance_of_cancelled hc]
    exact .refl hp
  by_cases he : p.expired
  · rw [Parser.advance_of_expired he]
    exact hp.cancel he
  · have hdialect := p.advance_dialect.trans hp.dialect
    have hreaches := Parser.Reaches.advance p
    rw [Parser.advance_of_live hc he, Parser.countCurrent_eq] at hdialect hreaches ⊢
    exact .of_place ⟨hdialect, hp.pools, hp.peek, Lexer.next_worded _, hp.errors, hp.deferred⟩ rfl hreaches
      (le_refl _)

theorem skipWhile (hp : L.Keeps p) (condition : Parser → Bool) :
    L.Leads p (p.skipWhile condition) ∧ (p.skipWhile condition).pools = p.pools := by
  fun_induction Parser.skipWhile p condition with
  | case1 p _ _ ih =>
    obtain ⟨hleads, hpools⟩ := ih hp.advance.keeps
    exact ⟨hp.advance.trans hleads, hpools.trans p.pools_advance⟩
  | case2 p => exact ⟨hp.advance, p.pools_advance⟩
  | case3 p => exact ⟨.refl hp, rfl⟩

theorem synchronize (hp : L.Keeps p) : L.Leads p p.synchronize :=
  have hrest := (hp.skipWhile fun p => !p.atTerminator).1
  hrest.trans (hrest.keeps.skipWhile _).1

theorem record (hp : L.Keeps p) {e : ParseError} (honest : L.Honest e.cause)
    (hstopped : e.isCancelled → p.cancelled) : L.Leads p (p.record e) := by
  unfold Parser.record
  split
  · exact .refl hp
  · refine .of_place ⟨hp.dialect, hp.pools, hp.current, hp.peek, fun d hd => ?_,
      Array.forall_mem_empty _⟩ rfl (.of_course rfl) ?_
    · rcases Array.mem_append.1 hd with hd | hd
      · rcases Array.mem_push.1 hd with hd | rfl
        · exact hp.errors d hd
        · exact ⟨honest, hstopped⟩
      · exact hp.deferred d hd
    · simp only [Array.size_append, Array.size_push]
      omega

theorem ofSource (source : String) (expired : Bool) {pools : Pools} (h : pools.IsFresh) :
    L.Keeps (.ofSource source L.dialect expired pools) := by
  have hdialect := Parser.dialect_ofSource source L.dialect expired pools
  rw [Parser.ofSource_eq, Parser.countCurrent_eq] at hdialect ⊢
  exact ⟨hdialect, h, Lexer.next_worded _, Lexer.next_worded _, Array.forall_mem_empty _,
    Array.forall_mem_empty _⟩

/-- Of the parser around a quoted body, only the dialect and the pools count. -/
theorem opened (hdialect : p.dialect = L.dialect) (hpools : p.pools.IsFresh) (body : String) :
    L.Keeps (p.nested body) := by
  have h := ofSource (L := L) body p.expired hpools
  rw [← hdialect] at h
  rw [Parser.nested]
  revert h
  generalize Parser.ofSource body p.dialect p.expired p.pools = inner
  exact fun h => h.congr rfl rfl rfl rfl rfl rfl rfl

theorem nested (hp : L.Keeps p) (body : String) : L.Keeps (p.nested body) :=
  opened hp.dialect hp.pools body

theorem honest_expectedError (hp : L.Keeps p) (what : String) :
    L.Honest (p.expectedError what).cause ∧ ((p.expectedError what).isCancelled → p.cancelled) := by
  unfold Parser.expectedError
  split
  · next hc => exact ⟨L.honest _ trivial, fun _ => hc⟩
  · exact ⟨L.honest _ hp.current, fun h => by cases h⟩

end Keeps

/-! ## Productions -/

/-- What a run of a production comes to, with a budget: a value that was paid for, or an error that may be
recorded. The other run is that of a parser that stops at errors. It comes to the same value where no
error was passed. -/
inductive Paid {α : Type} (L : Ledger M) (budget : M) (p : Parser) (made : α → M) (G : α → Prop) :
    EStateM.Result ParseError Parser α → EStateM.Result ParseError Parser α → Prop
  | ok {a : α} {q : Parser} {other : EStateM.Result ParseError Parser α} (leads : L.Leads p q)
      (value : L.Counts p q → made a ≤ budget + L.income p.pools q.pools) (kind : G a)
      (halting : q.errors.size = p.errors.size → other = .ok a q.halting) :
      Paid L budget p made G (.ok a q) other
  | error {e : ParseError} {q : Parser} {other : EStateM.Result ParseError Parser α}
      (leads : L.Leads p q) (honest : L.Honest e.cause) (stopped : e.isCancelled → q.cancelled) :
      Paid L budget p made G (.error e q) other

section

variable {α : Type} {budget : M} {made : α → M} {G : α → Prop}
  {result other : EStateM.Result ParseError Parser α}

/-- A run behind another one whose value is its budget. -/
theorem Paid.behind {P : M} {other' : EStateM.Result ParseError Parser α}
    (h : L.Paid P q made G result other) (hleads : L.Leads p q)
    (hvalue : L.Counts p q → P ≤ budget + L.income p.pools q.pools)
    (hhalting : q.errors.size = p.errors.size → other' = other) :
    L.Paid budget p made G result other' := by
  cases h with
  | error hleads' honest hstopped => exact .error (hleads.trans hleads') honest hstopped
  | @ok a r _ hleads' hvalue' hkind' hhalting' =>
    refine .ok (hleads.trans hleads') (fun hcounts => ?_) hkind' fun hsame => ?_
    rotate_left
    · have hle := hleads.errors
      have hle' := hleads'.errors
      rw [hhalting (by omega), hhalting' (by omega)]
    obtain ⟨hfirst, hsecond⟩ := hcounts.parts hleads hleads'
    calc made a
      _ ≤ P + L.income q.pools r.pools := hvalue' hsecond
      _ ≤ budget + L.income p.pools q.pools + L.income q.pools r.pools :=
        add_le_add_left (hvalue hfirst) _
      _ = budget + L.income p.pools r.pools := by rw [add_assoc, L.income_add]

/-- A run with more in hand. -/
theorem Paid.mono {budget' : M} (h : L.Paid budget p made G result other) (hle : budget ≤ budget') :
    L.Paid budget' p made G result other := by
  cases h with
  | error hleads honest hstopped => exact .error hleads honest hstopped
  | ok hleads hvalue hkind hhalting =>
    exact .ok hleads (fun hcounts => (hvalue hcounts).trans (add_le_add_left hle _)) hkind hhalting

end

/-- With a budget, a production makes values of the given charge and of the kind `G`. -/
def Pays {α : Type} (L : Ledger M) (budget : M) (m : Production α) (made : α → M)
    (G : α → Prop := fun _ => True) : Prop :=
  ∀ p : Parser, L.Keeps p → L.Paid budget p made G (m p) (m p.halting)

/-- A production makes nothing that is charged for. -/
abbrev Quiet {α : Type} (L : Ledger M) (m : Production α) (G : α → Prop := fun _ => True) : Prop :=
  L.Pays 0 m (fun _ => 0) G

variable {α β σ : Type} {budget : M} {m n : Production α} {made : α → M} {G : α → Prop}

namespace Pays

/-! ## Sequences and choices -/

/-- The last production of a sequence. -/
theorem tail {P : α → M} (h : L.Pays 0 m P G) (hle : ∀ a, made a ≤ budget + P a) :
    L.Pays budget m made G := by
  intro p hp
  have hrun := h p hp
  revert hrun
  generalize m p = result, m p.halting = other
  intro hrun
  cases hrun with
  | error hleads honest hstopped => exact .error hleads honest hstopped
  | @ok a q _ hleads hvalue hkind hhalting =>
    refine .ok hleads (fun hcounts => (hle a).trans ?_) hkind hhalting
    have hpaid := hvalue hcounts
    rw [zero_add] at hpaid
    exact add_le_add_right hpaid budget

/-- The same values, of which more or less is said. -/
theorem claim {H : α → Prop} (h : L.Pays budget m made G) (hG : ∀ a, G a → H a) :
    L.Pays budget m made H := by
  intro p hp
  have hrun := h p hp
  revert hrun
  generalize m p = result, m p.halting = other
  intro hrun
  cases hrun with
  | error hleads honest hstopped => exact .error hleads honest hstopped
  | ok hleads hvalue hkind hhalting => exact .ok hleads hvalue (hG _ hkind) hhalting

/-- A sequence in which the second production has in hand what the first one makes. -/
theorem chain {P : α → M} {f : α → Production β} {made : β → M} {H : β → Prop}
    (hm : L.Pays budget m P G) (hf : ∀ a, G a → L.Pays (P a) (f a) made H) :
    L.Pays budget (m >>= f) made H := by
  intro p hp
  have hrun := hm p hp
  rw [Production.run_bind, Production.run_bind]
  revert hrun
  generalize m p = result, m p.halting = other
  intro hrun
  cases hrun with
  | error hleads honest hstopped => exact .error hleads honest hstopped
  | @ok a q _ hleads hvalue hkind hhalting =>
    exact (hf a hkind q hleads.keeps).behind hleads hvalue fun hsame => by rw [hhalting hsame]

/-- A sequence in which the second production has in hand what the first one makes, and what was there
before. -/
theorem seqWith {P : α → M} {f : α → Production β} {made : β → M} {H : β → Prop}
    (hm : L.Pays 0 m P G) (hf : ∀ a, G a → L.Pays (budget + P a) (f a) made H) :
    L.Pays budget (m >>= f) made H := .chain (hm.tail fun _ => le_refl _) hf

theorem seq {P : α → M} {f : α → Production β} {made : β → M} {H : β → Prop}
    (hm : L.Pays 0 m P) (hf : ∀ a, L.Pays (budget + P a) (f a) made H) :
    L.Pays budget (m >>= f) made H := hm.seqWith fun a _ => hf a

/-- A sequence in which two values are paid for together. -/
theorem seqPair {γ : Type} {n : Production β} {P : α × β → M} {f : α → β → Production γ} {made : γ → M}
    {H : γ → Prop} (h : L.Pays 0 (do let a ← m; return (a, ← n)) P)
    (hf : ∀ a b, L.Pays (budget + P (a, b)) (f a b) made H) :
    L.Pays budget (m >>= fun a => n >>= fun b => f a b) made H := by
  have heq : (m >>= fun a => n >>= fun b => f a b) =
      (do let a ← m; return (a, ← n)) >>= fun v => f v.1 v.2 := by
    simp only [bind_assoc, bind_pure_comp, bind_map_left]
  rw [heq]
  exact h.seq fun v => hf v.1 v.2

/-- A sequence that begins with a production whose values are of a kind, and free. -/
theorem know {f : α → Production β} {made : β → M} {H : β → Prop} (hm : L.Quiet m G)
    (hf : ∀ a, G a → L.Pays budget (f a) made H) : L.Pays budget (m >>= f) made H :=
  hm.seqWith fun a ha => by
    rw [add_zero]
    exact hf a ha

theorem bind {f : α → Production β} {made : β → M} {H : β → Prop} (hm : L.Quiet m)
    (hf : ∀ a, L.Pays budget (f a) made H) : L.Pays budget (m >>= f) made H :=
  hm.know fun a _ => hf a

/-- A value that is at hand, with its charge. -/
theorem give {a : α} (h : made a ≤ budget) (hkind : G a) : L.Pays budget (Pure.pure a) made G :=
  fun p hp => .ok (.refl hp) (fun _ => by rw [L.income_self, add_zero]; exact h) hkind fun _ => rfl

theorem ret {a : α} (h : made a ≤ budget) : L.Pays budget (Pure.pure a) made := give h trivial

/-- A value of a kind, at no charge. -/
theorem found {a : α} (h : G a) : L.Quiet (Pure.pure a) G := give (le_refl 0) h

theorem stay {a : α} : L.Quiet (Pure.pure a) := found trivial

theorem map {P : α → M} {f : α → β} {made : β → M} (h : L.Pays 0 m P)
    (hle : ∀ a, made (f a) ≤ budget + P a) : L.Pays budget (f <$> m) made := by
  rw [map_eq_pure_bind]
  exact h.seq fun a => .ret (hle a)

theorem mapQuiet {f : α → β} (h : L.Quiet m) : L.Quiet (f <$> m) := by
  rw [map_eq_pure_bind]
  exact h.bind fun _ => .stay

theorem discard (h : L.Quiet m) : L.Quiet (Functor.discard m) := h.mapQuiet

/-- A value that is at hand. -/
theorem retThen {a : α} {f : α → Production β} {made : β → M} {H : β → Prop}
    (h : L.Pays budget (f a) made H) : L.Pays budget (Pure.pure a >>= f) made H := by
  rw [pure_bind]
  exact h

theorem ite {c : Prop} [Decidable c] (hthen : c → L.Pays budget m made G)
    (helse : ¬c → L.Pays budget n made G) : L.Pays budget (if c then m else n) made G := by
  by_cases hc : c
  · rw [if_pos hc]; exact hthen hc
  · rw [if_neg hc]; exact helse hc

theorem bindIf {t : Production Bool} (ht : L.Quiet t) (hthen : L.Pays budget m made G)
    (helse : L.Pays budget n made G) :
    L.Pays budget (t >>= fun x => if x = true then m else n) made G :=
  ht.bind fun _ => .ite (fun _ => hthen) fun _ => helse

/-- A choice with more behind it. -/
theorem bindIfThen {t : Production Bool} {P : α → M} {f : α → Production β} {made : β → M}
    {H : β → Prop} (ht : L.Quiet t) (hthen : L.Pays 0 m P) (helse : L.Pays 0 n P)
    (hf : ∀ a, L.Pays (budget + P a) (f a) made H) :
    L.Pays budget (t >>= fun x => if x = true then m >>= f else n >>= f) made H :=
  .bindIf ht (.seq hthen hf) (.seq helse hf)

/-- A choice of doing something only if a test does not pass, with more behind it. -/
theorem bindUnless {t : Production Bool} {n : Production Unit} {f : Unit → Production β}
    {made : β → M} {H : β → Prop} (ht : L.Quiet t) (helse : L.Quiet n)
    (hf : L.Pays budget (f ()) made H) :
    L.Pays budget (t >>= fun x => if x = true then f () else n >>= f) made H :=
  .bindIf ht hf (.bind helse fun _ => hf)

/-! ## Errors -/

theorem expected {what : String} : L.Pays budget (Production.expected what : Production α) made G :=
  fun _ hp => .error (.refl hp) (hp.honest_expectedError what).1 (hp.honest_expectedError what).2

theorem fail {cause : ParseCause} {place : Span} (h : cause.Candid L.dialect)
    (hlive : cause ≠ .cancelled) :
    L.Pays budget (Production.fail cause place : Production α) made G :=
  fun _ hp => .error (.refl hp) (L.honest cause h) fun hc => absurd (beq_iff_eq.1 hc) hlive

/-- Nothing comes behind an error. -/
theorem expectedThen {what : String} {f : α → Production β} {made : β → M} {H : β → Prop} :
    L.Pays budget (Production.expected what >>= f) made H :=
  .know (G := fun _ => False) .expected fun _ => False.elim

theorem failThen {cause : ParseCause} {place : Span} {f : α → Production β} {made : β → M}
    {H : β → Prop} (h : cause.Candid L.dialect) (hlive : cause ≠ .cancelled) :
    L.Pays budget (Production.fail cause place >>= f) made H :=
  .know (G := fun _ => False) (.fail h hlive) fun _ => False.elim

/-! ## Reading a parser -/

/-- A production that only looks at its parser, and not at whether it stops at errors. -/
theorem read {f : Parser → α} (hm : ∀ p, m p = .ok (f p) p) (hf : ∀ p : Parser, f p.halting = f p)
    (h : ∀ p, L.Keeps p → G (f p)) : L.Quiet m G := by
  intro p hp
  rw [hm, hm, hf]
  exact .ok (.refl hp) (fun _ => by rw [L.income_self, add_zero]) (h p hp) fun _ => rfl

theorem bindGet {f : Parser → Production β} {made : β → M} {H : β → Prop}
    (hf : ∀ p : Parser, f p.halting = f p) (h : ∀ p, L.Pays budget (f p) made H) :
    L.Pays budget (MonadState.get >>= f) made H := by
  intro p hp
  rw [Production.run_bind, Production.run_bind, Production.run_get, Production.run_get]
  dsimp only
  rw [hf]
  exact h p p hp

theorem current : L.Quiet Production.current :=
  read (f := Parser.current) (fun _ => rfl) (fun _ => rfl) fun _ _ => trivial

theorem kind : L.Quiet Production.kind :=
  read (f := fun p => p.current.kind) (fun _ => rfl) (fun _ => rfl) fun _ _ => trivial

theorem peekKind : L.Quiet Production.peekKind :=
  read (f := fun p => p.peek.kind) (fun _ => rfl) (fun _ => rfl) fun _ _ => trivial

theorem span : L.Quiet Production.span :=
  read (f := fun p => p.current.span) (fun _ => rfl) (fun _ => rfl) fun _ _ => trivial

theorem dialect : L.Quiet Production.dialect fun d => d = L.dialect :=
  read (f := Parser.dialect) (fun _ => rfl) (fun _ => rfl) fun _ hp => hp.dialect

theorem atTerminator : L.Quiet Production.atTerminator :=
  read (f := Parser.atTerminator) (fun _ => rfl) (fun _ => rfl) fun _ _ => trivial

/-- Behind a construct that is gated, the dialect has it. -/
theorem require {feature : Feature} {place : Span} :
    L.Quiet (Production.require feature place) fun _ => L.dialect.supports feature = true := by
  refine .know .dialect fun d hd => .ite (fun hsupports => .found (hd ▸ hsupports)) fun hsupports => ?_
  exact .fail ⟨hd, by simpa [hd] using hsupports⟩ nofun

theorem check {k : TokenKind} : L.Quiet (Production.check k) :=
  read (f := fun p => p.current.kind == k) (fun _ => rfl) (fun _ => rfl) fun _ _ => trivial

/-- A choice of what is done only where a token of a kind stands. -/
theorem bindIfKind {k : TokenKind} {c : Bool → Prop} [DecidablePred c] (hc : ∀ x, c x → x = true)
    (hthen : ∀ p, L.Keeps p → p.current.kind = k → L.Paid budget p made G (m p) (m p.halting))
    (helse : L.Pays budget n made G) :
    L.Pays budget (Production.check k >>= fun x => if c x then m else n) made G := by
  intro p hp
  change L.Paid budget p made G ((if c (p.current.kind == k) then m else n) p)
    ((if c (p.current.kind == k) then m else n) p.halting)
  by_cases hx : c (p.current.kind == k)
  · rw [if_pos hx]
    exact hthen p hp (beq_iff_eq.1 (hc _ hx))
  · rw [if_neg hx]
    exact helse p hp

theorem checkPeek {k : TokenKind} : L.Quiet (Production.checkPeek k) :=
  read (f := fun p => p.peek.kind == k) (fun _ => rfl) (fun _ => rfl) fun _ _ => trivial

theorem checkKeyword {word : Keyword} : L.Quiet (Production.checkKeyword word) := check

theorem peekKeyword {word : Keyword} : L.Quiet (Production.peekKeyword word) := checkPeek

theorem checkKeywords {first second : Keyword} : L.Quiet (Production.checkKeywords first second) :=
  .bindIf .checkKeyword .peekKeyword .stay

theorem checkWord {word : String} : L.Quiet (Production.checkWord word) :=
  read (f := fun p => p.current.isWord word) (fun _ => rfl) (fun _ => rfl) fun _ _ => trivial

theorem atName : L.Quiet Production.atName :=
  read (f := fun p => p.current.isName) (fun _ => rfl) (fun _ => rfl) fun _ _ => trivial

theorem peekIsName : L.Quiet Production.peekIsName :=
  read (f := fun p => p.peek.isName) (fun _ => rfl) (fun _ => rfl) fun _ _ => trivial

/-! ## Passing tokens -/

/-- A production that changes the place only. -/
theorem pass {m : Production Unit} (next : Parser → Parser) (hm : ∀ p, m p = .ok () (next p))
    (hnext : ∀ p : Parser, next p.halting = (next p).halting)
    (h : ∀ p, L.Keeps p → L.Leads p (next p) ∧ (next p).pools = p.pools) : L.Quiet m := by
  intro p hp
  rw [hm, hm, hnext]
  obtain ⟨hleads, hpools⟩ := h p hp
  exact .ok hleads (fun _ => by rw [hpools, L.income_self, add_zero]) trivial fun _ => rfl

theorem advance : L.Quiet Production.advance :=
  pass Parser.advance (fun _ => rfl) Parser.advance_halting fun p hp => ⟨hp.advance, p.pools_advance⟩

theorem takeLiteral : L.Quiet Production.takeLiteral :=
  .bind .current fun _ => .bind .advance fun _ => .stay

theorem consumeIf {t : Production Bool} (ht : L.Quiet t) : L.Quiet (Production.consumeIf t) :=
  .bindIf ht (.bind .advance fun _ => .stay) .stay

theorem consume {k : TokenKind} : L.Quiet (Production.consume k) := .consumeIf .check

theorem consumeKeyword {word : Keyword} : L.Quiet (Production.consumeKeyword word) :=
  .consumeIf .checkKeyword

theorem consumeWord {word : String} : L.Quiet (Production.consumeWord word) := .consumeIf .checkWord

theorem consumeAny {kinds : List TokenKind} : L.Quiet (Production.consumeAny kinds) :=
  .consumeIf (.bind .kind fun _ => .stay)

theorem consumeKeywords {first second : Keyword} :
    L.Quiet (Production.consumeKeywords first second) :=
  .bindIf .checkKeywords (.bind .advance fun _ => .bind .advance fun _ => .stay) .stay

theorem skipKeyword {word : Keyword} : L.Quiet (Production.skipKeyword word) :=
  .discard .consumeKeyword

theorem skipWord {word : String} : L.Quiet (Production.skipWord word) := .discard .consumeWord

theorem expectIf {t : Production Bool} {what : String} (ht : L.Quiet t) :
    L.Quiet (do unless ← t do Production.expected what) := .bindIf ht .stay .expected

theorem expect {k : TokenKind} : L.Quiet (Production.expect k) := .expectIf .consume

theorem expectKeyword {word : Keyword} : L.Quiet (Production.expectKeyword word) :=
  .expectIf .consumeKeyword

theorem expectWord {word : String} : L.Quiet (Production.expectWord word) := .expectIf .consumeWord

theorem name : L.Quiet Production.name := .bindIf .atName .takeLiteral .expected

theorem trailingName? : L.Quiet Production.trailingName? :=
  .bindGet (fun _ => rfl) fun _ =>
    .ite (fun _ => .bind .takeLiteral fun _ => .stay) fun _ => .stay

theorem skipSemicolons : L.Quiet Production.skipSemicolons :=
  pass Parser.skipSemicolons (fun _ => rfl)
    (Parser.skipWhile_comm Parser.advance_halting (fun _ => rfl) fun _ => rfl)
    fun _ hp => hp.skipWhile _

/-! ## Repetition -/

/-- What is said of a round of a loop: one thing of a state to go on with, another one of the value. -/
def round {γ : Type*} (more : σ → γ) (done : α → γ) : Production.Step σ α → γ
  | .more s => more s
  | .done a => done a

/-- The charge for the state is in hand in every round. -/
theorem paid_loop {I : σ → M} {J : σ → Prop} {step : σ → Production (Production.Step σ α)} {s : σ}
    (hstep : ∀ s, J s → L.Pays (I s) (step s) (round I made) (round J G)) (hJ : J s)
    (hp : L.Keeps p) :
    L.Paid (I s) p made G (Production.loop step s p) (Production.loop step s p.halting) := by
  induction hn : p.remaining using Nat.strong_induction_on generalizing p s with
  | _ n ih =>
    subst hn
    have hrun := hstep s hJ p hp
    rw [Production.loop.eq_def, Production.loop.eq_def step s p.halting]
    revert hrun
    generalize step s p = result, step s p.halting = other
    intro hrun
    cases hrun with
    | error hleads honest hstopped => exact .error hleads honest hstopped
    | @ok next q _ hleads hvalue hkind hhalting =>
      cases next with
      | done a => exact .ok hleads hvalue hkind fun hsame => by rw [hhalting hsame]
      | more s' =>
        dsimp only
        by_cases hless : q.remaining < p.remaining
        · rw [if_pos hless]
          refine (ih _ hless hkind hleads.keeps rfl).behind hleads hvalue fun hsame => ?_
          rw [hhalting hsame]
          exact if_pos hless
        · rw [if_neg hless]
          have honest := hleads.keeps.honest_expectedError "more input"
          exact .error hleads honest.1 honest.2

theorem loopWith {I : σ → M} {J : σ → Prop} {step : σ → Production (Production.Step σ α)} {s : σ}
    (hstep : ∀ s, J s → L.Pays (I s) (step s) (round I made) (round J G)) (hI : I s ≤ budget)
    (hJ : J s) : L.Pays budget (Production.loop step s) made G :=
  fun _ hp => (paid_loop hstep hJ hp).mono hI

theorem loop {I : σ → M} {step : σ → Production (Production.Step σ α)} {s : σ}
    (hstep : ∀ s, L.Pays (I s) (step s) (round I made)) (hI : I s ≤ budget) :
    L.Pays budget (Production.loop step s) made :=
  loopWith (J := fun _ => True) (fun s _ => (hstep s).claim fun next _ => by cases next <;> trivial) hI
    trivial

/-- A loop that makes nothing that is charged for. -/
theorem loopQuiet {step : σ → Production (Production.Step σ α)} {s : σ}
    (hstep : ∀ s, L.Quiet (step s)) : L.Quiet (Production.loop step s) :=
  loop (I := fun _ => 0) (fun s => (hstep s).tail fun next => by cases next <;> simp [round])
    (le_refl 0)

/-- The items that are collected are charged for one by one. -/
theorem manyWith {item? : Production (Option α)} {P : α → M}
    (h : L.Pays 0 item? (fun item => item.elim 0 P) fun item => ∀ a ∈ item, G a) :
    L.Pays 0 (Production.many item?) (fun items => (items.map P).sum)
      fun items => ∀ a ∈ items, G a := by
  refine .loopWith (I := fun items => (items.map P).sum) (J := fun items => ∀ a ∈ items, G a)
    (fun items hitems => ?_) (le_refl _) nofun
  refine h.seqWith fun item hitem => ?_
  cases item with
  | none => exact .give (by simp [round]) fun a ha => hitems a (List.mem_reverse.1 ha)
  | some a => exact .give (by simp [round, add_comm]) (List.forall_mem_cons.2 ⟨hitem a rfl, hitems⟩)

theorem many {item? : Production (Option α)} {P : α → M}
    (h : L.Pays 0 item? fun item => item.elim 0 P) :
    L.Pays 0 (Production.many item?) fun items => (items.map P).sum :=
  (manyWith (G := fun _ => True) (h.claim fun _ _ _ _ => trivial)).claim fun _ _ => trivial

theorem manyQuiet {item? : Production (Option α)} (h : L.Quiet item?) :
    L.Quiet (Production.many item?) :=
  (many (P := fun _ => 0) (h.tail fun item => by cases item <;> simp)).tail fun items => by simp

/-- An item that is there if its value is. -/
theorem mapSome {P : α → M} (h : L.Pays 0 m P) :
    L.Pays 0 (some <$> m) fun item => item.elim 0 P := h.map fun a => by simp

/-- An item that is not there. -/
theorem retNone {P : α → M} : L.Pays 0 (Pure.pure none) fun item => item.elim 0 P :=
  .ret (le_refl _)

theorem list {item : Production α} {P : α → M} (h : L.Pays 0 item P) :
    L.Pays 0 (Production.list item) fun items => (items.map P).sum := by
  refine h.seq fun first => (many (P := P) (.bindIf .consume h.mapSome .retNone)).seq fun rest => ?_
  exact .ret (by simp)

theorem listQuiet {item : Production α} (h : L.Quiet item) : L.Quiet (Production.list item) :=
  (list h).tail fun items => by simp

theorem behind {word : Keyword} {item : Production α} {P : α → M} (h : L.Pays 0 item P) :
    L.Pays 0 (Production.behind word item) fun item => item.elim 0 P :=
  .bindIf .consumeKeyword h.mapSome .retNone

theorem behindQuiet {word : Keyword} {item : Production α} (h : L.Quiet item) :
    L.Quiet (Production.behind word item) := .bindIf .consumeKeyword h.mapQuiet .stay

theorem inParens {item : Production α} (h : L.Pays 0 item made) :
    L.Pays 0 (Production.inParens item) made :=
  .bind .expect fun _ => .seq h fun _ => .bind .expect fun _ => .ret (zero_add _).ge

theorem skipParens : L.Quiet Production.skipParens := by
  refine .bind .expect fun _ => .loopQuiet fun depth => .bind .kind fun k => ?_
  split
  · exact .expected
  · exact .bind .advance fun _ => .stay
  · exact .bind .advance fun _ => .stay
  · exact .bind .advance fun _ => .stay

/-! ## Errors that end no list, and bodies of routines -/

/-- Where an error was passed, nothing was made. A strict ledger does not count the way. -/
theorem recovering {P : α → M} (h : L.Pays 0 m P) :
    L.Pays 0 (Production.recovering m) fun item => item.elim 0 P := by
  intro p hp
  have hrun := h p hp
  rw [Production.recovering, Production.recovering]
  revert hrun
  generalize m p = result, m p.halting = other
  intro hrun
  cases hrun with
  | ok hleads hvalue _ hhalting =>
    exact .ok hleads hvalue trivial fun hsame => by rw [hhalting hsame]
  | @error e q _ hleads honest hstopped =>
    dsimp only
    split
    · next hgoes =>
      rw [Bool.and_eq_true, Bool.not_eq_true'] at hgoes
      have hlive : ¬e.isCancelled := fun he => by simp [hstopped he] at hgoes
      have hrecord := hleads.keeps.record honest hstopped
      have hsync := hrecord.keeps.synchronize
      have hall := (hleads.trans hrecord).trans hsync
      have hmore : p.errors.size < (q.record e).synchronize.errors.size := by
        have hless : q.errors.size < (q.record e).errors.size := by
          rw [Parser.record, if_neg hlive, Array.size_append, Array.size_push]
          omega
        have hle := hleads.errors
        have hle' := hsync.errors
        omega
      refine .ok hall (fun hcounts => ?_) trivial fun hsame => absurd hsame hmore.ne'
      rw [zero_add]
      by_cases hs : L.strict
      · exact absurd (hcounts.clean hs (hleads.recovering ▸ hgoes.1)) hmore.ne'
      · exact hall.fair hs
    · exact .error hleads honest hstopped

theorem inRoutine (h : L.Pays budget m made) : L.Pays budget (Production.inRoutine m) made := by
  intro p hp
  have hdeeper : L.Keeps { p with routineDepth := p.routineDepth + 1 } :=
    hp.congr rfl rfl rfl rfl rfl rfl rfl
  have hrun := h _ hdeeper
  generalize hother : m (Parser.halting { p with routineDepth := p.routineDepth + 1 }) = other at hrun
  rw [Production.inRoutine.eq_def m p]
  revert hrun
  generalize m { p with routineDepth := p.routineDepth + 1 } = result
  intro hrun
  have hdepth {q : Parser} (hleads : L.Leads { p with routineDepth := p.routineDepth + 1 } q) :
      q.routineDepth - 1 = p.routineDepth := by
    rw [hleads.reaches.routineDepth, Nat.add_sub_cancel]
  have hback {q : Parser} (hleads : L.Leads { p with routineDepth := p.routineDepth + 1 } q) :
      L.Leads p { q with routineDepth := q.routineDepth - 1 } := by
    refine ⟨hleads.keeps.congr rfl rfl rfl rfl rfl rfl rfl, ?_, hleads.errors, hleads.fair⟩
    rw [hdepth hleads]
    exact hleads.reaches.atDepth
  cases hrun with
  | @ok a q _ hleads hvalue hkind hhalting =>
    refine .ok (hback hleads) (fun hcounts => hvalue ⟨hcounts.clean, fun ht x hx => ?_⟩) hkind
      fun hsame => ?_
    · refine hcounts.once ht x ?_
      rw [hdepth hleads]
      exact hx.atDepth
    have hrest : m { p.halting with routineDepth := p.halting.routineDepth + 1 } = _ :=
      hother.trans (hhalting hsame)
    rw [Production.inRoutine, hrest]
    rfl
  | error hleads honest hstopped => exact .error (hback hleads) honest hstopped

/-! ## Nodes from pools -/

/-- A node is taken from its pool. -/
theorem acquire (kind : PooledKind) (node : Pools → α)
    (hm : ∀ p, m p = .ok (node p.pools) { p with pools := p.pools.taken kind })
    (hG : ∀ pools : Pools, pools.IsFresh → G (node pools)) :
    L.Pays 0 m (fun _ => L.coin kind) G := by
  intro p hp
  rw [hm, hm]
  refine .ok ⟨hp.setPools (hp.pools.taken kind), .of_course rfl, le_refl _, fun hs => L.fair_taken hs kind p.pools⟩
    (fun _ => ?_) (hG _ hp.pools) fun _ => rfl
  rw [zero_add]
  exact L.coin_le kind p.pools

theorem acquireColumn : L.Pays 0 Production.acquireColumn fun _ => L.coin .column :=
  acquire .column (fun pools => pools.column.acquire.1) (fun _ => rfl) fun _ _ => trivial

/-- A node is taken from its pool, and goes back to it where the rest fails. -/
theorem taking (kind : PooledKind) (node : Pools → α) {f : α → Production β}
    {change : α → Pools → Pools} {made : β → M}
    (hm : ∀ p, m p = .ok (node p.pools) { p with pools := p.pools.taken kind })
    (hG : ∀ pools : Pools, pools.IsFresh → G (node pools))
    (hchange : ∀ a pools, ∃ c : Component, c.pooledKind? = some kind ∧ change a pools = pools.given c)
    (hf : ∀ a, G a → L.Pays (budget + L.coin kind) (f a) made) :
    L.Pays budget (m >>= fun a => Production.onFailure (f a) (change a)) made := by
  intro p hp
  have htaken : L.Leads p { p with pools := p.pools.taken kind } :=
    ⟨hp.setPools (hp.pools.taken kind), .of_course rfl, le_refl _, fun hs => L.fair_taken hs kind p.pools⟩
  have hrun := hf _ (hG _ hp.pools) _ htaken.keeps
  have hother : (m >>= fun a => Production.onFailure (f a) (change a)) p.halting =
      Production.onFailure (f (node p.pools)) (change (node p.pools))
        (Parser.halting { p with pools := p.pools.taken kind }) := by
    rw [Production.run_bind, hm]
    rfl
  rw [hother, Production.run_bind, hm]
  dsimp only
  rw [Production.onFailure, Production.onFailure]
  revert hrun
  generalize f (node p.pools) { p with pools := p.pools.taken kind } = result,
    f (node p.pools) (Parser.halting { p with pools := p.pools.taken kind }) = other
  intro hrun
  cases hrun with
  | @ok b q _ hleads hvalue hkind hhalting =>
    refine Paid.behind (.ok (G := fun _ => True) hleads hvalue hkind fun hsame => ?_) htaken
      (fun _ => add_le_add_right (L.coin_le kind p.pools) budget) fun _ => rfl
    rw [hhalting hsame]
  | @error e q _ hleads honest hstopped =>
    obtain ⟨c, hc, hgiven⟩ := hchange (node p.pools) q.pools
    dsimp only
    rw [hgiven]
    have hreaches : p.Reaches { q with pools := q.pools.given c } :=
      (htaken.trans hleads).reaches.trans (.of_course rfl)
    refine .error ⟨hleads.keeps.setPools (hleads.keeps.pools.given c), hreaches, hleads.errors,
      fun hs => ?_⟩ honest hstopped
    -- what the node brought and what its return costs cancel out
    have hback := L.fair_given hs c kind p.pools q.pools hc
    have hbetween := hleads.fair hs
    calc (0 : M)
      _ ≤ (L.income p.pools (p.pools.taken kind) + L.income q.pools (q.pools.given c)) +
          L.income (p.pools.taken kind) q.pools := add_nonneg hback hbetween
      _ = L.income p.pools (q.pools.given c) := by
        rw [add_right_comm, L.income_add, L.income_add]

end Pays

end Ledger

end SqlFrontend
