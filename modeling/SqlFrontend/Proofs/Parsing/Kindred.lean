import Mathlib.Data.List.Forall2
import SqlFrontend.Proofs.Parsing.Ending
import SqlFrontend.Proofs.Parsing.Kinship

/-!
# Productions that are kindred

Two productions are kindred if they treat parsers that are kin in the same way. Where the text of the
second parser goes on behind the end of the first one, that cannot hold of all productions: some read on
there. Then the first text was left open, which shows in the value that was read, or the first parser
stands before a point at its end, which nothing goes past.

Results:
* `Kinship.Outcome`: how the results of two productions correspond.
* `Kinship.Kindred`: productions whose results correspond, at all parsers of a stage that are kin.
* `Kindred.bind`, `Kindred.loop`, `Kindred.many`, `Kindred.list`: the rules for putting productions
  together.
* `Kindred.needing`: a production that has to read something need not be looked at where the first text
  is at its end.
-/

namespace SqlFrontend

/-! ## Kinds that both texts show -/

namespace TokenKind

/-- Decides whether a kind is neither of the end of the text nor of a word. Where the second text goes
on, the first parser shows its end, and the second one the word that ends a batch. -/
@[reducible] def isFixed : TokenKind → Bool
  | .eof | .identifier => false
  | _ => true

/-- Decides whether a kind is fixed and not of a point. -/
@[reducible] def isSign : TokenKind → Bool
  | .eof | .identifier | .dot => false
  | _ => true

/-- Decides whether a kind is not of a point. -/
@[reducible] def isPlain : TokenKind → Bool
  | .dot => false
  | _ => true

/-- Decides whether a kind is neither of a point nor of a keyword. -/
@[reducible] def isSpelt : TokenKind → Bool
  | .dot | .keyword _ => false
  | _ => true

theorem isFixed_of_isSign {k : TokenKind} (h : k.isSign) : k.isFixed := by
  cases k <;> first | rfl | cases h

/-- No fixed kind is that of the end of the text, and none that of a word. -/
theorem eof_eq_iff_of_isFixed {k : TokenKind} (h : k.isFixed) :
    .eof = k ↔ .identifier = k := by
  constructor
  · rintro rfl
    cases h
  · rintro rfl
    cases h

theorem ne_dot_of_isPlain {k : TokenKind} (h : k.isPlain) : k ≠ .dot := by
  rintro rfl
  cases h

theorem isPlain_of_isSign {k : TokenKind} (h : k.isSign) : k.isPlain := by
  cases k <;> first | rfl | cases h

theorem isPlain_of_isSpelt {k : TokenKind} (h : k.isSpelt) : k.isPlain := by
  cases k <;> first | rfl | cases h

/-- Kinds that are signs. -/
class Signs (kinds : List TokenKind) : Prop where
  isSign : ∀ k ∈ kinds, k.isSign

instance : Signs [] := ⟨nofun⟩

instance {k : TokenKind} {kinds : List TokenKind} [h : Certain k.isSign] [hs : Signs kinds] :
    Signs (k :: kinds) :=
  ⟨List.forall_mem_cons.2 ⟨h.holds, hs.isSign⟩⟩

end TokenKind

/-- A word that is not the one that ends a batch. -/
class InBatch (word : String) : Prop where
  ne : Text.sameWord "GO" word = false

instance : InBatch "CHAIN" := ⟨by decide +kernel⟩
instance : InBatch "MAX" := ⟨by decide +kernel⟩
instance : InBatch "OUTPUT" := ⟨by decide +kernel⟩
instance : InBatch "PRECISION" := ⟨by decide +kernel⟩
instance : InBatch "PREPARE" := ⟨by decide +kernel⟩
instance : InBatch "PROC" := ⟨by decide +kernel⟩
instance : InBatch "READONLY" := ⟨by decide +kernel⟩
instance : InBatch "SETOF" := ⟨by decide +kernel⟩
instance : InBatch "TIME" := ⟨by decide +kernel⟩
instance : InBatch "UNSIGNED" := ⟨by decide +kernel⟩
instance : InBatch "VALUE" := ⟨by decide +kernel⟩
instance : InBatch "VARYING" := ⟨by decide +kernel⟩
instance : InBatch "WITHOUT" := ⟨by decide +kernel⟩
instance : InBatch "ZONE" := ⟨by decide +kernel⟩

namespace Kinship

/-! ## Stages -/

section

variable (G : Kinship)

/-- The first text is not at an end where the second one goes on. -/
def Here (p : Parser) : Prop := G.goesOn = true → ¬p.atEnd

/-- Before a token of a kind in both texts. -/
def At (k : TokenKind) (p : Parser) : Prop := G.Here p ∧ p.current.kind = k

/-- Before a token of a kind and another one behind it. -/
def Before (k next : TokenKind) (p : Parser) : Prop := G.At k p ∧ p.peek.kind = next

/-- Before a name in both texts. -/
def Named (p : Parser) : Prop := G.Here p ∧ p.current.isName

/-- Behind a token of a kind, which is the last one if the first text is at its end here. -/
def Behind (k : TokenKind) (p : Parser) : Prop := G.goesOn = true → p.atEnd → G.last = k

/-- Before a word in both texts. -/
def Worded (p : Parser) : Prop := G.Here p ∧ p.current.kind = .identifier

/-- The first text is at an end where the second one goes on. -/
def Ended (p : Parser) : Prop := G.goesOn = true ∧ p.atEnd

end

/-- No stage in particular. -/
@[reducible] def Anywhere (_ : Parser) : Prop := True

variable {G : Kinship} {P Q : Parser → Prop} {p q : Parser}

theorem here_or_ended (G : Kinship) (p : Parser) : G.Here p ∨ G.Ended p := by
  by_cases h : G.goesOn = true ∧ p.atEnd
  · exact .inr h
  · exact .inl fun hg he => h ⟨hg, he⟩

theorem Here.not_ended (h : G.Here p) : ¬(G.goesOn = true ∧ p.atEnd) := fun he => h he.1 he.2

theorem current_kin (h : G.state p q) (hp : G.Here p) : p.current.Kin G.goesOn q.current :=
  (G.shown h).current hp.not_ended

theorem Ended.kind (h : G.Ended p) : p.current.kind = .eof := beq_iff_eq.1 h.2

theorem Ended.last (h : G.Ended p) (hpq : G.state p q) : p.Last .eof :=
  ⟨h.kind, (G.shown hpq).sound.ended h.2, ((G.shown hpq).batch h.1).2.1⟩

/-- The word that ends a batch is `GO`, where the second text goes on. -/
theorem isWord_of_separator (h : G.state p q) (hg : G.goesOn = true) {t : Token}
    (ht : q.isBatchSeparator t) : t.isWord "GO" := by
  have hdialect : q.dialect = .sqlServer :=
    (G.shown h).dialect ▸ ((G.shown h).batch hg).1
  rw [Parser.isBatchSeparator, hdialect] at ht
  exact ht

theorem isWord_of_isWord {t : Token} (h : t.isWord "GO") (word : String) :
    t.isWord word = Text.sameWord "GO" word := by
  obtain ⟨hkind, hword⟩ := Bool.and_eq_true_iff.1 h
  rw [Token.isWord, hkind, Bool.true_and]
  exact Text.sameWord_of_lower_eq (beq_iff_eq.1 hword) rfl

theorem identifier_of_isWord {t : Token} {word : String} (h : t.isWord word) :
    t.kind = .identifier :=
  eq_of_beq (Bool.and_eq_true_iff.1 h).1

/-- The second parser stands before the end of a batch where the first one is at its end. -/
theorem Ended.isWord (h : G.Ended p) (hpq : G.state p q) : q.current.isWord "GO" :=
  isWord_of_separator hpq h.1 ((G.shown hpq).ended h.1 h.2)

theorem Ended.right_kind (h : G.Ended p) (hpq : G.state p q) : q.current.kind = .identifier :=
  identifier_of_isWord (h.isWord hpq)

/-- The tokens behind the current ones are kin if they are not the ends of the text and of the batch. -/
theorem peek_kin_of_more (h : G.state p q) (hp : G.Here p) (hnext : G.goesOn = true → ¬p.peek.isEof) :
    p.peek.Kin G.goesOn q.peek :=
  (G.shown h).peek fun hg => hg.2.elim (hp hg.1) (hnext hg.1)

/-- The tokens behind the current ones are kin, or they are the ends of the text and of the batch. -/
theorem peek_kin (h : G.state p q) (hp : G.Here p) :
    p.peek.Kin G.goesOn q.peek ∨ G.goesOn = true ∧ p.peek.kind = .eof ∧ q.peek.isWord "GO" := by
  by_cases hpeek : G.goesOn = true ∧ p.peek.isEof
  · have hfollows := (G.shown h).follows hpeek.1 (hp hpeek.1) hpeek.2
    exact .inr ⟨hpeek.1, eq_of_beq hpeek.2, isWord_of_separator h hpeek.1 hfollows.1⟩
  · exact .inl (peek_kin_of_more h hp fun hg he => hpeek ⟨hg, he⟩)

/-- A kind that is shown by both parsers alike: at the end, one shows the end and the other one a
word. -/
theorem peek_kind_iff (h : G.state p q) (hp : G.Here p) {k : TokenKind}
    (hk : k.isFixed) : p.peek.kind = k ↔ q.peek.kind = k := by
  rcases peek_kin h hp with hkin | ⟨-, hleft, hright⟩
  · rw [hkin.kind]
  · rw [hleft, identifier_of_isWord hright]
    exact TokenKind.eof_eq_iff_of_isFixed hk

theorem kind_iff (h : G.state p q) {k : TokenKind} (hk : k.isFixed) :
    p.current.kind = k ↔ q.current.kind = k := by
  rcases here_or_ended G p with hp | hp
  · rw [(current_kin h hp).kind]
  · rw [hp.kind, hp.right_kind h]
    exact TokenKind.eof_eq_iff_of_isFixed hk

theorem current_advance (h : G.state p q) : p.advance.current = p.peek := by
  have hshown := G.shown h
  rw [Parser.advance_of_live (by simp [hshown.running.1]) (by simp [hshown.live.1]),
    Parser.countCurrent_eq]

/-- Behind the last token of the first text is its end. -/
theorem last_advance (hg : G.goesOn = true) (h : G.state p q) (hpeek : p.peek.isEof) :
    p.advance.Last .eof := by
  have hcurrent : p.advance.current.isEof := by rwa [current_advance h]
  refine ⟨eq_of_beq hcurrent, (G.shown h).sound.advance.ended hcurrent, ?_⟩
  rw [(Parser.Reaches.advance p).recovering]
  exact ((G.shown h).batch hg).2.1

theorem remaining_lt_iff {p' q' : Parser} (h : G.state p q) (h' : G.state p' q') :
    q'.remaining < q.remaining ↔ p'.remaining < p.remaining := by
  rw [G.remaining h, G.remaining h']
  omega

/-! ## Outcomes -/

/-- The results of two productions correspond. If the second text goes on, there are three more ways
than that both succeed: the first parser stands before a point at its end, the first text was left
open, which shows in the kind of its last token and in the value, or the first production fails. -/
inductive Outcome {α : Type} (G : Kinship) (p : Parser) (R : α → α → Prop)
    (T : TokenKind → α → Prop) :
    EStateM.Result ParseError Parser α → EStateM.Result ParseError Parser α → Prop
  | ok {a a' : α} {p' q' : Parser} (state : G.state p' q') (value : R a a')
      (stays : G.goesOn = true → p.Last .dot → p'.Last .dot) :
      Outcome G p R T (.ok a p') (.ok a' q')
  | stuck {a a' : α} {p' q' : Parser} {r' : EStateM.Result ParseError Parser α}
      (goesOn : G.goesOn = true) (state : G.state p' q') (value : R a a')
      (last : p'.Last .dot) : Outcome G p R T (.ok a p') r'
  | apart {k : TokenKind} {a : α} {p' : Parser} {r' : EStateM.Result ParseError Parser α}
      (goesOn : G.goesOn = true) (last : p'.Last k) (value : T k a) :
      Outcome G p R T (.ok a p') r'
  | error {e e' : ParseError} {p' q' : Parser} (stops : G.goesOn = false)
      (failed : G.failed e p' e' q') : Outcome G p R T (.error e p') (.error e' q')
  | lost {e : ParseError} {p' : Parser} {r' : EStateM.Result ParseError Parser α}
      (goesOn : G.goesOn = true) (strict : p'.recovering = false) : Outcome G p R T (.error e p') r'

/-- Two productions whose results correspond, at all parsers of a stage that are kin. -/
def Kindred {α : Type} (G : Kinship) (P : Parser → Prop) (m m' : Production α)
    (R : α → α → Prop) (T : TokenKind → α → Prop := fun _ _ => False) : Prop :=
  ∀ p q, G.state p q → P p → G.Outcome p R T (m p) (m' q)

/-- Two tests that agree at all parsers of a stage that are kin, and what is known where they pass and
where they do not. -/
def Test (G : Kinship) (P : Parser → Prop) (t t' : Production Bool) (Q Q' : Parser → Prop) : Prop :=
  ∀ p q, G.state p q → P p →
    ∃ x, t p = .ok x p ∧ t' q = .ok x q ∧ (x = true → Q p) ∧ (x = false → Q' p)

/-- Two looks at parsers that are used alike at a stage, and that change nothing anywhere. -/
def Looks {γ : Type} (G : Kinship) (P : Parser → Prop) (s s' : Production γ) (f : γ → Bool)
    (Q : Parser → Prop) : Prop :=
  ∀ p q, G.state p q →
    ∃ y y', s p = .ok y p ∧ s' q = .ok y' q ∧ (P p → f y = f y' ∧ (f y = true → Q p))

variable {α β σ : Type} {R : α → α → Prop} {T : TokenKind → α → Prop} {S : β → β → Prop}
  {U : TokenKind → β → Prop} {m m' n n' : Production α}
  {r r' x : EStateM.Result ParseError Parser α}

namespace Outcome

/-- An outcome behind a production that leaves the first parser before a point at its end if it was
there. -/
theorem after {c : Parser} (hc : G.goesOn = true → p.Last .dot → c.Last .dot)
    (h : G.Outcome c R T r r') : G.Outcome p R T r r' := by
  cases h with
  | ok hs hv hd => exact .ok hs hv fun hg hl => hd hg (hc hg hl)
  | stuck hg hs hv hl => exact .stuck hg hs hv hl
  | apart hg hl hv => exact .apart hg hl hv
  | error hg hf => exact .error hg hf
  | lost hg hr => exact .lost hg hr

/-- Before a point at the end of the first text, what the second production does does not count. -/
theorem behindDot {c : Parser} (hg : G.goesOn = true) (hc : c.Last .dot)
    (h : G.Outcome c R T r r') : G.Outcome p R T r x := by
  cases h with
  | ok hs hv hd => exact .stuck hg hs hv (hd hg hc)
  | stuck hg hs hv hl => exact .stuck hg hs hv hl
  | apart hg hl hv => exact .apart hg hl hv
  | error hstops _ => rw [hg] at hstops; cases hstops
  | lost hg hr => exact .lost hg hr

/-- The same holds where the first text was left open. -/
theorem ofEnds {k : TokenKind} {c : Parser} (hg : G.goesOn = true) (hc : c.Last k)
    (h : Production.Ends false k m (T k)) : G.Outcome p R T (m c) x := by
  have hm := h.settled hc
  revert hm
  cases m c with
  | ok a p' => exact fun hm => .apart hg hm.2 hm.1
  | error e p' => exact .lost hg

/-- The same holds where the last token of the first text is used up. -/
theorem ofFinishes (hg : G.goesOn = true) (hpq : G.state p q) (hpeek : p.peek.isEof)
    (h : Production.Finishes m (T .eof)) : G.Outcome p R T (m p) x := by
  have hm := h p (last_advance hg hpq hpeek) ((G.shown hpq).batch hg).2.1
  revert hm
  cases m p with
  | ok a p' => exact fun hm => .apart hg hm.2 hm.1
  | error e p' => exact .lost hg

theorem expected {what : String} (h : G.state p q) :
    G.Outcome p R T (.error (p.expectedError what) p) (.error (q.expectedError what) q) := by
  cases hg : G.goesOn with
  | true => exact .lost hg ((G.shown h).batch hg).2.1
  | false => exact .error hg (G.expects what hg h)

end Outcome

namespace Kindred

/-! ## Sequences and choices -/

theorem mono {R' : α → α → Prop} {T' : TokenKind → α → Prop} (h : G.Kindred Q m m' R T)
    (hP : ∀ p, P p → Q p) (hR : ∀ a a', R a a' → R' a a')
    (hT : ∀ k a, T k a → T' k a) : G.Kindred P m m' R' T' := by
  intro p q hpq hp
  have hm := h p q hpq (hP p hp)
  revert hm
  generalize m p = r, m' q = r'
  intro hm
  cases hm with
  | ok hs hv hd => exact .ok hs (hR _ _ hv) hd
  | stuck hg hs hv hl => exact .stuck hg hs (hR _ _ hv) hl
  | apart hg hl hv => exact .apart hg hl (hT _ _ hv)
  | error hg hf => exact .error hg hf
  | lost hg hr => exact .lost hg hr

/-- What holds at a stage holds at an earlier one. -/
theorem stage (h : G.Kindred Q m m' R T) (hP : ∀ p, P p → Q p) : G.Kindred P m m' R T :=
  h.mono hP (fun _ _ => id) fun _ _ => id

theorem either (h : G.Kindred P m m' R T) (h' : G.Kindred Q m m' R T) :
    G.Kindred (fun p => P p ∨ Q p) m m' R T :=
  fun p q hpq hp => hp.elim (h p q hpq) (h' p q hpq)

theorem anywhere (h : G.Kindred Anywhere m m' R T) : G.Kindred P m m' R T :=
  h.stage fun _ _ => trivial

/-- Values that are equal are the same but for the case of letters. -/
theorem same [Textual α] (h : G.Kindred P m m' Eq T) : G.Kindred P m m' (Same G.goesOn) T :=
  h.mono (fun _ => id) (fun _ _ => Same.of_eq) fun _ _ => id

/-- What never leaves the first text open does not do so with any value. -/
theorem closed (h : G.Kindred P m m' R) : G.Kindred P m m' R T :=
  h.mono (fun _ => id) (fun _ _ => id) fun _ _ => False.elim

theorem ret {a a' : α} (h : R a a') : G.Kindred P (pure a) (pure a') R T :=
  fun _ _ hpq _ => .ok hpq h fun _ => id

/-- A result without a step. -/
theorem stay {a : α} : G.Kindred P (pure a) (pure a) Eq T := ret rfl

/-- Two steps of which the first one may leave the first text open; the second one then has to stay
there. -/
theorem bindApart {f f' : α → Production β} (h : G.Kindred P m m' R T)
    (hf : ∀ a a', R a a' → G.Kindred Anywhere (f a) (f' a') S U)
    (hT : ∀ k a, T k a → Production.Ends false k (f a) (U k)) :
    G.Kindred P (m >>= f) (m' >>= f') S U := by
  intro p q hpq hp
  have hm := h p q hpq hp
  rw [Production.run_bind, Production.run_bind]
  revert hm
  generalize m p = r, m' q = r'
  intro hm
  cases hm with
  | ok hs hv hd => exact (hf _ _ hv _ _ hs trivial).after hd
  | stuck hg hs hv hl => exact (hf _ _ hv _ _ hs trivial).behindDot hg hl
  | apart hg hl hv => exact .ofEnds hg hl (hT _ _ hv)
  | error hg hf => exact .error hg hf
  | lost hg hr => exact .lost hg hr

theorem bind {f f' : α → Production β} (h : G.Kindred P m m' Eq)
    (hf : ∀ a, G.Kindred Anywhere (f a) (f' a) S U) : G.Kindred P (m >>= f) (m' >>= f') S U :=
  h.bindApart (fun a _ heq => heq ▸ hf a) fun _ _ => False.elim

theorem bindSame [Textual α] {f f' : α → Production β} (h : G.Kindred P m m' (Same G.goesOn))
    (hf : ∀ a a', Same G.goesOn a a' → G.Kindred Anywhere (f a) (f' a') S U) :
    G.Kindred P (m >>= f) (m' >>= f') S U :=
  h.bindApart hf fun _ _ => False.elim

theorem mapApart {g g' : α → β} (h : G.Kindred P m m' R T) (hg : ∀ a a', R a a' → S (g a) (g' a'))
    (hT : ∀ k a, T k a → U k (g a)) : G.Kindred P (g <$> m) (g' <$> m') S U := by
  rw [map_eq_pure_bind, map_eq_pure_bind]
  exact h.bindApart (fun a a' ha => .ret (hg a a' ha)) fun k a ha => .ret (hT k a ha)

theorem map (g : α → β) (h : G.Kindred P m m' Eq) : G.Kindred P (g <$> m) (g <$> m') Eq U :=
  h.mapApart (fun _ _ => congrArg g) fun _ _ => False.elim

theorem mapSame [Textual α] [Textual β] {g g' : α → β} (h : G.Kindred P m m' (Same G.goesOn))
    (hg : ∀ a a', Same G.goesOn a a' → Same G.goesOn (g a) (g' a')) :
    G.Kindred P (g <$> m) (g' <$> m') (Same G.goesOn) U :=
  h.mapApart hg fun _ _ => False.elim

/-- A node with one part that has texts. -/
theorem mapNode [Textual α] [Textual β] {g : α → β} (h : G.Kindred P m m' (Same G.goesOn))
    (hg : ∀ (change : String → String) (a : α), mapTexts change (g a) = g (mapTexts change a) := by
      simp [mapTexts]) :
    G.Kindred P (g <$> m) (g <$> m') (Same G.goesOn) U := by
  refine h.mapSame fun a a' ha => ?_
  revert ha
  cases G.goesOn with
  | true => exact congrArg g
  | false =>
    intro ha
    show mapTexts Text.lower (g a) = mapTexts Text.lower (g a')
    rw [hg, hg, show mapTexts Text.lower a = mapTexts Text.lower a' from ha]

theorem discard (h : G.Kindred P m m' R) :
    G.Kindred P (Functor.discard m) (Functor.discard m') Eq :=
  h.mapApart (fun _ _ _ => rfl) fun _ _ => False.elim

theorem ite {c : Prop} [Decidable c] (hthen : c → G.Kindred P m m' R T)
    (helse : ¬c → G.Kindred P n n' R T) :
    G.Kindred P (if c then m else n) (if c then m' else n') R T := by
  by_cases hc : c
  · rw [if_pos hc, if_pos hc]; exact hthen hc
  · rw [if_neg hc, if_neg hc]; exact helse hc

section

variable {γ : Type} {t t' : Production Bool} {s s' : Production γ} {Q' : Parser → Prop}

/-- A choice by something that was passed or not. -/
theorem bindIf (ht : G.Kindred P t t' Eq) (hthen : G.Kindred Anywhere m m' R T)
    (helse : G.Kindred Anywhere n n' R T) :
    G.Kindred P (t >>= fun x => if x = true then m else n)
      (t' >>= fun x => if x = true then m' else n') R T :=
  ht.bind fun _ => .ite (fun _ => hthen) fun _ => helse

/-- A choice with more behind it. -/
theorem bindIfThen {f f' : α → Production β} (ht : G.Kindred P t t' Eq)
    (hthen : G.Kindred Anywhere m m' R) (helse : G.Kindred Anywhere n n' R)
    (hf : ∀ a a', R a a' → G.Kindred Anywhere (f a) (f' a') S U) :
    G.Kindred P (t >>= fun x => if x = true then m >>= f else n >>= f)
      (t' >>= fun x => if x = true then m' >>= f' else n' >>= f') S U :=
  ht.bindIf (hthen.bindApart hf fun _ _ => False.elim) (helse.bindApart hf fun _ _ => False.elim)

/-- A choice of doing something only if a test does not pass, with more behind it. -/
theorem bindUnless {n n' : Production Unit} {f f' : Unit → Production β}
    (ht : G.Kindred P t t' Eq) (helse : G.Kindred Anywhere n n' Eq)
    (hf : G.Kindred Anywhere (f ()) (f' ()) S U) :
    G.Kindred P (t >>= fun x => if x = true then f () else n >>= f)
      (t' >>= fun x => if x = true then f' () else n' >>= f') S U :=
  ht.bindIf hf (helse.bind fun _ => hf)

/-- A choice by a test. -/
theorem bindTest (ht : G.Test P t t' Q Q') (hthen : G.Kindred Q m m' R T)
    (helse : G.Kindred Q' n n' R T) :
    G.Kindred P (t >>= fun x => if x = true then m else n)
      (t' >>= fun x => if x = true then m' else n') R T := by
  intro p q hpq hp
  obtain ⟨x, hleft, hright, hpass, hblock⟩ := ht p q hpq hp
  rw [Production.run_bind, Production.run_bind, hleft, hright]
  dsimp only
  cases x with
  | true => exact hthen p q hpq (hpass rfl)
  | false => exact helse p q hpq (hblock rfl)

/-- A test whose result is used later. -/
theorem bindSeen {f f' : Bool → Production β} (ht : G.Test P t t' Q Q')
    (h : ∀ x, G.Kindred P (f x) (f' x) S U) : G.Kindred P (t >>= f) (t' >>= f') S U := by
  intro p q hpq hp
  obtain ⟨x, hleft, hright, -⟩ := ht p q hpq hp
  rw [Production.run_bind, Production.run_bind, hleft, hright]
  exact h x p q hpq hp

/-- A choice by a test and a look behind it. -/
theorem bindAnd {f : γ → Bool} {Q₂ : Parser → Prop} (ht : G.Test P t t' Q Q')
    (hs : G.Looks Q s s' f Q₂) (hthen : G.Kindred Q₂ m m' R T) (helse : G.Kindred P n n' R T) :
    G.Kindred P (t >>= fun x => s >>= fun y => if (x && f y) = true then m else n)
      (t' >>= fun x => s' >>= fun y => if (x && f y) = true then m' else n') R T := by
  intro p q hpq hp
  obtain ⟨x, hleft, hright, hpass, -⟩ := ht p q hpq hp
  obtain ⟨y, y', hy, hy', hagree⟩ := hs p q hpq
  simp only [Production.run_bind, hleft, hright, hy, hy', Production.run_ite]
  cases x with
  | false => exact helse p q hpq hp
  | true =>
    obtain ⟨heq, hlook⟩ := hagree (hpass rfl)
    rw [Bool.true_and, Bool.true_and, ← heq]
    by_cases hf : f y = true
    · rw [if_pos hf, if_pos hf]
      exact hthen p q hpq (hlook hf)
    · rw [if_neg hf, if_neg hf]
      exact helse p q hpq hp

/-- A choice by two tests of which one has to pass. -/
theorem bindOr {s s' : Production Bool} {Q₂ Q₂' : Parser → Prop} (ht : G.Test P t t' Q Q') (hs : G.Test P s s' Q₂ Q₂')
    (hthen : G.Kindred (fun p => Q p ∨ Q₂ p) m m' R T)
    (helse : G.Kindred (fun p => Q' p ∧ Q₂' p) n n' R T) :
    G.Kindred P (t >>= fun x => s >>= fun y => if (x || y) = true then m else n)
      (t' >>= fun x => s' >>= fun y => if (x || y) = true then m' else n') R T := by
  intro p q hpq hp
  obtain ⟨x, hleft, hright, hpass, hblock⟩ := ht p q hpq hp
  obtain ⟨y, hy, hy', hpass', hblock'⟩ := hs p q hpq hp
  simp only [Production.run_bind, hleft, hright, hy, hy', Production.run_ite]
  cases x with
  | true => exact hthen p q hpq (.inl (hpass rfl))
  | false =>
    cases y with
    | true => exact hthen p q hpq (.inr (hpass' rfl))
    | false => exact helse p q hpq ⟨hblock rfl, hblock' rfl⟩

end

/-! ## The end of the first text -/

/-- What is done at the end of the text is known, so that it need not be looked at there. -/
theorem leaving (he : Production.Ends false .eof m (T .eof)) (h : G.Kindred G.Here m m' R T) :
    G.Kindred P m m' R T := by
  intro p q hpq _
  rcases here_or_ended G p with hp | hp
  · exact h p q hpq hp
  · exact .ofEnds hp.1 (hp.last hpq) he

/-- What fails at the end of the text need not be looked at there. -/
theorem needing (he : Production.Ends false .eof m fun _ => False) (h : G.Kindred G.Here m m' R T) :
    G.Kindred P m m' R T :=
  .leaving (he.mono fun _ => False.elim) h

/-! ## Failing -/

theorem expected {what : String} :
    G.Kindred P (Production.expected what) (Production.expected what) R T :=
  fun _ _ hpq _ => .expected hpq

theorem fail {cause cause' : ParseCause} {s s' : Span} (hs : G.goesOn = false → s = s')
    (hc : cause.Kin cause') :
    G.Kindred P (Production.fail cause s) (Production.fail cause' s') R T := by
  intro p q hpq _
  cases hg : G.goesOn with
  | true => exact .lost hg ((G.shown hpq).batch hg).2.1
  | false =>
    have hfailed := G.defers (s := s) hg hpq hc .nil
    refine .error hg ?_
    rw [← hs hg]
    simpa [Parser.defer, atPlace] using hfailed

/-! ## Looking at parsers -/

theorem bindGet {f f' : Parser → Production β}
    (hf : ∀ p q, G.state p q → P p → G.Kindred P (f p) (f' q) S U) :
    G.Kindred P (get >>= f) (get >>= f') S U :=
  fun p q hpq hp => hf p q hpq hp p q hpq hp

theorem bindGetIf {f : Parser → Bool} (hf : ∀ p q, G.state p q → P p → f p = f q)
    (hthen : G.Kindred (fun p => P p ∧ f p) m m' R T)
    (helse : G.Kindred (fun p => P p ∧ ¬f p) n n' R T) :
    G.Kindred P (get >>= fun p => if f p = true then m else n)
      (get >>= fun p => if f p = true then m' else n') R T := by
  intro p q hpq hp
  change G.Outcome p R T ((if f p = true then m else n) p) ((if f q = true then m' else n') q)
  rw [← hf p q hpq hp]
  by_cases hfp : f p = true
  · rw [if_pos hfp, if_pos hfp]; exact hthen p q hpq ⟨hp, hfp⟩
  · rw [if_neg hfp, if_neg hfp]; exact helse p q hpq ⟨hp, hfp⟩

/-- What is read by the kind of the current token. Where the first text is at its end, the second
parser stands before a name. -/
theorem bindKind {f f' : TokenKind → Production β} (h : ∀ k, G.Kindred (G.At k) (f k) (f' k) S U)
    (hend : G.Kindred G.Ended (f .eof) (f' .identifier) S U) :
    G.Kindred P (Production.kind >>= f) (Production.kind >>= f') S U := by
  intro p q hpq _
  change G.Outcome p S U (f p.current.kind p) (f' q.current.kind q)
  rcases here_or_ended G p with hp | hp
  · rw [← (current_kin hpq hp).kind]
    exact h _ p q hpq ⟨hp, rfl⟩
  · rw [hp.kind, hp.right_kind hpq]
    exact hend p q hpq hp

theorem bindKindHere {f f' : TokenKind → Production β}
    (h : ∀ k, G.Kindred (G.At k) (f k) (f' k) S U) :
    G.Kindred G.Here (Production.kind >>= f) (Production.kind >>= f') S U := by
  intro p q hpq hp
  change G.Outcome p S U (f p.current.kind p) (f' q.current.kind q)
  rw [← (current_kin hpq hp).kind]
  exact h _ p q hpq ⟨hp, rfl⟩

/-- What is read by the kind of the token behind the current one. Where the first text ends behind the
current token, the word that ends the batch is behind it in the second one. -/
theorem bindPeekCases {f f' : TokenKind → Production β} (hP : ∀ p, P p → G.Here p)
    (h : ∀ k, G.Kindred (fun p => P p ∧ p.peek.kind = k ∧ (G.goesOn = true → ¬p.peek.isEof))
      (f k) (f' k) S U)
    (hlast : ∀ p q, G.goesOn = true → G.state p q → P p → p.peek.isEof →
      q.isBatchSeparator q.peek → G.Outcome p S U (f .eof p) (f' .identifier q)) :
    G.Kindred P (Production.peekKind >>= f) (Production.peekKind >>= f') S U := by
  intro p q hpq hp
  change G.Outcome p S U (f p.peek.kind p) (f' q.peek.kind q)
  by_cases hpeek : G.goesOn = true ∧ p.peek.isEof
  · have hfollows := ((G.shown hpq).follows hpeek.1 (hP p hp hpeek.1) hpeek.2).1
    rw [show p.peek.kind = .eof from eq_of_beq hpeek.2,
      identifier_of_isWord (isWord_of_separator hpq hpeek.1 hfollows)]
    exact hlast p q hpeek.1 hpq hp hpeek.2 hfollows
  · have hnext : G.goesOn = true → ¬p.peek.isEof := fun hg he => hpeek ⟨hg, he⟩
    rw [← (peek_kin_of_more hpq (hP p hp) hnext).kind]
    exact h _ p q hpq ⟨hp, rfl, hnext⟩

/-- The same where the end of a text and a word are read alike. -/
theorem bindPeekKind {f f' : TokenKind → Production β} (hP : ∀ p, P p → G.Here p)
    (hsame : f' .identifier = f' .eof)
    (h : ∀ k, G.Kindred (fun p => P p ∧ (k ≠ .eof → p.peek.kind = k)) (f k) (f' k) S U) :
    G.Kindred P (Production.peekKind >>= f) (Production.peekKind >>= f') S U := by
  refine .bindPeekCases hP (fun k => .stage (h k) fun p hp => ⟨hp.1, fun _ => hp.2.1⟩) ?_
  intro p q _ hpq hp _ _
  rw [hsame]
  exact h _ p q hpq ⟨hp, fun hne => absurd rfl hne⟩

/-- Whether a name is behind the current token. Where that is the last one of the first text, the word
that ends the batch is such a name. -/
theorem bindPeekIsName {f f' : Bool → Production β} (hP : ∀ p, P p → G.Here p)
    (h : ∀ y, G.Kindred P (f y) (f' y) S U)
    (hlast : ∀ p q, G.goesOn = true → G.state p q → P p → p.peek.isEof →
      G.Outcome p S U (f false p) (f' true q)) :
    G.Kindred P (Production.peekIsName >>= f) (Production.peekIsName >>= f') S U := by
  intro p q hpq hp
  change G.Outcome p S U (f p.peek.isName p) (f' q.peek.isName q)
  rcases peek_kin hpq (hP p hp) with hkin | ⟨hg, hleft, hright⟩
  · rw [← hkin.isName]
    exact h _ p q hpq hp
  · rw [Token.isName, Token.isName, hleft, identifier_of_isWord hright]
    exact hlast p q hg hpq hp (beq_iff_eq.2 hleft)

/-- What is behind the current token does not count. -/
theorem bindPeekAny {f f' : TokenKind → Production β}
    (h : ∀ k k', G.Kindred P (f k) (f' k') S U) :
    G.Kindred P (Production.peekKind >>= f) (Production.peekKind >>= f') S U :=
  fun p q hpq hp => h _ _ p q hpq hp

/-- What is read by the current token. -/
theorem bindCurrent {f f' : Token → Production β} (hP : ∀ p, P p → G.Here p)
    (h : ∀ t t', t.Kin G.goesOn t' → G.Kindred P (f t) (f' t') S U) :
    G.Kindred P (Production.current >>= f) (Production.current >>= f') S U :=
  fun p q hpq hp => h _ _ (current_kin hpq (hP p hp)) p q hpq hp

/-- A test of a token that is known. -/
theorem bindCheckAt {k kind : TokenKind} {f f' : Bool → Production β}
    (h : G.Kindred (G.At k) (f (k == kind)) (f' (k == kind)) S U) :
    G.Kindred (G.At k) (Production.check kind >>= f) (Production.check kind >>= f') S U := by
  intro p q hpq hp
  change G.Outcome p S U (f (p.current.kind == kind) p) (f' (q.current.kind == kind) q)
  rw [← (current_kin hpq hp.1).kind, hp.2]
  exact h p q hpq hp

/-- A text that goes on is in the dialect that has batches. -/
theorem bindDialectIn {f f' : Dialect → Production β}
    (h : ∀ d, (G.goesOn = true → d = .sqlServer) → G.Kindred P (f d) (f' d) S U) :
    G.Kindred P (Production.dialect >>= f) (Production.dialect >>= f') S U := by
  intro p q hpq hp
  change G.Outcome p S U (f p.dialect p) (f' q.dialect q)
  rw [← (G.shown hpq).dialect]
  exact h _ (fun hg => ((G.shown hpq).batch hg).1) p q hpq hp

theorem bindDialect {f f' : Dialect → Production β} (h : ∀ d, G.Kindred P (f d) (f' d) S U) :
    G.Kindred P (Production.dialect >>= f) (Production.dialect >>= f') S U :=
  bindDialectIn fun d _ => h d

/-- Places of errors count only where both texts are as long. -/
theorem bindSpan {f f' : Span → Production β}
    (h : ∀ s s', (G.goesOn = false → s = s') → G.Kindred P (f s) (f' s') S U) :
    G.Kindred P (Production.span >>= f) (Production.span >>= f') S U :=
  fun p q hpq hp => h _ _ (fun hg => (current_kin hpq fun hon => by
    rw [hg] at hon
    cases hon).span) p q hpq hp

/-- What is read where a dialect has a construct. -/
theorem bindRequire {feature : Feature} {s s' : Span} {f f' : Unit → Production β}
    (hs : G.goesOn = false → s = s') (h : G.Kindred P (f ()) (f' ()) S U) :
    G.Kindred P (Production.require feature s >>= f) (Production.require feature s' >>= f') S U := by
  have hunfold (s : Span) (f : Unit → Production β) : (Production.require feature s >>= f) =
      Production.dialect >>= fun d =>
        if d.supports feature = true then f ()
        else Production.fail (.featureUnavailable feature d) s := by
    funext p
    by_cases hd : p.dialect.supports feature = true
    · simp [Production.require, hd]
    · simp [Production.require, hd]
      rfl
  rw [hunfold, hunfold]
  exact bindDialect fun _ => .ite (fun _ => h) fun _ => .fail hs (.refl _)

end Kindred

/-! ## Tests -/

namespace Test

theorem check {k : TokenKind} [h : Certain k.isFixed] :
    G.Test P (Production.check k) (Production.check k) (G.At k) P := by
  intro p q hpq hp
  have hright : (q.current.kind == k) = (p.current.kind == k) := by
    rw [Bool.eq_iff_iff, beq_iff_eq, beq_iff_eq, kind_iff hpq h.holds]
  refine ⟨p.current.kind == k, rfl, ?_, fun hx => ?_, fun _ => hp⟩
  · rw [Production.run_check, hright]
  · refine ⟨fun hg he => ?_, beq_iff_eq.1 hx⟩
    have hfixed := h.holds
    rw [← beq_iff_eq.1 hx, show p.current.kind = .eof from beq_iff_eq.1 he] at hfixed
    cases hfixed

theorem checkKeyword {word : Keyword} :
    G.Test P (Production.checkKeyword word) (Production.checkKeyword word) (G.At (.keyword word)) P :=
  check

theorem checkKeywords {first second : Keyword} :
    G.Test P (Production.checkKeywords first second) (Production.checkKeywords first second)
      (G.Before (.keyword first) (.keyword second)) P := by
  intro p q hpq hp
  have hfirst : G.Test P (Production.checkKeyword first) (Production.checkKeyword first)
      (G.At (.keyword first)) P := checkKeyword
  obtain ⟨x, hleft, hright, hpass, -⟩ := hfirst p q hpq hp
  simp only [Production.run_checkKeyword, EStateM.Result.ok.injEq, and_true] at hleft hright
  rw [Production.run_checkKeywords, Production.run_checkKeywords, hleft, hright]
  cases x with
  | false => exact ⟨false, rfl, rfl, nofun, fun _ => hp⟩
  | true =>
    have hat := hpass rfl
    have hpeek : (q.peek.kind == .keyword second) = (p.peek.kind == .keyword second) := by
      rw [Bool.eq_iff_iff, beq_iff_eq, beq_iff_eq, peek_kind_iff hpq hat.1 (by simp)]
    rw [Bool.true_and, Bool.true_and, hpeek]
    exact ⟨_, rfl, rfl, fun hx => ⟨hat, beq_iff_eq.1 hx⟩, fun _ => hp⟩

theorem checkPeek {k : TokenKind} (hP : ∀ p, P p → G.Here p)
    [h : Certain k.isFixed] :
    G.Test P (Production.checkPeek k) (Production.checkPeek k) (fun p => P p ∧ p.peek.kind = k) P := by
  intro p q hpq hp
  have hright : (q.peek.kind == k) = (p.peek.kind == k) := by
    rw [Bool.eq_iff_iff, beq_iff_eq, beq_iff_eq, peek_kind_iff hpq (hP p hp) h.holds]
  refine ⟨p.peek.kind == k, rfl, ?_, fun hx => ⟨hp, beq_iff_eq.1 hx⟩, fun _ => hp⟩
  rw [Production.run_checkPeek, hright]

theorem peekKeyword {word : Keyword} (hP : ∀ p, P p → G.Here p) :
    G.Test P (Production.peekKeyword word) (Production.peekKeyword word)
      (fun p => P p ∧ p.peek.kind = .keyword word) P := checkPeek hP

/-- The word that ends a batch is no other word. -/
theorem checkWord {word : String} [h : InBatch word] :
    G.Test P (Production.checkWord word) (Production.checkWord word) G.Worded P := by
  intro p q hpq hp
  change ∃ x, EStateM.Result.ok (p.current.isWord word) p = .ok x p ∧
    EStateM.Result.ok (q.current.isWord word) q = .ok x q ∧ _
  rcases here_or_ended G p with hhere | hended
  · rw [← (current_kin hpq hhere).isWord]
    exact ⟨_, rfl, rfl, fun hx => ⟨hhere, identifier_of_isWord hx⟩, fun _ => hp⟩
  · rw [isWord_of_isWord (hended.isWord hpq), h.ne,
      Production.Ends.isWord (hended.last hpq) (by decide)]
    exact ⟨false, rfl, rfl, nofun, fun _ => hp⟩

theorem atName (hP : ∀ p, P p → G.Here p) :
    G.Test P Production.atName Production.atName G.Named P := by
  intro p q hpq hp
  change ∃ x, EStateM.Result.ok p.current.isName p = .ok x p ∧
    EStateM.Result.ok q.current.isName q = .ok x q ∧ _
  rw [← (current_kin hpq (hP p hp)).isName]
  exact ⟨_, rfl, rfl, fun hx => ⟨hP p hp, hx⟩, fun _ => hp⟩

theorem atTerminator_eq (hpq : G.state p q) : p.atTerminator = q.atTerminator := by
  rcases here_or_ended G p with hp | hp
  · have hkin := current_kin hpq hp
    have hend : p.atEnd = q.atEnd := hkin.isEof
    have hbatch : p.atBatchSeparator = q.atBatchSeparator := by
      rw [Parser.atBatchSeparator, Parser.atBatchSeparator, Parser.isBatchSeparator,
        Parser.isBatchSeparator, (G.shown hpq).dialect]
      cases q.dialect.batchSeparator? with
      | none => rfl
      | some word => exact hkin.isWord word
    rw [Parser.atTerminator, Parser.atTerminator, hkin.kind, hend, hbatch]
  · rw [Parser.atTerminator, Parser.atTerminator, hp.2, (G.shown hpq).ended hp.1 hp.2]
    simp

/-- A batch ends where its text ends. -/
theorem atTerminator :
    G.Test P Production.atTerminator Production.atTerminator P fun p => P p ∧ G.Here p := by
  intro p q hpq hp
  refine ⟨p.atTerminator, rfl, ?_, fun _ => hp, fun hx => ⟨hp, fun _ he => ?_⟩⟩
  · rw [Production.run_atTerminator, atTerminator_eq hpq]
  · rw [Parser.atTerminator, he, Bool.or_true, Bool.true_or] at hx
    cases hx

/-- A test by the kind of the current token, which does not pass at a name or at the end. -/
theorem byKind {g : TokenKind → Bool} (heof : g .eof = false) (hname : g .identifier = false) :
    G.Test P (Production.kind >>= fun k => pure (g k)) (Production.kind >>= fun k => pure (g k))
      G.Here P := by
  intro p q hpq hp
  change ∃ x, EStateM.Result.ok (g p.current.kind) p = .ok x p ∧
    EStateM.Result.ok (g q.current.kind) q = .ok x q ∧ _
  rcases here_or_ended G p with hhere | hended
  · rw [← (current_kin hpq hhere).kind]
    exact ⟨_, rfl, rfl, fun _ => hhere, fun _ => hp⟩
  · rw [hended.kind, hended.right_kind hpq, heof, hname]
    exact ⟨false, rfl, rfl, nofun, fun _ => hp⟩

variable {t t' : Production Bool} {Q' : Parser → Prop}

theorem kindred (h : G.Test P t t' Q Q') : G.Kindred P t t' Eq := by
  intro p q hpq hp
  obtain ⟨x, hleft, hright, -⟩ := h p q hpq hp
  rw [hleft, hright]
  exact .ok hpq rfl fun _ => id

end Test

namespace Looks

variable {f : Bool → Bool}

theorem checkPeek {k : TokenKind} (hP : ∀ p, P p → G.Here p)
    [h : Certain k.isFixed] :
    G.Looks P (Production.checkPeek k) (Production.checkPeek k) f P := by
  refine fun p q hpq => ⟨p.peek.kind == k, q.peek.kind == k, rfl, rfl, fun hp => ⟨?_, fun _ => hp⟩⟩
  have hright : (q.peek.kind == k) = (p.peek.kind == k) := by
    rw [Bool.eq_iff_iff, beq_iff_eq, beq_iff_eq, peek_kind_iff hpq (hP p hp) h.holds]
  rw [hright]

theorem peekKeyword {word : Keyword} (hP : ∀ p, P p → G.Here p) :
    G.Looks P (Production.peekKeyword word) (Production.peekKeyword word) f P :=
  checkPeek hP

/-- The token that was seen is known. -/
theorem checkNext {k : TokenKind} (hP : ∀ p, P p → G.Here p)
    [h : Certain k.isFixed] :
    G.Looks P (Production.checkPeek k) (Production.checkPeek k) (fun y => y)
      fun p => P p ∧ p.peek.kind = k := by
  refine fun p q hpq => ⟨p.peek.kind == k, q.peek.kind == k, rfl, rfl, fun hp => ⟨?_, fun hy => ?_⟩⟩
  · rw [Bool.eq_iff_iff, beq_iff_eq, beq_iff_eq, peek_kind_iff hpq (hP p hp) h.holds]
  · exact ⟨hp, beq_iff_eq.1 hy⟩

end Looks

namespace Kindred

/-! ## Passing tokens -/

/-- A token is passed. -/
theorem advance_outcome {a a' : α} (hpq : G.state p q) (hp : G.Here p) (h : R a a')
    (hdot : ¬p.Last .dot) : G.Outcome p R T (.ok a p.advance) (.ok a' q.advance) :=
  .ok (G.advance hpq hp) h fun _ hl => absurd hl hdot

theorem advance {k : TokenKind} [hk : Certain k.isPlain] :
    G.Kindred (G.At k) Production.advance Production.advance Eq :=
  fun _ _ hpq hp => advance_outcome hpq hp.1 rfl fun hl =>
    TokenKind.ne_dot_of_isPlain hk.holds (hp.2.symm.trans hl.kind)

/-- A token is passed before another one that was seen. -/
theorem bindAdvanceTo {next : TokenKind} {f f' : Unit → Production β}
    (h : G.Kindred (G.At next) (f ()) (f' ()) S U) [hnext : Certain next.isMore] :
    G.Kindred (fun p => G.Here p ∧ p.peek.kind = next) (Production.advance >>= f)
      (Production.advance >>= f') S U := by
  intro p q hpq hp
  have hkind : p.advance.current.kind = next := by rw [current_advance hpq, hp.2]
  have hhere : G.Here p.advance := fun _ he =>
    TokenKind.ne_eof_of_isMore hnext.holds (hkind.symm.trans (beq_iff_eq.1 he))
  have hout : G.Outcome p.advance S U (f () p.advance) (f' () q.advance) :=
    h _ _ (G.advance hpq hp.1) ⟨hhere, hkind⟩
  exact hout.after fun _ hl => absurd (hp.2.symm.trans (beq_iff_eq.1 hl.peek))
    (TokenKind.ne_eof_of_isMore hnext.holds)

theorem bindAdvance {k next : TokenKind} {f f' : Unit → Production β}
    (h : G.Kindred (G.At next) (f ()) (f' ()) S U) [hnext : Certain next.isMore] :
    G.Kindred (G.Before k next) (Production.advance >>= f) (Production.advance >>= f') S U :=
  .stage (.bindAdvanceTo h) fun _ hp => ⟨hp.1.1, hp.2⟩

/-- A token is passed, and more has to be read. -/
theorem bindPass {f f' : Unit → Production β} (he : Production.Ends false .eof (f ()) fun _ => False)
    (h : G.Kindred Anywhere (f ()) (f' ()) S U) :
    G.Kindred P (Production.advance >>= f) (Production.advance >>= f') S U := by
  intro p q hpq _
  change G.Outcome p S U (f () p.advance) (f' () q.advance)
  have hfails (hg : G.goesOn = true) (hpeek : p.peek.isEof) :
      G.Outcome p S U (f () p.advance) (f' () q.advance) :=
    .ofEnds hg (last_advance hg hpq hpeek) (he.mono fun _ => False.elim)
  rcases here_or_ended G p with hp | hp
  · by_cases hdot : G.goesOn = true ∧ p.Last .dot
    · exact hfails hdot.1 hdot.2.peek
    · have hout := h _ _ (G.advance hpq hp) trivial
      exact hout.after fun hg hl => absurd ⟨hg, hl⟩ hdot
  · exact hfails hp.1 (hp.last hpq).peek

/-- A choice by a token that is passed is one by a token that is seen. -/
theorem consumeIf_bind {t : Production Bool} {m n : Production α} :
    (Production.consumeIf t >>= fun x => if x = true then m else n) =
      (t >>= fun x => if x = true then (Production.advance >>= fun _ => m) else n) := by
  rw [Production.consumeIf, bind_assoc]
  refine bind_congr fun x => ?_
  cases x <;> simp

/-- A choice by a token that is passed. What is known stays known where it is not passed. -/
theorem bindConsume {k : TokenKind} (hthen : G.Kindred Anywhere m m' R T)
    (helse : G.Kindred P n n' R T) [hk : Certain k.isSign] :
    G.Kindred P (Production.consume k >>= fun x => if x = true then m else n)
      (Production.consume k >>= fun x => if x = true then m' else n') R T := by
  have hfixed : Certain k.isFixed := ⟨TokenKind.isFixed_of_isSign hk.holds⟩
  have hplain : Certain k.isPlain := ⟨TokenKind.isPlain_of_isSign hk.holds⟩
  rw [Production.consume, consumeIf_bind, consumeIf_bind]
  exact .bindTest .check (.bind .advance fun _ => hthen) helse

/-- A point is passed, and more has to be read behind it. -/
theorem bindDot (hthen : G.Kindred Anywhere m m' R T) (he : Production.Ends false .eof m fun _ => False)
    (helse : G.Kindred Anywhere n n' R T) :
    G.Kindred P (Production.consume .dot >>= fun x => if x = true then m else n)
      (Production.consume .dot >>= fun x => if x = true then m' else n') R T := by
  rw [Production.consume, consumeIf_bind, consumeIf_bind]
  exact .bindTest .check (.bindPass he hthen) helse.anywhere

/-- A token is passed, which may be the last one of the first text. -/
theorem bindLast {k : TokenKind} [hk : Certain k.isPlain] {f f' : Unit → Production β}
    (h : G.Kindred (G.Behind k) (f ()) (f' ()) S U) :
    G.Kindred (G.At k) (Production.advance >>= f) (Production.advance >>= f') S U := by
  intro p q hpq hp
  have hbehind : G.Behind k p.advance := by
    intro hg hend
    have hpeek : p.peek.isEof := by rw [← current_advance hpq]; exact hend
    exact ((G.shown hpq).follows hg (hp.1 hg) hpeek).2.symm.trans hp.2
  have hout : G.Outcome p.advance S U (f () p.advance) (f' () q.advance) :=
    h _ _ (G.advance hpq hp.1) hbehind
  exact hout.after fun _ hl => absurd (hp.2.symm.trans hl.kind) (TokenKind.ne_dot_of_isPlain hk.holds)

/-- A keyword is passed, which may be the last token of the first text. -/
theorem bindExpectLast {word : Keyword} {f f' : Unit → Production β}
    (h : G.Kindred (G.Behind (.keyword word)) (f ()) (f' ()) S U) :
    G.Kindred P (Production.expectKeyword word >>= f) (Production.expectKeyword word >>= f') S U := by
  have hrun (f : Unit → Production β) : (Production.expectKeyword word >>= f) =
      Production.checkKeyword word >>= fun x =>
        if x = true then (Production.advance >>= fun _ => f ()) else Production.expected word.spelling := by
    rw [Production.expectKeyword, Production.consumeKeyword, Production.consumeIf, bind_assoc, bind_assoc]
    refine bind_congr fun x => ?_
    cases x with
    | true => simp
    | false => rfl
  rw [hrun, hrun]
  exact .bindTest .checkKeyword (.bindLast h) .expected

/-- What the first text ends with if it ends behind a token of a kind. -/
theorem leavingBehind {k : TokenKind} (he : G.last = k → Production.Ends false .eof m (T .eof))
    (h : G.Kindred G.Here m m' R T) : G.Kindred (G.Behind k) m m' R T := by
  intro p q hpq hp
  rcases here_or_ended G p with hhere | hended
  · exact h p q hpq hhere
  · exact .ofEnds hended.1 (hended.last hpq) (he (hp hended.1 hended.2))

/-- A keyword that may be missing. If it is there and the first text ends behind it, it is the last
one. -/
theorem bindSkipKeyword {word : Keyword} {f f' : Unit → Production β}
    (h : G.Kindred G.Here (f ()) (f' ()) S U)
    (hend : G.last = .keyword word → Production.Ends false .eof (f ()) (U .eof)) :
    G.Kindred G.Here (Production.skipKeyword word >>= f) (Production.skipKeyword word >>= f') S U := by
  have hrun (f : Unit → Production β) : (Production.skipKeyword word >>= f) =
      Production.checkKeyword word >>= fun x =>
        if x = true then (Production.advance >>= fun _ => f ()) else f () := by
    change ((fun _ => ()) <$> Production.consumeKeyword word) >>= f = _
    rw [map_eq_pure_bind, bind_assoc, Production.consumeKeyword, Production.consumeIf, bind_assoc]
    refine bind_congr fun x => ?_
    cases x <;> simp
  rw [hrun, hrun]
  exact .bindTest .checkKeyword (.bindLast (.leavingBehind hend h)) h

theorem consumeIf {t t' : Production Bool} {Q' : Parser → Prop} (ht : G.Test P t t' Q Q')
    (hQ : G.Kindred Q Production.advance Production.advance Eq) :
    G.Kindred P (Production.consumeIf t) (Production.consumeIf t') Eq :=
  .bindTest ht (.bind hQ fun _ => .stay) .stay

theorem consume {k : TokenKind} [hk : Certain k.isSign] :
    G.Kindred P (Production.consume k) (Production.consume k) Eq := by
  have hfixed : Certain k.isFixed := ⟨TokenKind.isFixed_of_isSign hk.holds⟩
  have hplain : Certain k.isPlain := ⟨TokenKind.isPlain_of_isSign hk.holds⟩
  exact .consumeIf .check .advance

theorem consumeKeyword {word : Keyword} :
    G.Kindred P (Production.consumeKeyword word) (Production.consumeKeyword word) Eq :=
  consume

theorem passWord : G.Kindred G.Worded Production.advance Production.advance Eq :=
  fun _ _ hpq hp => advance_outcome hpq hp.1 rfl fun hl => by
    have hkind := hp.2.symm.trans hl.kind
    cases hkind

theorem consumeWord {word : String} [h : InBatch word] :
    G.Kindred P (Production.consumeWord word) (Production.consumeWord word) Eq :=
  .consumeIf .checkWord passWord

theorem consumeKeywords {first second : Keyword} :
    G.Kindred P (Production.consumeKeywords first second)
      (Production.consumeKeywords first second) Eq :=
  .bindTest .checkKeywords (.bindAdvance (.bind .advance fun _ => .stay)) .stay

theorem consumeAny {kinds : List TokenKind} [hs : TokenKind.Signs kinds] :
    G.Kindred P (Production.consumeAny kinds) (Production.consumeAny kinds) Eq := by
  have hcontains {k : TokenKind} (h : k.isSign = false) : kinds.contains k = false := by
    rw [List.contains_eq_mem, decide_eq_false_iff_not]
    intro hk
    rw [hs.isSign k hk] at h
    cases h
  have htest : G.Test P (do return kinds.contains (← Production.kind))
      (do return kinds.contains (← Production.kind))
      (fun p => G.Here p ∧ kinds.contains p.current.kind) P := by
    intro p q hpq hp
    obtain ⟨x, hleft, hright, hpass, hblock⟩ := Test.byKind (P := P)
      (hcontains (k := .eof) rfl) (hcontains (k := .identifier) rfl) p q hpq hp
    refine ⟨x, hleft, hright, fun hx => ⟨hpass hx, ?_⟩, hblock⟩
    have hvalue : EStateM.Result.ok (kinds.contains p.current.kind) p = .ok x p := hleft
    rw [hx] at hvalue
    exact (EStateM.Result.ok.inj hvalue).1
  refine .consumeIf htest fun p q hpq hp => advance_outcome hpq hp.1 rfl fun hl => ?_
  have hdot := hp.2
  rw [hl.kind, hcontains (k := .dot) rfl] at hdot
  cases hdot

theorem skipKeyword {word : Keyword} :
    G.Kindred P (Production.skipKeyword word) (Production.skipKeyword word) Eq :=
  .discard .consumeKeyword

theorem skipWord {word : String} [h : InBatch word] :
    G.Kindred P (Production.skipWord word) (Production.skipWord word) Eq :=
  .discard .consumeWord

theorem expect {k : TokenKind} [hk : Certain k.isSign] :
    G.Kindred P (Production.expect k) (Production.expect k) Eq :=
  .bindIf .consume .stay .expected

theorem expectKeyword {word : Keyword} :
    G.Kindred P (Production.expectKeyword word) (Production.expectKeyword word) Eq :=
  .bindIf .consumeKeyword .stay .expected

theorem expectWord {word : String} [h : InBatch word] :
    G.Kindred P (Production.expectWord word) (Production.expectWord word) Eq :=
  .bindIf .consumeWord .stay .expected

/-! ## Names -/

theorem not_dot_of_isName {t : Token} (h : t.isName) : t.kind ≠ .dot := by
  intro hk
  rw [Token.isName, hk] at h
  cases h

theorem takeSame (hP : ∀ p, P p → G.Here p ∧ p.current.kind ≠ .dot) :
    G.Kindred P Production.takeLiteral Production.takeLiteral (Same G.goesOn) :=
  fun p _ hpq hp => advance_outcome hpq (hP p hp).1 (current_kin hpq (hP p hp).1).same fun hl =>
    (hP p hp).2 hl.kind

theorem takeNamed :
    G.Kindred G.Named Production.takeLiteral Production.takeLiteral (Same G.goesOn) :=
  takeSame fun _ hp => ⟨hp.1, not_dot_of_isName hp.2⟩

/-- Only keywords are spelt in different ways. -/
theorem takeLiteral {k : TokenKind} [hk : Certain k.isSpelt] :
    G.Kindred (G.At k) Production.takeLiteral Production.takeLiteral Eq :=
  fun _ _ hpq hp => advance_outcome hpq hp.1
    ((current_kin hpq hp.1).literal fun word hkind => by
      have hspelt := hk.holds
      rw [hp.2.symm.trans hkind] at hspelt
      cases hspelt)
    fun hl => TokenKind.ne_dot_of_isPlain (TokenKind.isPlain_of_isSpelt hk.holds)
      (hp.2.symm.trans hl.kind)

theorem name : G.Kindred P Production.name Production.name (Same G.goesOn) :=
  .needing .name (.bindTest (.atName fun _ => id) .takeNamed .expected)

/-- A name before a token that was seen. -/
theorem bindNameTo {next : TokenKind} {f f' : String → Production β}
    (h : ∀ name name', Same G.goesOn name name' →
      G.Kindred (G.At next) (f name) (f' name') S U) [hnext : Certain next.isMore] :
    G.Kindred (fun p => G.Named p ∧ p.peek.kind = next) (Production.name >>= f)
      (Production.name >>= f') S U := by
  intro p q hpq hp
  have hkin := current_kin hpq hp.1.1
  have hrun (f : String → Production β) {p : Parser} (hname : p.current.isName = true) :
      (Production.name >>= f) p =
        (Production.advance >>= fun _ => f p.current.literal) p := by
    simp [Production.name, hname]
  rw [hrun f hp.1.2, hrun f' (hkin.isName ▸ hp.1.2)]
  exact bindAdvanceTo (h p.current.literal q.current.literal hkin.same) p q hpq
    ⟨hp.1.1, hp.2⟩

theorem isBatchSeparator_eq (hpq : G.state p q) {t t' : Token} (h : t.Kin G.goesOn t') :
    p.isBatchSeparator t = q.isBatchSeparator t' := by
  rw [Parser.isBatchSeparator, Parser.isBatchSeparator, (G.shown hpq).dialect]
  cases q.dialect.batchSeparator? with
  | none => rfl
  | some word => exact h.isWord word

theorem atTrailingName_eq (hpq : G.state p q) : p.atTrailingName = q.atTrailingName := by
  rw [Parser.atTrailingName, Parser.atTrailingName]
  rcases here_or_ended G p with hp | hp
  · have hkin := current_kin hpq hp
    have hbatch : p.atBatchSeparator = q.atBatchSeparator := isBatchSeparator_eq hpq hkin
    have hpeek {k : TokenKind} (hk : k.isFixed) :
        (p.peek.kind != k) = (q.peek.kind != k) := by
      rw [Bool.eq_iff_iff, bne_iff_ne, bne_iff_ne, ne_eq, ne_eq, peek_kind_iff hpq hp hk]
    rw [hkin.isIdentifier, hbatch, hpeek (k := .colon) (by decide),
      hpeek (k := .colonAssign) (by decide)]
  · rw [Token.isIdentifier, hp.kind, (G.shown hpq).ended hp.1 hp.2]
    simp

/-- A name behind the end of a batch ends nothing in it. -/
theorem trailingName? :
    G.Kindred P Production.trailingName? Production.trailingName? Eq := by
  refine .bindGetIf (fun p q hpq _ => atTrailingName_eq hpq) ?_ .stay
  have hname {p : Parser} (hp : p.atTrailingName) : p.current.isIdentifier := by
    simp only [Parser.atTrailingName, Bool.and_eq_true] at hp
    exact hp.1.1.1
  refine .bind (fun p q hpq hp => ?_) fun _ => .stay
  have hidentifier := hname hp.2
  have hhere : G.Here p := fun _ he => by
    rw [Token.isIdentifier, show p.current.kind = .eof from beq_iff_eq.1 he] at hidentifier
    cases hidentifier
  refine advance_outcome hpq hhere ((current_kin hpq hhere).literal fun word hkind => ?_) fun hl => ?_
  · rw [Token.isIdentifier, hkind] at hidentifier
    cases hidentifier
  · rw [Token.isIdentifier, hl.kind] at hidentifier
    cases hidentifier

/-! ## Skipping -/

/-- What is skipped in both texts. -/
theorem state_skipWhile {condition : Parser → Bool}
    (hc : ∀ p q, G.state p q → condition p = condition q)
    (hhere : ∀ p, condition p → G.Here p) (hpq : G.state p q) :
    G.state (p.skipWhile condition) (q.skipWhile condition) := by
  induction hn : p.remaining using Nat.strong_induction_on generalizing p q with
  | _ n ih =>
    subst hn
    rw [Parser.skipWhile.eq_def p, Parser.skipWhile.eq_def q, ← hc p q hpq]
    by_cases h : condition p
    · have hadvance := G.advance hpq (hhere p h)
      rw [if_pos h, if_pos h]
      by_cases hless : p.advance.remaining < p.remaining
      · rw [if_pos hless, if_pos ((remaining_lt_iff hpq hadvance).2 hless)]
        exact ih _ hless hadvance rfl
      · rw [if_neg hless, if_neg (mt (remaining_lt_iff hpq hadvance).1 hless)]
        exact hadvance
    · rw [if_neg h, if_neg h]
      exact hpq

theorem skipSemicolons :
    G.Kindred P Production.skipSemicolons Production.skipSemicolons Eq := by
  intro p q hpq _
  refine .ok (state_skipWhile (fun p q h => ?_) (fun p hp _ he => ?_) hpq) rfl fun _ hl => ?_
  · rw [Bool.eq_iff_iff, beq_iff_eq, beq_iff_eq]
    exact kind_iff h (by decide)
  · have hkind := (beq_iff_eq.1 hp).symm.trans (beq_iff_eq.1 he)
    cases hkind
  · exact ((Production.Ends.skipSemicolons (k := .dot) (h := ⟨nofun⟩)).settled hl).2

/-! ## Repetition -/

/-- Steps of two loops that correspond. -/
inductive StepRel (W : σ → σ → Prop) (R : α → α → Prop) :
    Production.Step σ α → Production.Step σ α → Prop
  | more {s s' : σ} (h : W s s') : StepRel W R (.more s) (.more s')
  | done {a a' : α} (h : R a a') : StepRel W R (.done a) (.done a')

section

variable {W : σ → σ → Prop} {round round' : σ → Production (Production.Step σ α)}
  {V : TokenKind → Production.Step σ α → Prop}

/-- Round by round, since a round that is not done leaves less text. -/
theorem loop_outcome
    (h : ∀ s s', W s s' → G.Kindred Anywhere (round s) (round' s') (StepRel W R) V)
    (hmore : ∀ k s, V k (.more s) → Production.Ends false k (Production.loop round s) (T k))
    (hdone : ∀ k a, V k (.done a) → T k a) {p q : Parser} (hpq : G.state p q) {s s' : σ}
    (hs : W s s') :
    G.Outcome p R T (Production.loop round s p) (Production.loop round' s' q) := by
  induction hn : p.remaining using Nat.strong_induction_on generalizing p q s s' with
  | _ n ih =>
    subst hn
    have hround := h s s' hs p q hpq trivial
    rw [Production.loop, Production.loop]
    revert hround
    generalize round s p = r, round' s' q = r'
    intro hround
    cases hround with
    | error hg hf => exact .error hg hf
    | lost hg hr => exact .lost hg hr
    | @ok step step' p' q' hstate hv hd =>
      cases hv with
      | done hv => exact .ok hstate hv hd
      | more hv =>
        dsimp only
        by_cases hless : p'.remaining < p.remaining
        · rw [if_pos hless, if_pos ((remaining_lt_iff hpq hstate).2 hless)]
          exact (ih _ hless hstate hv rfl).after hd
        · rw [if_neg hless, if_neg (mt (remaining_lt_iff hpq hstate).1 hless)]
          exact (Outcome.expected hstate).after hd
    | @stuck step step' p' q' r' hg hstate hv hl =>
      cases hv with
      | done hv => exact .stuck hg hstate hv hl
      | more hv =>
        dsimp only
        by_cases hless : p'.remaining < p.remaining
        · rw [if_pos hless]
          exact (ih _ hless hstate hv rfl).behindDot hg hl
        · rw [if_neg hless]
          exact .lost hg hl.strict
    | @apart k step p' r' hg hl hv =>
      cases step with
      | done a => exact .apart hg hl (hdone k a hv)
      | more s =>
        dsimp only
        by_cases hless : p'.remaining < p.remaining
        · rw [if_pos hless]
          exact .ofEnds hg hl (hmore k s hv)
        · rw [if_neg hless]
          exact .lost hg hl.strict

theorem loopApart {s s' : σ}
    (h : ∀ s s', W s s' → G.Kindred Anywhere (round s) (round' s') (StepRel W R) V)
    (hmore : ∀ k s, V k (.more s) → Production.Ends false k (Production.loop round s) (T k))
    (hdone : ∀ k a, V k (.done a) → T k a) (hs : W s s') :
    G.Kindred P (Production.loop round s) (Production.loop round' s') R T :=
  fun _ _ hpq _ => loop_outcome h hmore hdone hpq hs

theorem loop {s s' : σ}
    (h : ∀ s s', W s s' → G.Kindred Anywhere (round s) (round' s') (StepRel W R))
    (hs : W s s') : G.Kindred P (Production.loop round s) (Production.loop round' s') R T :=
  loopApart h (fun _ _ => False.elim) (fun _ _ => False.elim) hs

end

section

variable {item? item?' : Production (Option α)} {item item' : Production α}

/-- The items that a step of a collection has, the last one first. -/
def collected : Production.Step (List α) (List α) → List α
  | .more xs => xs
  | .done xs => xs

/-- Items are collected in both texts, as long as there are any. Where the first text was left open, it is
the last item that did it: no item follows, or reading one fails. -/
theorem many_rel {V : TokenKind → Option α → Prop} {U : TokenKind → List α → Prop}
    (h : G.Kindred Anywhere item? item?' (Option.Rel R) V)
    (he : ∀ k x, V k x →
      Production.Ends false k item?
          (fun y => y = none ∧ ∀ xs : List α, (∀ a ∈ x, a ∈ xs.getLast?) → U k xs) ∧
        (x = none → ∀ xs, U k xs)) :
    G.Kindred P (Production.many item?) (Production.many item?') (List.Forall₂ R) U := by
  refine .loopApart (V := fun k step => ∃ x, V k x ∧ (∀ a ∈ x, a ∈ (collected step).head?) ∧
      ∀ xs, step = .done xs → x = none)
    (W := List.Forall₂ R) (fun xs xs' hxs => ?_) (fun k xs hk => ?_) (fun k xs hk => ?_) .nil
  · refine h.bindApart (fun x x' hx => ?_) fun k x hk => ?_
    · cases hx with
      | none => exact .ret (.done (List.forall₂_reverse_iff.2 hxs))
      | some hx => exact .ret (.more (.cons hx hxs))
    · cases x with
      | none => exact .ret ⟨none, hk, nofun, fun _ _ => rfl⟩
      | some a =>
        refine .ret ⟨some a, hk, fun b hb => ?_, nofun⟩
        rw [Option.mem_def, Option.some.injEq] at hb
        exact hb ▸ List.head?_cons
  · obtain ⟨x, hk, hmem, -⟩ := hk
    refine .loop ((he k x hk).1.bind fun y hy => ?_)
    rw [hy.1]
    exact .ret (hy.2 _ fun a ha => List.getLast?_reverse ▸ hmem a ha)
  · obtain ⟨x, hk, -, hdone⟩ := hk
    exact (he k x hk).2 (hdone xs rfl) xs

theorem many {U : TokenKind → List α → Prop} (h : G.Kindred Anywhere item? item?' Eq) :
    G.Kindred P (Production.many item?) (Production.many item?') Eq U := by
  refine (many_rel (R := Eq) (V := fun _ _ => False) ?_ fun _ _ => False.elim).mono
    (fun _ => id) (fun xs xs' hxs => ?_) fun _ _ => id
  · refine h.mono (fun _ => id) (fun x x' hx => ?_) fun _ _ => id
    rw [hx]
    cases x' with
    | none => exact .none
    | some a => exact .some rfl
  · rwa [List.forall₂_eq_eq_eq] at hxs

theorem manySame [Textual α] {U : TokenKind → List α → Prop}
    (h : G.Kindred Anywhere item? item?' (Same G.goesOn)) :
    G.Kindred P (Production.many item?) (Production.many item?') (Same G.goesOn) U :=
  (many_rel (R := Same G.goesOn) (h.mono (fun _ => id) (fun _ _ => Same.option) fun _ _ => id)
    fun _ _ => False.elim).mono (fun _ => id) (fun _ _ => Same.list) fun _ _ => id

/-- Items of which the last one can leave the first text open. No item follows at its end. -/
theorem manyOpen [Textual α]
    (h : G.Kindred Anywhere item? item?' (Same G.goesOn) fun k _ => k = .eof)
    (he : Production.Ends false .eof item? (· = none)) :
    G.Kindred P (Production.many item?) (Production.many item?') (Same G.goesOn)
      fun k _ => k = .eof := by
  have hitem : G.Kindred Anywhere item? item?' (Option.Rel (Same G.goesOn)) fun k _ => k = .eof :=
    h.mono (fun _ => id) (fun _ _ => Same.option) fun _ _ => id
  refine (many_rel (V := fun k _ => k = .eof) hitem fun k x hk => ⟨?_, fun _ _ => hk⟩).mono
    (fun _ => id) (fun _ _ => Same.list) fun _ _ => id
  subst hk
  exact he.mono fun _ hy => ⟨hy, fun _ _ => rfl⟩

theorem list {U : TokenKind → List α → Prop} (h : G.Kindred Anywhere item item' Eq) :
    G.Kindred P (Production.list item) (Production.list item') Eq U := by
  refine .bind h.anywhere fun first => .bind (.many ?_) fun rest => .stay
  exact .bindIf .consume (.map some h) .stay

theorem listSame [Textual α] {U : TokenKind → List α → Prop}
    (h : G.Kindred Anywhere item item' (Same G.goesOn)) :
    G.Kindred P (Production.list item) (Production.list item') (Same G.goesOn) U := by
  refine .bindSame h.anywhere fun first first' hfirst => ?_
  refine .bindSame (.manySame (.bindIf .consume (.mapSame h fun _ _ => .some) (.ret (.refl none))))
    fun rest rest' hrest => .ret ?_
  exact hfirst.cons hrest

/-- A list whose last item can leave the first text open. -/
theorem listOpen [Textual α] {φ : α → Prop}
    (h : G.Kindred Anywhere item item' (Same G.goesOn) fun k a => k = .eof ∧ φ a) :
    G.Kindred P (Production.list item) (Production.list item') (Same G.goesOn)
      fun k xs => k = .eof ∧ ∃ a ∈ xs.getLast?, φ a := by
  have hmany : G.Kindred Anywhere
      (Production.many do
        if ← Production.consume .comma then some <$> item else return none)
      (Production.many do
        if ← Production.consume .comma then some <$> item' else return none)
      (List.Forall₂ (Same G.goesOn)) fun k xs => k = .eof ∧ ∃ a ∈ xs.getLast?, φ a := by
    refine many_rel (V := fun k x => k = .eof ∧ ∃ a ∈ x, φ a) (.bindIf .consume ?_ (.ret .none))
      fun k x hk => ?_
    · exact h.mapApart (fun _ _ => .some) fun _ a ha => ⟨ha.1, a, rfl, ha.2⟩
    · obtain ⟨rfl, a, ha, hφ⟩ := hk
      refine ⟨.bindIf .consume (.ret ⟨rfl, fun xs hxs => ⟨rfl, a, hxs a ha, hφ⟩⟩), ?_⟩
      rintro rfl
      cases ha
  refine .bindApart h.anywhere (fun first first' hfirst => ?_) fun k first hk => ?_
  · refine .bindApart hmany (fun rest rest' hrest => .ret (hfirst.cons (.list hrest)))
      fun k rest hk => .ret ?_
    obtain ⟨heof, a, ha, hφ⟩ := hk
    refine ⟨heof, a, ?_, hφ⟩
    rw [List.getLast?_cons, Option.mem_def.1 ha]
    rfl
  · obtain ⟨rfl, hφ⟩ := hk
    refine .bind (.many (.bindIf .consume (.ret rfl))) fun rest hrest => .ret ?_
    rw [hrest]
    exact ⟨rfl, first, rfl, hφ⟩

/-! ## Constructs of several tokens -/

theorem behind {word : Keyword} {U : TokenKind → Option α → Prop}
    (h : G.Kindred Anywhere item item' Eq) :
    G.Kindred P (Production.behind word item) (Production.behind word item') Eq U :=
  .bindIf .consumeKeyword (.map some h) .stay

theorem behindSame [Textual α] {word : Keyword} {U : TokenKind → Option α → Prop}
    (h : G.Kindred Anywhere item item' (Same G.goesOn)) :
    G.Kindred P (Production.behind word item) (Production.behind word item') (Same G.goesOn) U :=
  .bindIf .consumeKeyword (.mapSame h fun _ _ => .some) (.ret (.refl none))

/-- An item that can leave the first text open. -/
theorem behindOpen [Textual α] {word : Keyword}
    (h : G.Kindred Anywhere item item' (Same G.goesOn) T) :
    G.Kindred P (Production.behind word item) (Production.behind word item') (Same G.goesOn)
      fun k x => ∃ a ∈ x, T k a :=
  .bindIf .consumeKeyword (h.mapApart (fun _ _ => .some) fun _ a ha => ⟨a, rfl, ha⟩)
    (.ret (.refl none))

theorem inParensOpen {R : α → α → Prop} {U : TokenKind → α → Prop}
    (h : G.Kindred Anywhere item item' R T) (hT : ∀ k a, T k a → k ≠ .rightParen) :
    G.Kindred P (Production.inParens item) (Production.inParens item') R U := by
  refine .bind .expect fun _ => .bindApart h (fun a a' ha => ?_) fun k a hk => ?_
  · exact .bind .expect fun _ => .ret ha
  · exact .fails (.expect (h := ⟨hT k a hk⟩))

theorem inParens {R : α → α → Prop} {U : TokenKind → α → Prop}
    (h : G.Kindred Anywhere item item' R) :
    G.Kindred P (Production.inParens item) (Production.inParens item') R U :=
  .inParensOpen h fun _ _ => False.elim

end

/-- Any token is passed; behind a point at the end of the first text, that is at its end. -/
theorem advanceAny :
    G.Kindred G.Here Production.advance Production.advance Eq fun k _ => k = .eof := by
  intro p q hpq hp
  by_cases hdot : G.goesOn = true ∧ p.Last .dot
  · exact .apart hdot.1 (last_advance hdot.1 hpq hdot.2.peek) rfl
  · exact .ok (G.advance hpq hp) rfl fun hg hl => absurd ⟨hg, hl⟩ hdot

/-- What is in parentheses has to end with one. -/
theorem skipParens : G.Kindred P Production.skipParens Production.skipParens Eq := by
  refine .bind .expect fun _ => .loopApart (W := Eq)
    (V := fun k step => k = .eof ∧ ∃ depth, step = .more depth) (fun depth _ heq => ?_)
    (fun k depth hk => ?_) (fun k u hk => ?_) rfl
  · subst heq
    refine .needing (.bindKind .expected) (.bindKindHere fun k => ?_)
    split
    · exact .expected
    · exact .bind .advance fun _ => .ret (.more rfl)
    · refine .bind .advance fun _ => .ret ?_
      split
      · exact .done rfl
      · exact .more rfl
    · refine .bindApart (advanceAny.stage fun p hp => hp.1) (fun _ _ _ => .ret (.more rfl))
        fun k _ hk => .ret ⟨hk, depth, rfl⟩
  · obtain ⟨rfl, -⟩ := hk
    exact .loop (.bindKind .expected)
  · obtain ⟨-, depth, hk⟩ := hk
    cases hk

/-! ## Errors, depth and pools -/

theorem state_synchronize (hg : G.goesOn = false) (hpq : G.state p q) :
    G.state p.synchronize q.synchronize := by
  have hhere (p : Parser) : G.Here p := fun h => by
    rw [hg] at h
    cases h
  refine state_skipWhile (fun p q h => ?_) (fun p _ => hhere p)
    (state_skipWhile (fun p q h => ?_) (fun p _ => hhere p) hpq)
  · have hbatch : p.atBatchSeparator = q.atBatchSeparator :=
      isBatchSeparator_eq h (current_kin h (hhere p))
    rw [(G.shown h).running.1, (G.shown h).running.2, (current_kin h (hhere p)).kind, hbatch]
  · rw [Test.atTerminator_eq h]

/-- The reading goes on behind errors only in texts that are as long. -/
theorem recovering [Textual α] (h : G.Kindred P m m' (Same G.goesOn) T) :
    G.Kindred P (Production.recovering m) (Production.recovering m') (Same G.goesOn)
      fun k x => ∃ a ∈ x, T k a := by
  intro p q hpq hp
  have hm := h p q hpq hp
  rw [Production.recovering, Production.recovering]
  revert hm
  generalize m p = r, m' q = r'
  intro hm
  cases hm with
  | ok hs hv hd => exact .ok hs hv.some hd
  | stuck hg hs hv hl => exact .stuck hg hs hv.some hl
  | apart hg hl hv => exact .apart hg hl ⟨_, rfl, hv⟩
  | @error e e' p' q' hg hf =>
    have hshown := G.failed_shown hf
    dsimp only
    rw [← hshown.recovering, hshown.running.1, hshown.running.2]
    cases hr : p'.recovering with
    | false => exact .error hg hf
    | true =>
      refine .ok (state_synchronize hg (G.record hg hf hr)) (.refl none) fun hon => ?_
      rw [hg] at hon
      cases hon
  | @lost e p' r' hg hr =>
    dsimp only
    rw [hr]
    exact .lost hg hr

theorem inRoutine (h : G.Kindred Anywhere m m' R T) :
    G.Kindred P (Production.inRoutine m) (Production.inRoutine m') R T := by
  intro p q hpq _
  have hm := h _ _ (G.atDepth (p.routineDepth + 1) hpq) trivial
  rw [Production.inRoutine, Production.inRoutine, ← (G.shown hpq).routineDepth]
  revert hm
  generalize m _ = r, m' _ = r'
  intro hm
  cases hm with
  | ok hs hv hd =>
    dsimp only
    rw [← (G.shown hs).routineDepth]
    refine .ok (G.atDepth _ hs) hv fun hg hl => ?_
    have hlast := hd hg ⟨hl.kind, hl.peek, hl.strict⟩
    exact ⟨hlast.kind, hlast.peek, hlast.strict⟩
  | stuck hg hs hv hl => exact .stuck hg (G.atDepth _ hs) hv ⟨hl.kind, hl.peek, hl.strict⟩
  | apart hg hl hv => exact .apart hg ⟨hl.kind, hl.peek, hl.strict⟩ hv
  | error hg hf =>
    dsimp only
    rw [← (G.failed_shown hf).routineDepth]
    exact .error hg (G.failed_atDepth _ hf)
  | lost hg hr => exact .lost hg hr

theorem onFailure {change change' : Pools → Pools} (h : G.Kindred P m m' R T)
    (hc : ∀ pools : Pools, pools.IsFresh → (change pools).IsFresh ∧ (change' pools).IsFresh) :
    G.Kindred P (Production.onFailure m change) (Production.onFailure m' change') R T := by
  intro p q hpq hp
  have hm := h p q hpq hp
  rw [Production.onFailure, Production.onFailure]
  revert hm
  generalize m p = r, m' q = r'
  intro hm
  cases hm with
  | ok hs hv hd => exact .ok hs hv hd
  | stuck hg hs hv hl => exact .stuck hg hs hv hl
  | apart hg hl hv => exact .apart hg hl hv
  | error hg hf =>
    have hfresh := (G.failed_shown hf).pools
    exact .error hg (G.failed_withPools hf (hc _ hfresh.1).1 (hc _ hfresh.2).2)
  | lost hg hr => exact .lost hg hr

/-- A node is taken from fresh pools, which hand out equal ones. -/
theorem acquire {f : Pools → α × Pools}
    (hnode : ∀ P Q : Pools, P.IsFresh → Q.IsFresh → (f P).1 = (f Q).1)
    (hpools : ∀ pools : Pools, pools.IsFresh → (f pools).2.IsFresh) :
    G.Kindred P (modifyGet fun p => ((f p.pools).1, { p with pools := (f p.pools).2 }))
      (modifyGet fun p => ((f p.pools).1, { p with pools := (f p.pools).2 })) Eq := by
  intro p q hpq _
  have hfresh := (G.shown hpq).pools
  change G.Outcome p Eq _ (.ok (f p.pools).1 { p with pools := (f p.pools).2 })
    (.ok (f q.pools).1 { q with pools := (f q.pools).2 })
  refine .ok (G.withPools hpq (hpools _ hfresh.1) (hpools _ hfresh.2))
    (hnode _ _ hfresh.1 hfresh.2) fun _ hl => ⟨hl.kind, hl.peek, hl.strict⟩

theorem acquireSelect :
    G.Kindred P Production.acquireSelect Production.acquireSelect Eq :=
  acquire (f := fun pools =>
      (pools.select.acquire.1, { pools with select := pools.select.acquire.2 }))
    (fun _ _ h h' => by
      rw [NodePool.acquire_eq_fresh h.select, NodePool.acquire_eq_fresh h'.select])
    fun _ h => ⟨NodePool.acquire_isFresh h.select, h.binary, h.column, h.join⟩

theorem acquireBinary :
    G.Kindred P Production.acquireBinary Production.acquireBinary Eq :=
  acquire (f := fun pools =>
      (pools.binary.acquire.1, { pools with binary := pools.binary.acquire.2 }))
    (fun _ _ h h' => by
      rw [NodePool.acquire_eq_fresh h.binary, NodePool.acquire_eq_fresh h'.binary])
    fun _ h => ⟨h.select, NodePool.acquire_isFresh h.binary, h.column, h.join⟩

theorem acquireColumn :
    G.Kindred P Production.acquireColumn Production.acquireColumn Eq :=
  acquire (f := fun pools =>
      (pools.column.acquire.1, { pools with column := pools.column.acquire.2 }))
    (fun _ _ h h' => by
      rw [NodePool.acquire_eq_fresh h.column, NodePool.acquire_eq_fresh h'.column])
    fun _ h => ⟨h.select, h.binary, NodePool.acquire_isFresh h.column, h.join⟩

theorem acquireJoin : G.Kindred P Production.acquireJoin Production.acquireJoin Eq :=
  acquire (f := fun pools =>
      (pools.join.acquire.1, { pools with join := pools.join.acquire.2 }))
    (fun _ _ h h' => by
      rw [NodePool.acquire_eq_fresh h.join, NodePool.acquire_eq_fresh h'.join])
    fun _ h => ⟨h.select, h.binary, h.column, NodePool.acquire_isFresh h.join⟩

end Kindred

end Kinship

end SqlFrontend
