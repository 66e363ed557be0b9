import SqlFrontend.Proofs.Parsing.Yield

/-!
# What productions yield behind a text

Whether a text in parentheses may be skipped depends on the words before it, and other productions passed
those. Here the tokens that were passed before a run belong to a language, and so do the ones that were
passed when it ends.

Results:
* `Parser.Leads`: from one parser to another, tokens are passed that are accepted behind the texts of a
  language.
* `Production.YieldsBehind`: from every parser of a kind, and behind every text of a language, a
  production yields a value of another kind, and leads to texts of another language.
* `YieldsBehind.ofYields`, `Yields.ofBehind`: behind all texts, that is what the production yields.
* `YieldsBehind.skipParens`: a text in parentheses is skipped behind what has one that is.
-/

open Computability

namespace SqlFrontend

namespace Phrase

variable {X L : Language Token}

theorem le_mul_optional : X ≤ X * (1 + L) := le_mul_of_one_le_right' le_self_add

theorem mul_le_mul_optional : X * L ≤ X * (1 + L) := mul_le_mul_right le_add_self X

theorem le_mul_many : X ≤ X * L∗ := le_mul_of_one_le_right' one_le_kstar

theorem mul_many_le : X * L∗ * L ≤ X * L∗ := by
  rw [mul_assoc]
  exact mul_le_mul_right kstar_mul_le_kstar X

end Phrase

namespace Parser

/-- The way from one parser to another, over tokens that are accepted behind those of one language, and that
lead to those of another. -/
structure Leads (X Y : Language Token) (p q : Parser) : Prop where
  clean : q.Clean
  recovering : q.recovering = p.recovering
  tokens : p.Steady → q.Steady ∧ ∃ passed, p.upcoming = passed ++ q.upcoming ∧
    ∀ before ∈ X, Accepted before → before ++ passed ∈ Y ∧ Accepted (before ++ passed)

variable {X Y Z : Language Token} {p q r : Parser}

theorem Leads.refl (h : p.Clean) : Leads X X p p := by
  refine ⟨h, rfl, fun hs => ⟨hs, [], rfl, fun before hbefore haccepted => ?_⟩⟩
  rw [List.append_nil]
  exact ⟨hbefore, haccepted⟩

theorem Leads.trans (h : Leads X Y p q) (h' : Leads Y Z q r) : Leads X Z p r := by
  refine ⟨h'.clean, h'.recovering.trans h.recovering, fun hs => ?_⟩
  obtain ⟨hq, passed, heq, hpassed⟩ := h.tokens hs
  obtain ⟨hr, passed', heq', hpassed'⟩ := h'.tokens hq
  refine ⟨hr, passed ++ passed', ?_, fun before hbefore haccepted => ?_⟩
  · rw [heq, heq', List.append_assoc]
  · obtain ⟨hmem, hall⟩ := hpassed before hbefore haccepted
    rw [← List.append_assoc]
    exact hpassed' _ hmem hall

theorem Leads.mono {X' Y' : Language Token} (h : Leads X Y p q) (hX : X' ≤ X) (hY : Y ≤ Y') :
    Leads X' Y' p q := by
  refine ⟨h.clean, h.recovering, fun hs => ?_⟩
  obtain ⟨hq, passed, heq, hpassed⟩ := h.tokens hs
  refine ⟨hq, passed, heq, fun before hbefore haccepted => ?_⟩
  exact (hpassed before (hX hbefore) haccepted).imp_left fun hmem => hY hmem

theorem Passes.leads (h : p.Passes q) : Leads X ⊤ p q := by
  refine ⟨h.clean, h.recovering, fun hs => ?_⟩
  obtain ⟨hq, passed, haccepted, heq⟩ := h.tokens hs
  exact ⟨hq, passed, heq, fun before _ hbefore => ⟨trivial, hbefore.append haccepted⟩⟩

theorem Leads.passes (h : Leads ⊤ Y p q) : p.Passes q := by
  refine ⟨h.clean, h.recovering, fun hs => ?_⟩
  obtain ⟨hq, passed, heq, hpassed⟩ := h.tokens hs
  exact ⟨hq, passed, (hpassed [] trivial .nil).2, heq⟩

/-- A proper token is passed. -/
theorem Leads.advance {property : Token → Prop} (hp : p.Clean)
    (h : p.Steady → property p.current ∧ p.current.kind.isProper) :
    Leads X (X * Phrase.one property) p p.advance := by
  refine ⟨hp.advance, advance_recovering p, fun hs => ?_⟩
  obtain ⟨hproperty, hproper⟩ := h hs
  refine ⟨hs.advance, [p.current], ?_, fun before hbefore haccepted => ⟨?_, ?_⟩⟩
  · exact upcoming_advance_of_steady hs (not_atEnd_of_isProper hproper)
  · exact Language.append_mem_mul hbefore ⟨_, hproperty, rfl⟩
  · exact haccepted.append (.token hproper)

end Parser

namespace Production

/-- What a run of a production comes to behind the texts of a language: it leads to texts of another one and
yields a value of a kind, or fails. -/
inductive YieldBehind {α : Type} (X : Language Token) (p : Parser) (Y : α → Language Token)
    (Q : α → Parser → Prop) : EStateM.Result ParseError Parser α → Prop
  | ok {a : α} {q : Parser} (leads : p.Leads X (Y a) q) (value : Q a q) : YieldBehind X p Y Q (.ok a q)
  | error {e : ParseError} {q : Parser} (clean : q.Clean) (recovering : q.recovering = p.recovering) :
      YieldBehind X p Y Q (.error e q)

/-- From every parser of the kind `P`, and behind every text of `X`, a production yields values and parsers of
the kind `Q`, and leads to texts that depend on the value. -/
def YieldsBehind {α : Type} (X : Language Token) (P : Parser → Prop) (m : Production α)
    (Y : α → Language Token) (Q : α → Parser → Prop) : Prop :=
  ∀ p : Parser, p.Clean → P p → YieldBehind X p Y Q (m p)

variable {α β σ : Type} {X X' Z : Language Token} {P : Parser → Prop} {m n : Production α}
  {Y Y' : α → Language Token} {Q : α → Parser → Prop}

theorem YieldBehind.trans {p q : Parser} {r : EStateM.Result ParseError Parser α} (h : p.Leads X Z q)
    (h' : YieldBehind Z q Y Q r) : YieldBehind X p Y Q r := by
  cases h' with
  | ok hleads hvalue => exact .ok (h.trans hleads) hvalue
  | error hclean hrecovering => exact .error hclean (hrecovering.trans h.recovering)

/-! ## Behind all texts -/

theorem Yields.ofBehind (h : YieldsBehind ⊤ P m (fun _ => ⊤) Q) : Yields P m Q := by
  intro p hp hP
  have hrun := h p hp hP
  revert hrun
  generalize m p = r
  intro hrun
  cases hrun with
  | ok hleads hvalue => exact .ok hleads.passes hvalue
  | error hclean hrecovering => exact .error hclean hrecovering

namespace YieldsBehind

/-- Nothing is known of the text that a production led to. -/
theorem ofYields (h : Yields P m Q) : YieldsBehind X P m (fun _ => ⊤) Q := by
  intro p hp hP
  have hrun := h p hp hP
  revert hrun
  generalize m p = r
  intro hrun
  cases hrun with
  | ok hpasses hvalue => exact .ok hpasses.leads hvalue
  | error hclean hrecovering => exact .error hclean hrecovering

/-! ## Sequences and choices -/

theorem mono {R : α → Parser → Prop} (h : YieldsBehind X P m Y Q) (hX : X' ≤ X)
    (hY : ∀ a, Y a ≤ Y' a) (hQ : ∀ a p, Q a p → R a p) : YieldsBehind X' P m Y' R := by
  intro p hp hP
  have hrun := h p hp hP
  revert hrun
  generalize m p = r
  intro hrun
  cases hrun with
  | ok hleads hvalue => exact .ok (hleads.mono hX (hY _)) (hQ _ _ hvalue)
  | error hclean hrecovering => exact .error hclean hrecovering

/-- Behind a smaller language. -/
theorem behind (h : YieldsBehind X P m Y Q) (hX : X' ≤ X) : YieldsBehind X' P m Y Q :=
  h.mono hX (fun _ => le_rfl) fun _ _ => id

/-- A production that leads to a larger language. -/
theorem leading (h : YieldsBehind X P m Y Q) (hY : ∀ a, Y a ≤ Y' a) : YieldsBehind X P m Y' Q :=
  h.mono le_rfl hY fun _ _ => id

theorem anywhere (h : YieldsBehind X (fun _ => True) m Y Q) : YieldsBehind X P m Y Q :=
  fun p hp _ => h p hp trivial

theorem ret {a : α} (hX : X ≤ Y a) (h : ∀ p, P p → Q a p) : YieldsBehind X P (Pure.pure a) Y Q :=
  fun p hp hP => .ok ((Parser.Leads.refl hp).mono le_rfl hX) (h p hP)

theorem bind {R : α → Parser → Prop} {f : α → Production β} {V : β → Language Token}
    {S : β → Parser → Prop} (hm : YieldsBehind X P m Y R)
    (hf : ∀ a, YieldsBehind (Y a) (R a) (f a) V S) : YieldsBehind X P (m >>= f) V S := by
  intro p hp hP
  have hrun := hm p hp hP
  change YieldBehind X p V S (EStateM.bind m f p)
  rw [EStateM.bind]
  revert hrun
  generalize m p = r
  intro hrun
  cases hrun with
  | ok hleads hvalue => exact (hf _ _ hleads.clean hvalue).trans hleads
  | error hclean hrecovering => exact .error hclean hrecovering

/-- A sequence in which only the value of the first production matters. -/
theorem seq {G : α → Prop} {f : α → Production β} {V : β → Language Token} {S : β → Parser → Prop}
    (hm : YieldsBehind X P m Y fun a _ => G a)
    (hf : ∀ a, G a → YieldsBehind (Y a) (fun _ => True) (f a) V S) : YieldsBehind X P (m >>= f) V S :=
  hm.bind fun a p hp ha => hf a ha p hp trivial

theorem map {f : α → β} {V : β → Language Token} {S : β → Parser → Prop}
    (h : YieldsBehind X P m (fun a => V (f a)) fun a p => S (f a) p) :
    YieldsBehind X P (f <$> m) V S := by
  rw [map_eq_pure_bind]
  exact h.bind fun _ => .ret le_rfl fun _ => id

theorem ite {c : Prop} [Decidable c] (hthen : c → YieldsBehind X P m Y Q)
    (helse : ¬c → YieldsBehind X P n Y Q) : YieldsBehind X P (if c then m else n) Y Q := by
  by_cases hc : c
  · rw [if_pos hc]; exact hthen hc
  · rw [if_neg hc]; exact helse hc

theorem bindIf {t : Production Bool} {V : Bool → Language Token} {R : Bool → Parser → Prop}
    (ht : YieldsBehind X P t V R) (hthen : YieldsBehind (V true) (R true) m Y Q)
    (helse : YieldsBehind (V false) (R false) n Y Q) :
    YieldsBehind X P (t >>= fun x => if x = true then m else n) Y Q := by
  refine ht.bind fun x => .ite (fun hx => ?_) fun hx => ?_
  · rw [hx]; exact hthen
  · rw [Bool.not_eq_true] at hx
    rw [hx]; exact helse

/-- Nothing comes behind an error. -/
theorem expected {what : String} : YieldsBehind X P (Production.expected what : Production α) Y Q :=
  fun _ hp _ => .error hp rfl

theorem fail {cause : ParseCause} {place : Span} :
    YieldsBehind X P (Production.fail cause place : Production α) Y Q := fun _ hp _ => .error hp rfl

/-- A production that only looks at its parser. -/
theorem looks (h : Yields P m Q) (hm : ∀ p, ∃ a, m p = .ok a p) :
    YieldsBehind X P m (fun _ => X) Q := by
  intro p hp hP
  obtain ⟨a, ha⟩ := hm p
  have hrun := h p hp hP
  rw [ha] at hrun ⊢
  cases hrun with
  | ok _ hvalue => exact .ok (.refl hp) hvalue

theorem require {feature : Feature} {place : Span} :
    YieldsBehind X P (Production.require feature place) (fun _ => X) fun _ p => P p :=
  .bind (.looks .dialect fun _ => ⟨_, rfl⟩) fun _ =>
    .ite (fun _ => .ret le_rfl fun _ => id) fun _ => .fail

/-! ## Passing tokens -/

theorem pass {property : Token → Prop}
    (h : ∀ p, P p → p.Steady → property p.current ∧ p.current.kind.isProper) :
    YieldsBehind X P Production.advance (fun _ => X * Phrase.one property) fun _ _ => True :=
  fun p hp hP => .ok (.advance hp (h p hP)) trivial

theorem advance {k : TokenKind} [hk : Certain k.isProper] (h : ∀ p, P p → p.current.kind = k) :
    YieldsBehind X P Production.advance (fun _ => X * Phrase.mark k) fun _ _ => True :=
  .pass fun p hp _ => ⟨h p hp, h p hp ▸ hk.holds⟩

theorem consumeIf {t : Production Bool} {R : Bool → Parser → Prop} {property : Token → Prop}
    (ht : YieldsBehind X P t (fun _ => X) R)
    (h : ∀ p, R true p → property p.current ∧ p.current.kind.isProper) :
    YieldsBehind X P (Production.consumeIf t) (fun b => cond b (X * Phrase.one property) X)
      fun _ _ => True :=
  .bindIf ht (.bind (.pass fun p hp _ => h p hp) fun _ => .ret le_rfl fun _ => id)
    (.ret le_rfl fun _ _ => trivial)

theorem consume {k : TokenKind} [hk : Certain k.isProper] :
    YieldsBehind X P (Production.consume k) (fun b => cond b (X * Phrase.mark k) X)
      fun _ _ => True :=
  .consumeIf (.looks .check fun _ => ⟨_, rfl⟩) fun _ h => ⟨h.2 rfl, h.2 rfl ▸ hk.holds⟩

theorem consumeKeyword {word : Keyword} :
    YieldsBehind X P (Production.consumeKeyword word) (fun b => cond b (X * Phrase.word word) X)
      fun _ _ => True := consume

theorem consumeWord {word : String} :
    YieldsBehind X P (Production.consumeWord word)
      (fun b => cond b (X * Phrase.one fun t => t.isWord word) X) fun _ _ => True := by
  have ht : Yields P (Production.checkWord word)
      fun b p => b = true → p.current.isWord word :=
    .read (f := fun p => p.current.isWord word) (fun _ => rfl) fun _ _ => id
  exact .consumeIf (.looks ht fun _ => ⟨_, rfl⟩) fun _ h => ⟨h rfl, Parser.isProper_of_isWord (h rfl)⟩

theorem expectKeyword {word : Keyword} :
    YieldsBehind X P (Production.expectKeyword word) (fun _ => X * Phrase.word word)
      fun _ _ => True :=
  .bindIf .consumeKeyword (.ret le_rfl fun _ => id) .expected

/-- A keyword that may be missing. -/
theorem consumeOptional {word : Keyword} :
    YieldsBehind X P (Production.consumeKeyword word) (fun _ => X * (1 + Phrase.word word))
      fun _ _ => True := by
  refine consumeKeyword.leading fun b => ?_
  cases b with
  | false => exact Phrase.le_mul_optional
  | true => exact Phrase.mul_le_mul_optional

theorem skipKeyword {word : Keyword} :
    YieldsBehind X P (Production.skipKeyword word) (fun _ => X * (1 + Phrase.word word))
      fun _ _ => True := .map consumeOptional

theorem name : YieldsBehind X P Production.name (fun _ => X * Phrase.name) fun _ _ => True := by
  have hname : Yields P Production.atName fun b p => b = true → p.current.isName :=
    .read (f := fun p => p.current.isName) (fun _ => rfl) fun _ _ => id
  refine .bindIf (.looks hname fun _ => ⟨_, rfl⟩) (.bind (.looks .current fun _ => ⟨_, rfl⟩) fun t => ?_)
    .expected
  refine .bind (Y := fun _ => X * Phrase.name) (.pass fun p hp _ => ?_) fun _ => .ret le_rfl fun _ => id
  exact ⟨hp.1 rfl, Parser.isProper_of_isName (hp.1 rfl)⟩

/-! ## Repetition -/

/-- The language of what is passed stays the same from round to round, and so does an invariant. -/
theorem loop {I : σ → Prop} {round : σ → Production (Step σ α)} {s : σ}
    (hround : ∀ s, I s → YieldsBehind X (fun _ => True) (round s)
      (fun | .more _ => X | .done a => Y a) (Yields.Round I Q)) (h : I s) :
    YieldsBehind X P (Production.loop round s) Y Q := by
  intro p hp hP
  clear hP
  induction hn : p.remaining using Nat.strong_induction_on generalizing p s with
  | _ n ih =>
    subst hn
    have hrun := hround s h p hp trivial
    rw [Production.loop.eq_def]
    revert hrun
    generalize round s p = r
    intro hrun
    cases hrun with
    | error hclean hrecovering => exact .error hclean hrecovering
    | @ok step q hleads hvalue =>
      cases step with
      | done a => exact .ok hleads hvalue
      | more s' =>
        dsimp only
        by_cases hless : q.remaining < p.remaining
        · rw [if_pos hless]
          exact (ih _ hless hvalue q hleads.clean rfl).trans hleads
        · rw [if_neg hless]
          exact .error hleads.clean hleads.recovering

theorem many {item? : Production (Option α)} {G : α → Prop}
    (h : YieldsBehind X (fun _ => True) item? (fun _ => X) fun item _ => ∀ a ∈ item, G a) :
    YieldsBehind X P (Production.many item?) (fun _ => X) fun items _ => ∀ a ∈ items, G a := by
  refine .loop (I := fun items => ∀ a ∈ items, G a) (fun items hitems => .bind h fun item => ?_) nofun
  cases item with
  | none => exact .ret le_rfl fun _ _ a ha => hitems a (List.mem_reverse.1 ha)
  | some a => exact .ret le_rfl fun _ ha => List.forall_mem_cons.2 ⟨ha a rfl, hitems⟩

/-- Each item leads to the same language, also behind a comma. -/
theorem list {item : Production α} {G : α → Prop}
    (h : YieldsBehind X P item (fun _ => Z) fun a _ => G a)
    (hnext : YieldsBehind (Z * Phrase.mark .comma) (fun _ => True) item (fun _ => Z) fun a _ => G a) :
    YieldsBehind X P (Production.list item) (fun _ => Z) fun items _ => items ≠ [] ∧ ∀ a ∈ items, G a := by
  have hsome : YieldsBehind (Z * Phrase.mark .comma) (fun _ => True) (some <$> item) (fun _ => Z)
      fun item _ => ∀ a ∈ item, G a :=
    .map (hnext.mono le_rfl (fun _ => le_rfl) fun _ _ ha _ hb => Option.mem_some_iff.1 hb ▸ ha)
  have hnone : YieldsBehind Z (fun _ => True) (Pure.pure none) (fun _ => Z)
      fun item _ => ∀ a ∈ item, G a := .ret le_rfl fun _ _ _ ha => (Option.not_mem_none _ ha).elim
  refine .seq h fun first hfirst => .seq (G := fun rest => ∀ a ∈ rest, G a) (.many ?_) fun rest hrest => ?_
  · exact .bindIf .consume hsome.anywhere hnone.anywhere
  · exact .ret le_rfl fun _ _ => ⟨List.cons_ne_nil _ _, List.forall_mem_cons.2 ⟨hfirst, hrest⟩⟩

end YieldsBehind

/-! ## Groups that are skipped -/

/-- A round of the skipping of a group: one token is passed, and the number of open parentheses
changes. -/
def skipRound (depth : ℕ) : Production (Step ℕ Unit) := do
  match ← kind with
  | .eof => expected ")"
  | .leftParen => advance; return .more (depth + 1)
  | .rightParen => advance; return if depth = 0 then .done () else .more (depth - 1)
  | _ => advance; return .more depth

/-- What a round comes to at a token, depending on the number of open parentheses. -/
def skipped (depth : ℕ) : TokenKind → Step ℕ Unit
  | .leftParen => .more (depth + 1)
  | .rightParen => if depth = 0 then .done () else .more (depth - 1)
  | _ => .more depth

theorem skipRound_of_eof {p : Parser} (h : p.current.kind = .eof) (depth : ℕ) :
    skipRound depth p = .error (p.expectedError ")") p := by
  simp [skipRound, h]

theorem skipRound_of_ne {p : Parser} (h : p.current.kind ≠ .eof) (depth : ℕ) :
    skipRound depth p = .ok (skipped depth p.current.kind) p.advance := by
  cases hk : p.current.kind <;> first | exact absurd hk h | simp [skipRound, skipped, hk]

theorem eq_of_skipped_done {depth : ℕ} {k : TokenKind} {a : Unit} (h : skipped depth k = .done a) :
    k = .rightParen := by
  unfold skipped at h
  split at h <;> first | rfl | cases h

theorem run_skipParens (p : Parser) :
    skipParens p = match expect .leftParen p with
      | .ok _ q => loop skipRound 0 q
      | .error e q => .error e q := by
  have hskip (rest : Production Unit) : (expect .leftParen >>= fun _ => rest) p =
      match expect .leftParen p with
        | .ok _ q => rest q
        | .error e q => .error e q := by
    rw [run_bind]
    cases expect .leftParen p <;> rfl
  exact hskip (loop skipRound 0)

/-- The way to the end of a group, which passes what is enclosed in it. -/
structure Encloses (depth : ℕ) (p q : Parser) : Prop where
  clean : q.Clean
  recovering : q.recovering = p.recovering
  tokens : p.Steady → q.Steady ∧ ∃ inner, Enclosed depth inner ∧ p.upcoming = inner ++ q.upcoming

/-- The tokens of a group behind the first one. -/
theorem Encloses.behind {depth depth' : ℕ} {p q : Parser} (h : Encloses depth' p.advance q)
    (hend : p.current.kind ≠ .eof)
    (htoken : ∀ ts, Enclosed depth' ts → Enclosed depth (p.current :: ts)) :
    Encloses depth p q := by
  refine ⟨h.clean, h.recovering.trans (Parser.advance_recovering p), fun hs => ?_⟩
  obtain ⟨hsteady, inner, hinner, heq⟩ := h.tokens hs.advance
  refine ⟨hsteady, p.current :: inner, htoken inner hinner, ?_⟩
  rw [Parser.upcoming_advance_of_steady hs (by simpa [Parser.atEnd, Token.isEof] using hend), heq]
  rfl

/-- What the skipping of a group comes to. -/
inductive Skip (depth : ℕ) (p : Parser) : EStateM.Result ParseError Parser Unit → Prop
  | ok {q : Parser} (encloses : Encloses depth p q) : Skip depth p (.ok () q)
  | error {e : ParseError} {q : Parser} (clean : q.Clean) (recovering : q.recovering = p.recovering) :
      Skip depth p (.error e q)

theorem Skip.behind {depth depth' : ℕ} {p : Parser} {r : EStateM.Result ParseError Parser Unit}
    (h : Skip depth' p.advance r) (hend : p.current.kind ≠ .eof)
    (htoken : ∀ ts, Enclosed depth' ts → Enclosed depth (p.current :: ts)) : Skip depth p r := by
  cases h with
  | ok hencloses => exact .ok (hencloses.behind hend htoken)
  | error hclean hrecovering =>
    exact .error hclean (hrecovering.trans (Parser.advance_recovering p))

/-- The rounds of the skipping lead to the parenthesis that closes the group. -/
theorem loop_skipRound (depth : ℕ) {p : Parser} (hp : p.Clean) :
    Skip depth p (loop skipRound depth p) := by
  induction hn : p.remaining using Nat.strong_induction_on generalizing p depth with
  | _ n ih =>
    subst hn
    have hmore (depth' : ℕ) (hround : skipRound depth p = .ok (.more depth') p.advance)
        (hend : p.current.kind ≠ .eof)
        (htoken : ∀ ts, Enclosed depth' ts → Enclosed depth (p.current :: ts)) :
        Skip depth p (loop skipRound depth p) := by
      rw [loop.eq_def, hround]
      dsimp only
      by_cases hless : p.advance.remaining < p.remaining
      · rw [if_pos hless]
        exact (ih _ hless depth' hp.advance rfl).behind hend htoken
      · rw [if_neg hless]
        exact .error hp.advance (Parser.advance_recovering p)
    cases hk : p.current.kind with
    | eof =>
      have hround : skipRound depth p = .error (p.expectedError ")") p := by simp [skipRound, hk]
      rw [loop.eq_def, hround]
      exact .error hp rfl
    | leftParen =>
      refine hmore (depth + 1) ?_ (by simp [hk]) fun ts hts => .opening hk hts
      simp [skipRound, hk]
    | rightParen =>
      cases depth with
      | zero =>
        have hround : skipRound 0 p = .ok (.done ()) p.advance := by simp [skipRound, hk]
        rw [run_loop_done hround]
        refine .ok ⟨hp.advance, Parser.advance_recovering p, fun hs => ?_⟩
        refine ⟨hs.advance, [p.current], .last hk, ?_⟩
        exact Parser.upcoming_advance_of_steady hs (by simp [Parser.atEnd, Token.isEof, hk])
      | succ depth =>
        refine hmore depth ?_ (by simp [hk]) fun ts hts => .closing hk hts
        simp [skipRound, hk]
    | _ =>
      refine hmore depth ?_ (by simp [hk]) fun ts hts =>
        .other (by simp [hk]) (by simp [hk]) (by simp [hk]) hts
      simp [skipRound, hk]

/-- A text in parentheses is skipped as a whole, whatever tokens are in it. -/
theorem YieldsBehind.skipParens (hX : X ≤ ⊤ * Phrase.skipHead) :
    YieldsBehind X P Production.skipParens (fun _ => X * Phrase.group) fun _ _ => True := by
  intro p hp _
  rw [run_skipParens, run_expect]
  by_cases hk : p.current.kind = .leftParen
  · rw [if_pos hk]
    dsimp only
    have hskip := loop_skipRound 0 hp.advance
    revert hskip
    generalize Production.loop skipRound 0 p.advance = r
    intro hskip
    cases hskip with
    | @ok q hencloses =>
      refine .ok ⟨hencloses.clean, hencloses.recovering.trans (Parser.advance_recovering p),
        fun hs => ?_⟩ trivial
      obtain ⟨hsteady, inner, hinner, heq⟩ := hencloses.tokens hs.advance
      have hgroup : p.current :: inner ∈ Phrase.group :=
        Language.append_mem_mul (a := [p.current]) ⟨_, hk, rfl⟩ hinner
      refine ⟨hsteady, p.current :: inner, ?_, fun before hbefore haccepted => ⟨?_, ?_⟩⟩
      · rw [Parser.upcoming_advance_of_steady hs (by simp [Parser.atEnd, Token.isEof, hk]), heq]
        rfl
      · exact Language.append_mem_mul hbefore hgroup
      · exact haccepted.group (hX hbefore) hgroup
    | error hclean hrecovering =>
      exact .error hclean (hrecovering.trans (Parser.advance_recovering p))
  · rw [if_neg hk]
    exact .error hp rfl

end Production

end SqlFrontend
