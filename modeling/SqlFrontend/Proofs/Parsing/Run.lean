import SqlFrontend.Parsing.Production

/-!
# Running productions

What productions do at a given parser, as equations. They run a production step by step where the
tokens at hand are known.

Results:
* `Production.run_bind`, `Production.run_map` and others: one equation for each way to build a production.
* `Production.ok_of_bind`, `Production.ok_of_map`: the parts of a run that succeeds.
-/

namespace SqlFrontend.Production

variable {α β σ : Type} {m : Production α} {b : β} {p r : Parser}

/-! ## Sequences -/

@[simp] theorem run_pure (a : α) : (Pure.pure a : Production α) p = .ok a p := rfl

@[simp] theorem run_bind (m : Production α) (f : α → Production β) :
    (m >>= f) p = match m p with
      | .ok a q => f a q
      | .error e q => .error e q := by
  change EStateM.bind m f p = _
  rw [EStateM.bind]
  cases m p <;> rfl

@[simp] theorem run_map (f : α → β) (m : Production α) :
    (f <$> m) p = match m p with
      | .ok a q => .ok (f a) q
      | .error e q => .error e q := by
  rw [map_eq_pure_bind, run_bind]
  cases m p <;> rfl

@[simp] theorem run_discard (m : Production α) :
    (Functor.discard m) p = match m p with
      | .ok _ q => .ok () q
      | .error e q => .error e q := run_map _ m

@[simp] theorem run_ite (c : Prop) [Decidable c] (m n : Production α) :
    (if c then m else n) p = if c then m p else n p := by
  split <;> rfl

@[simp] theorem run_expected (what : String) :
    (expected what : Production α) p = .error (p.expectedError what) p := rfl

theorem ok_of_bind {f : α → Production β} (h : (m >>= f) p = .ok b r) :
    ∃ a q, m p = .ok a q ∧ f a q = .ok b r := by
  rw [run_bind] at h
  split at h
  · next a q hm => exact ⟨a, q, hm, h⟩
  · cases h

theorem ok_of_map {f : α → β} (h : (f <$> m) p = .ok b r) : ∃ a, m p = .ok a r ∧ f a = b := by
  rw [map_eq_pure_bind] at h
  obtain ⟨a, q, hm, hf⟩ := ok_of_bind h
  cases hf
  exact ⟨a, hm, rfl⟩

/-! ## Looking at the tokens at hand -/

@[simp] theorem run_get : (MonadState.get : Production Parser) p = .ok p p := rfl

@[simp] theorem run_current : current p = .ok p.current p := rfl

@[simp] theorem run_kind : kind p = .ok p.current.kind p := rfl

@[simp] theorem run_peekKind : peekKind p = .ok p.peek.kind p := rfl

@[simp] theorem run_span : span p = .ok p.current.span p := rfl

@[simp] theorem run_dialect : dialect p = .ok p.dialect p := rfl

@[simp] theorem run_check (k : TokenKind) : check k p = .ok (p.current.kind == k) p := rfl

@[simp] theorem run_checkPeek (k : TokenKind) : checkPeek k p = .ok (p.peek.kind == k) p := rfl

@[simp] theorem run_checkKeyword (word : Keyword) :
    checkKeyword word p = .ok (p.current.kind == .keyword word) p := rfl

@[simp] theorem run_peekKeyword (word : Keyword) :
    peekKeyword word p = .ok (p.peek.kind == .keyword word) p := rfl

@[simp] theorem run_checkKeywords (first second : Keyword) :
    checkKeywords first second p =
      .ok (p.current.kind == .keyword first && p.peek.kind == .keyword second) p := by
  simp only [checkKeywords, run_bind, run_checkKeyword, run_ite, run_peekKeyword, run_pure]
  cases p.current.kind == .keyword first <;> rfl

@[simp] theorem run_atName : atName p = .ok p.current.isName p := rfl

@[simp] theorem run_atTerminator : atTerminator p = .ok p.atTerminator p := rfl

/-! ## Going on -/

@[simp] theorem run_advance : advance p = .ok () p.advance := rfl

@[simp] theorem run_takeLiteral : takeLiteral p = .ok p.current.literal p.advance := rfl

@[simp] theorem run_consume (k : TokenKind) :
    consume k p = if p.current.kind = k then .ok true p.advance else .ok false p := by
  by_cases h : p.current.kind = k <;> simp [consume, consumeIf, h]

@[simp] theorem run_consumeKeyword (word : Keyword) :
    consumeKeyword word p =
      if p.current.kind = .keyword word then .ok true p.advance else .ok false p :=
  run_consume (.keyword word)

@[simp] theorem run_skipKeyword (word : Keyword) :
    skipKeyword word p = .ok () (if p.current.kind = .keyword word then p.advance else p) := by
  by_cases h : p.current.kind = .keyword word <;> simp [skipKeyword, h]

@[simp] theorem run_expect (k : TokenKind) :
    expect k p = if p.current.kind = k then .ok () p.advance
      else .error (p.expectedError k.describe) p := by
  by_cases h : p.current.kind = k <;> simp [expect, h]

@[simp] theorem run_expectKeyword (word : Keyword) :
    expectKeyword word p = if p.current.kind = .keyword word then .ok () p.advance
      else .error (p.expectedError word.spelling) p := by
  by_cases h : p.current.kind = .keyword word <;> simp [expectKeyword, h]

/-! ## Loops -/

/-- A round that is not done goes on if it used up text. -/
theorem run_loop_more {round : σ → Production (Step σ α)} {s s' : σ} {q : Parser}
    (h : round s p = .ok (.more s') q) (hless : q.remaining < p.remaining) :
    loop round s p = loop round s' q := by
  rw [loop.eq_def, h]
  exact if_pos hless

theorem run_loop_done {round : σ → Production (Step σ α)} {s : σ} {a : α} {q : Parser}
    (h : round s p = .ok (.done a) q) : loop round s p = .ok a q := by
  rw [loop.eq_def, h]

end SqlFrontend.Production
