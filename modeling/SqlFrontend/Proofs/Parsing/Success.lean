import SqlFrontend.Proofs.Parsing.Pieces

/-!
# Runs that succeed

What a production gives tells how it was read.

Results:
* `Production.ok_of_inParens`, `ok_of_list`, `ok_of_loop`: the parts of a run that succeeds.
* `Production.Gives`: whatever a production gives is of a kind, wherever it starts.
-/

namespace SqlFrontend.Production

variable {α β σ : Type} {m n : Production α} {p r : Parser} {a : α} {b : β}

/-! ## The parts of a run -/

theorem ok_of_inParens (h : inParens m p = .ok a r) :
    ∃ q s, expect .leftParen p = .ok () q ∧ m q = .ok a s ∧ expect .rightParen s = .ok () r := by
  obtain ⟨_, q, hopen, h⟩ := ok_of_bind h
  obtain ⟨x, s, hm, h⟩ := ok_of_bind h
  obtain ⟨_, _, hclose, h⟩ := ok_of_bind h
  cases h
  exact ⟨q, s, hopen, hm, hclose⟩

/-- The first of the items of a list is the one that is read first. -/
theorem ok_of_list {items : List α} (h : list m p = .ok items r) :
    ∃ x rest q, items = x :: rest ∧ m p = .ok x q := by
  obtain ⟨x, q, hm, h⟩ := ok_of_bind h
  obtain ⟨rest, _, _, h⟩ := ok_of_bind h
  cases h
  exact ⟨x, rest, q, rfl, hm⟩

/-- What every round of a loop keeps is kept until the round that is done. -/
theorem ok_of_loop {I : σ → Parser → Prop} {round : σ → Production (Step σ α)} {s : σ}
    (h : loop round s p = .ok a r) (hs : I s p)
    (hround : ∀ s p s' q, I s p → round s p = .ok (.more s') q → I s' q) :
    ∃ s q, I s q ∧ round s q = .ok (.done a) r := by
  fun_induction loop round s p with
  | case1 s p value q hdone =>
    cases h
    exact ⟨s, p, hs, hdone⟩
  | case2 s p s' q hmore hless ih => exact ih h (hround s p s' q hs hmore)
  | case3 => cases h
  | case4 => cases h

/-- A run whose first part is known from the pieces ahead. -/
theorem ParsesIn.ok_of_bind {d? : Option Dialect} {ps qs : List Piece} {f : α → Production β}
    (hm : ParsesIn d? m ps a qs) (hp : p.Ahead ps) (hd : ∀ d ∈ d?, p.dialect = d)
    (h : (m >>= f) p = .ok b r) : ∃ q, f a q = .ok b r ∧ q.Ahead qs ∧ p.Reaches q := by
  obtain ⟨q, hq, hqs, -, hreaches⟩ := hm p hp hd
  rw [run_bind, hq] at h
  exact ⟨q, h, hqs, hreaches⟩

/-- The same where the dialect does not count. -/
theorem Parses.ok_of_bind {ps qs : List Piece} {f : α → Production β} (hm : Parses m ps a qs)
    (hp : p.Ahead ps) (h : (m >>= f) p = .ok b r) : ∃ q, f a q = .ok b r ∧ q.Ahead qs ∧ p.Reaches q :=
  ParsesIn.ok_of_bind hm hp (by simp) h

theorem run_many_none {item? : Production (Option α)} (h : item? p = .ok none p) :
    many item? p = .ok [] p := by
  refine run_loop_done ?_
  rw [run_bind, h]
  rfl

/-! ## What is given -/

/-- Whatever a production gives is of a kind. -/
def Gives (m : Production α) (Q : α → Prop) : Prop := ∀ p a q, m p = .ok a q → Q a

namespace Gives

variable {Q : α → Prop} {R : β → Prop}

theorem any : Gives m fun _ => True := fun _ _ _ _ => trivial

theorem ret (h : Q a) : Gives (Pure.pure a) Q := by
  intro p x q hx
  cases hx
  exact h

theorem bind {f : α → Production β} (hm : Gives m Q) (hf : ∀ a, Q a → Gives (f a) R) :
    Gives (m >>= f) R := by
  intro p b r h
  obtain ⟨a, q, ha, hb⟩ := ok_of_bind h
  exact hf a (hm p a q ha) q b r hb

/-- What is given first does not count. -/
theorem after {f : α → Production β} (hf : ∀ a, Gives (f a) R) : Gives (m >>= f) R :=
  bind any fun a _ => hf a

theorem map {f : α → β} (hm : Gives m fun a => R (f a)) : Gives (f <$> m) R := by
  intro p b r h
  obtain ⟨a, ha, rfl⟩ := ok_of_map h
  exact hm p a r ha

theorem ite {c : Prop} [Decidable c] (hthen : c → Gives m Q) (helse : ¬c → Gives n Q) :
    Gives (if c then m else n) Q := by
  by_cases hc : c
  · rw [if_pos hc]; exact hthen hc
  · rw [if_neg hc]; exact helse hc

theorem expected {what : String} : Gives (Production.expected what : Production α) Q := by
  intro p a q h
  cases h

theorem expectedThen {what : String} {f : α → Production β} :
    Gives ((Production.expected what : Production α) >>= f) R := by
  intro p b q h
  cases h

theorem bindIf {test : Production Bool} (hthen : Gives m Q) (helse : Gives n Q) :
    Gives (test >>= fun x => if x then m else n) Q :=
  .after fun _ => .ite (fun _ => hthen) fun _ => helse

theorem inParens (hm : Gives m Q) : Gives (Production.inParens m) Q := by
  intro p a r h
  obtain ⟨q, s, -, ha, -⟩ := ok_of_inParens h
  exact hm q a s ha

theorem many {item? : Production (Option α)} (h : Gives item? fun item => ∀ x ∈ item, Q x) :
    Gives (Production.many item?) fun items => ∀ x ∈ items, Q x := by
  intro p items r hmany
  obtain ⟨before, q, hbefore, hdone⟩ := ok_of_loop (I := fun before _ => ∀ x ∈ before, Q x) hmany
    (List.forall_mem_nil _) fun before p before' q hbefore hmore => by
      obtain ⟨item, _, hitem, hmore⟩ := ok_of_bind hmore
      cases item with
      | none => cases hmore
      | some x =>
        cases hmore
        exact List.forall_mem_cons.2 ⟨h _ _ _ hitem x rfl, hbefore⟩
  obtain ⟨item, _, -, hdone⟩ := ok_of_bind hdone
  cases item with
  | some x => cases hdone
  | none =>
    cases hdone
    exact fun x hx => hbefore x (List.mem_reverse.1 hx)

theorem fail {cause : ParseCause} {place : Span} : Gives (Production.fail cause place : Production α) Q := by
  intro p a q h
  cases h

end Gives

end SqlFrontend.Production
