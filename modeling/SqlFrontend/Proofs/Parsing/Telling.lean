import SqlFrontend.Proofs.Parsing.Following
import SqlFrontend.Proofs.Parsing.Success

/-!
# Productions that tell texts apart

Some productions look at what follows and read something else before other texts. Such a production does
not follow, but what it reads tells the texts apart.

Results:
* `Junction.Tells`: a production reads the same from the longer text as from the shorter one, or it reads
  something that differs.
* `Tells.bind`: what was told apart stays apart, if what is read in the end shows what was read first.
* `Tells.many`, `Tells.list`: repetition. The first items that differ make lists that differ.
-/

namespace SqlFrontend

namespace Production

variable {α : Type}

/-- A round of a repetition. -/
def collect (item? : Production (Option α)) (items : List α) : Production (Step (List α) (List α)) := do
  match ← item? with
  | some item => return .more (item :: items)
  | none => return .done items.reverse

theorem many_eq_collect (item? : Production (Option α)) : many item? = loop (collect item?) [] := rfl

/-- Items that were collected stay at the front of the list. -/
theorem ok_of_collect {item? : Production (Option α)} {items found : List α} {p r : Parser}
    (h : loop (collect item?) items p = .ok found r) : ∃ others, found = items.reverse ++ others := by
  obtain ⟨last, q, ⟨others, hothers⟩, hdone⟩ := ok_of_loop
    (I := fun found _ => ∃ others, found.reverse = items.reverse ++ others) h ⟨[], (List.append_nil _).symm⟩
    fun before _ before' _ ⟨others, hothers⟩ hmore => by
      obtain ⟨item, _, -, hmore⟩ := ok_of_bind hmore
      cases item with
      | none => cases hmore
      | some item =>
        cases hmore
        exact ⟨others ++ [item], by rw [List.reverse_cons, hothers, List.append_assoc]⟩
  obtain ⟨item, _, -, hdone⟩ := ok_of_bind hdone
  cases item with
  | some item => cases hdone
  | none =>
    cases hdone
    exact ⟨others, hothers⟩

theorem run_collect {item? : Production (Option α)} {items : List α} {p q : Parser} {item : Option α}
    (h : item? p = .ok item q) :
    collect item? items p = .ok (item.elim (.done items.reverse) fun item => .more (item :: items)) q := by
  rw [collect, run_bind, h]
  cases item <;> rfl

/-- The first item that is found, or that none is, shows in the list. -/
theorem ok_of_collect_cons {item? : Production (Option α)} {items found : List α} {p r : Parser}
    (h : loop (collect item?) items p = .ok found r) :
    ∃ item q, item? p = .ok item q ∧ (found.drop items.length).head? = item := by
  rw [loop.eq_def] at h
  cases hitem : item? p with
  | error e q => simp [collect, hitem] at h
  | ok item q =>
    refine ⟨item, q, rfl, ?_⟩
    rw [run_collect hitem] at h
    cases item with
    | none =>
      cases h
      rw [← List.length_reverse, List.drop_length]
      rfl
    | some item =>
      dsimp only [Option.elim] at h
      split at h
      · obtain ⟨others, rfl⟩ := ok_of_collect h
        rw [List.reverse_cons, List.append_assoc, ← List.length_reverse, List.drop_left]
        rfl
      · cases h

end Production

namespace Junction

/-- What follows starts with a name in the longer text only. -/
def Named (J : Junction) : Prop := J.there.isName ∧ ¬J.here.isName

/-- What a production gives at a parser of the shorter text is given at one of the longer text as well, or
what is given there differs since it takes the name that follows, unless the production goes past what the
texts have in common or stops with something else to be said about the end. -/
def Tells {α : Type} (J : Junction) (E : α → Parser → Prop) (D : α → α → Prop) (s : Spot)
    (m : Production α) : Prop :=
  ∀ p q, J.Stands s p q → ∀ a p', m p = .ok a p' → ¬E a p' →
    p.Reaches p' ∧ (J.Past p' ∨ ∃ y, (∃ xs, J.At xs p' y) ∧
      (m q = .ok a y ∧ q.Reaches y ∨ J.Named ∧ ∀ b q', m q = .ok b q' → D a b))

variable {J : Junction} {s : Spot} {α β γ : Type} {m m' : Production α} {f : α → Production β}
  {E : α → Parser → Prop} {E' : β → Parser → Prop} {D : α → α → Prop} {D' : β → β → Prop}

/-- What follows tells nothing apart. -/
theorem FollowsUnless.tells (h : ∀ n, J.FollowsUnless E s n m) : J.Tells E D s m := by
  intro p q hpq a p' heq hend
  obtain ⟨hreaches, hto⟩ := h _ p q hpq (Nat.lt_succ_self _) a p' heq hend
  exact ⟨hreaches, hto.imp_right fun ⟨q', hq', hqq', hat⟩ => ⟨q', hat, .inl ⟨hq', hqq'⟩⟩⟩

theorem Follows.tells (h : ∀ n, J.Follows s n m) : J.Tells E D s m :=
  FollowsUnless.tells fun n => (h n).anyway

namespace Tells

/-- Where no name follows in the longer text only, nothing is told apart. -/
theorem follows (h : J.Tells E D s m) (hnamed : ¬J.Named) (n : ℕ) : J.FollowsUnless E s n m := by
  intro p q hpq _ a p' heq hend
  obtain ⟨hreaches, hto⟩ := h p q hpq a p' heq hend
  refine ⟨hreaches, hto.imp_right ?_⟩
  rintro ⟨y, hat, ⟨hy, hqy⟩ | ⟨hnames, -⟩⟩
  · exact ⟨y, hy, hqy, hat⟩
  · exact absurd hnames hnamed

/-! ## Sequences and choices -/

/-- What was told apart stays apart if it shows in what is read in the end. -/
theorem bind (hm : J.Tells E D s m) (hf : ∀ a, J.Tells E' D' .any (f a))
    (hE : ∀ a p b p', E a p → f a p = .ok b p' → E' b p')
    (hD : ∀ a a' p q b p' b' q', D a a' → f a p = .ok b p' → f a' q = .ok b' q' → D' b b') :
    J.Tells E' D' s (m >>= f) := by
  intro p q hpq b p' heq hend
  obtain ⟨a, x, hmp, heq⟩ := Production.ok_of_bind heq
  obtain ⟨hx, hto⟩ := hm p q hpq a x hmp fun hstop => hend (hE a x b p' hstop heq)
  rcases hto with hpast | ⟨y, ⟨xs, hat⟩, hto⟩
  · obtain ⟨hx', -⟩ := hf a x x (.inl hpast) b p' heq hend
    exact ⟨hx.trans hx', .inl (hpast.reaches hx')⟩
  obtain ⟨hx', hto'⟩ := hf a x y (.inr ⟨xs, hat⟩) b p' heq hend
  refine ⟨hx.trans hx', hto'.imp_right fun ⟨z, hz, hto'⟩ => ⟨z, hz, ?_⟩⟩
  rcases hto with ⟨hy, hqy⟩ | ⟨hnames, hapart⟩
  · rw [Production.run_bind, hy]
    exact hto'.imp_left (And.imp_right hqy.trans)
  · refine .inr ⟨hnames, fun b' q' hq' => ?_⟩
    obtain ⟨a', y', hmq, hq'⟩ := Production.ok_of_bind hq'
    exact hD a a' x y' b p' b' q' (hapart a' y' hmq) heq hq'

/-- Behind a production that follows, only what comes then tells texts apart. -/
theorem thenTells (hm : ∀ n, J.Follows s n m) (hf : ∀ a, J.Tells E' D' .any (f a)) :
    J.Tells E' D' s (m >>= f) :=
  bind (E := fun _ _ => False) (D := fun _ _ => False) (Follows.tells hm) hf
    (fun _ _ _ _ h => h.elim) fun _ _ _ _ _ _ _ _ h => h.elim

/-- What is told apart is told by what is made of it, if that shows it. -/
theorem map {g : α → β} (hg : Function.Injective g) (hm : J.Tells (fun _ _ => False) (· ≠ ·) s m) :
    J.Tells E' (· ≠ ·) s (g <$> m) := by
  rw [map_eq_pure_bind]
  refine hm.bind (fun a => Follows.tells fun n => .ret) (fun _ _ _ _ h => h.elim) ?_
  intro a a' p q b p' b' q' hne hb hb' hbb'
  cases hb
  cases hb'
  exact hne (hg hbb')

/-- What is read of two parsers has to lead to the same production. -/
theorem bindRead {t : Production γ} {g : Parser → γ} {f : γ → Production β}
    (ht : ∀ p, t p = .ok (g p) p) (hg : ∀ xs p q, J.At xs p q → J.Stands s p q → f (g p) = f (g q))
    (h : ∀ y, J.Tells E' D' s (f y)) : J.Tells E' D' s (t >>= f) := by
  intro p q hpq b p' heq hend
  have hrun (x : Parser) : (t >>= f) x = f (g x) x := by rw [Production.run_bind, ht]
  rw [hrun] at heq
  rw [hrun]
  obtain ⟨hreaches, hto⟩ := h (g p) p q hpq b p' heq hend
  refine ⟨hreaches, ?_⟩
  rcases hpq.near with hpast | ⟨xs, hat⟩
  · exact .inl (hpast.reaches hreaches)
  · rw [← hg xs p q hat hpq]
    exact hto

/-- Before a token in common, what is read of the current token is the same. -/
theorem bindTestInside {t : Production γ} {g : Token → γ} {f : γ → Production β}
    (ht : ∀ p, t p = .ok (g p.current) p) (h : ∀ y, J.Tells E' D' .inside (f y)) :
    J.Tells E' D' .inside (t >>= f) := by
  refine bindRead (g := fun p => g p.current) ht (fun xs p q hat hpq => ?_) h
  rcases hpq with hpast | ⟨x, xs, hat'⟩
  · have := hpast.length
    rw [hat.left.upcoming, List.length_append] at this
    omega
  · rw [hat'.current.1, hat'.current.2]

theorem ite {c : Prop} [Decidable c] (hthen : c → J.Tells E D s m) (helse : ¬c → J.Tells E D s m') :
    J.Tells E D s (if c then m else m') := by
  split
  · exact hthen ‹_›
  · exact helse ‹_›

/-- Before what follows, a production that uses up text goes past what is in common. -/
theorem ofStrict (hm : ∀ b, (Likeness.junction J).Lockstep b .start m m fun _ => .moved)
    (h : J.Tells E D .inside m) : J.Tells E D .any m := by
  intro p q hpq a p' heq hend
  rcases hpq.near with hpast | ⟨xs, hat⟩
  · exact h p q (.inl hpast) a p' heq hend
  cases xs with
  | cons x xs => exact h p q (.inr ⟨x, xs, hat⟩) a p' heq hend
  | nil =>
    obtain ⟨y, hsees⟩ := hpq.sees
    obtain ⟨hreaches, _, hmoved⟩ := reaches_of_lockstep (hm (p, y)) ⟨.refl p, .refl y⟩ hsees heq
    exact ⟨hreaches, .inl (hat.past hmoved.1 hreaches)⟩

/-! ## Repetition -/

variable {E : List α → Parser → Prop}

/-- The first item that differs is still found in the list. The induction is on what is left. -/
theorem collect {item? : Production (Option α)} (h : J.Tells (fun _ _ => False) (· ≠ ·) .any item?)
    (items : List α) : J.Tells E (· ≠ ·) .any (Production.loop (Production.collect item?) items) := by
  intro p q hpq found p' heq hend
  induction hk : p.remaining using Nat.strong_induction_on generalizing p q items with
  | _ k ih =>
    subst hk
    obtain ⟨item, x, hitem, hfirst⟩ := Production.ok_of_collect_cons heq
    have hapart (hitems : ∀ other z, item? q = .ok other z → item ≠ other) :
        ∀ found' q', Production.loop (Production.collect item?) items q = .ok found' q' →
          found ≠ found' := by
      rintro found' q' heq' rfl
      obtain ⟨other, z, hother, hfirst'⟩ := Production.ok_of_collect_cons heq'
      exact hitems other z hother (hfirst.symm.trans hfirst')
    obtain ⟨hx, hto⟩ := h p q hpq item x hitem id
    rw [Production.loop.eq_def, Production.run_collect hitem] at heq
    cases item with
    | none =>
      cases heq
      refine ⟨hx, hto.imp_right ?_⟩
      rintro ⟨y, hat, hto⟩
      refine ⟨y, hat, hto.imp ?_ (And.imp_right hapart)⟩
      rintro ⟨hy, hqy⟩
      exact ⟨Production.run_loop_done (Production.run_collect hy), hqy⟩
    | some item =>
      dsimp only [Option.elim] at heq
      split at heq
      swap
      · cases heq
      next hfewer =>
      rcases hto with hpast | ⟨y, ⟨xs, hat⟩, hto⟩
      · obtain ⟨hothers, -⟩ := ih _ hfewer (item :: items) x x (.inl hpast) heq rfl
        exact ⟨hx.trans hothers, .inl (hpast.reaches hothers)⟩
      obtain ⟨hothers, hto'⟩ := ih _ hfewer (item :: items) x y (.inr ⟨xs, hat⟩) heq rfl
      refine ⟨hx.trans hothers, hto'.imp_right ?_⟩
      rintro ⟨z, hz, hto'⟩
      refine ⟨z, hz, ?_⟩
      rcases hto with ⟨hy, hqy⟩ | ⟨hnames, hitems⟩
      · rw [Production.run_loop_more (Production.run_collect hy) (fewer_of_at hpq hx hfewer hqy hat)]
        exact hto'.imp_left (And.imp_right hqy.trans)
      · exact .inr ⟨hnames, hapart hitems⟩

theorem many {item? : Production (Option α)} (h : J.Tells (fun _ _ => False) (· ≠ ·) .any item?) :
    J.Tells E (· ≠ ·) .any (Production.many item?) := collect h []

theorem list {item : Production α} (hcomma : J.Lacks .comma)
    (h : J.Tells (fun _ _ => False) (· ≠ ·) .any item) :
    J.Tells E (· ≠ ·) .any (Production.list item) := by
  have hothers : J.Tells (fun _ _ => False) (· ≠ ·) .any (Production.many do
      if ← Production.consume .comma then some <$> item else return none) := by
    refine many (thenTells (fun _ => Follows.consume hcomma) fun found => ?_)
    cases found with
    | false => exact Follows.tells fun _ => .ret
    | true => exact h.map fun _ _ h => Option.some.inj h
  refine h.bind (fun first => hothers.bind (fun others => Follows.tells fun _ => .ret)
    (fun _ _ _ _ h => h.elim) ?_) (fun _ _ _ _ h => h.elim) ?_
  · intro others others' p q found p' found' q' hne hfound hfound' heq
    cases hfound
    cases hfound'
    exact hne (List.cons.inj heq).2
  · intro first first' p q found p' found' q' hne hfound hfound' heq
    obtain ⟨others, x, -, hfound⟩ := Production.ok_of_bind hfound
    obtain ⟨others', x', -, hfound'⟩ := Production.ok_of_bind hfound'
    cases hfound
    cases hfound'
    exact hne (List.cons.inj heq).1

end Tells

end Junction

end SqlFrontend
