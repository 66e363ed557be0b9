import SqlFrontend.Proofs.Kinship.Statement
import SqlFrontend.Proofs.Lexing.Separator
import SqlFrontend.Proofs.Session.Acceptance
import SqlFrontend.Proofs.Session.Suffix

/-!
# Batches are read apart

In SQL Server a line with the word `GO` ends a batch. Two texts with that line between them are read as
each of them alone, where the first one is read without an error, unless its last statement takes the
word for a name.

* `Parser.Batched`, `Kinship.batch`: parsers of a text and of two batches that start with it, and what
  productions preserve of them.
* `Batched.statement`, `Batched.results`: a statement of the first batch, and all of them.
* `Parser.results_of_batches`: a whole run over two batches.
-/

namespace SqlFrontend

open Lexer (batchTail batches separator tokenize)

/-- The kind of the last token before the end of a text. -/
def lastKind : List Token → TokenKind
  | t :: u :: rest => if u.isEof then t.kind else lastKind (u :: rest)
  | _ => .eof

/-- The place of the second of two batches: behind the first one and the line with the word. -/
def batchOrigin (a : String) : Span :=
  ⟨a.utf8ByteSize + 4, a.utf8ByteSize + 4, a.toList.count '\n' + 3, 1⟩

/-- A lexer of the second batch, where it stands in the text of both. -/
theorem Lexer.translated_placed (a b : String) :
    Lexer.Translated (batchOrigin a)
      ((ofSource b .sqlServer).placed (batches a b) (a.utf8ByteSize + 4) (a.toList.count '\n' + 2))
      (ofSource b .sqlServer) := by
  refine ⟨⟨rfl, ?_, le_refl 1, ?_, rfl⟩, rfl⟩
  · change 0 + (a.utf8ByteSize + 4) = a.utf8ByteSize + 4 + 0
    omega
  · change 1 + (a.toList.count '\n' + 2) + 1 = a.toList.count '\n' + 3 + 1
    omega

namespace Parser

variable {a b : String} {p q : Parser}

/-! ## Parsers -/

/-- Parsers at one place of a text and of two batches that start with it: before the same tokens, or
before the end of the first text and the word that ends the batch. No token of the first text lacks its
end. Time is not limited. -/
structure Batched (a b : String) (p q : Parser) : Prop where
  left : p.Sound
  right : q.Sound
  lexer : p.lexer.InBatch a
  source : q.lexer.source = batches a b
  dialect : q.dialect = .sqlServer
  strict : p.recovering = false ∧ q.recovering = false
  routineDepth : p.routineDepth = q.routineDepth
  pools : p.pools.IsFresh ∧ q.pools.IsFresh
  live : p.expired = false ∧ q.expired = false
  running : p.cancelled = false ∧ q.cancelled = false
  whole : ∀ t ∈ p.upcoming, t.isUnterminated = false ∧ t.kind ≠ .dollarQuote
  last : ¬p.atEnd → lastKind p.upcoming = lastKind (tokenize a .sqlServer)
  more : p.peek.isEof = false →
    q.current = p.current ∧ q.peek = p.peek ∧ q.lexer = p.lexer.followed (batchTail b)
  final : ¬p.atEnd → p.peek.isEof →
    q.current = p.current ∧ (q.peek, q.lexer) = (separator a b).next
  ended : p.atEnd →
    q.current = (separator a b).next.1 ∧ (q.peek, q.lexer) = (separator a b).next.2.next

namespace Batched

theorem congr {p' q' : Parser} (h : Batched a b p q)
    (hp : p' = { p with
      errors := p'.errors, deferred := p'.deferred, pools := p'.pools,
      routineDepth := p'.routineDepth, tokenCount := p'.tokenCount, endCounted := p'.endCounted })
    (hq : q' = { q with
      errors := q'.errors, deferred := q'.deferred, pools := q'.pools,
      routineDepth := q'.routineDepth, tokenCount := q'.tokenCount, endCounted := q'.endCounted })
    (hdepth : p'.routineDepth = q'.routineDepth) (hpools : p'.pools.IsFresh ∧ q'.pools.IsFresh) :
    Batched a b p' q' := by
  obtain ⟨hleft, hright, hlexer, hsource, hdialect, hstrict, -, -, hlive, hrunning, hwhole, hlast,
    hmore, hfinal, hended⟩ := h
  rw [hp, hq]
  exact ⟨hleft.congr rfl rfl rfl rfl rfl, hright.congr rfl rfl rfl rfl rfl, hlexer, hsource, hdialect,
    hstrict, hdepth, hpools, hlive, hrunning, hwhole, hlast, hmore, hfinal, hended⟩

theorem not_cancelled (h : Batched a b p q) : ¬p.cancelled ∧ ¬q.cancelled := by
  simp [h.running]

theorem not_expired (h : Batched a b p q) : ¬p.expired ∧ ¬q.expired := by
  simp [h.live]

theorem current (h : Batched a b p q) (hend : ¬p.atEnd) : q.current = p.current := by
  cases hpeek : p.peek.isEof with
  | true => exact (h.final hend hpeek).1
  | false => exact (h.more hpeek).1

theorem isWord (h : Batched a b p q) (hend : p.atEnd) : q.current.isWord "GO" := by
  rw [(h.ended hend).1]
  exact (Lexer.next_separator a b).1

theorem isBatchSeparator (h : Batched a b p q) (t : Token) : q.isBatchSeparator t = t.isWord "GO" := by
  rw [Parser.isBatchSeparator, h.dialect]
  rfl

theorem not_atEnd (h : Batched a b p q) : ¬q.atEnd := by
  by_cases hend : p.atEnd
  · have hword := h.isWord hend
    rw [Token.isWord, Bool.and_eq_true, beq_iff_eq] at hword
    rw [Parser.atEnd, Token.isEof, hword.1]
    decide
  · rwa [Parser.atEnd, h.current hend]

theorem remaining (h : Batched a b p q) : q.remaining = p.remaining + (b.utf8ByteSize + 4) := by
  rw [Parser.remaining, if_neg h.not_atEnd, h.source, Lexer.utf8ByteSize_batches, Parser.remaining]
  by_cases hend : p.atEnd
  · rw [if_pos hend, (h.ended hend).1, (Lexer.next_separator a b).2]
    omega
  · have hpositive := h.left.remaining_pos hend
    rw [Parser.remaining, if_neg hend, h.lexer.source] at hpositive
    rw [if_neg hend, h.current hend, h.lexer.source]
    omega

theorem advance (h : Batched a b p q) (hend : ¬p.atEnd) : Batched a b p.advance q.advance := by
  have hupcoming := upcoming_advance hend h.not_cancelled.1 h.not_expired.1
  have hsound := And.intro h.left.advance h.right.advance
  have hwhole : ∀ t ∈ p.advance.upcoming, t.isUnterminated = false ∧ t.kind ≠ .dollarQuote :=
    fun t ht => h.whole t (hupcoming ▸ List.mem_cons_of_mem _ ht)
  have hlast : ¬p.advance.atEnd →
      lastKind p.advance.upcoming = lastKind (tokenize a .sqlServer) := by
    intro hnext
    have hlive : ¬p.advance.expired := by
      rw [(Reaches.advance p).expired]
      exact h.not_expired.1
    have hheads := upcoming_advance hnext (fun hc => hlive (hsound.1.stopped hc).1) hlive
    rw [← h.last hend, hupcoming, hheads, lastKind]
    exact (if_neg hnext).symm
  rw [advance_of_live h.not_cancelled.1 h.not_expired.1, countCurrent_eq] at hsound hwhole hlast ⊢
  rw [advance_of_live h.not_cancelled.2 h.not_expired.2, countCurrent_eq] at hsound ⊢
  have hnext : p.peek.isEof = false → p.lexer.next.1.isUnterminated = false := by
    intro hpeek
    have hmem : p.lexer.next.1 ∈ p.upcoming := by
      have hcurrent : p.current.isEof = false := Bool.eq_false_iff.2 hend
      rw [upcoming, hcurrent, hpeek, Lexer.tokens_eq]
      cases p.lexer.next.1.isEof <;> simp
    exact (h.whole _ hmem).1
  refine ⟨hsound.1, hsound.2, h.lexer.next, (Lexer.next_source _).trans h.source,
    (Lexer.next_dialect _).trans h.dialect, h.strict, h.routineDepth, h.pools, h.live, h.running,
    hwhole, hlast, fun hmore => ?_, fun hpeek hbehind => ?_, fun hpeek => ?_⟩
  · have hpeek : p.peek.isEof = false := by
      refine Bool.eq_false_iff.2 fun he => ?_
      have hrest := (h.left.done he).resolve_left h.not_cancelled.1
      exact Bool.false_ne_true (hmore.symm.trans (Lexer.next_isEof hrest))
    obtain ⟨-, hq, hlexer⟩ := h.more hpeek
    have hfollowed := @Lexer.next_followed (batchTail b) p.lexer hmore (hnext hpeek)
    rw [← hlexer] at hfollowed
    exact ⟨hq, by rw [hfollowed], by rw [hfollowed]⟩
  · obtain ⟨-, hq, hlexer⟩ := h.more (Bool.eq_false_iff.2 hpeek)
    have hfollowed := h.lexer.next_followed_of_isEof b hbehind
    rw [← hlexer] at hfollowed
    exact ⟨hq, hfollowed⟩
  · have hseparator := (h.final hend hpeek).2
    refine ⟨congrArg Prod.fst hseparator, ?_⟩
    exact congrArg (fun x : Token × Lexer => x.2.next) hseparator

theorem shown (h : Batched a b p q) : p.Shown true (lastKind (tokenize a .sqlServer)) q where
  current hend := by
    rw [h.current fun he => hend ⟨rfl, he⟩]
    exact .refl _
  ended _ hend := (h.isBatchSeparator _).trans (h.isWord hend)
  peek hend := by
    have hpeek : p.peek.isEof = false := Bool.eq_false_iff.2 fun he => hend ⟨rfl, .inr he⟩
    rw [(h.more hpeek).2.1]
    exact .refl _
  follows _ hend hpeek := by
    have hseparator := congrArg Prod.fst (h.final hend hpeek).2
    have hcurrent : p.current.isEof = false := Bool.eq_false_iff.2 hend
    refine ⟨?_, ?_⟩
    · rw [h.isBatchSeparator, show q.peek = (separator a b).next.1 from hseparator]
      exact (Lexer.next_separator a b).1
    · rw [← h.last hend, upcoming, hcurrent, hpeek]
      exact (if_pos hpeek).symm
  dialect := h.lexer.dialect.trans h.dialect.symm
  recovering := h.strict.1.trans h.strict.2.symm
  routineDepth := h.routineDepth
  pools := h.pools
  sound := h.left
  live := h.live
  running := h.running
  batch _ := by
    refine ⟨h.lexer.dialect, h.strict.1, (h.whole _ ?_).2⟩
    rw [upcoming]
    split
    · exact List.mem_singleton_self _
    · split <;> exact List.mem_cons_self

end Batched

end Parser

/-- Parsers of a text and of two batches that start with it. -/
def Kinship.batch (a b : String) : Kinship where
  goesOn := true
  last := lastKind (tokenize a .sqlServer)
  lead := b.utf8ByteSize + 4
  state := Parser.Batched a b
  failed _ _ _ _ := False
  shown h := h.shown
  remaining h := h.remaining
  advance h hend := h.advance (hend rfl)
  withPools h hP hQ := h.congr rfl rfl h.routineDepth ⟨hP, hQ⟩
  atDepth _ h := h.congr rfl rfl rfl h.pools
  errors hg := Bool.noConfusion hg
  failed_shown h := h.elim
  failed_kin h := h.elim
  failed_withPools h := h.elim
  failed_atDepth _ h := h.elim
  expects _ hg := Bool.noConfusion hg
  defers hg := Bool.noConfusion hg
  record hg := Bool.noConfusion hg
  nested _ hg := Bool.noConfusion hg

namespace Production.Ends

/-- No statement starts with a point. -/
theorem statementDot {N : Grammar.Nested} {S : Statement → Prop} :
    Ends false .dot (Grammar.statement N) S := by
  have hname : Ends false .dot Production.atName (· = false) := read (fun _ => rfl) fun p hp =>
    Bool.eq_false_iff.2 fun hname => Kinship.Kindred.not_dot_of_isName hname hp.kind
  refine bindKind (bindAnd hname (mono checkPeek fun _ _ => trivial) ?_)
  exact bindIf (bindKind (ret rfl)) 
    (bindAnd (check (h := ⟨nofun⟩)) (mono checkPeek fun _ _ => trivial) expected)

end Production.Ends

namespace Parser

variable {a b : String} {p q : Parser}

/-! ## Statements -/

theorem Sound.skipSeparators_eq (hp : p.Sound) :
    p.skipSeparators = if p.atSeparator then p.advance.skipSeparators else p :=
  hp.skipWhile_eq fun _ => Ready.not_atEnd_of_atSeparator

theorem Last.skipSemicolons {k : TokenKind} (h : p.Last k) (hk : k ≠ .semicolon) :
    p.skipSemicolons = p := by
  refine skipWhile_of_eq_false ?_
  rw [h.kind]
  exact beq_false_of_ne hk

theorem Last.not_atSeparator {k : TokenKind} (h : p.Last k) (hk : k ≠ .semicolon)
    (hname : k ≠ .identifier) : ¬p.atSeparator := by
  rw [atSeparator, h.kind, beq_false_of_ne hk, Bool.false_or, Bool.and_eq_true]
  rintro ⟨-, hbatch⟩
  rw [atBatchSeparator, isBatchSeparator] at hbatch
  split at hbatch
  · exact hname (h.kind.symm.trans (Kinship.identifier_of_isWord hbatch))
  · cases hbatch

namespace Ready

/-- Where no statement starts with the last token, a run gives an error. -/
theorem exists_failure (hp : p.Ready) {k : TokenKind} (h : p.Last k)
    (hk : k ≠ .semicolon ∧ k ≠ .identifier ∧ k ≠ .eof)
    (hends : Production.Ends false k Grammar.parse fun _ => False) :
    ∃ result ∈ p.results.1, failure? result ≠ none := by
  have hend : ¬p.atEnd := by
    rw [atEnd, Token.isEof, h.kind, beq_iff_eq]
    exact hk.2.2
  have hskip := skipSeparators_of_not_atSeparator (h.not_atSeparator hk.1 hk.2.1)
  have hparse := hends.settled h
  refine ⟨p.statement.1, ?_, ?_⟩
  · rw [hp.results_found (hskip.symm ▸ hend), hskip]
    exact List.mem_cons_self
  · revert hparse
    cases hr : Grammar.parse p with
    | ok s p' => exact fun hparse => hparse.1.elim
    | error e p' =>
      rw [hp.statement_error hskip hr]
      intro _ hnone
      cases hnone

end Ready

namespace Batched

theorem atSeparator_eq (h : Batched a b p q) (hend : ¬p.atEnd) : p.atSeparator = q.atSeparator := by
  rw [atSeparator, atSeparator, atBatchSeparator, atBatchSeparator, h.isBatchSeparator,
    h.current hend, h.running.1, h.running.2, Parser.isBatchSeparator, Parser.dialect, h.lexer.dialect]
  rfl

theorem skipSemicolons (h : Batched a b p q) : Batched a b p.skipSemicolons q.skipSemicolons := by
  refine Kinship.Kindred.state_skipWhile (G := .batch a b) (fun p q h => ?_) (fun p hp _ hend => ?_) h
  · rw [Bool.eq_iff_iff, beq_iff_eq, beq_iff_eq]
    exact Kinship.kind_iff (G := .batch a b) h (by decide)
  · have hkind := (beq_iff_eq.1 hp).symm.trans (beq_iff_eq.1 hend)
    cases hkind

/-- The second parser passes what the first one passes, and where that comes to its end, more. -/
theorem skipSeparators (h : Batched a b p q) (hq : q.Ready) :
    ∃ q', Batched a b p.skipSeparators q' ∧ q'.Ready ∧ q.skipSeparators = q'.skipSeparators := by
  induction hn : p.remaining using Nat.strong_induction_on generalizing p q with
  | _ n ih =>
    subst hn
    by_cases hs : p.atSeparator
    · have hend := Ready.not_atEnd_of_atSeparator hs
      obtain ⟨q', hstate, hready, heq⟩ := ih _ (h.left.beyond_advance hend).remaining
        (h.advance hend) hq.advance.ready rfl
      rw [h.left.skipSeparators_eq, if_pos hs, h.right.skipSeparators_eq,
        if_pos (h.atSeparator_eq hend ▸ hs)]
      exact ⟨q', hstate, hready, heq⟩
    · rw [h.left.skipSeparators_eq, if_neg hs]
      exact ⟨q, h, hq, rfl⟩

/-- Before a statement of the first text, both parsers pass the same. -/
theorem skipSeparators_found (h : Batched a b p q) (hp : p.Ready) (hq : q.Ready)
    (hend : ¬p.skipSeparators.atEnd) : Batched a b p.skipSeparators q.skipSeparators := by
  obtain ⟨q', hstate, hready, heq⟩ := h.skipSeparators hq
  have hstays : q'.skipSeparators = q' := by
    have hpassed : ¬q'.atSeparator := by
      rw [← hstate.atSeparator_eq hend, hp.passed]
      exact Bool.false_ne_true
    rw [Parser.skipSeparators.eq_def, Parser.skipWhile]
    exact if_neg hpassed
  rwa [heq, hstays]

/-- The next statement is read alike if the rest of the first text is read without an error, unless it is
the last one and left open. -/
theorem statement (h : Batched a b p q) (hp : p.Ready) (hq : q.Ready)
    (hskip : p.skipSeparators = p ∧ q.skipSeparators = q) {s : Statement}
    (hs : p.statement.1 = .ok s) (hnext : ∀ result ∈ p.statement.2.results.1, failure? result = none)
    (hlast : p.statement.2.results.1 = [] → ¬s.LeftOpen (lastKind (tokenize a .sqlServer))) :
    q.statement.1 = .ok s ∧ Batched a b p.statement.2 q.statement.2 := by
  have houtcome := Kinship.parse_outcome (G := .batch a b) h
  have hready := hp.statement.1.ready
  generalize hr : Grammar.parse p = r, hr' : Grammar.parse q = r' at houtcome
  -- the first text does not end with a token that starts no statement
  have hstuck {k : TokenKind} {p' : Parser} (hr : Grammar.parse p = .ok s p') (hl : p'.Last k)
      (hk : k ≠ .semicolon ∧ k ≠ .identifier ∧ k ≠ .eof)
      (hends : Production.Ends false k Grammar.parse fun _ => False) : False := by
    rw [hp.statement_ok hskip.1 hr, hl.skipSemicolons hk.1] at hnext hready
    obtain ⟨result, hmem, hfails⟩ := hready.exists_failure hl hk hends
    exact hfails (hnext result hmem)
  cases houtcome with
  | @ok s' t p' q' hstate hv _ =>
    obtain rfl : s' = t := hv
    rw [hp.statement_ok hskip.1 hr] at hs ⊢
    rw [hq.statement_ok hskip.2 hr']
    exact ⟨hs, Batched.skipSemicolons hstate⟩
  | @stuck s' t p' q' _ _ _ _ hl =>
    rw [hp.statement_ok hskip.1 hr] at hs
    cases hs
    exact (hstuck hr hl (by decide) fun p => Production.Ends.statementDot p).elim
  | @apart k s' p' _ _ hl hdangling =>
    rw [hp.statement_ok hskip.1 hr] at hs hlast
    cases hs
    rcases hdangling.place with ⟨rfl, hopen⟩ | rfl
    · rw [hl.skipSemicolons (by decide), results_of_atEnd (Production.Ends.atEnd hl)] at hlast
      exact (hlast rfl hopen).elim
    · exact (hstuck hr hl (by decide) fun p => Production.Ends.statementWith p).elim
  | error hstops _ => cases hstops
  | lost _ _ =>
    rw [hp.statement_error hskip.1 hr] at hs
    cases hs

/-- All statements of the first text are read alike. Then the second parser goes on where the first one
is at its end. -/
theorem results (h : Batched a b p q) (hp : p.Ready) (hq : q.Ready)
    (hok : ∀ result ∈ p.results.1, failure? result = none)
    (hlast : ∀ s, p.results.1.getLast? = some (.ok s) →
      ¬s.LeftOpen (lastKind (tokenize a .sqlServer))) :
    ∃ q', Batched a b p.results.2 q' ∧ q'.Ready ∧ q.results.1 = p.results.1 ++ q'.results.1 := by
  have hall : ∀ q : Parser, q.Ready → Batched a b p q →
      (∀ result ∈ p.results.1, failure? result = none) →
      (∀ s, p.results.1.getLast? = some (.ok s) →
        ¬s.LeftOpen (lastKind (tokenize a .sqlServer))) →
      ∃ q', Batched a b p.results.2 q' ∧ q'.Ready ∧
        q.results.1 = p.results.1 ++ q'.results.1 := by
    refine hp.induction (fun p hp hend q hq h hok hlast => ?_)
      fun p hp hend ih q hq h hok hlast => ?_
    · obtain ⟨q', hstate, hready, heq⟩ := h.skipSeparators hq
      rw [results_ended hend]
      exact ⟨q', hstate, hready, congrArg Prod.fst (hq.results_congr hready heq)⟩
    · have hend' : ¬q.skipSeparators.atEnd := (h.skipSeparators_found hp hq hend).not_atEnd
      have hstart := h.skipSeparators_found hp hq hend
      have hskip := And.intro hp.skipSeparators_twice hq.skipSeparators_twice
      rw [hp.results_found hend] at hok hlast ⊢
      rw [hq.results_found hend']
      obtain ⟨s, hs⟩ : ∃ s, p.skipSeparators.statement.1 = .ok s := by
        have hfirst := hok _ List.mem_cons_self
        cases hresult : p.skipSeparators.statement.1 with
        | ok s => exact ⟨s, rfl⟩
        | error e =>
          rw [hresult] at hfirst
          cases hfirst
      have hothers := fun result hmem => hok result (List.mem_cons_of_mem _ hmem)
      obtain ⟨hs', hstate⟩ := hstart.statement hp.skipSeparators.ready hq.skipSeparators.ready hskip hs
        hothers fun hnone => hlast s (by rw [hs, hnone]; rfl)
      obtain ⟨q', hq', hready, heq⟩ := ih _ (hq.next? hend').1.ready hstate hothers fun t ht =>
        hlast t (by rw [List.getLast?_cons, ht]; rfl)
      exact ⟨q', hq', hready, by rw [hs, hs', heq]; rfl⟩
  exact hall q hq h hok hlast

/-! ## The second batch -/

/-- Behind the word, the second parser reads the second text as a new parser does. -/
theorem abreast (h : Batched a b p q) (hend : p.atEnd) (hq : q.Ready) {R : Pools}
    (hR : R.IsFresh) :
    (Likeness.translated (batchOrigin a)).Abreast q.advance
      (Parser.ofSource b .sqlServer false R) := by
  have hfresh := ready_ofSource b .sqlServer R
  have hready := hq.advance.ready
  have hplace := Lexer.translated_placed a b
  have hbehind := (h.ended hend).2.trans (Lexer.next_behind_separator a b)
  have hpeek : q.peek = _ := congrArg Prod.fst hbehind
  have hlexer : q.lexer = _ := congrArg Prod.snd hbehind
  refine ⟨hready, hfresh, ⟨?_, hready.settled, hfresh.settled⟩, fun _ => id⟩
  have hright := hfresh.sound
  have hleft := hready.sound
  rw [ofSource_eq, countCurrent_eq] at hright ⊢
  rw [advance_of_live h.not_cancelled.2 h.not_expired.2, countCurrent_eq, hpeek, hlexer] at hleft ⊢
  refine ⟨hleft, hright, ⟨hplace.next.1, hplace.next.2.next.1, ?_, h.live.2, h.running.2, h.strict.2,
    hq.outside, h.pools.2, hR⟩, hplace.next.2.next.2, h.live.2, h.strict.2⟩
  exact hplace.next.2.next.2.dialect

/-- What a run gives behind the first batch. -/
theorem results_ended (h : Batched a b p q) (hend : p.atEnd) (hq : q.Ready) {R : Pools}
    (hR : R.IsFresh) :
    List.Forall₂ (AnswerAlike (batchOrigin a).Translated) q.results.1
      (Parser.ofSource b .sqlServer false R).results.1 := by
  have hskip : q.skipSeparators = q.advance.skipSeparators := by
    have hs : q.atSeparator := by
      rw [atSeparator, atBatchSeparator, h.isBatchSeparator, h.isWord hend, h.running.2]
      simp
    rw [h.right.skipSeparators_eq, if_pos hs]
  rw [hq.results_congr hq.advance.ready hskip]
  exact ((h.abreast hend hq hR).results (Likeness.records_translated _)).1

end Batched

/-- New parsers of a text and of two batches that start with it. -/
theorem batched_ofSource (a b : String) {P Q : Pools} (hP : P.IsFresh) (hQ : Q.IsFresh)
    (hwhole : ∀ t ∈ tokenize a .sqlServer, t.isUnterminated = false) :
    Batched a b (ofSource a .sqlServer false P) (ofSource (batches a b) .sqlServer false Q) := by
  have hlexer : Lexer.ofSource (batches a b) .sqlServer =
      (Lexer.ofSource a .sqlServer).followed (batchTail b) := by
    simp [batches, Lexer.ofSource, Lexer.followed, Cursor.start, Cursor.followed]
  have hleft := ready_ofSource a .sqlServer P
  have hright := ready_ofSource (batches a b) .sqlServer Q
  have hupcoming := upcoming_ofSource a .sqlServer false P
  have hopen := hwhole
  rw [tokenize] at hopen
  rw [ofSource_eq, countCurrent_eq] at hleft hright hupcoming
  rw [ofSource_eq, ofSource_eq, countCurrent_eq, countCurrent_eq]
  have hfirst := Lexer.inBatch_ofSource a
  generalize Lexer.ofSource a .sqlServer = l at *
  rw [hlexer] at hright ⊢
  have hread (l : Lexer) (hmore : l.next.1.isEof = false)
      (hopen : ∀ t ∈ l.tokens, t.isUnterminated = false) :
      (l.followed (batchTail b)).next = (l.next.1, l.next.2.followed (batchTail b)) := by
    refine Lexer.next_followed hmore (hopen _ ?_)
    rw [Lexer.tokens_eq]
    split <;> exact List.mem_cons_self
  have hrest (hmore : l.next.1.isEof = false) : ∀ t ∈ l.next.2.tokens, t.isUnterminated = false := by
    intro t ht
    refine hopen t ?_
    rw [Lexer.tokens_eq, if_neg (Bool.eq_false_iff.1 hmore)]
    exact List.mem_cons_of_mem _ ht
  have hall : ∀ t ∈ Parser.upcoming _, t.isUnterminated = false ∧ t.kind ≠ .dollarQuote :=
    fun t ht => ⟨hwhole t (hupcoming ▸ ht), Lexer.kind_ne_dollarQuote rfl (hupcoming ▸ ht)⟩
  refine ⟨hleft.sound, hright.sound, hfirst.next.next, ?_, ?_, ⟨rfl, rfl⟩, rfl, ⟨hP, hQ⟩,
    ⟨rfl, rfl⟩, ⟨rfl, rfl⟩, hall, fun _ => congrArg lastKind hupcoming, fun hmore => ?_,
    fun hend hbehind => ?_, fun hend => ?_⟩
  · rw [Lexer.next_source, Lexer.next_source, Lexer.followed, hfirst.source]
    rfl
  · exact (Lexer.next_dialect _).trans ((Lexer.next_dialect _).trans hfirst.dialect)
  · have hcurrent : l.next.1.isEof = false := by
      refine Bool.eq_false_iff.2 fun he => ?_
      exact Bool.false_ne_true (hmore.symm.trans (Lexer.next_isEof (Lexer.next_end he)))
    rw [hread l hcurrent hopen]
    dsimp only
    rw [hread l.next.2 hmore (hrest hcurrent)]
    exact ⟨rfl, rfl, rfl⟩
  · have hcurrent : l.next.1.isEof = false := Bool.eq_false_iff.2 hend
    rw [hread l hcurrent hopen]
    exact ⟨rfl, hfirst.next.next_followed_of_isEof b hbehind⟩
  · rw [hfirst.next_followed_of_isEof b hend]
    exact ⟨rfl, rfl⟩

/-- No token of a text that is read without an error lacks its end. -/
theorem whole_of_results (source : String) (d : Dialect) {pools : Pools} (hpools : pools.IsFresh)
    (h : ∀ result ∈ (ofSource source d false pools).results.1, failure? result = none) :
    ∀ t ∈ tokenize source d, t.isUnterminated = false := by
  intro t ht
  refine Bool.eq_false_iff.2 fun hopen => ?_
  obtain ⟨before, finish, htokens⟩ := Lexer.tokens_of_unterminated ht hopen
  obtain ⟨passed, _, hpassed, -, haccepted⟩ := accepted_of_results source d hpools h
  rw [tokenize, htokens, List.append_cons] at hpassed
  obtain ⟨rfl, -⟩ := List.append_inj' hpassed rfl
  have hillegal : t.kind = .illegal := eq_of_beq (Bool.and_eq_true_iff.1 hopen).1
  obtain ⟨c, hc, -⟩ := (haccepted.skipped rfl hillegal).closed (by rw [hillegal]; decide)
  cases hc

/-- A batch does not read into the next one. Where a text is read without an error, two batches that start
with it give the same statements, and behind them what the second text gives alone: equal statements, and
errors that are shown alike, at the translated places. The first text must not end with a statement that
takes the word between the batches for a name. -/
theorem results_of_batches (a b : String) {P Q R : Pools} (hP : P.IsFresh) (hQ : Q.IsFresh)
    (hR : R.IsFresh)
    (hok : ∀ result ∈ (ofSource a .sqlServer false P).results.1, failure? result = none)
    (hlast : ∀ s, (ofSource a .sqlServer false P).results.1.getLast? = some (.ok s) →
      ¬s.LeftOpen (lastKind (tokenize a .sqlServer))) :
    ∃ others, (ofSource (a ++ "\nGO\n" ++ b) .sqlServer false Q).results.1 =
        (ofSource a .sqlServer false P).results.1 ++ others ∧
      List.Forall₂ (AnswerAlike (batchOrigin a).Translated) others
        (ofSource b .sqlServer false R).results.1 := by
  have hleft := ready_ofSource a .sqlServer P
  have hright := ready_ofSource (batches a b) .sqlServer Q
  obtain ⟨q', hstate, hready, heq⟩ := (batched_ofSource a b hP hQ
    (whole_of_results a .sqlServer hP hok)).results hleft hright hok hlast
  rw [← Lexer.batches_eq]
  exact ⟨_, heq, hstate.results_ended hleft.after_results.2.2 hready hR⟩

/-- A statement that raises and is closed takes nothing, a line comment does not reach the word, and an error
of the second batch is its own. -/
theorem results_of_batches_comment :
    Pools.IsFresh {} ∧
      (∀ result ∈ (ofSource "RAISE; -- done" .sqlServer false {}).results.1,
        failure? result = none) ∧
      (∀ s, (ofSource "RAISE; -- done" .sqlServer false {}).results.1.getLast? = some (.ok s) →
        ¬s.LeftOpen (lastKind (tokenize "RAISE; -- done" .sqlServer))) ∧
      ∃ others, (ofSource ("RAISE; -- done" ++ "\nGO\n" ++ "SELECT") .sqlServer false {}).results.1 =
          (ofSource "RAISE; -- done" .sqlServer false {}).results.1 ++ others ∧
        List.Forall₂ (AnswerAlike (batchOrigin "RAISE; -- done").Translated) others
          (ofSource "SELECT" .sqlServer false {}).results.1 := by
  have hok : ∀ result ∈ (ofSource "RAISE; -- done" .sqlServer false {}).results.1,
      failure? result = none := by decide +kernel
  have hclosed : (lastKind (tokenize "RAISE; -- done" .sqlServer)).isWord = false := by decide +kernel
  have hlast : ∀ s, (ofSource "RAISE; -- done" .sqlServer false {}).results.1.getLast? =
      some (.ok s) → ¬s.LeftOpen (lastKind (tokenize "RAISE; -- done" .sqlServer)) :=
    fun s _ hopen => Bool.eq_false_iff.1 hclosed hopen.isWord
  exact ⟨Pools.isFresh_empty, hok, hlast,
    results_of_batches "RAISE; -- done" "SELECT" Pools.isFresh_empty Pools.isFresh_empty
      Pools.isFresh_empty hok hlast⟩

/-- A statement that raises takes the word between two batches for the name of what it raises. -/
theorem results_of_batches_raise :
    (∀ result ∈ (ofSource "RAISE" .sqlServer false {}).results.1, failure? result = none) ∧
      ¬∃ others, (ofSource ("RAISE" ++ "\nGO\n" ++ "SELECT 1") .sqlServer false {}).results.1 =
        (ofSource "RAISE" .sqlServer false {}).results.1 ++ others := by
  refine ⟨by decide +kernel, ?_⟩
  rintro ⟨others, heq⟩
  have hfirst := congrArg (fun results => (results.map fun result =>
    (result.toOption.map Statement.summary).getD "").head?) heq
  have hboth : ((ofSource ("RAISE" ++ "\nGO\n" ++ "SELECT 1") .sqlServer false {}).results.1.map
      fun result => (result.toOption.map Statement.summary).getD "").head? = some "RAISE GO" := by
    decide +kernel
  have halone : ((ofSource "RAISE" .sqlServer false {}).results.1.map
      fun result => (result.toOption.map Statement.summary).getD "") = ["RAISE"] := by
    decide +kernel
  rw [List.map_append, halone, hboth] at hfirst
  have hname := Option.some.inj hfirst
  exact absurd hname (by decide)

end Parser

end SqlFrontend
