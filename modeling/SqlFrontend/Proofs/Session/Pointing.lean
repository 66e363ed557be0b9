import SqlFrontend.Proofs.Session.TokenCount

/-!
# Errors point at tokens

An error is found at the current token, or at one that a production has come to before. So it stands at
a token of the source between the first one of its statement and the one at which the reading stopped,
and says what was found there. Recovery passes that token, so the errors of a run stand one behind the
other.

Results:
* `ParseError.PointsAt`: an error stands at a token and is about it. A quoted body is the exception: its
  errors are about tokens of its own text.
* `Likeness.pointing`: errors are about the tokens that productions have come to.
* `Ready.pointed_results`: the errors of a run, in the order of their places.
-/

namespace SqlFrontend

/-! ## The order of tokens -/

namespace Lexer

variable {lexer : Lexer} {j k : ℕ}

theorem tokenAt_mem (lexer : Lexer) (k : ℕ) : lexer.tokenAt k ∈ lexer.tokens :=
  List.mem_of_getElem? (lexer.getElem?_tokens k)

theorem exists_tokenAt {t : Token} (h : t ∈ lexer.tokens) : ∃ k, lexer.tokenAt k = t := by
  obtain ⟨k, hlt, hk⟩ := List.mem_iff_getElem.1 h
  refine ⟨k, Option.some.inj ?_⟩
  rw [← lexer.getElem?_tokens k, Nat.min_eq_left (by omega), List.getElem?_eq_getElem hlt, hk]

/-- The end of the text is the last token. -/
theorem tokenAt_of_le (h : (lexer.tokenAt j).isEof) (hjk : j ≤ k) :
    lexer.tokenAt k = lexer.tokenAt j := by
  induction k, hjk using Nat.le_induction with
  | base => rfl
  | succ k _ ih =>
    have hend : (lexer.passed k).next.1.isEof := by
      rw [← ih] at h
      exact h
    rw [← ih, tokenAt, passed_succ, next_next hend, tokenAt]

/-- Each token starts behind the one before it. -/
theorem start_tokenAt_lt (h : (lexer.tokenAt k).isEof = false) :
    (lexer.tokenAt k).span.start < (lexer.tokenAt (k + 1)).span.start := by
  have hfits := (lexer.passed k).next_fits
  have hnext := (lexer.passed (k + 1)).le_next_start
  rw [passed_succ] at hnext
  have hstart := hfits.nonempty h
  have hstop := hfits.bounded h
  rw [tokenAt, tokenAt, passed_succ]
  omega

theorem start_tokenAt_mono (h : j ≤ k) :
    (lexer.tokenAt j).span.start ≤ (lexer.tokenAt k).span.start := by
  induction k, h using Nat.le_induction with
  | base => exact le_refl _
  | succ k _ ih =>
    cases hend : (lexer.tokenAt k).isEof with
    | true => rw [tokenAt_of_le hend (Nat.le_succ k)]; exact ih
    | false => exact ih.trans (start_tokenAt_lt hend).le

theorem source_passed (lexer : Lexer) (k : ℕ) : (lexer.passed k).source = lexer.source := by
  induction k with
  | zero => rfl
  | succ k ih => rw [passed_succ, next_source, ih]

/-- No two tokens start at one place. -/
theorem tokenAt_eq_of_start (h : (lexer.tokenAt j).span.start = (lexer.tokenAt k).span.start) :
    lexer.tokenAt j = lexer.tokenAt k := by
  have hlt {j k : ℕ} (h : (lexer.tokenAt j).span.start = (lexer.tokenAt k).span.start)
      (hjk : j < k) : lexer.tokenAt j = lexer.tokenAt k := by
    cases hend : (lexer.tokenAt j).isEof with
    | true => exact (tokenAt_of_le hend hjk.le).symm
    | false =>
      have hnext := start_tokenAt_lt hend
      have hrest : (lexer.tokenAt (j + 1)).span.start ≤ (lexer.tokenAt k).span.start :=
        start_tokenAt_mono hjk
      omega
  rcases Nat.lt_trichotomy j k with hjk | rfl | hkj
  · exact hlt h hjk
  · rfl
  · exact (hlt h.symm hkj).symm

end Lexer

/-! ## Errors at tokens -/

/-- An error stands at a token, and if it names one it is that. The errors of a quoted body name tokens of
another text. -/
structure ParseError.PointsAt (e : ParseError) (t : Token) : Prop where
  span : e.span = t.span
  about : t.kind.isText ∨ e.cause.isOwn ∨ ∃ what, e.cause = .unexpected what t

namespace Parser

/-- What holds within a source: a parser stands at a token that is not before a given one, and neither
goes on behind errors by itself nor is there a limit of time. -/
structure Within (p : Parser) (start : Lexer) (first : ℕ) : Prop where
  live : p.expired = false
  plain : p.recovering = false
  stands : ∃ k, first ≤ k ∧ p.StandsAt start k

/-- An error points at a token that the parser is not before. Others behind it come from a quoted body. -/
structure Found (p : Parser) (start : Lexer) (first : ℕ) (e : ParseError) : Prop where
  within : p.Within start first
  points : ∃ k, first ≤ k ∧ e.PointsAt (start.tokenAt k) ∧
    (start.tokenAt k).span.start ≤ p.current.span.start ∧
    (p.deferred = #[] ∨ (start.tokenAt k).kind.isText)

variable {p q : Parser} {start : Lexer} {first : ℕ}

theorem Within.congr (h : p.Within start first) (hexpired : q.expired = p.expired)
    (hrecovering : q.recovering = p.recovering) (hcurrent : q.current = p.current)
    (hpeek : q.peek = p.peek) (hlexer : q.lexer = p.lexer) (hcount : q.tokenCount = p.tokenCount)
    (hcounted : q.endCounted = p.endCounted) : q.Within start first := by
  obtain ⟨k, hk, hstands⟩ := h.stands
  exact ⟨hexpired.trans h.live, hrecovering.trans h.plain, k, hk, hcurrent.trans hstands.current,
    hpeek.trans hstands.peek, hlexer.trans hstands.lexer, hcount.trans hstands.count,
    hcounted.trans hstands.counted⟩

theorem Within.not_cancelled (h : p.Within start first) (hp : p.Sound) : ¬p.cancelled := by
  intro hc
  have hexpired := (hp.stopped hc).1
  rw [h.live] at hexpired
  cases hexpired

theorem Within.advance (h : p.Within start first) (hp : p.Sound) : p.advance.Within start first := by
  obtain ⟨k, hk, hstands⟩ := h.stands
  have hreaches := Reaches.advance p
  refine ⟨hreaches.expired.trans h.live, hreaches.recovering.trans h.plain, k + 1,
    hk.trans (Nat.le_succ k), hstands.advance (h.not_cancelled hp) ?_⟩
  rw [h.live]
  nofun

theorem StandsAt.start_le {j k : ℕ} (hj : p.StandsAt start j) (hk : q.StandsAt start k)
    (hp : p.Sound) (hq : q.Sound) (h : p.NotBefore q) :
    p.current.span.start ≤ q.current.span.start := by
  by_cases hend : q.atEnd
  · rw [hj.current, hk.current]
    rcases Nat.le_total j k with hjk | hkj
    · exact Lexer.start_tokenAt_mono hjk
    · have hlast : (start.tokenAt k).isEof := by
        rw [← hk.current]
        exact hend
      rw [Lexer.tokenAt_of_le hlast hkj]
  · have hsource : p.lexer.source = q.lexer.source := by
      rw [hj.lexer, hk.lexer, Lexer.source_passed, Lexer.source_passed]
    have hpos := hq.remaining_pos hend
    have hle := h.remaining
    have hmore : ¬p.atEnd := by
      intro hp
      rw [remaining.eq_def p, if_pos hp] at hle
      omega
    have hcurrent : p.current.isEof = false := Bool.eq_false_of_not_eq_true hmore
    have hstart := hp.current.nonempty hcurrent
    have hstop := hp.current.bounded hcurrent
    rw [remaining, remaining, if_neg hmore, if_neg hend, hsource] at hle
    rw [hsource] at hstop
    omega

theorem Within.start_le (hp : p.Within start first) (hq : q.Within start first) (hs : p.Sound)
    (hs' : q.Sound) (h : p.NotBefore q) : p.current.span.start ≤ q.current.span.start := by
  obtain ⟨j, -, hj⟩ := hp.stands
  obtain ⟨k, -, hk⟩ := hq.stands
  exact hj.start_le hk hs hs' h

/-- A token that was seen is one of the source, and does not start behind the current one. -/
theorem Seen.exists_tokenAt {state : Parser → Parser → Prop} {t t' : Token} {r : Parser}
    (h : Seen state t t' p r) (hstate : ∀ {x y}, state x y → x.Sound ∧ x.Within start first)
    (hp : p.Sound) (hwithin : p.Within start first) :
    ∃ k, first ≤ k ∧ start.tokenAt k = t ∧ t.span.start ≤ p.current.span.start := by
  obtain ⟨x, y, hxy, rfl, rfl, hbefore, -⟩ := h
  obtain ⟨hx, hxwithin⟩ := hstate hxy
  obtain ⟨k, hk, hstands⟩ := hxwithin.stands
  exact ⟨k, hk, hstands.current.symm, hxwithin.start_le hwithin hx hp hbefore⟩

end Parser

/-- A parser in its source, with errors that point at tokens from a given one on. -/
def Likeness.pointing (errors : Array ParseError) (start : Lexer) (first : ℕ) : Likeness where
  place := Eq
  how := .equal
  state p q := (same .equal errors).state p q ∧ p.Within start first
  failed e p e' q := (same .equal errors).failed e p e' q ∧ p.Found start first e
  left h := (same .equal errors).left h.1
  right h := (same .equal errors).right h.1
  alike h := (same .equal errors).alike h.1
  advance h :=
    .inl ⟨((same .equal errors).advance h.1).resolve_right id, h.2.advance h.1.1.sound⟩
  withPools h hPQ := ⟨(same .equal errors).withPools h.1 hPQ, h.2.congr rfl rfl rfl rfl rfl rfl rfl⟩
  atDepth n h := ⟨(same .equal errors).atDepth n h.1, h.2.congr rfl rfl rfl rfl rfl rfl rfl⟩
  failed_alike h := (same .equal errors).failed_alike h.1
  failed_withPools h hPQ := ⟨(same .equal errors).failed_withPools h.1 hPQ,
    h.2.within.congr rfl rfl rfl rfl rfl rfl rfl, h.2.points⟩
  failed_atDepth n h := ⟨(same .equal errors).failed_atDepth n h.1,
    h.2.within.congr rfl rfl rfl rfl rfl rfl rfl, h.2.points⟩
  expects {p q what} h hmore hshorter := by
    obtain ⟨k, hk, hstands⟩ := h.2.stands
    refine ⟨(same .equal errors).expects h.1 hmore hshorter, h.2, k, hk, ?_, ?_, .inl h.1.2⟩
    · rw [← hstands.current, Parser.expectedError, if_neg (h.2.not_cancelled h.1.1.sound)]
      exact ⟨rfl, .inr (.inr ⟨what, rfl⟩)⟩
    · rw [hstands.current]
  fails h hseen hown hdue := by
    refine ⟨(same .equal errors).fails h.1 (hseen.imp And.left) hown hdue, h.2, ?_⟩
    obtain ⟨k, hk, rfl, hle⟩ := hseen.exists_tokenAt (fun h => ⟨h.1.1.sound, h.2⟩) h.1.1.sound h.2
    exact ⟨k, hk, ⟨rfl, .inr (.inl hown)⟩, hle, .inl h.1.2⟩
  relays h hseen htext hdue hothers := by
    refine ⟨(same .equal errors).relays h.1 (hseen.imp And.left) htext hdue hothers,
      h.2.congr rfl rfl rfl rfl rfl rfl rfl, ?_⟩
    obtain ⟨k, hk, rfl, hle⟩ := hseen.exists_tokenAt (fun h => ⟨h.1.1.sound, h.2⟩) h.1.1.sound h.2
    exact ⟨k, hk, ⟨rfl, .inl htext⟩, hle, .inr htext⟩
  record h hr _ := by
    rw [h.2.within.plain] at hr
    cases hr

/-! ## Between statements -/

namespace Parser

variable {p q : Parser} {start : Lexer}

/-- All errors of a parser point at tokens of its source. -/
def Pointed (p : Parser) (start : Lexer) : Prop := ∀ e ∈ p.errors, ∃ k, e.PointsAt (start.tokenAt k)

theorem Beyond.start_lt {j k : ℕ} (h : p.Beyond q) (hj : p.StandsAt start j)
    (hk : q.StandsAt start k) (hq : ¬q.atEnd) : p.current.span.start < q.current.span.start := by
  have hsource : p.lexer.source = q.lexer.source := by
    rw [hj.lexer, hk.lexer, Lexer.source_passed, Lexer.source_passed]
  have hlt := h.remaining
  rw [Parser.remaining, Parser.remaining, if_neg hq, hsource] at hlt
  split at hlt <;> omega

/-- Synchronizing passes a token, whether it ends a statement or not. -/
theorem Ready.beyond_synchronize (hp : p.Ready) (h : ¬p.atEnd) : Beyond p p.synchronize := by
  by_cases ht : p.atTerminator
  · have hstay : p.skipWhile (fun p => !p.atTerminator) = p := by
      rw [Parser.skipWhile, if_neg (by simp [ht])]
    have hcancelled := hp.not_cancelled (.refl p) hp.sound
    have hseparator : p.atSeparator := by
      simpa [atSeparator, hcancelled, atTerminator, h] using ht
    rw [Parser.synchronize, hstay]
    exact hp.sound.beyond_skipWhile h hseparator
  · exact hp.sound.beyond_synchronize ht

/-- What a statement adds to the errors of a parser. An answered error does not start before the
statement, and the reading goes on behind it. -/
structure PointedAnswer (p : Parser) (start : Lexer) (error? : Option ParseError) (q : Parser) :
    Prop where
  pointed : q.Pointed start
  after : ∀ e ∈ error?, p.current.span.start ≤ e.span.start
  before : ∀ e ∈ error?, q.atEnd ∨ e.span.start < q.current.span.start

/-- The record of an error that was found. -/
theorem Ready.pointed_record (hp : p.Ready) (h : p.Reaches q) {e : ParseError} {first : ℕ}
    (hf : (Likeness.pointing p.errors start first).failed e q e q) (hpointed : p.Pointed start) :
    (q.record e).Pointed start := by
  obtain ⟨hsame, hfound⟩ := hf
  obtain ⟨k, -, hpoints, -, htext⟩ := hfound.points
  have hlive : ¬e.isCancelled := fun he =>
    hp.not_cancelled h hsame.same.sound (hsame.due.cancelled (by simpa [ParseError.isCancelled] using he))
  rw [Pointed, Parser.record, if_neg hlive]
  intro d hd
  rcases Array.mem_append.1 hd with hd | hd
  · rcases Array.mem_push.1 hd with hd | rfl
    · rw [hp.errors_eq h hsame.same] at hd
      exact hpointed d hd
    · exact ⟨k, hpoints⟩
  · rcases htext with hnone | htext
    · rw [hnone] at hd
      exact absurd hd (Array.not_mem_empty d)
    · exact ⟨k, (hsame.deferred d hd).2.trans hpoints.span, .inl htext⟩

theorem Ready.pointed_statement (hp : p.Ready) {k : ℕ} (hk : p.StandsAt start k)
    (hpointed : p.Pointed start) :
    PointedAnswer p start (failure? p.statement.1) p.statement.2 := by
  have hclear : { p with deferred := #[] } = p := by rw [← hp.settled]
  have hseparated := hp.skipSeparators
  have hq := hseparated.ready
  obtain ⟨first, hfirst⟩ := hp.standsAt hseparated.reaches ⟨k, hk⟩
  have hpointed' : p.skipSeparators.Pointed start := by
    rw [Pointed, Array.toList_inj.1 hseparated.logged.eq]
    exact hpointed
  have hle := hk.start_le hfirst hp.sound hq.sound (hseparated.reaches.notBefore hp.sound)
  have houtcome := Likeness.parse_outcome (L := .pointing p.skipSeparators.errors start first)
    ⟨hq.state, hq.live, hq.plain, first, le_refl _, hfirst⟩
  rw [Parser.statement, hclear]
  revert houtcome
  generalize p.skipSeparators = x at hseparated hq hfirst hpointed' hle ⊢
  cases Grammar.parse x with
  | ok s p' =>
    intro houtcome
    cases houtcome with
    | ok hs hl _ hk =>
      have hbehind := hq.answers hl hs.1
      have hlast := hbehind.ready.skipSemicolons
      refine ⟨?_, by rintro e ⟨⟩, by rintro e ⟨⟩⟩
      dsimp only
      rw [Pointed, Array.toList_inj.1 (hlast.behind hbehind).logged.eq]
      exact hpointed'
    | past h => cases h; contradiction
  | error e p' =>
    intro houtcome
    cases houtcome with
    | error hf hl _ =>
      have hrecord := hq.record hl hf.1
      have hlive := hrecord.ready.not_cancelled (.refl _) hrecord.ready.sound
      have hsync := hrecord.ready.synchronize
      obtain ⟨j, hj, hpoints, hbefore, -⟩ := hf.2.points
      have hpointed'' := hq.pointed_record hl hf hpointed'
      dsimp only
      rw [if_neg hlive]
      refine ⟨?_, ?_, ?_⟩
      · rw [Pointed, Array.toList_inj.1 hsync.logged.eq]
        exact hpointed''
      · rintro e ⟨⟩
        rw [hpoints.span]
        refine hle.trans ?_
        rw [hfirst.current]
        exact Lexer.start_tokenAt_mono hj
      · rintro e ⟨⟩
        by_cases hend : (p'.record e).synchronize.atEnd
        · exact .inl hend
        · right
          have hmore : ¬(p'.record e).atEnd := fun h => hend (hsync.reaches.atEnd hrecord.ready.sound h)
          have hbeyond := hrecord.ready.beyond_synchronize hmore
          obtain ⟨m, hm⟩ := hq.standsAt hrecord.reaches ⟨first, hfirst⟩
          obtain ⟨n, hn⟩ := hrecord.ready.standsAt hsync.reaches ⟨m, hm⟩
          have hcurrent : (p'.record e).current = p'.current := by
            rw [Parser.record]
            split <;> rfl
          have hlt := hbeyond.start_lt hm hn hend
          rw [hcurrent] at hlt
          rw [hpoints.span]
          exact hbefore.trans_lt hlt
    | past h => cases h; contradiction

namespace PointedAnswer

variable {error? : Option ParseError}

/-- What separates statements holds no error, wherever the next one starts. -/
theorem behind (h : PointedAnswer q start error? r) (hle : p.current.span.start ≤ q.current.span.start) :
    PointedAnswer p start error? r :=
  ⟨h.pointed, fun e he => hle.trans (h.after e he), h.before⟩

end PointedAnswer

theorem Ready.pointed_skipSeparators (hp : p.Ready) {k : ℕ} (hk : p.StandsAt start k)
    (hpointed : p.Pointed start) :
    p.skipSeparators.Pointed start ∧ p.current.span.start ≤ p.skipSeparators.current.span.start := by
  have hseparated := hp.skipSeparators
  obtain ⟨j, hj⟩ := hp.standsAt hseparated.reaches ⟨k, hk⟩
  refine ⟨?_, hk.start_le hj hp.sound hseparated.ready.sound (hseparated.reaches.notBefore hp.sound)⟩
  rw [Pointed, Array.toList_inj.1 hseparated.logged.eq]
  exact hpointed

/-- The next statement, from where the separators end. -/
theorem Ready.pointed_next (hp : p.Ready) {k : ℕ} (hk : p.StandsAt start k)
    (hpointed : p.Pointed start) :
    PointedAnswer p start (failure? p.skipSeparators.statement.1) p.skipSeparators.statement.2 := by
  obtain ⟨hpointed', hle⟩ := hp.pointed_skipSeparators hk hpointed
  obtain ⟨j, hj⟩ := hp.standsAt hp.skipSeparators.reaches ⟨k, hk⟩
  exact (hp.skipSeparators.ready.pointed_statement hj hpointed').behind hle

/-- The errors of a run point at tokens, and those it answers with stand one behind the other. -/
theorem Ready.pointed_results (hp : p.Ready) (hk : ∃ k, p.StandsAt start k)
    (hpointed : p.Pointed start) :
    p.results.2.Pointed start ∧
      (p.results.1.filterMap failure?).Pairwise (fun e e' => e.span.start < e'.span.start) ∧
      ∀ e ∈ p.results.1.filterMap failure?, p.current.span.start ≤ e.span.start := by
  revert hk hpointed
  refine hp.induction (fun p hp h => ?_) fun p hp h ih => ?_
  · rintro ⟨k, hk⟩ hpointed
    rw [results_ended h]
    exact ⟨(hp.pointed_skipSeparators hk hpointed).1, .nil, nofun⟩
  · rintro ⟨k, hk⟩ hpointed
    have hnext := (hp.next? h).1
    have hanswer := hp.pointed_next hk hpointed
    have hplace := hp.standsAt hnext.reaches ⟨k, hk⟩
    have hrest := ih hplace hanswer.pointed
    have hle : p.current.span.start ≤ p.skipSeparators.statement.2.current.span.start := by
      obtain ⟨j, hj⟩ := hplace
      exact hk.start_le hj hp.sound hnext.ready.sound (hnext.reaches.notBefore hp.sound)
    rw [hp.results_found h]
    revert hnext hanswer hrest hle
    generalize p.skipSeparators.statement = answer
    obtain ⟨result, q⟩ := answer
    intro hnext hanswer hrest hle
    obtain ⟨hlast, hothers, hfrom⟩ := hrest
    cases result with
    | ok s => exact ⟨hlast, hothers, fun e he => hle.trans (hfrom e he)⟩
    | error e =>
      refine ⟨hlast, List.pairwise_cons.2 ⟨fun d hd => ?_, hothers⟩, ?_⟩
      · rcases hanswer.before e rfl with hend | hbefore
        · -- Nothing is found behind the end of the text.
          have hstop := hnext.ready.skipSeparators.reaches.atEnd hnext.ready.sound hend
          rw [results_ended hstop] at hd
          cases hd
        · exact hbefore.trans_le (hfrom d hd)
      · intro d hd
        rcases List.mem_cons.1 hd with rfl | hd
        · exact hanswer.after d rfl
        · exact hle.trans (hfrom d hd)

/-- Reading up to the first error. -/
theorem Ready.pointed_statements (hp : p.Ready) (hk : ∃ k, p.StandsAt start k)
    (hpointed : p.Pointed start) : p.statements.2.Pointed start := by
  revert hk hpointed
  refine hp.induction (fun p hp h => ?_) fun p hp h ih => ?_
  · rintro ⟨k, hk⟩ hpointed
    rw [statements_ended h]
    exact (hp.pointed_skipSeparators hk hpointed).1
  · rintro ⟨k, hk⟩ hpointed
    have hanswer := hp.pointed_next hk hpointed
    have hrest := ih (hp.standsAt (hp.next? h).1.reaches ⟨k, hk⟩) hanswer.pointed
    rw [hp.statements_found h]
    revert hanswer hrest
    generalize p.skipSeparators.statement = answer
    obtain ⟨result, q⟩ := answer
    intro hanswer hrest
    cases result with
    | error e => exact hanswer.pointed
    | ok s => exact hrest

theorem Ready.pointed_run (hp : p.Ready) (hk : ∃ k, p.StandsAt start k) (hpointed : p.Pointed start)
    (op : Operation) : (op.run p).Pointed start := by
  cases op with
  | all => exact hp.pointed_statements hk hpointed
  | statement =>
    obtain ⟨k, hk⟩ := hk
    exact (hp.pointed_statement hk hpointed).pointed
  | next =>
    obtain ⟨k, hk⟩ := hk
    rw [Operation.run]
    by_cases h : p.skipSeparators.atEnd
    · rw [next?_ended h]
      exact (hp.pointed_skipSeparators hk hpointed).1
    · rw [next?_found h]
      exact (hp.pointed_next hk hpointed).pointed

theorem Ready.pointed_after (hp : p.Ready) (hk : ∃ k, p.StandsAt start k) (hpointed : p.Pointed start)
    (ops : List Operation) : (p.after ops).Pointed start := by
  induction ops generalizing p with
  | nil => exact hpointed
  | cons op ops ih =>
    have hfirst := hp.run op
    exact ih hfirst.ready (hp.standsAt hfirst.reaches hk) (hp.pointed_run hk hpointed op)

end Parser

/-! ## What an error says -/

/-- What an error at a token says: what was expected in its place, if it is no text and the token was not
expected, with the literal of a token that no dialect has for a message. Other errors name no token. -/
structure ParseError.Describes (e : ParseError) (t : Token) : Prop where
  found : e.cause.kind = .grammatical ∨ e.cause.kind = .lexical → t.kind.isText = false →
    ∃ what, e.cause.expected? = some what ∧ e.cause.found? = some t.describe ∧
      (e.cause.kind = .lexical ↔ t.kind = .illegal) ∧
      e.cause.message =
        if t.kind = .illegal then t.literal else "expected " ++ what ++ ", got " ++ t.describe
  other : e.cause.kind = .structural ∨ e.cause.kind = .unsupported →
    e.cause.expected? = none ∧ e.cause.found? = none

/-- Only errors about a token that was not expected are grammatical or lexical. -/
theorem ParseCause.unexpected_of_kind {cause : ParseCause}
    (h : cause.kind = .grammatical ∨ cause.kind = .lexical) :
    ∃ what found, cause = .unexpected what found := by
  cases cause with
  | unexpected what found => exact ⟨what, found, rfl⟩
  | _ => simp [kind] at h

theorem ParseError.PointsAt.describes {e : ParseError} {t : Token} (h : e.PointsAt t) :
    e.Describes t where
  found hkind htext := by
    obtain ⟨what, found, hcause⟩ := ParseCause.unexpected_of_kind hkind
    rcases h.about with ht | hown | ⟨what', hcause'⟩
    · rw [htext] at ht
      cases ht
    · rw [hcause] at hown
      cases hown
    · rw [hcause']
      refine ⟨what', rfl, rfl, ?_, rfl⟩
      rw [ParseCause.kind]
      split <;> simp [*]
  other hkind := by
    cases hcause : e.cause with
    | unexpected what found =>
      rw [hcause, ParseCause.kind] at hkind
      split at hkind <;> simp at hkind
    | _ => exact ⟨rfl, rfl⟩

namespace Parser

/-- Errors point at tokens. In a session of any operations and in the run to its end, each recorded error
has the place of a token of the source, of just one, and says what was found there, unless it comes from a
quoted text. The errors that a run answers with stand one behind the other. -/
theorem errors_point (source : String) (d : Dialect) (pools : Pools) (ops : List Operation) :
    let p := (ofSource source d false pools).after ops
    (∀ e ∈ p.results.2.errors, ∃ t ∈ Lexer.tokenize source d, e.span = t.span ∧ e.Describes t ∧
        ∀ u ∈ Lexer.tokenize source d, u.span = e.span → u = t) ∧
      p.Runs p.results.1 p.results.2 ∧
      (p.results.1.filterMap failure?).Pairwise (fun e e' => e.span.start < e'.span.start) := by
  intro p
  have hstart : ∃ k, (ofSource source d false pools).StandsAt (.ofSource source d) k :=
    ⟨0, standsAt_ofSource source d pools⟩
  have hfresh := ready_ofSource source d pools
  obtain ⟨hreaches, hp⟩ := hfresh.after ops
  have hnone : (ofSource source d false pools).Pointed (.ofSource source d) := by
    have hfree : (ofSource source d false pools).errors = #[] := by
      rw [ofSource_eq, countCurrent_eq]
    rw [Pointed, hfree]
    exact Array.forall_mem_empty _
  obtain ⟨hpointed, hordered, -⟩ :=
    hp.pointed_results (hfresh.standsAt hreaches hstart) (hfresh.pointed_after hstart hnone ops)
  refine ⟨fun e he => ?_, hp.runs_results, hordered⟩
  obtain ⟨k, hk⟩ := hpointed e he
  refine ⟨_, Lexer.tokenAt_mem _ k, hk.span, hk.describes, fun u hu hspan => ?_⟩
  obtain ⟨j, rfl⟩ := Lexer.exists_tokenAt hu
  apply Lexer.tokenAt_eq_of_start
  rw [hspan, hk.span]

end Parser

end SqlFrontend
