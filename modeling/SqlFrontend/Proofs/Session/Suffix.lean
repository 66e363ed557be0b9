import SqlFrontend.Proofs.Session.SideBySide

/-!
# What is left is a source of its own

A parser between statements reads the rest of its source as a new parser would read it, were the rest
the whole source. Only the places are others: every offset is behind what was read, and lines and
columns count on from there.

Results:
* `Span.Translated`, `Lexer.Translated`: the same place in a text and in what is left of it from an
  origin on. `Lexer.Translated.next` says that both lexers read the same token.
* `Parser.Translated`, `Likeness.translated`: parsers at the same place. Productions treat them alike.
* `Parser.BeganAt`: the current token was read where it starts. `Translated.of_suffix` says that a new
  parser can take over there.
-/

namespace SqlFrontend

open String (utf8Len)

/-! ## Places -/

/-- A span in a text is one in what is left of it from an origin on. Columns count from the origin
on its line only. -/
structure Span.Translated (origin s t : Span) : Prop where
  start : s.start = origin.start + t.start
  stop : s.stop = origin.start + t.stop
  line : s.line + 1 = origin.line + t.line
  column : if t.line = 1 then s.column + 1 = origin.column + t.column else s.column = t.column

/-- A cursor in a text is one in what is left of it from an origin on. -/
structure Cursor.Translated (origin : Span) (here there : Cursor) : Prop where
  rest : here.rest = there.rest
  offset : here.offset = origin.start + there.offset
  positive : 1 ≤ there.line
  line : here.line + 1 = origin.line + there.line
  column : if there.line = 1 then here.column + 1 = origin.column + there.column
    else here.column = there.column

namespace Cursor.Translated

variable {origin : Span} {here there : Cursor}

theorem after (h : Translated origin here there) (c : Char) (rest : List Char) :
    Translated origin (here.after c rest) (there.after c rest) := by
  have hpositive := h.positive
  have hline := h.line
  have hcolumn := h.column
  have hoffset : here.offset + c.utf8Size = origin.start + (there.offset + c.utf8Size) := by
    rw [h.offset, Nat.add_assoc]
  by_cases hc : c = '\n'
  · simp only [Cursor.after, if_pos hc]
    refine ⟨rfl, hoffset, ?_, ?_, ?_⟩ <;> dsimp only
    · omega
    · omega
    · rw [if_neg (by omega)]
  · simp only [Cursor.after, if_neg hc]
    refine ⟨rfl, hoffset, hpositive, hline, ?_⟩
    dsimp only
    by_cases hfirst : there.line = 1
    · rw [if_pos hfirst] at hcolumn ⊢
      omega
    · rw [if_neg hfirst] at hcolumn ⊢
      omega

theorem skip (h : Translated origin here there) (n : ℕ) :
    Translated origin (here.skip n) (there.skip n) := by
  induction n generalizing here there with
  | zero => exact h
  | succ n ih =>
    cases hr : there.rest with
    | nil => rw [skip_nil hr, skip_nil (h.rest.trans hr)]; exact h
    | cons c rest =>
      rw [skip_succ hr, skip_succ (h.rest.trans hr)]
      exact ih (h.after c rest)

end Cursor.Translated

/-! ## Lexers -/

/-- A lexer in a text stands where another stands in what is left of it. -/
structure Lexer.Translated (origin : Span) (here there : Lexer) : Prop where
  cursor : Cursor.Translated origin here.cursor there.cursor
  dialect : here.dialect = there.dialect

/-- Both read the same token. -/
theorem Lexer.Translated.next {origin : Span} {here there : Lexer}
    (h : Translated origin here there) :
    here.next.1.Alike origin.Translated there.next.1 ∧
      Translated origin here.next.2 there.next.2 := by
  obtain ⟨r, -, hr, -⟩ := exists_reading here.dialect here.cursor.rest
  rw [hr here rfl rfl, hr there h.dialect.symm h.cursor.rest.symm]
  have hstart := h.cursor.skip r.gap
  have hstop := h.cursor.skip (r.gap + r.length)
  exact ⟨⟨rfl, rfl, hstart.offset, hstop.offset, hstart.line, hstart.column⟩, hstop, h.dialect⟩

/-- A cursor stands where a span starts. -/
structure Cursor.StartsAt (here : Cursor) (s : Span) : Prop where
  offset : here.offset = s.start
  line : here.line = s.line
  column : here.column = s.column

/-- Every token is read again from where it starts. -/
theorem Lexer.Sound.exists_start {lexer : Lexer} (h : lexer.Sound) :
    ∃ start : Lexer, start.Sound ∧ start.next = lexer.next ∧
      start.cursor.StartsAt lexer.next.1.span := by
  obtain ⟨r, -, hr, hagain⟩ := exists_reading lexer.dialect lexer.cursor.rest
  refine ⟨{ lexer with cursor := lexer.cursor.skip r.gap }, h.skip r.gap, ?_⟩
  rw [hr lexer rfl rfl, hagain { lexer with cursor := lexer.cursor.skip r.gap } rfl
    (Cursor.skip_rest _ _)]
  refine ⟨?_, ⟨rfl, rfl, rfl⟩⟩
  simp only [Reading.token, Nat.zero_add, Cursor.skip_add]
  rfl

/-! ## Parsers -/

namespace Parser

/-- A parser of a source stands where another stands in what is left of it; neither is in a quoted body,
and time is not limited. -/
structure Translated (origin : Span) (p q : Parser) : Prop where
  left : p.Sound
  right : q.Sound
  alike : p.Alike origin.Translated .fresh q
  lexer : Lexer.Translated origin p.lexer q.lexer
  live : p.expired = false
  plain : p.recovering = false

namespace Translated

variable {origin : Span} {p q : Parser}

theorem not_cancelled (h : p.Translated origin q) : ¬p.cancelled ∧ ¬q.cancelled := by
  have hp : ¬p.cancelled := fun hc => by
    have := (h.left.stopped hc).1
    rw [h.live] at this
    cases this
  exact ⟨hp, h.alike.cancelled ▸ hp⟩

/-- Only the place counts. -/
theorem congr {p' q' : Parser} (h : p.Translated origin q)
    (hp : p' = { p with
      errors := p'.errors, deferred := p'.deferred, pools := p'.pools,
      routineDepth := p'.routineDepth })
    (hq : q' = { q with
      errors := q'.errors, deferred := q'.deferred, pools := q'.pools,
      routineDepth := q'.routineDepth })
    (hdepth : p'.routineDepth = q'.routineDepth) (hpools : p'.pools.Alike .fresh q'.pools) :
    p'.Translated origin q' := by
  obtain ⟨hleft, hright, halike, hlexer, hlive, hplain⟩ := h
  rw [hp, hq]
  exact ⟨hleft.congr rfl rfl rfl rfl rfl, hright.congr rfl rfl rfl rfl rfl,
    ⟨halike.current, halike.peek, halike.dialect, halike.expired, halike.cancelled,
      halike.recovering, hdepth, hpools⟩, hlexer, hlive, hplain⟩

theorem advance (h : p.Translated origin q) : p.advance.Translated origin q.advance := by
  obtain ⟨hp, hq⟩ := h.not_cancelled
  have hlive : ¬p.expired := by rw [h.live]; nofun
  have hnext := h.lexer.next
  have hadvance := And.intro h.left.advance h.right.advance
  rw [advance_of_live hp hlive, advance_of_live hq (h.alike.expired ▸ hlive), countCurrent_eq,
    countCurrent_eq] at hadvance ⊢
  exact ⟨hadvance.1, hadvance.2, ⟨h.alike.peek, hnext.1, hnext.2.dialect, h.alike.expired,
    h.alike.cancelled, h.alike.recovering, h.alike.routineDepth, h.alike.pools⟩, hnext.2, h.live,
    h.plain⟩

end Translated

end Parser

/-- Parsers at the same place of a source and of what is left of it. Their errors are shown alike, and
none of them is cancellation. -/
def Likeness.translated (origin : Span) : Likeness where
  place := origin.Translated
  how := .fresh
  state p q := p.Translated origin q ∧ p.deferred = #[] ∧ q.deferred = #[]
  failed e p e' q := p.Translated origin q ∧ e.Alike origin.Translated e' ∧
    ¬e.isCancelled ∧ ¬e'.isCancelled
  left h := h.1.left
  right h := h.1.right
  alike h := h.1.alike.here
  advance h := .inl ⟨h.1.advance, by rw [Same.deferred_advance, Same.deferred_advance]; exact h.2⟩
  withPools h hPQ := ⟨h.1.congr rfl rfl h.1.alike.routineDepth hPQ, h.2⟩
  atDepth n h := ⟨h.1.congr rfl rfl rfl h.1.alike.pools, h.2⟩
  failed_alike h := h.1.alike.here
  failed_withPools h hPQ := ⟨h.1.congr rfl rfl h.1.alike.routineDepth hPQ, h.2⟩
  failed_atDepth n h := ⟨h.1.congr rfl rfl rfl h.1.alike.pools, h.2⟩
  expects {p q what} h _ _ := by
    obtain ⟨hp, hq⟩ := h.1.not_cancelled
    rw [Parser.expectedError, Parser.expectedError, if_neg hp, if_neg hq]
    exact ⟨h.1, ParseError.alike_unexpected what h.1.alike.current, nofun, nofun⟩
  fails {p q t t' cause} h hseen _ hc := by
    obtain ⟨x, y, hxy, rfl, rfl, -, -⟩ := hseen
    have hlive : ¬cause = .cancelled := fun he => h.1.not_cancelled.1 (hc.cancelled he)
    refine ⟨h.1, ⟨.refl cause, hxy.1.alike.current.span⟩, ?_, ?_⟩ <;>
      rwa [ParseError.isCancelled, beq_iff_eq]
  relays {p q t t' cause others} h hseen _ hc _ := by
    obtain ⟨x, y, hxy, rfl, rfl, -, -⟩ := hseen
    have hlive : ¬cause = .cancelled := fun he => h.1.not_cancelled.1 (hc.cancelled he)
    refine ⟨h.1.congr rfl rfl h.1.alike.routineDepth h.1.alike.pools,
      ⟨.refl cause, hxy.1.alike.current.span⟩, ?_, ?_⟩ <;>
      rwa [ParseError.isCancelled, beq_iff_eq]
  record h hr _ := by
    rw [h.1.plain] at hr
    cases hr

/-- An error is recorded on both sides, whatever was recorded before. -/
theorem Likeness.records_translated (origin : Span) : (translated origin).Records := by
  rintro e e' p q ⟨htranslated, halike, he, he'⟩
  refine ⟨halike, ?_⟩
  rw [Parser.record, Parser.record, if_neg he, if_neg he']
  exact ⟨htranslated.congr rfl rfl htranslated.alike.routineDepth htranslated.alike.pools, rfl, rfl⟩

namespace Parser

/-! ## Taking over -/

/-- The current token was read where it starts, and the next one behind it. -/
structure BeganAt (p : Parser) (start : Lexer) : Prop where
  sound : start.Sound
  current : start.next.1 = p.current
  peek : start.next.2.next.1 = p.peek
  lexer : start.next.2.next.2 = p.lexer
  place : start.cursor.StartsAt p.current.span

variable {p : Parser} {start : Lexer}

theorem BeganAt.source (h : p.BeganAt start) : start.source = p.lexer.source := by
  rw [← h.lexer, Lexer.next_source, Lexer.next_source]

theorem BeganAt.dialect (h : p.BeganAt start) : start.dialect = p.dialect := by
  rw [Parser.dialect, ← h.lexer, Lexer.next_dialect, Lexer.next_dialect]

theorem beganAt_ofSource (source : String) (d : Dialect) (pools : Pools) :
    ∃ start, (ofSource source d false pools).BeganAt start := by
  obtain ⟨start, hsound, hnext, hplace⟩ := (Lexer.sound_ofSource source d).exists_start
  rw [ofSource_eq, countCurrent_eq]
  exact ⟨start, hsound, by rw [hnext], by rw [hnext], by rw [hnext], hplace⟩

theorem BeganAt.advance (h : p.BeganAt start) (hc : ¬p.cancelled) (he : ¬p.expired) :
    ∃ start, p.advance.BeganAt start := by
  obtain ⟨behind, hsound, hnext, hplace⟩ := h.sound.next.exists_start
  rw [h.peek] at hplace
  rw [advance_of_live hc he, countCurrent_eq]
  refine ⟨behind, hsound, ?_, ?_, ?_, hplace⟩
  · rw [hnext, h.peek]
  · rw [hnext, h.lexer]
  · rw [hnext, h.lexer]

theorem Ready.beganAt {q : Parser} (hp : p.Ready) (h : p.Reaches q)
    (hstart : ∃ start, p.BeganAt start) : ∃ start, q.BeganAt start := by
  refine h.invariant_of_live (I := fun x => ∃ start, x.BeganAt start)
    (hp.not_cancelled (.refl p) hp.sound) hp.not_expired hstart
    (fun _ hc he ⟨_, hx⟩ => hx.advance hc he) fun x y hxy ⟨start, hx⟩ => ⟨start, ?_⟩
  have hcurrent : x.course.current = y.course.current := congrArg Parser.current hxy
  have hpeek : x.course.peek = y.course.peek := congrArg Parser.peek hxy
  have hlexer : x.course.lexer = y.course.lexer := congrArg Parser.lexer hxy
  change x.current = y.current at hcurrent
  refine ⟨hx.sound, hx.current.trans hcurrent, hx.peek.trans hpeek, hx.lexer.trans hlexer, ?_⟩
  rw [← hcurrent]
  exact hx.place

/-- A new parser of the text from the current token on takes over. -/
theorem Ready.abreast_of_suffix (hp : p.Ready) (h : p.BeganAt start) {Q : Pools}
    (hP : p.pools.IsFresh) (hQ : Q.IsFresh) :
    (Likeness.translated p.current.span).Abreast p
      (ofSource (String.ofList start.cursor.rest) p.dialect false Q) := by
  have hfresh := ready_ofSource (String.ofList start.cursor.rest) p.dialect Q
  have hplace : Lexer.Translated p.current.span start
      (.ofSource (String.ofList start.cursor.rest) p.dialect) := by
    refine ⟨⟨?_, ?_, ?_, ?_, ?_⟩, h.dialect⟩
    · exact String.toList_ofList.symm
    · exact h.place.offset
    · exact le_refl 1
    · exact congrArg (· + 1) h.place.line
    · exact congrArg (· + 1) h.place.column
  have hcurrent := hplace.next
  have hpeek := hcurrent.2.next
  rw [h.current] at hcurrent
  rw [h.peek, h.lexer] at hpeek
  refine ⟨hp, hfresh, ⟨?_, hp.settled, hfresh.settled⟩, fun _ => id⟩
  have hright := hfresh.sound
  rw [ofSource_eq, countCurrent_eq] at hright ⊢
  refine ⟨hp.sound, hright, ⟨hcurrent.1, hpeek.1, hpeek.2.dialect, hp.live, ?_, hp.plain, hp.outside,
    hP, hQ⟩, hpeek.2, hp.live, hp.plain⟩
  simpa using hp.not_cancelled (.refl p) hp.sound

/-- Pools whose nodes are as good as new stay so, since what is given back is emptied. -/
theorem isFresh_after (source : String) (d : Dialect) (ops : List Operation) {pools : Pools}
    (h : pools.IsFresh) : ((ofSource source d false pools).after ops).pools.IsFresh := by
  have hready := ready_ofSource source d pools
  obtain ⟨start, hstart⟩ := beganAt_ofSource source d pools
  have hfresh : (ofSource source d false pools).pools.IsFresh := by
    rw [ofSource_eq, countCurrent_eq]
    exact h
  have habreast := hready.abreast_of_suffix hstart hfresh h
  exact (habreast.after (Likeness.records_translated _) ops).state.1.alike.pools.1

/-- A statement leaves no hidden state behind. Whatever was read before, with errors or without, the
rest of a source gives what a new parser gives on the text from the current token on: the same
statements, and errors that are shown alike, at the translated places. No routine is being read then,
and no error is deferred. The pools of both parsers may be any that hold nodes as good as new. -/
theorem results_of_suffix (source : String) (d : Dialect) (ops : List Operation) {P Q : Pools}
    (hP : P.IsFresh) (hQ : Q.IsFresh) :
    let p := (ofSource source d false P).after ops
    (∃ front back : String, source = front ++ back ∧
        front.utf8ByteSize = p.current.span.start ∧
        List.Forall₂ (AnswerAlike p.current.span.Translated) p.results.1
          (ofSource back d false Q).results.1) ∧
      p.routineDepth = 0 ∧ p.deferred = #[] := by
  intro p
  have hready := ready_ofSource source d P
  obtain ⟨hreaches, hp⟩ := hready.after ops
  obtain ⟨start, hstart⟩ := hready.beganAt hreaches (beganAt_ofSource source d P)
  have hsource : start.source = source := by
    rw [hstart.source, hreaches.source]
    exact source_ofSource source d false P
  have hdialect : p.dialect = d := hreaches.dialect.trans (dialect_ofSource source d false P)
  obtain ⟨front, htext, hfront⟩ := hstart.sound
  refine ⟨⟨.ofList front, .ofList start.cursor.rest, ?_, ?_, ?_⟩, hp.outside, hp.settled⟩
  · rw [← String.ofList_append, ← htext, hsource, String.ofList_toList]
  · rw [← String.utf8Len_toList, String.toList_ofList, hfront, hstart.place.offset]
  · have habreast := hp.abreast_of_suffix hstart (isFresh_after source d ops hP) hQ
    rw [hdialect] at habreast
    exact (habreast.results (Likeness.records_translated _)).1

/-- New pools hold no node at all. -/
theorem results_of_suffix_second :
    let p := (ofSource "SELECT 1; SELECT" .mySql false {}).after [.next]
    Pools.IsFresh {} ∧ (∃ front back : String, "SELECT 1; SELECT" = front ++ back ∧
        front.utf8ByteSize = p.current.span.start ∧
        List.Forall₂ (AnswerAlike p.current.span.Translated) p.results.1
          (ofSource back .mySql false {}).results.1) ∧
      p.routineDepth = 0 ∧ p.deferred = #[] :=
  ⟨Pools.isFresh_empty,
    results_of_suffix "SELECT 1; SELECT" .mySql [.next] Pools.isFresh_empty Pools.isFresh_empty⟩

end Parser

end SqlFrontend
