import Mathlib.Data.Prod.Lex
import Mathlib.Logic.Function.Iterate
import SqlFrontend.Parsing.Parser
import SqlFrontend.Proofs.Lexing.Numerals

/-!
# The course of a parser

A parser moves through the tokens of its source in one way only, by `Parser.advance`. What else
changes is its record.

Results:
* `Lexer.Sound`, `Parser.Sound`: what holds of the place of every lexer and of every parser in its
  source. The spans of tokens lie in the source, one behind the other, and only the end of the text
  stands behind the end.
* `Parser.Reaches`: from one parser to another, tokens are passed and nothing but the record changes.
* `Parser.Beyond`: less text and fewer tokens are left. `Reaches.beyond` says that every token passed
  leads beyond.
* `Parser.beyond_nested`: so does the opening of a quoted body.
-/

namespace SqlFrontend

open String (utf8Len)

/-! ## Lexers -/

/-- The place and the value of a token fit in a number of bytes: it does not end before it starts, and is
not empty, a quoted value lacks two quotes, and a number is spelled as such. -/
structure Token.Fits (t : Token) (size : Nat) : Prop where
  ordered : t.span.start ≤ t.span.stop
  nonempty : t.isEof = false → t.span.start < t.span.stop
  bounded : t.isEof = false → t.span.stop ≤ size
  quoted : t.kind.isText → t.literal.utf8ByteSize + 2 ≤ t.span.stop - t.span.start
  numeric : t.kind = .number → t.IsNumeric

theorem Token.Fits.mono {t : Token} {size size' : Nat} (h : t.Fits size) (hle : size ≤ size') :
    t.Fits size' :=
  ⟨h.ordered, h.nonempty, fun he => (h.bounded he).trans hle, h.quoted, h.numeric⟩

namespace Lexer

/-- The cursor stands where its offset says. -/
def Sound (lexer : Lexer) : Prop :=
  ∃ front, lexer.source.toList = front ++ lexer.cursor.rest ∧
    utf8Len front = lexer.cursor.offset

theorem sound_ofSource (source : String) (d : Dialect) : (ofSource source d).Sound :=
  ⟨[], rfl, rfl⟩

theorem Sound.skip {lexer : Lexer} (h : lexer.Sound) (n : Nat) :
    Sound { lexer with cursor := lexer.cursor.skip n } := by
  obtain ⟨front, hsource, hfront⟩ := h
  refine ⟨front ++ lexer.cursor.rest.take n, ?_, ?_⟩
  · dsimp only
    rw [hsource, Cursor.skip_rest, List.append_assoc, List.take_append_drop]
  · dsimp only
    rw [String.utf8Len_append, hfront, Cursor.skip_offset]

theorem Sound.offset_le {lexer : Lexer} (h : lexer.Sound) :
    lexer.cursor.offset ≤ lexer.source.utf8ByteSize := by
  obtain ⟨front, hsource, hfront⟩ := h
  rw [← hfront, ← String.utf8Len_toList, hsource, String.utf8Len_append]
  omega

theorem next_source (lexer : Lexer) : lexer.next.2.source = lexer.source := by
  obtain ⟨r, -, hr, -⟩ := exists_reading lexer.dialect lexer.cursor.rest
  rw [hr lexer rfl rfl]

theorem next_dialect (lexer : Lexer) : lexer.next.2.dialect = lexer.dialect := by
  obtain ⟨r, -, hr, -⟩ := exists_reading lexer.dialect lexer.cursor.rest
  rw [hr lexer rfl rfl]

theorem Sound.next {lexer : Lexer} (h : lexer.Sound) : lexer.next.2.Sound := by
  obtain ⟨r, -, hr, -⟩ := exists_reading lexer.dialect lexer.cursor.rest
  rw [hr lexer rfl rfl]
  exact h.skip _

theorem le_next_start (lexer : Lexer) : lexer.cursor.offset ≤ lexer.next.1.span.start := by
  obtain ⟨r, -, hr, -⟩ := exists_reading lexer.dialect lexer.cursor.rest
  rw [hr lexer rfl rfl]
  simp only [Reading.token, Cursor.skip_offset]
  omega

/-- The next token ends where the lexer stands then. -/
theorem next_fits (lexer : Lexer) : lexer.next.1.Fits lexer.next.2.cursor.offset := by
  have hnumeric : lexer.next.1.kind = .number → lexer.next.1.IsNumeric := next_numeric
  obtain ⟨r, hsound, hr, -⟩ := exists_reading lexer.dialect lexer.cursor.rest
  have hlength : (lexer.cursor.skip (r.gap + r.length)).offset =
      (lexer.cursor.skip r.gap).offset + utf8Len (r.text lexer.cursor.rest) := by
    rw [Cursor.skip_add, Cursor.skip_offset _ r.length, Cursor.skip_rest]; rfl
  rw [hr lexer rfl rfl] at hnumeric ⊢
  have hkind (he : (r.token lexer.cursor).isEof = false) : r.kind ≠ .eof := by
    simpa [Token.isEof, Reading.token] using he
  refine ⟨?_, fun he => ?_, fun _ => le_refl _, fun ht => ?_, hnumeric⟩
  · simp only [Reading.token, hlength]
    omega
  · have := hsound.nonempty (hkind he)
    simp only [Reading.token, hlength]
    omega
  · have := hsound.quoted ht
    simp only [Reading.token, hlength]
    omega

/-- Nothing is left behind the end of the text. -/
theorem next_end {lexer : Lexer} (h : lexer.next.1.isEof) : lexer.next.2.cursor.rest = [] := by
  obtain ⟨r, hsound, hr, -⟩ := exists_reading lexer.dialect lexer.cursor.rest
  rw [hr lexer rfl rfl] at h ⊢
  have hend := hsound.ended (by simpa [Token.isEof, Reading.token] using h)
  rw [Cursor.skip_rest, ← List.drop_drop, hend, List.drop_nil]

/-- Where nothing is left, the end of the text is read. -/
theorem next_isEof {lexer : Lexer} (h : lexer.cursor.rest = []) : lexer.next.1.isEof := by
  obtain ⟨r, hsound, hr, -⟩ := exists_reading lexer.dialect lexer.cursor.rest
  rw [hr lexer rfl rfl]
  by_contra he
  have := hsound.nonempty (by simpa [Token.isEof, Reading.token] using he)
  rw [Reading.text, h, List.drop_nil, List.take_nil, String.utf8Len_nil] at this
  omega

theorem tokens_eq (lexer : Lexer) : lexer.tokens =
    if lexer.next.1.isEof then [lexer.next.1] else lexer.next.1 :: lexer.next.2.tokens := by
  rw [tokens]
  cases h : lexer.next.1.isEof <;> simp [h]

end Lexer

/-! ## Parsers -/

namespace Parser

/-- A parser without its record: the place that it stands at. -/
def course (p : Parser) : Parser := { p with errors := #[], deferred := #[], pools := {} }

theorem countCurrent_eq (p : Parser) :
    p.countCurrent = { p with
      tokenCount := if p.atEnd && p.endCounted then p.tokenCount else p.tokenCount + 1
      endCounted := p.atEnd || p.endCounted } := by
  obtain ⟨lexer, current, peek, expired, cancelled, errors, deferred, recovering, tokenCount,
    endCounted, routineDepth, pools⟩ := p
  cases he : current.isEof <;> cases endCounted <;> simp [countCurrent, atEnd, he]

theorem advance_of_cancelled {p : Parser} (h : p.cancelled) : p.advance = p := by
  rw [advance, if_pos h]

theorem advance_of_expired {p : Parser} (h : p.expired) : p.advance = p.cancel := by
  by_cases hc : p.cancelled
  · rw [advance_of_cancelled hc, cancel, if_pos hc]
  · rw [advance, if_neg hc, if_pos h]

/-- The next token becomes the current one. -/
theorem advance_of_live {p : Parser} (hc : ¬p.cancelled) (he : ¬p.expired) :
    p.advance = countCurrent
      { p with lexer := p.lexer.next.2, current := p.peek, peek := p.lexer.next.1 } := by
  rw [advance, if_neg hc, if_neg he]

theorem advance_course (p : Parser) : p.course.advance.course = p.advance.course := by
  by_cases hc : p.cancelled
  · rw [advance_of_cancelled hc, advance_of_cancelled (p := p.course) hc]; rfl
  by_cases he : p.expired
  · rw [advance_of_expired he, advance_of_expired (p := p.course) he, cancel, cancel, if_neg hc,
      if_neg (show ¬p.course.cancelled from hc)]
    rfl
  · rw [advance_of_live hc he, advance_of_live (p := p.course) hc he, countCurrent_eq,
      countCurrent_eq]
    rfl

/-! ## The place in the source -/

/-- What holds of the place of a parser in its source. -/
structure Sound (p : Parser) : Prop where
  lexer : p.lexer.Sound
  current : p.current.Fits p.lexer.source.utf8ByteSize
  peek : p.peek.Fits p.lexer.cursor.offset
  ordered : p.peek.isEof = false → p.current.span.stop ≤ p.peek.span.start
  ended : p.current.isEof → p.peek.isEof
  done : p.peek.isEof → p.cancelled ∨ p.lexer.cursor.rest = []
  stopped : p.cancelled → p.expired ∧ p.current.isEof

/-- Only the place counts. -/
theorem Sound.congr {p q : Parser} (hp : p.Sound) (hlexer : q.lexer = p.lexer)
    (hcurrent : q.current = p.current) (hpeek : q.peek = p.peek)
    (hexpired : q.expired = p.expired) (hcancelled : q.cancelled = p.cancelled) : q.Sound := by
  obtain ⟨h1, h2, h3, h4, h5, h6, h7⟩ := hp
  rw [← hlexer] at h1 h2 h3 h6
  rw [← hcurrent] at h2 h4 h5 h7
  rw [← hpeek] at h3 h4 h5 h6
  rw [← hcancelled] at h6 h7
  rw [← hexpired] at h7
  exact ⟨h1, h2, h3, h4, h5, h6, h7⟩

theorem Sound.of_course {p q : Parser} (hp : p.Sound) (h : p.course = q.course) : q.Sound :=
  hp.congr (congrArg Parser.lexer h).symm (congrArg Parser.current h).symm
    (congrArg Parser.peek h).symm (congrArg Parser.expired h).symm
    (congrArg Parser.cancelled h).symm

theorem Sound.countCurrent {p : Parser} (hp : p.Sound) : p.countCurrent.Sound := by
  rw [countCurrent_eq]
  exact hp.congr rfl rfl rfl rfl rfl

theorem fits_eof {s : Span} (h : s.start ≤ s.stop) (size : Nat) : Token.Fits ⟨.eof, "", s⟩ size :=
  ⟨h, nofun, nofun, nofun, nofun⟩

theorem Sound.cancel {p : Parser} (hp : p.Sound) (he : p.expired) : p.cancel.Sound := by
  unfold Parser.cancel
  split
  · exact hp
  · have hspan := hp.current.ordered
    exact ⟨hp.lexer, fits_eof hspan _, fits_eof hspan _, nofun, fun _ => rfl, fun _ => .inl rfl,
      fun _ => ⟨he, rfl⟩⟩

/-- A parser whose next token is read from a sound lexer. -/
theorem Sound.read {p : Parser} (lexer : p.lexer.Sound)
    (current : p.current.Fits p.lexer.cursor.offset)
    (done : p.current.isEof → p.lexer.cursor.rest = []) (live : ¬p.cancelled) :
    Sound { p with lexer := p.lexer.next.2, peek := p.lexer.next.1 } := by
  refine ⟨lexer.next, ?_, p.lexer.next_fits, fun he => ?_, fun he => p.lexer.next_isEof (done he),
    fun he => .inr (Lexer.next_end he), fun hc => absurd hc live⟩
  · dsimp only
    rw [Lexer.next_source]
    exact current.mono lexer.offset_le
  · dsimp only at he ⊢
    have hcurrent : p.current.isEof = false := by
      by_contra h
      rw [Lexer.next_isEof (done (by simpa using h))] at he
      cases he
    exact (current.bounded hcurrent).trans p.lexer.le_next_start

theorem Sound.advance {p : Parser} (hp : p.Sound) : p.advance.Sound := by
  by_cases hc : p.cancelled
  · rw [advance_of_cancelled hc]; exact hp
  by_cases he : p.expired
  · rw [advance_of_expired he]; exact hp.cancel he
  · rw [advance_of_live hc he]
    refine Sound.countCurrent (Sound.read (p := { p with current := p.peek }) hp.lexer hp.peek ?_ hc)
    exact fun h => (hp.done h).resolve_left hc

theorem ofSource_eq (source : String) (d : Dialect) (expired : Bool) (pools : Pools) :
    ofSource source d expired pools = countCurrent
      { lexer := (Lexer.ofSource source d).next.2.next.2
        current := (Lexer.ofSource source d).next.1
        peek := (Lexer.ofSource source d).next.2.next.1
        expired, pools, cancelled := false, errors := #[], deferred := #[], recovering := false
        tokenCount := 0, endCounted := false, routineDepth := 0 } := rfl

theorem source_ofSource (source : String) (d : Dialect) (expired : Bool) (pools : Pools) :
    (ofSource source d expired pools).lexer.source = source := by
  rw [ofSource_eq, countCurrent_eq]
  exact (Lexer.next_source _).trans (Lexer.next_source _)

theorem dialect_ofSource (source : String) (d : Dialect) (expired : Bool) (pools : Pools) :
    (ofSource source d expired pools).dialect = d := by
  rw [ofSource_eq, countCurrent_eq]
  exact (Lexer.next_dialect _).trans (Lexer.next_dialect _)

theorem errors_ofSource (source : String) (d : Dialect) (expired : Bool) (pools : Pools) :
    (ofSource source d expired pools).errors = #[] := by
  rw [ofSource_eq, countCurrent_eq]

theorem sound_ofSource (source : String) (d : Dialect) (expired : Bool) (pools : Pools) :
    (ofSource source d expired pools).Sound := by
  let start := Lexer.ofSource source d
  have hstart : start.Sound := Lexer.sound_ofSource source d
  let p : Parser :=
    { lexer := start.next.2, current := start.next.1, peek := start.next.1, expired, pools,
      cancelled := false, errors := #[], deferred := #[], recovering := false, tokenCount := 0,
      endCounted := false, routineDepth := 0 }
  rw [ofSource_eq]
  exact (Sound.read (p := p) hstart.next start.next_fits Lexer.next_end nofun).countCurrent

theorem Sound.nested {p : Parser} (body : String) : (p.nested body).Sound := by
  unfold Parser.nested
  exact (sound_ofSource body p.dialect p.expired p.pools).congr rfl rfl rfl rfl rfl

theorem Sound.setDialect {p : Parser} (hp : p.Sound) (d : Dialect) : (p.setDialect d).Sound :=
  ⟨hp.lexer, hp.current, hp.peek, hp.ordered, hp.ended, hp.done, hp.stopped⟩

/-! ## What is left -/

/-- The tokens that are left, up to the end of the text. -/
def upcoming (p : Parser) : List Token :=
  if p.current.isEof then [p.current]
  else if p.peek.isEof then [p.current, p.peek]
  else p.current :: p.peek :: p.lexer.tokens

/-- The bytes of the source, and the tokens that are left of it. -/
def extent (p : Parser) : ℕ ×ₗ ℕ := toLex (p.lexer.source.utf8ByteSize, p.upcoming.length)

/-- A parser that has less text before it than another, and less tokens or a shorter source. -/
structure Beyond (base p : Parser) : Prop where
  remaining : p.remaining < base.remaining
  extent : p.extent < base.extent

/-- A parser that has no more before it than another. -/
structure NotBefore (base p : Parser) : Prop where
  remaining : p.remaining ≤ base.remaining
  extent : p.extent ≤ base.extent

theorem NotBefore.refl (p : Parser) : NotBefore p p := ⟨le_refl _, le_refl _⟩

theorem Beyond.notBefore {p q : Parser} (h : Beyond p q) : NotBefore p q :=
  ⟨h.remaining.le, h.extent.le⟩

theorem NotBefore.trans {p q r : Parser} (h : NotBefore p q) (h' : NotBefore q r) :
    NotBefore p r :=
  ⟨h'.remaining.trans h.remaining, h'.extent.trans h.extent⟩

theorem Beyond.trans_notBefore {p q r : Parser} (h : Beyond p q) (h' : NotBefore q r) :
    Beyond p r :=
  ⟨h'.remaining.trans_lt h.remaining, h'.extent.trans_lt h.extent⟩

theorem NotBefore.trans_beyond {p q r : Parser} (h : NotBefore p q) (h' : Beyond q r) :
    Beyond p r :=
  ⟨h'.remaining.trans_le h.remaining, h'.extent.trans_le h.extent⟩

/-- Every parser stands behind another one, at the beginning of a longer text. -/
theorem exists_beyond (p : Parser) : ∃ b, Beyond b p := by
  let b : Parser := { p with
    lexer := { p.lexer with source := p.lexer.source ++ "  " }
    current := ⟨.illegal, "", ⟨0, 0, 0, 0⟩⟩ }
  have hsize : b.lexer.source.utf8ByteSize = p.lexer.source.utf8ByteSize + 2 :=
    String.utf8ByteSize_append
  refine ⟨b, ?_, Prod.Lex.toLex_lt_toLex.2 (.inl (by omega))⟩
  have hb : b.remaining = b.lexer.source.utf8ByteSize + 1 := by
    rw [Parser.remaining, if_neg (by exact Bool.false_ne_true)]
    rfl
  rw [hb, Parser.remaining]
  split <;> omega

theorem upcoming_of_atEnd {p : Parser} (h : p.atEnd) : p.upcoming = [p.current] := if_pos h

theorem current_of_upcoming {p : Parser} {t : Token} {rest : List Token}
    (h : p.upcoming = t :: rest) : p.current = t := by
  unfold upcoming at h
  split at h
  · exact (List.cons.inj h).1
  split at h <;> exact (List.cons.inj h).1

theorem peek_of_upcoming {p : Parser} {t u : Token} {rest : List Token}
    (h : p.upcoming = t :: u :: rest) : p.peek = u := by
  unfold upcoming at h
  split at h
  · cases h
  split at h <;> exact (List.cons.inj (List.cons.inj h).2).1

/-- At the beginning of a source all its tokens are left. -/
theorem upcoming_ofSource (source : String) (d : Dialect) (expired : Bool) (pools : Pools) :
    (ofSource source d expired pools).upcoming = Lexer.tokenize source d := by
  rw [ofSource_eq, countCurrent_eq, Lexer.tokenize, Lexer.tokens_eq, Lexer.tokens_eq, upcoming]
  cases (Lexer.ofSource source d).next.1.isEof <;>
    cases (Lexer.ofSource source d).next.2.next.1.isEof <;> rfl

/-- The current token is the first of those that are left. -/
theorem upcoming_advance {p : Parser} (h : ¬p.atEnd) (hc : ¬p.cancelled) (he : ¬p.expired) :
    p.upcoming = p.current :: p.advance.upcoming := by
  have hcurrent : p.current.isEof = false := by simpa [atEnd] using h
  rw [advance_of_live hc he, countCurrent_eq, upcoming, hcurrent, upcoming]
  dsimp only
  cases hp : p.peek.isEof with
  | true => rfl
  | false =>
    rw [Lexer.tokens_eq]
    cases p.lexer.next.1.isEof <;> rfl

theorem advance_source (p : Parser) : p.advance.lexer.source = p.lexer.source := by
  by_cases hc : p.cancelled
  · rw [advance_of_cancelled hc]
  by_cases he : p.expired
  · rw [advance_of_expired he, cancel, if_neg hc]
  · rw [advance_of_live hc he, countCurrent_eq]
    exact p.lexer.next_source

/-- Text is left before every token but the end. -/
theorem Sound.remaining_pos {p : Parser} (hp : p.Sound) (h : ¬p.atEnd) : 0 < p.remaining := by
  have hcurrent : p.current.isEof = false := by simpa [atEnd] using h
  have := hp.current.nonempty hcurrent
  have := hp.current.bounded hcurrent
  rw [remaining, if_neg h]
  omega

/-- Every token that is passed leads beyond. -/
theorem Sound.beyond_advance {p : Parser} (hp : p.Sound) (h : ¬p.atEnd) : Beyond p p.advance := by
  have hcurrent : p.current.isEof = false := by simpa [atEnd] using h
  have hc : ¬p.cancelled := fun hc => h (hp.stopped hc).2
  have hpos := hp.remaining_pos h
  have hextent (hlt : p.advance.upcoming.length < p.upcoming.length) :
      p.advance.extent < p.extent := by
    rw [extent, extent, advance_source]
    exact Prod.Lex.toLex_lt_toLex.2 (.inr ⟨rfl, hlt⟩)
  by_cases he : p.expired
  · have hend : p.advance.atEnd := by rw [advance_of_expired he, Parser.cancel, if_neg hc]; rfl
    refine ⟨?_, hextent ?_⟩
    · rw [remaining, if_pos hend]; exact hpos
    · rw [upcoming_of_atEnd hend, upcoming, hcurrent]
      cases p.peek.isEof <;> simp
  · refine ⟨?_, hextent ?_⟩
    · have hspan := hp.current.nonempty hcurrent
      have hstop := hp.current.bounded hcurrent
      have hnext : p.advance.current = p.peek := by rw [advance_of_live hc he, countCurrent_eq]
      rw [remaining, remaining, if_neg h, advance_source, hnext]
      split
      · omega
      · next hpeek =>
        have := hp.ordered (by rw [atEnd, hnext] at hpeek; simpa using hpeek)
        omega
    · rw [upcoming_advance h hc he]
      exact Nat.lt_succ_self _

theorem Sound.atEnd_advance {p : Parser} (hp : p.Sound) (h : p.atEnd) : p.advance.atEnd := by
  by_cases hc : p.cancelled
  · rw [advance_of_cancelled hc]; exact h
  by_cases he : p.expired
  · rw [advance_of_expired he, Parser.cancel, if_neg hc]; rfl
  · rw [advance_of_live hc he, countCurrent_eq]; exact hp.ended h

theorem Sound.notBefore_advance {p : Parser} (hp : p.Sound) : NotBefore p p.advance := by
  by_cases h : p.atEnd
  · have hend := hp.atEnd_advance h
    refine ⟨?_, ?_⟩
    · rw [remaining, if_pos hend]; exact Nat.zero_le _
    · rw [extent, extent, advance_source, upcoming_of_atEnd h, upcoming_of_atEnd hend]; rfl
  · exact (hp.beyond_advance h).notBefore

/-! ## Reaching -/

/-- From `p` to `q` tokens are passed, and nothing but the record changes. -/
def Reaches (p q : Parser) : Prop := ∃ n, (advance^[n] p).course = q.course

theorem Reaches.of_course {p q : Parser} (h : p.course = q.course) : Reaches p q := ⟨0, h⟩

theorem Reaches.refl (p : Parser) : Reaches p p := .of_course rfl

theorem Reaches.advance (p : Parser) : Reaches p p.advance := ⟨1, rfl⟩

theorem advance_iterate_course {p q : Parser} (h : p.course = q.course) (n : ℕ) :
    (Parser.advance^[n] p).course = (Parser.advance^[n] q).course := by
  induction n generalizing p q with
  | zero => exact h
  | succ n ih =>
    rw [Function.iterate_succ_apply, Function.iterate_succ_apply]
    exact ih (by rw [← advance_course p, h, advance_course q])

theorem Reaches.trans {p q r : Parser} (h : Reaches p q) (h' : Reaches q r) : Reaches p r := by
  obtain ⟨m, hm⟩ := h
  obtain ⟨n, hn⟩ := h'
  refine ⟨n + m, ?_⟩
  rw [Function.iterate_add_apply, ← hn]
  exact advance_iterate_course hm n

/-- What every token passed keeps is kept. -/
theorem Reaches.invariant {I : Parser → Prop} {p q : Parser} (h : Reaches p q) (hp : I p)
    (hadvance : ∀ x, I x → I x.advance) (hcourse : ∀ x y, x.course = y.course → I x → I y) :
    I q := by
  obtain ⟨n, hn⟩ := h
  refine hcourse _ _ hn ?_
  clear hn
  induction n with
  | zero => exact hp
  | succ n ih => rw [Function.iterate_succ_apply']; exact hadvance _ ih

/-- The same for what is kept as long as time is left. -/
theorem Reaches.invariant_of_live {I : Parser → Prop} {p q : Parser} (h : Reaches p q)
    (hc : ¬p.cancelled) (he : ¬p.expired) (hp : I p)
    (hadvance : ∀ x : Parser, ¬x.cancelled → ¬x.expired → I x → I x.advance)
    (hcourse : ∀ x y, x.course = y.course → I x → I y) : I q := by
  have hinv := h.invariant (I := fun x => ¬x.cancelled ∧ ¬x.expired ∧ I x) ⟨hc, he, hp⟩
    (fun x hx => ⟨?_, ?_, hadvance x hx.1 hx.2.1 hx.2.2⟩)
    fun x y hxy hx => ⟨?_, ?_, hcourse x y hxy hx.2.2⟩
  · exact hinv.2.2
  · rw [advance_of_live hx.1 hx.2.1, countCurrent_eq]
    exact hx.1
  · rw [advance_of_live hx.1 hx.2.1, countCurrent_eq]
    exact hx.2.1
  · have hcancelled : x.course.cancelled = y.course.cancelled := congrArg Parser.cancelled hxy
    exact fun hy => hx.1 (hcancelled.trans hy)
  · have hexpired : x.course.expired = y.course.expired := congrArg Parser.expired hxy
    exact fun hy => hx.2.1 (hexpired.trans hy)

theorem Reaches.sound {p q : Parser} (h : Reaches p q) (hp : p.Sound) : q.Sound :=
  h.invariant hp (fun _ => Sound.advance) fun _ _ hc hx => hx.of_course hc

theorem extent_of_course {p q : Parser} (h : p.course = q.course) : p.extent = q.extent := by
  have : p.course.extent = q.course.extent := by rw [h]
  exact this

theorem remaining_of_course {p q : Parser} (h : p.course = q.course) :
    p.remaining = q.remaining := by
  have : p.course.remaining = q.course.remaining := by rw [h]
  exact this

theorem NotBefore.of_course {p q : Parser} (h : p.course = q.course) : NotBefore p q :=
  ⟨(remaining_of_course h).ge, (extent_of_course h).ge⟩

theorem Reaches.notBefore {p q : Parser} (h : Reaches p q) (hp : p.Sound) : NotBefore p q := by
  have hinv := h.invariant (I := fun x => x.Sound ∧ NotBefore p x) ⟨hp, .refl p⟩
    (fun x hx => ⟨hx.1.advance, hx.2.trans hx.1.notBefore_advance⟩)
    fun x y hc hx => ⟨hx.1.of_course hc, hx.2.trans (.of_course hc)⟩
  exact hinv.2

/-- From a parser that is not at the end, either nothing is passed or the way leads beyond. -/
theorem Reaches.eq_or_beyond {p q : Parser} (h : Reaches p q) (hp : p.Sound) (he : ¬p.atEnd) :
    p.course = q.course ∨ Beyond p q := by
  obtain ⟨n, hn⟩ := h
  cases n with
  | zero => exact .inl hn
  | succ n =>
    have hrest : Reaches p.advance q := ⟨n, by rw [← Function.iterate_succ_apply]; exact hn⟩
    exact .inr ((hp.beyond_advance he).trans_notBefore (hrest.notBefore hp.advance))

/-- What leads further on leads past the current token first. -/
theorem Reaches.of_less {p q : Parser} (h : Reaches p q) (hless : q.remaining < p.remaining) :
    Reaches p.advance q := by
  obtain ⟨n, hn⟩ := h
  cases n with
  | zero => exact absurd hless (remaining_of_course hn).le.not_gt
  | succ n => exact ⟨n, by rw [← Function.iterate_succ_apply]; exact hn⟩

theorem Reaches.atEnd {p q : Parser} (h : Reaches p q) (hp : p.Sound) (he : p.atEnd) :
    q.atEnd := by
  have hinv := h.invariant (I := fun x => x.Sound ∧ x.atEnd) ⟨hp, he⟩
    (fun x hx => ⟨hx.1.advance, hx.1.atEnd_advance hx.2⟩)
    fun x y hc hx => ⟨hx.1.of_course hc, (congrArg Parser.atEnd hc).symm.trans hx.2⟩
  exact hinv.2

/-- Where a parser stands in its source changes; what it was made with does not. -/
def setting (p : Parser) : String × Bool × Bool × Nat :=
  (p.lexer.source, p.expired, p.recovering, p.routineDepth)

theorem setting_advance (p : Parser) : p.advance.setting = p.setting := by
  by_cases hc : p.cancelled
  · rw [advance_of_cancelled hc]
  by_cases he : p.expired
  · rw [advance_of_expired he, cancel, if_neg hc]; rfl
  · rw [advance_of_live hc he, countCurrent_eq, setting]
    dsimp only
    rw [Lexer.next_source]
    rfl

theorem Reaches.setting {p q : Parser} (h : Reaches p q) : q.setting = p.setting :=
  h.invariant (I := fun x => x.setting = p.setting) rfl
    (fun x hx => (setting_advance x).trans hx) fun _ _ hc hx =>
      (congrArg Parser.setting hc).symm.trans hx

theorem Reaches.source {p q : Parser} (h : Reaches p q) : q.lexer.source = p.lexer.source :=
  congrArg (·.1) h.setting

theorem Reaches.expired {p q : Parser} (h : Reaches p q) : q.expired = p.expired :=
  congrArg (·.2.1) h.setting

theorem Reaches.recovering {p q : Parser} (h : Reaches p q) : q.recovering = p.recovering :=
  congrArg (·.2.2.1) h.setting

theorem Reaches.routineDepth {p q : Parser} (h : Reaches p q) :
    q.routineDepth = p.routineDepth := congrArg (·.2.2.2) h.setting

theorem advance_dialect (p : Parser) : p.advance.dialect = p.dialect := by
  by_cases hc : p.cancelled
  · rw [advance_of_cancelled hc]
  by_cases he : p.expired
  · rw [advance_of_expired he, cancel, if_neg hc]; rfl
  · rw [advance_of_live hc he, countCurrent_eq]
    exact p.lexer.next_dialect

theorem Reaches.dialect {p q : Parser} (h : Reaches p q) : q.dialect = p.dialect :=
  h.invariant (I := fun x => x.dialect = p.dialect) rfl
    (fun x hx => (advance_dialect x).trans hx) fun _ _ hc hx =>
      (congrArg Parser.dialect hc).symm.trans hx

/-- Neither the depth nor the pools count for the way. -/
theorem advance_with (p : Parser) (n : ℕ) (pools : Pools) :
    Parser.advance { p with routineDepth := n, pools } =
      { p.advance with routineDepth := n, pools } := by
  let q : Parser := { p with routineDepth := n, pools }
  by_cases hc : p.cancelled
  · rw [advance_of_cancelled (p := p) hc, advance_of_cancelled (p := q) hc]
  by_cases he : p.expired
  · rw [advance_of_expired (p := p) he, advance_of_expired (p := q) he, cancel, cancel, if_neg hc,
      if_neg hc]
  · rw [advance_of_live (p := p) hc he, advance_of_live (p := q) hc he, countCurrent_eq,
      countCurrent_eq]
    rfl

theorem pools_advance (p : Parser) : p.advance.pools = p.pools := by
  have h : p.advance = { p.advance with routineDepth := p.routineDepth, pools := p.pools } :=
    advance_with p p.routineDepth p.pools
  rw [h]

theorem routineDepth_advance (p : Parser) : p.advance.routineDepth = p.routineDepth := by
  have h : p.advance = { p.advance with routineDepth := p.routineDepth, pools := p.pools } :=
    advance_with p p.routineDepth p.pools
  rw [h]

theorem advance_atDepth (p : Parser) (n : ℕ) :
    Parser.advance { p with routineDepth := n } = { p.advance with routineDepth := n } :=
  (advance_with p n p.pools).trans (by rw [← pools_advance p])

theorem advance_withPools (p : Parser) (pools : Pools) :
    Parser.advance { p with pools } = { p.advance with pools } :=
  (advance_with p p.routineDepth pools).trans (by rw [← routineDepth_advance p])

/-- The same way at another depth of routines. -/
theorem Reaches.atDepth {p q : Parser} {n : ℕ} (h : Reaches { p with routineDepth := n } q) :
    Reaches p { q with routineDepth := p.routineDepth } := by
  obtain ⟨k, hk⟩ := h
  have hiterate : Parser.advance^[k] { p with routineDepth := n } =
      { Parser.advance^[k] p with routineDepth := n } := by
    clear hk
    induction k with
    | zero => rfl
    | succ k ih =>
      rw [Function.iterate_succ_apply', ih, advance_atDepth, Function.iterate_succ_apply']
  have hdepth : (Parser.advance^[k] p).routineDepth = p.routineDepth :=
    Reaches.routineDepth (p := p) ⟨k, rfl⟩
  rw [hiterate] at hk
  have hback := congrArg (fun x : Parser => { x with routineDepth := p.routineDepth }) hk
  rw [← hdepth] at hback ⊢
  exact ⟨k, hback⟩

/-! ## Skipping -/

theorem Reaches.skipWhile (p : Parser) (condition : Parser → Bool) :
    Reaches p (p.skipWhile condition) := by
  fun_induction Parser.skipWhile p condition with
  | case1 p _ _ ih => exact (Reaches.advance p).trans ih
  | case2 p => exact .advance p
  | case3 p => exact .refl p

/-- What changes neither the way nor the condition is not changed by skipping. -/
theorem skipWhile_comm {f : Parser → Parser} {condition : Parser → Bool}
    (hadvance : ∀ p, (f p).advance = f p.advance) (hremaining : ∀ p, (f p).remaining = p.remaining)
    (hcondition : ∀ p, condition (f p) = condition p) (p : Parser) :
    (f p).skipWhile condition = f (p.skipWhile condition) := by
  fun_induction skipWhile p condition with
  | case1 p hc hless ih =>
    rw [skipWhile, hcondition, if_pos hc, hadvance, hremaining, hremaining, if_pos hless, ih]
  | case2 p hc hless =>
    rw [skipWhile, hcondition, if_pos hc, hadvance, hremaining, hremaining, if_neg hless]
  | case3 p hc => rw [skipWhile, hcondition, if_neg hc]

/-- Skipping goes on from token to token, since each that is skipped leads beyond. -/
theorem Sound.skipWhile_eq {p : Parser} (hp : p.Sound) {condition : Parser → Bool}
    (he : ∀ x, condition x → ¬x.atEnd) :
    p.skipWhile condition = if condition p then p.advance.skipWhile condition else p := by
  rw [Parser.skipWhile]
  by_cases hc : condition p
  · rw [if_pos hc, if_pos hc, if_pos (hp.beyond_advance (he p hc)).remaining]
  · rw [if_neg hc, if_neg hc]

/-- Skipping passes the current token if it is to be skipped. -/
theorem Sound.beyond_skipWhile {p : Parser} (hp : p.Sound) (he : ¬p.atEnd)
    {condition : Parser → Bool} (hc : condition p) : Beyond p (p.skipWhile condition) := by
  have hbeyond := hp.beyond_advance he
  rw [Parser.skipWhile, if_pos hc, if_pos hbeyond.remaining]
  exact hbeyond.trans_notBefore ((Reaches.skipWhile _ _).notBefore hp.advance)

/-- Skipping ends before what is not to be skipped. -/
theorem Sound.skipWhile_stops {p : Parser} (hp : p.Sound) {condition : Parser → Bool}
    (he : ∀ x, condition x → ¬x.atEnd) : condition (p.skipWhile condition) = false := by
  fun_induction Parser.skipWhile p condition with
  | case1 p _ _ ih => exact ih hp.advance
  | case2 p hc hguard => exact absurd (hp.beyond_advance (he p hc)).remaining hguard
  | case3 p hc => simpa using hc

theorem Reaches.synchronize (p : Parser) : Reaches p p.synchronize :=
  (Reaches.skipWhile p _).trans (.skipWhile _ _)

/-- Before a token that ends no statement, synchronizing passes at least that. -/
theorem Sound.beyond_synchronize {p : Parser} (hp : p.Sound) (h : ¬p.atTerminator) :
    Beyond p p.synchronize := by
  have he : ¬p.atEnd := fun he => h (by rw [atTerminator, he]; simp)
  have hfirst : Beyond p (p.skipWhile fun p => !p.atTerminator) :=
    hp.beyond_skipWhile he (by simpa using h)
  exact hfirst.trans_notBefore
    ((Reaches.skipWhile _ _).notBefore ((Reaches.skipWhile _ _).sound hp))

/-- The same where the way to the token has passed nothing yet, or something. -/
theorem Reaches.beyond_synchronize {p q : Parser} (h : Reaches p q) (hp : p.Sound)
    (ht : ¬p.atTerminator) : Beyond p q.synchronize := by
  have he : ¬p.atEnd := fun he => ht (by rw [atTerminator, he]; simp)
  rcases h.eq_or_beyond hp he with hsame | hbeyond
  · have hq : ¬q.atTerminator := by
      have : p.course.atTerminator = q.course.atTerminator := by rw [hsame]
      exact fun hq => ht (this.trans hq)
    exact (NotBefore.of_course hsame).trans_beyond ((h.sound hp).beyond_synchronize hq)
  · exact hbeyond.trans_notBefore ((Reaches.synchronize q).notBefore (h.sound hp))

/-! ## Quoted bodies -/

theorem remaining_le (p : Parser) : p.remaining ≤ p.lexer.source.utf8ByteSize + 1 := by
  rw [remaining]
  split
  · exact Nat.zero_le _
  · exact Nat.sub_le _ _

theorem nested_source (p : Parser) (body : String) : (p.nested body).lexer.source = body :=
  source_ofSource body p.dialect p.expired p.pools

/-- A quoted text and its quotes lie in the source. -/
theorem Sound.quoted_le {p : Parser} (hp : p.Sound) (h : p.current.kind.isText) :
    ¬p.atEnd ∧ p.current.span.start + (p.current.literal.utf8ByteSize + 2) ≤
      p.lexer.source.utf8ByteSize := by
  have hcurrent : p.current.isEof = false := by
    rw [Token.isEof, beq_eq_false_iff_ne]
    intro hk
    rw [hk] at h
    cases h
  have hquoted := hp.current.quoted h
  have hstop := hp.current.bounded hcurrent
  refine ⟨?_, by omega⟩
  rw [atEnd, hcurrent]
  exact Bool.false_ne_true

/-- The text of a quoted body is shorter than the source around it. -/
theorem Sound.nested_source_lt {p : Parser} (hp : p.Sound) (h : p.current.kind.isText) :
    (p.nested p.current.literal).lexer.source.utf8ByteSize < p.lexer.source.utf8ByteSize := by
  have hle := (hp.quoted_le h).2
  rw [nested_source]
  omega

/-- So the parser of a quoted body has less before it. -/
theorem Sound.beyond_nested {p : Parser} (hp : p.Sound) (h : p.current.kind.isText) :
    Beyond p (p.nested p.current.literal) := by
  have hquoted := hp.quoted_le h
  refine ⟨?_, Prod.Lex.toLex_lt_toLex.2 (.inl (hp.nested_source_lt h))⟩
  have hremaining := remaining_le (p.nested p.current.literal)
  rw [nested_source] at hremaining
  rw [remaining.eq_def p, if_neg hquoted.1]
  omega

end Parser

end SqlFrontend
