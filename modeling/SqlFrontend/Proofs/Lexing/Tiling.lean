import SqlFrontend.Proofs.Parsing.Course

/-!
# Tokens tile the source

A lexer cuts its source into tokens and the gaps between them. The offsets, lines and columns that it
keeps up step by step are those of the place where it stands, and a gap holds white space and comments
only, whichever dialects the tokens are read under.

Results:
* `Gap`: a text that may separate tokens. `skipTriviaRun_gap` says that the way to a token leads over
  such a text.
* `Cursor.behind`: the place behind a text. `behind_skip` says that every move leads to such a place.
* `Scan.faithful_ofChar`: only quoted tokens and illegal ones have a literal that is not their text.
* `Lexer.next_covers`: one step cuts a gap and a token off the text ahead.
* `Lexer.tokens_eq_session`: reading all tokens is a session that asks for nothing else.
* `Lexer.session_tiles`: so the tokens of a session tile the source, in whichever order tokens are
  read and dialects are set.
-/

namespace SqlFrontend

open String (utf8Len)

/-! ## Gaps -/

/-- The texts that open a comment which ends with its line. -/
def OpensLineComment (d : Dialect) (opening : List Char) : Prop :=
  opening = ['-', '-'] ∨ opening = ['#'] ∧ d.hasHashComments

/-- A text that separates tokens under a dialect, with `behind` after it: white space and comments. A
comment that ends with its line is followed by a line feed or by the end of the text; the other kind of
comment ends with the first `*/` in it. -/
inductive Gap (d : Dialect) (behind : List Char) : List Char → Prop
  | empty : Gap d behind []
  | blank {c : Char} {gap : List Char} : Text.isBlank c → Gap d behind gap →
      Gap d behind (c :: gap)
  | lineComment {opening comment gap : List Char} : OpensLineComment d opening →
      '\n' ∉ comment → (gap ++ behind).head?.all (· = '\n') → Gap d behind gap →
      Gap d behind (opening ++ comment ++ gap)
  | blockComment {comment gap : List Char} : ¬['*', '/'] <:+: comment → Gap d behind gap →
      Gap d behind (['/', '*'] ++ comment ++ ['*', '/'] ++ gap)

/-- What stands between a place in a mode and the place where the way over white space and comments
ends. The comment that the place stands in belongs to it. -/
def Trivia.Passes (d : Dialect) (rest : List Char) (there : Cursor) : Trivia → Prop
  | .gap => ∃ gap, rest = gap ++ there.rest ∧ Gap d there.rest gap
  | .lineComment => ∃ comment gap, rest = comment ++ (gap ++ there.rest) ∧ '\n' ∉ comment ∧
      (gap ++ there.rest).head?.all (· = '\n') ∧ Gap d there.rest gap
  | .blockComment opening => there = opening ∨ ∃ comment gap,
      rest = comment ++ ['*', '/'] ++ (gap ++ there.rest) ∧ ¬['*', '/'] <:+: comment ∧
        Gap d there.rest gap

/-- The way to the next token, or to a comment that is never closed, leads over a gap. -/
theorem skipTriviaRun_gap {d : Dialect} {rest : List Char} {mode : Trivia} {here there : Cursor}
    (hr : here.rest = rest)
    (h : here.skipTriviaRun d rest mode = .ok there ∨
      here.skipTriviaRun d rest mode = .error there) :
    mode.Passes d rest there := by
  fun_induction Cursor.skipTriviaRun d rest mode here with
  | case1 opening here =>
    rcases h with h | h
    · cases h
    · cases h; exact .inl rfl
  | case2 mode here hmode =>
    rcases h with h | h
    · cases h
      cases mode with
      | gap => exact ⟨[], by simp [hr], .empty⟩
      | lineComment => exact ⟨[], [], by simp [hr], by simp, by simp [hr], .empty⟩
      | blockComment opening => exact (hmode opening rfl).elim
    · cases h
  | case3 c rest here ih =>
    have hpasses := ih rfl h
    by_cases hc : c = '\n'
    · rw [if_pos hc] at hpasses
      obtain ⟨gap, rfl, hgap⟩ := hpasses
      exact ⟨[], c :: gap, by simp, by simp, by simp [hc],
        .blank (by rw [hc]; decide) hgap⟩
    · rw [if_neg hc] at hpasses
      obtain ⟨comment, gap, rfl, hline, hend, hgap⟩ := hpasses
      refine ⟨c :: comment, gap, by simp, ?_, hend, hgap⟩
      rw [List.mem_cons, not_or]
      exact ⟨fun h => hc h.symm, hline⟩
  | case4 rest here opening ih =>
    obtain ⟨gap, rfl, hgap⟩ := ih rfl h
    exact .inr ⟨[], gap, by simp, by simp, hgap⟩
  | case5 c rest here opening hopen ih =>
    rcases ih rfl h with hthere | ⟨comment, gap, rfl, hclosed, hgap⟩
    · exact .inl hthere
    · refine .inr ⟨c :: comment, gap, by simp, ?_, hgap⟩
      -- the first `*/` is not at `c`, since the comment goes on
      rw [List.infix_cons_iff, not_or]
      refine ⟨fun hprefix => ?_, hclosed⟩
      obtain ⟨t, ht⟩ := hprefix
      rw [List.cons_append, List.cons_append, List.nil_append, List.cons.injEq] at ht
      obtain ⟨rfl, ht⟩ := ht
      exact hopen (t ++ ['*', '/'] ++ (gap ++ there.rest)) rfl (by rw [← ht]; simp)
  | case6 rest here ih =>
    obtain ⟨comment, gap, rfl, hline, hend, hgap⟩ := ih rfl h
    exact ⟨['-', '-'] ++ comment ++ gap, by simp, .lineComment (.inl rfl) hline hend hgap⟩
  | case7 rest here ih =>
    rcases ih rfl h with rfl | ⟨comment, gap, rfl, hclosed, hgap⟩
    · exact ⟨[], by simp [hr], .empty⟩
    · exact ⟨['/', '*'] ++ comment ++ ['*', '/'] ++ gap, by simp, .blockComment hclosed hgap⟩
  | case8 c rest here _ _ hblank ih =>
    obtain ⟨gap, rfl, hgap⟩ := ih rfl h
    exact ⟨c :: gap, rfl, .blank hblank hgap⟩
  | case9 c rest here _ _ _ hhash ih =>
    obtain ⟨comment, gap, rfl, hline, hend, hgap⟩ := ih rfl h
    rw [Bool.and_eq_true, decide_eq_true_eq] at hhash
    refine ⟨['#'] ++ comment ++ gap, ?_, .lineComment (.inr ⟨rfl, hhash.2⟩) hline hend hgap⟩
    rw [hhash.1]
    simp
  | case10 c rest here =>
    rcases h with h | h
    · cases h; exact ⟨[], by simp [hr], .empty⟩
    · cases h

/-! ## Places -/

namespace Cursor

/-- The place behind the text `front`, before the text `rest`. -/
def behind (front rest : List Char) : Cursor where
  rest := rest
  offset := utf8Len front
  line := 1 + front.count '\n'
  column := 1 + (front.reverse.takeWhile (· ≠ '\n')).length

theorem behind_after (front : List Char) (c : Char) (rest : List Char) :
    (behind front (c :: rest)).after c rest = behind (front ++ [c]) rest := by
  by_cases hc : c = '\n'
  · simp [behind, after, hc, Nat.add_assoc]
  · simp [behind, after, hc, Nat.add_comm]

/-- Every move ends behind the text that it leads over. -/
theorem behind_skip (front rest : List Char) (n : ℕ) :
    (behind front rest).skip n = behind (front ++ rest.take n) (rest.drop n) := by
  induction n generalizing front rest with
  | zero => simp [skip]
  | succ n ih =>
    cases rest with
    | nil => rw [skip_nil rfl]; simp
    | cons c rest =>
      have hrest : (behind front (c :: rest)).rest = c :: rest := rfl
      rw [skip_succ hrest, behind_after, ih]
      simp

end Cursor

/-! ## Literals -/

/-- The kinds of tokens whose literal is their text: names that are not quoted, keywords, numbers,
operators and punctuation. -/
def TokenKind.isVerbatim : TokenKind → Bool
  | .eof | .illegal | .quotedIdentifier | .string | .dollarQuote => false
  | _ => true

namespace Scan

/-- A scan with a value of its own is that of a quoted token or of an illegal one. What is said about an
illegal token starts with a letter. -/
structure Faithful (scan : Scan) : Prop where
  verbatim : scan.kind.isVerbatim → scan.literal? = none
  illegal : scan.kind = .illegal → ∃ text, scan.literal? = some ("un" ++ text)

theorem faithful_plain {kind : TokenKind} (next : Cursor) (hk : kind ≠ .illegal := by nofun) :
    Faithful ⟨kind, next, none⟩ :=
  ⟨fun _ => rfl, fun h => absurd h hk⟩

/-- A quoted token has its value. -/
theorem faithful_quoted {kind : TokenKind} (next : Cursor) (value : String)
    (hv : kind.isVerbatim = false := by rfl) (hk : kind ≠ .illegal := by nofun) :
    Faithful ⟨kind, next, some value⟩ :=
  ⟨fun h => absurd h (by rw [hv]; nofun), fun h => absurd h hk⟩

theorem Faithful.ite {p : Prop} [Decidable p] {scan scan' : Scan} (h : scan.Faithful)
    (h' : scan'.Faithful) : (if p then scan else scan').Faithful := by
  by_cases hp : p
  · rwa [if_pos hp]
  · rwa [if_neg hp]

theorem unterminated_literal (what : String) :
    "unterminated " ++ what = "un" ++ ("terminated " ++ what) := by
  rw [← String.append_assoc]
  rfl

theorem faithful_unterminated (what : String) (here : Cursor) :
    (unterminated what here).Faithful :=
  ⟨nofun, fun _ => ⟨_, congrArg some (unterminated_literal what)⟩⟩

theorem faithful_unexpected (c : Char) (here : Cursor) : (unexpected c here).Faithful := by
  refine ⟨nofun, fun _ => ⟨"expected character '" ++ toString c ++ "'", ?_⟩⟩
  rw [unexpected, ← String.append_assoc, ← String.append_assoc]
  rfl

theorem faithful_extended {c : Char} {kind : TokenKind} {here : Cursor} {otherwise : Scan}
    (h : otherwise.Faithful) (hk : kind ≠ .illegal := by nofun) :
    (extended c kind here otherwise).Faithful :=
  .ite (faithful_plain _ hk) h

theorem faithful_string (quote : Char) (here : Cursor) : (string quote here).Faithful := by
  unfold string
  split
  · exact faithful_quoted _ _
  · exact faithful_unterminated _ _

theorem faithful_quotedIdentifier (quote : Char) (here : Cursor) :
    (quotedIdentifier quote here).Faithful := by
  unfold quotedIdentifier
  split
  · exact faithful_quoted _ _
  · exact faithful_unterminated _ _

theorem faithful_dollar (here : Cursor) : (dollar here).Faithful := by
  refine .ite (faithful_plain _) (.ite ?_ (faithful_unexpected _ _))
  extract_lets delimiter
  split
  · exact faithful_quoted _ _
  · exact faithful_unterminated _ _

theorem faithful_word (d : Dialect) (start : Cursor) (c : Char) (here : Cursor) :
    (word d start c here).Faithful := by
  unfold word
  dsimp only
  split
  · exact .ite (faithful_plain _) (faithful_plain _)
  · exact faithful_plain _

theorem faithful_literal (d : Dialect) (start : Cursor) (c : Char) (here : Cursor) :
    (literal d start c here).Faithful := by
  refine .ite (faithful_string _ _) (.ite (faithful_string _ _) ?_)
  split
  · exact faithful_quotedIdentifier _ _
  · exact .ite (faithful_plain _) <| .ite (faithful_plain _) <| .ite (faithful_dollar _) <|
      .ite (faithful_plain _) <| .ite (faithful_word _ _ _ _) (faithful_unexpected _ _)

theorem punctuation_ne_illegal {c : Char} {kind : TokenKind} (h : punctuation? c = some kind) :
    kind ≠ .illegal := by
  unfold punctuation? at h
  split at h <;> cases h <;> exact nofun

/-- A name, a keyword, a number, an operator or punctuation has no value but its text. -/
theorem faithful_ofChar (d : Dialect) (start : Cursor) (c : Char) (here : Cursor) :
    (ofChar d start c here).Faithful := by
  unfold ofChar
  split
  · next kind hkind => exact faithful_plain _ (punctuation_ne_illegal hkind)
  split
  · exact .ite (faithful_plain _) (faithful_extended (faithful_plain _))
  · exact faithful_extended (faithful_extended (faithful_plain _))
  · exact faithful_extended (faithful_plain _)
  · exact faithful_extended (faithful_extended (faithful_plain _))
  · exact faithful_extended (faithful_plain _)
  · exact faithful_extended (faithful_unexpected _ _)
  · exact faithful_extended (faithful_unexpected _ _)
  · exact faithful_literal _ _ _ _

end Scan

/-! ## Single steps -/

/-- A token that was read behind `front` and before `behind` covers `text`: its span is that of the
text, its line and column are those of the first character, counted from the beginning and from the
last line feed. The end of the text, and no other token, is empty. -/
structure Token.Covers (t : Token) (front text behind : List Char) : Prop where
  start : t.span.start = utf8Len front
  stop : t.span.stop = utf8Len (front ++ text)
  line : t.span.line = 1 + front.count '\n'
  column : t.span.column = 1 + (front.reverse.takeWhile (· ≠ '\n')).length
  nonempty : t.isEof = false → text ≠ []
  verbatim : t.kind.isVerbatim → t.literal = String.ofList text
  ended : t.isEof → t.literal = "" ∧ text = [] ∧ behind = []

/-- There is one end of the text. -/
theorem Token.Covers.eq_of_isEof {t t' : Token} {front text behind text' behind' : List Char}
    (h : t.Covers front text behind) (h' : t'.Covers front text' behind') (he : t.isEof)
    (he' : t'.isEof) : t = t' := by
  obtain ⟨hliteral, rfl, -⟩ := h.ended he
  obtain ⟨hliteral', rfl, -⟩ := h'.ended he'
  obtain ⟨kind, literal, span⟩ := t
  obtain ⟨kind', literal', span'⟩ := t'
  obtain rfl : kind = .eof := by simpa [Token.isEof] using he
  obtain rfl : kind' = .eof := by simpa [Token.isEof] using he'
  have hspan : span = span' := by
    obtain ⟨start, stop, line, column⟩ := span
    obtain ⟨start', stop', line', column'⟩ := span'
    rw [Span.mk.injEq]
    exact ⟨h.start.trans h'.start.symm, h.stop.trans h'.stop.symm, h.line.trans h'.line.symm,
      h.column.trans h'.column.symm⟩
  dsimp only at hliteral hliteral'
  rw [hliteral, hliteral', hspan]

namespace Lexer

variable {d : Dialect} {rest : List Char}

theorem skipTrivia_gap {here there : Cursor} {n : ℕ} (hr : here.rest = rest)
    (hthere : there = here.skip n)
    (h : here.skipTrivia d = .ok there ∨ here.skipTrivia d = .error there) :
    Gap d (rest.drop n) (rest.take n) := by
  rw [Cursor.skipTrivia, hr] at h
  obtain ⟨gap, hsplit, hgap⟩ := skipTriviaRun_gap hr h
  have hrest : there.rest = rest.drop n := by rw [hthere, Cursor.skip_rest, hr]
  rw [hrest] at hsplit hgap
  have htake : gap = rest.take n :=
    List.append_cancel_right (hsplit.symm.trans (List.take_append_drop n rest).symm)
  rwa [← htake]

/-- A reading passes over a gap, and its literal is its text unless the token is quoted or illegal. -/
structure Reading.Cuts (r : Reading) (d : Dialect) (rest : List Char) : Prop where
  gap : Gap d (rest.drop r.gap) (rest.take r.gap)
  nonempty : r.kind ≠ .eof → r.text rest ≠ []
  verbatim : r.kind.isVerbatim → r.literal = String.ofList (r.text rest)
  illegal : r.kind = .illegal → ∃ text, r.literal = "un" ++ text
  ended : r.kind = .eof → r.literal = "" ∧ rest.drop r.gap = []

theorem exists_cuts (d : Dialect) (rest : List Char) :
    ∃ r : Reading, r.Cuts d rest ∧ Reads d rest r := by
  let here := Cursor.behind [] rest
  have hhere : here.rest = rest := rfl
  rcases skipTrivia_settled d rest with ⟨n, htrivia, -⟩ | ⟨n, htrivia, hne, -⟩
  · have hgap := skipTrivia_gap hhere rfl (.inl (htrivia here rfl))
    cases hr : rest.drop n with
    | nil =>
      refine ⟨⟨n, 0, .eof, ""⟩, ⟨hgap, absurd rfl, fun hv => ?_, fun hi => ?_, fun _ => ⟨rfl, hr⟩⟩,
        reads_end htrivia hr⟩
      · cases hv
      · cases hi
    | cons c t =>
      obtain ⟨kind, m, literal?, hk, -, hscan⟩ := Scan.ofChar_settled d c t
      have hfaithful : (Scan.ofChar d (here.skip n) c ((here.skip n).after c t)).Faithful :=
        Scan.faithful_ofChar _ _ _ _
      have hfound := hscan (here.skip n) (by rw [Cursor.skip_rest]; exact hr)
      dsimp only at hfound
      rw [hfound] at hfaithful
      refine ⟨_, ⟨hgap, fun _ => ?_, fun hv => ?_, fun hi => ?_, fun h => absurd h hk⟩,
        reads_token htrivia hr hscan⟩
      · rw [Reading.text, hr]
        exact List.cons_ne_nil _ _
      · have hliteral : literal? = none := hfaithful.verbatim hv
        rw [hliteral]
        rfl
      · obtain ⟨text, hliteral⟩ : ∃ text, literal? = some ("un" ++ text) := hfaithful.illegal hi
        rw [hliteral]
        exact ⟨text, rfl⟩
  · have hgap := skipTrivia_gap hhere rfl (.inr (htrivia here rfl))
    refine ⟨_, ?_, reads_unclosed htrivia⟩
    refine ⟨hgap, fun _ => ?_, fun hv => ?_, fun _ => ⟨"terminated " ++ "block comment", ?_⟩,
      fun hk => ?_⟩
    · rwa [Reading.text, List.take_length]
    · cases hv
    · exact Scan.unterminated_literal "block comment"
    · cases hk

/-- What is said about an illegal token starts with a letter, and of the end nothing is said. -/
theorem next_literal (lexer : Lexer) :
    (lexer.next.1.kind = .illegal → ∃ text, lexer.next.1.literal = "un" ++ text) ∧
      (lexer.next.1.kind = .eof → lexer.next.1.literal = "") := by
  obtain ⟨r, hr, hreads⟩ := exists_cuts lexer.dialect lexer.cursor.rest
  rw [hreads lexer rfl rfl]
  exact ⟨hr.illegal, fun h => (hr.ended h).1⟩

/-- One step cuts a gap and a token off the text ahead, and the lexer stands behind them. -/
theorem next_covers {lexer : Lexer} {front : List Char}
    (h : lexer.cursor = .behind front rest) :
    ∃ gap text behind, rest = gap ++ text ++ behind ∧ Gap lexer.dialect (text ++ behind) gap ∧
      lexer.next.1.Covers (front ++ gap) text behind ∧
      lexer.next.2 = { lexer with cursor := .behind (front ++ gap ++ text) behind } := by
  obtain ⟨r, hr, hreads⟩ := exists_cuts lexer.dialect rest
  have hsplit : rest.drop r.gap = r.text rest ++ rest.drop (r.gap + r.length) := by
    rw [Reading.text, ← List.drop_drop, List.take_append_drop]
  have hstart : lexer.cursor.skip r.gap = .behind (front ++ rest.take r.gap) (rest.drop r.gap) := by
    rw [h, Cursor.behind_skip]
  have hstop : lexer.cursor.skip (r.gap + r.length) =
      .behind (front ++ rest.take r.gap ++ r.text rest) (rest.drop (r.gap + r.length)) := by
    rw [Cursor.skip_add, hstart, Cursor.behind_skip, List.drop_drop]
    rfl
  have hgap := hr.gap
  rw [hsplit] at hgap
  rw [hreads lexer rfl (by rw [h]; rfl)]
  refine ⟨rest.take r.gap, r.text rest, rest.drop (r.gap + r.length), ?_, hgap, ?_, ?_⟩
  · rw [List.append_assoc, ← hsplit, List.take_append_drop]
  · have hkind : (r.token lexer.cursor).isEof = decide (r.kind = .eof) := rfl
    rw [Reading.token, hstart, hstop]
    refine ⟨rfl, rfl, rfl, rfl, fun he => hr.nonempty ?_, hr.verbatim, fun he => ?_⟩
    · simpa [Token.isEof] using he
    · obtain ⟨hliteral, hend⟩ := hr.ended (by simpa [Token.isEof] using he)
      rw [hsplit, List.append_eq_nil_iff] at hend
      exact ⟨hliteral, hend⟩
  · dsimp only
    rw [hstop]

/-! ## Sessions -/

/-- What a user of a lexer may ask for. -/
inductive Call where
  /-- The next token. -/
  | next
  /-- Another dialect for the tokens that follow. -/
  | setDialect (dialect : Dialect)

/-- A token with the dialect that it was read under. -/
structure Read where
  dialect : Dialect
  token : Token

/-- The tokens that a lexer gives on a sequence of calls. -/
def session : Lexer → List Call → List Read
  | _, [] => []
  | lexer, .next :: calls => ⟨lexer.dialect, lexer.next.1⟩ :: lexer.next.2.session calls
  | lexer, .setDialect dialect :: calls => (lexer.setDialect dialect).session calls

/-- The lexer behind a sequence of calls. -/
def afterCalls : Lexer → List Call → Lexer
  | lexer, [] => lexer
  | lexer, .next :: calls => lexer.next.2.afterCalls calls
  | lexer, .setDialect dialect :: calls => (lexer.setDialect dialect).afterCalls calls

/-- The token stands in the source as its span says. The end of the text stands behind all of it. -/
structure Read.Placed (read : Read) (source : String) : Prop where
  ordered : read.token.span.start ≤ read.token.span.stop
  bounded : read.token.span.stop ≤ source.utf8ByteSize
  covers : ∃ front text behind, source.toList = front ++ text ++ behind ∧
    read.token.Covers front text behind
  ended : read.token.isEof → read.token.span.start = source.utf8ByteSize

/-- Between two byte offsets of a source stands nothing but a gap. -/
def Separated (source : String) (d : Dialect) (first last : ℕ) : Prop :=
  ∃ front gap behind, source.toList = front ++ gap ++ behind ∧ utf8Len front = first ∧
    utf8Len (front ++ gap) = last ∧ Gap d behind gap

theorem Separated.le {source : String} {first last : ℕ} (h : Separated source d first last) :
    first ≤ last := by
  obtain ⟨front, gap, behind, -, rfl, rfl, -⟩ := h
  rw [String.utf8Len_append]
  exact Nat.le_add_right _ _

/-- The lexer stands behind a part of its source. -/
def Located (lexer : Lexer) (source : String) : Prop :=
  ∃ front rest, source.toList = front ++ rest ∧ lexer.cursor = .behind front rest

variable {source : String} {lexer : Lexer}

theorem located_ofSource (source : String) (d : Dialect) : (ofSource source d).Located source :=
  ⟨[], source.toList, rfl, rfl⟩

theorem Located.setDialect (h : lexer.Located source) (dialect : Dialect) :
    (lexer.setDialect dialect).Located source := h

/-- What one step does in a source. -/
structure Steps (lexer : Lexer) (source : String) : Prop where
  placed : Read.Placed ⟨lexer.dialect, lexer.next.1⟩ source
  separated : Separated source lexer.dialect lexer.cursor.offset lexer.next.1.span.start
  stop : lexer.next.2.cursor.offset = lexer.next.1.span.stop
  located : lexer.next.2.Located source

theorem Located.steps (h : lexer.Located source) : lexer.Steps source := by
  obtain ⟨front, rest, hsource, hcursor⟩ := h
  obtain ⟨gap, text, behind, hrest, hgap, hcovers, hnext⟩ := next_covers hcursor
  have hsplit : source.toList = front ++ gap ++ text ++ behind := by
    rw [hsource, hrest]
    simp only [List.append_assoc]
  have hsize : source.utf8ByteSize = utf8Len (front ++ gap ++ text) + utf8Len behind := by
    rw [← String.utf8Len_toList, hsplit, String.utf8Len_append]
  have hstop : utf8Len (front ++ gap ++ text) = utf8Len (front ++ gap) + utf8Len text :=
    String.utf8Len_append _ _
  refine ⟨⟨?_, ?_, ⟨front ++ gap, text, behind, hsplit, hcovers⟩, fun he => ?_⟩, ?_, ?_, ?_⟩
  · dsimp only
    rw [hcovers.start, hcovers.stop, hstop]
    exact Nat.le_add_right _ _
  · dsimp only
    rw [hcovers.stop, hsize]
    exact Nat.le_add_right _ _
  · obtain ⟨-, rfl, rfl⟩ := hcovers.ended he
    dsimp only
    rw [hcovers.start, hsize, hstop, String.utf8Len_nil, Nat.add_zero]
  · refine ⟨front, gap, text ++ behind, ?_, ?_, hcovers.start.symm, hgap⟩
    · rw [hsplit, List.append_assoc]
    · rw [hcursor]; rfl
  · rw [hnext, hcovers.stop]; rfl
  · exact ⟨_, _, hsplit, by rw [hnext]⟩

theorem Located.afterCalls (h : lexer.Located source) (calls : List Call) :
    (lexer.afterCalls calls).Located source := by
  induction calls generalizing lexer with
  | nil => exact h
  | cons call calls ih =>
    cases call with
    | next => exact ih h.steps.located
    | setDialect dialect => exact ih (h.setDialect dialect)

theorem Located.placed (h : lexer.Located source) (calls : List Call) :
    ∀ read ∈ lexer.session calls, read.Placed source := by
  induction calls generalizing lexer with
  | nil => exact fun _ h => (List.not_mem_nil h).elim
  | cons call calls ih =>
    cases call with
    | next =>
      intro read hread
      rcases List.mem_cons.1 hread with rfl | hread
      · exact h.steps.placed
      · exact ih h.steps.located read hread
    | setDialect dialect => exact ih (h.setDialect dialect)

/-- From where the lexer stands, a gap leads to the first token. -/
theorem Located.separated_head (h : lexer.Located source) (calls : List Call) :
    ∀ read ∈ (lexer.session calls).head?,
      Separated source read.dialect lexer.cursor.offset read.token.span.start := by
  induction calls generalizing lexer with
  | nil => exact fun _ h => (Option.not_mem_none _ h).elim
  | cons call calls ih =>
    cases call with
    | next =>
      intro read hread
      obtain rfl : _ = read := Option.some.inj hread
      exact h.steps.separated
    | setDialect dialect => exact ih (h.setDialect dialect)

/-- From every token, a gap leads to the next one. -/
theorem Located.chain (h : lexer.Located source) (calls : List Call) :
    (lexer.session calls).IsChain fun first second =>
      first.token.span.stop ≤ second.token.span.start ∧
        Separated source second.dialect first.token.span.stop second.token.span.start := by
  induction calls generalizing lexer with
  | nil => exact .nil
  | cons call calls ih =>
    cases call with
    | next =>
      have hhead := h.steps.located.separated_head calls
      have hchain := ih h.steps.located
      rw [h.steps.stop] at hhead
      rw [session]
      cases hlater : lexer.next.2.session calls with
      | nil => exact .singleton _
      | cons second later =>
        rw [hlater] at hhead hchain
        have hseparated := hhead second rfl
        exact .cons_cons ⟨hseparated.le, hseparated⟩ hchain
    | setDialect dialect => exact ih (h.setDialect dialect)

/-! ## The end of the text -/

theorem next_at_end {front : List Char} (h : lexer.cursor = .behind front []) :
    lexer.next.1.isEof ∧ lexer.next.1.Covers front [] [] ∧ lexer.next.2 = lexer := by
  obtain ⟨gap, text, behind, hrest, -, hcovers, hnext⟩ := next_covers h
  obtain ⟨rfl, rfl, rfl⟩ : gap = [] ∧ text = [] ∧ behind = [] := by simpa using hrest.symm
  rw [List.append_nil] at hcovers hnext
  have hend : lexer.next.1.isEof := by
    by_contra he
    exact hcovers.nonempty (by simpa using he) rfl
  rw [List.append_nil, ← h] at hnext
  exact ⟨hend, hcovers, hnext⟩

theorem session_at_end {front : List Char} (h : lexer.cursor = .behind front [])
    (calls : List Call) :
    ∀ read ∈ lexer.session calls, read.token.isEof ∧ read.token.Covers front [] [] := by
  induction calls generalizing lexer with
  | nil => exact fun _ h => (List.not_mem_nil h).elim
  | cons call calls ih =>
    cases call with
    | next =>
      obtain ⟨hend, hcovers, hnext⟩ := next_at_end h
      intro read hread
      rw [session, hnext] at hread
      rcases List.mem_cons.1 hread with rfl | hread
      · exact ⟨hend, hcovers⟩
      · exact ih h read hread
    | setDialect dialect =>
      have hmoved : (lexer.setDialect dialect).cursor = .behind front [] := h
      exact ih hmoved

/-- Every call behind the end of the text gives the end again. -/
theorem Located.pairwise_ended (h : lexer.Located source) (calls : List Call) :
    (lexer.session calls).Pairwise fun first second =>
      first.token.isEof → second.token = first.token := by
  induction calls generalizing lexer with
  | nil => exact .nil
  | cons call calls ih =>
    cases call with
    | next =>
      refine List.pairwise_cons.2 ⟨fun read hread he => ?_, ih h.steps.located⟩
      obtain ⟨front, rest, -, hcursor⟩ := h
      obtain ⟨gap, text, behind, -, -, hcovers, hnext⟩ := next_covers hcursor
      obtain ⟨-, rfl, rfl⟩ := hcovers.ended he
      rw [List.append_nil] at hnext
      have hlater : lexer.next.2.cursor = .behind (front ++ gap) [] := by rw [hnext]
      obtain ⟨he', hcovers'⟩ := session_at_end hlater calls read hread
      exact hcovers'.eq_of_isEof hcovers he' he
    | setDialect dialect => exact ih (h.setDialect dialect)

/-! ## All tokens -/

/-- The tokens that are left are those of a session that asks for nothing else. -/
theorem tokens_eq_session (lexer : Lexer) :
    lexer.tokens =
      (lexer.session (List.replicate lexer.tokens.length .next)).map Read.token := by
  induction hl : lexer.cursor.rest.length using Nat.strong_induction_on generalizing lexer with
  | _ l ih =>
    subst hl
    rw [tokens_eq]
    cases he : lexer.next.1.isEof with
    | true => rfl
    | false =>
      have hlater := ih _ (next_rest_length_lt he) lexer.next.2 rfl
      rw [if_neg nofun, List.length_cons, List.replicate_succ, session, List.map_cons, ← hlater]

theorem length_tokens_le (lexer : Lexer) : lexer.tokens.length ≤ lexer.cursor.rest.length + 1 := by
  induction hl : lexer.cursor.rest.length using Nat.strong_induction_on generalizing lexer with
  | _ l ih =>
    subst hl
    rw [tokens_eq]
    cases he : lexer.next.1.isEof with
    | true => exact Nat.le_add_left _ _
    | false =>
      have hlt := next_rest_length_lt he
      have hlater := ih _ hlt lexer.next.2 rfl
      rw [if_neg nofun, List.length_cons]
      omega

theorem length_le_utf8Len (text : List Char) : text.length ≤ utf8Len text := by
  induction text with
  | nil => rfl
  | cons c text ih =>
    have hc := c.utf8Size_pos
    rw [List.length_cons, String.utf8Len_cons]
    omega

theorem Located.length_tokens_le (h : lexer.Located source) :
    lexer.tokens.length ≤ source.utf8ByteSize + 1 := by
  obtain ⟨front, rest, hsource, hcursor⟩ := h
  have hle := lexer.length_tokens_le
  have hrest : lexer.cursor.rest.length = rest.length := by rw [hcursor]; rfl
  have hbytes := length_le_utf8Len rest
  have hsize : source.utf8ByteSize = utf8Len front + utf8Len rest := by
    rw [← String.utf8Len_toList, hsource, String.utf8Len_append]
  omega

/-- The tokens of a session tile the source: each stands where its span says, the gaps between them
hold white space and comments only, the end of the text is final, and at any point the tokens that are
left are no more than the bytes of the source and the end. -/
theorem session_tiles (source : String) (d : Dialect) (calls : List Call) :
    (∀ read ∈ (ofSource source d).session calls, read.Placed source) ∧
    (∀ read ∈ ((ofSource source d).session calls).head?,
      Separated source read.dialect 0 read.token.span.start) ∧
    (((ofSource source d).session calls).IsChain fun first second =>
      first.token.span.stop ≤ second.token.span.start ∧
        Separated source second.dialect first.token.span.stop second.token.span.start) ∧
    (((ofSource source d).session calls).Pairwise fun first second =>
      first.token.isEof → second.token = first.token) ∧
    ((ofSource source d).afterCalls calls).tokens.length ≤ source.utf8ByteSize + 1 := by
  have h := located_ofSource source d
  exact ⟨h.placed calls, h.separated_head calls, h.chain calls, h.pairwise_ended calls,
    (h.afterCalls calls).length_tokens_le⟩

end Lexer

end SqlFrontend
