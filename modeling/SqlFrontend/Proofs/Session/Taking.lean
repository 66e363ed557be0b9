import SqlFrontend.Proofs.Grammar.Following
import SqlFrontend.Proofs.Lexing.Seam
import SqlFrontend.Proofs.Lexing.Words
import SqlFrontend.Proofs.Parsing.Telling
import SqlFrontend.Proofs.Session.RoundTrip
import SqlFrontend.Proofs.Session.SameText

/-!
# Texts that a production takes

A clause is often written alone before it is written among others. What a production takes alone, up to
what stands behind it, it takes before other clauses as well.

Results:
* `Production.TakesBefore`: a production reads all of a text and stops at what stands on the next line.
  `Production.Takes`: a parenthesis stands there.
* `Production.Reads`: before given pieces, a production reads a value, outside of routines.
* `Reads.of_run`: it does so wherever these pieces are ahead, if it does so once.
* `TakesBefore.follows_instead`, `TakesBefore.tells_instead`: what is taken before one text is taken before
  another one. `Takes.reads_lines`: what is taken alone is read before lines with which it cannot go on.
-/

namespace SqlFrontend

namespace Parser

/-! ## Parsers outside of routines -/

/-- A parser of a dialect that stops at errors and is in no routine. -/
structure Plain (d : Dialect) (p : Parser) : Prop where
  dialect : p.dialect = d
  halting : p.recovering = false
  outside : p.routineDepth = 0

theorem Plain.reaches {d : Dialect} {p q : Parser} (h : p.Plain d) (hpq : p.Reaches q) : q.Plain d :=
  ⟨hpq.dialect.trans h.dialect, hpq.recovering.trans h.halting, hpq.routineDepth.trans h.outside⟩

theorem plain_ofSource (source : String) (d : Dialect) (pools : Pools) :
    (ofSource source d false pools).Plain d := by
  refine ⟨dialect_ofSource source d false pools, ?_, ?_⟩
  all_goals rw [ofSource_eq, countCurrent_eq]

theorem before_ofSource (source : String) (d : Dialect) (pools : Pools) :
    (ofSource source d false pools).Before (Lexer.tokenize source d) := by
  have hsound := sound_ofSource source d false pools
  have hupcoming := upcoming_ofSource source d false pools
  rw [ofSource_eq, countCurrent_eq] at hsound hupcoming ⊢
  exact ⟨hsound, rfl, rfl, rfl, rfl, rfl, hupcoming⟩

theorem SameText.upcoming {p q : Parser} (h : p.SameText q) :
    p.upcoming.map Token.piece = q.upcoming.map Token.piece := by
  have hcurrent := h.alike.current
  have hpeek := h.alike.peek
  have hpiece {t t' : Token} (h : t.Alike AnyPlace t') : t.piece = t'.piece := by
    rw [Token.piece, Token.piece, h.kind, h.literal]
  rw [Parser.upcoming, Parser.upcoming, hcurrent.isEof, hpeek.isEof]
  split
  · simp [hpiece hcurrent]
  split <;> simp [hpiece hcurrent, hpiece hpeek, h.ahead]

end Parser

namespace Production

/-- Before the pieces `ps`, a production reads a value outside of routines, and stops before `qs`. -/
def Reads {α : Type} (d : Dialect) (m : Production α) (ps : List Piece) (a : α) (qs : List Piece) : Prop :=
  ∀ p : Parser, p.Ahead ps → p.Plain d → ∃ q, m p = .ok a q ∧ q.Ahead qs ∧ p.Reaches q

namespace Reads

variable {d : Dialect} {α β σ : Type} {m : Production α} {a : α} {t u : Piece} {ps qs rs : List Piece}

theorem of_parsesIn (h : ParsesIn (some d) m ps a qs) : Reads d m ps a qs := by
  intro p hp hplain
  obtain ⟨q, hq, hqs, -, hreaches⟩ := h p hp fun _ hd => by cases hd; exact hplain.dialect
  exact ⟨q, hq, hqs, hreaches⟩

theorem bind {f : α → Production β} {b : β} (hm : Reads d m ps a qs) (hf : Reads d (f a) qs b rs) :
    Reads d (m >>= f) ps b rs := by
  intro p hp hplain
  obtain ⟨q, hq, hqs, hreaches⟩ := hm p hp hplain
  obtain ⟨r, hr, hrs, hreaches'⟩ := hf q hqs (hplain.reaches hreaches)
  refine ⟨r, ?_, hrs, hreaches.trans hreaches'⟩
  rw [run_bind, hq]
  exact hr

theorem map {f : α → β} (hm : Reads d m ps a qs) : Reads d (f <$> m) ps (f a) qs := by
  rw [map_eq_pure_bind]
  exact hm.bind (.of_parsesIn .ret)

theorem loopMore {round : σ → Production (Step σ α)} {s s' : σ}
    (h : Reads d (round s) ps (.more s') qs) (hless : qs.length < ps.length)
    (hothers : Reads d (loop round s') qs a rs) : Reads d (loop round s) ps a rs := by
  intro p hp hplain
  obtain ⟨q, hq, hqs, hreaches⟩ := h p hp hplain
  obtain ⟨r, hr, hrs, hreaches'⟩ := hothers q hqs (hplain.reaches hreaches)
  refine ⟨r, ?_, hrs, hreaches.trans hreaches'⟩
  have hshorter : q.upcoming.length < p.upcoming.length := by
    rwa [← hqs.pieces, ← hp.pieces, List.length_map, List.length_map] at hless
  have hfewer := (Junction.beyond_of_length_lt hreaches hp.sound hshorter).remaining
  rw [run_loop_more hq hfewer]
  exact hr

theorem listOne (h : Reads d m ps a (t :: qs)) (hstop : t.kind ≠ .comma) :
    Reads d (list m) ps [a] (t :: qs) := by
  refine h.bind (.of_parsesIn (.bind (.loopDone (.bind (.bindIfFalse (.consumeFalse hstop) .ret) .ret)) .ret))

theorem inParens (h : Reads d m ps a (.of .rightParen :: qs)) :
    Reads d (Production.inParens m) (.of .leftParen :: ps) a qs := by
  refine bind (.of_parsesIn (.expect (k := .leftParen) rfl nofun)) (h.bind (.of_parsesIn ?_))
  exact .bind (.expect (k := .rightParen) rfl nofun) .ret

/-- What a production does once it does wherever the same pieces are ahead. -/
theorem of_run {l : α → Level} (hm : ∀ (L : Likeness) b, L.Lockstep b .start m m l) {p p' : Parser}
    (hlong : 1 < ps.length) (hp : p.Ahead ps) (hplain : p.Plain d) (heq : m p = .ok a p')
    (hqs : p'.upcoming.map Token.piece = qs) : Reads d m ps a qs := by
  obtain ⟨t, u, ps, rfl⟩ : ∃ t u us, ps = t :: u :: us := by
    rcases ps with _ | ⟨t, _ | ⟨u, us⟩⟩
    · cases hlong
    · exact absurd hlong (lt_irrefl 1)
    · exact ⟨t, u, us, rfl⟩
  intro q hq hqplain
  have hsame : p.SameText q := hp.sameText hq (hplain.dialect.trans hqplain.dialect.symm)
    (hplain.outside.trans hqplain.outside.symm) hplain.halting hqplain.halting
  have htext := hm .text (p, q) (p, q) ⟨.refl p, .refl q⟩ p q hsame ⟨.refl p, .refl q⟩
  have hself := hm (.same .equal q.errors) (q, q) (q, q) ⟨.refl q, .refl q⟩ q q hq.underway.same
    ⟨.refl q, .refl q⟩
  rw [heq] at htext
  cases hmq : m q with
  | error e q' =>
    rw [hmq] at htext
    cases htext with
    | past h => cases h; contradiction
  | ok b q' =>
    rw [hmq] at htext hself
    cases htext with
    | past h => cases h; contradiction
    | ok hstate hl hr _ =>
      cases hself with
      | past h => cases h; contradiction
      | ok hstate' _ _ _ =>
        have hrecovering : ¬q'.recovering := by simp [hr.recovering.trans hqplain.halting]
        have hexpired : ¬q'.expired := by simp [hr.expired.trans hq.live]
        have herrors : q'.errors = q.errors :=
          (hstate'.1.kept.resolve_left hrecovering).resolve_left hexpired
        refine ⟨q', rfl, ⟨hstate.right, hstate'.2, herrors.trans hq.errorless, ?_, ?_, ?_, ?_⟩, hr⟩
        · exact Bool.eq_false_iff.2 hexpired
        · exact Bool.eq_false_iff.2 hstate.not_cancelled.2
        · exact hstate.alike.pools.2
        · exact hstate.upcoming.symm.trans hqs

end Reads

end Production

/-! ## Texts on lines of their own -/

namespace Lexer

/-- The pieces of a text, without its end. -/
def front (d : Dialect) (text : String) : List Piece :=
  ((tokenize text d).filter fun t => !t.isEof).map Token.piece

/-- Comments, strings and names of a text have their ends. -/
def Complete (d : Dialect) (text : String) : Prop := ∀ t ∈ tokenize text d, t.isUnterminated = false

instance (d : Dialect) (text : String) : Decidable (Complete d text) :=
  inferInstanceAs (Decidable (∀ t ∈ tokenize text d, t.isUnterminated = false))

variable {d : Dialect} {text : String}

/-- The end of a text is its last token. -/
theorem tokens_eq_front (lexer : Lexer) : ∃ last,
    lexer.tokens = lexer.tokens.filter (fun t => !t.isEof) ++ [last] ∧ last.piece = Grammar.endPiece := by
  fun_induction tokens lexer with
  | case1 lexer token behind hnext hend =>
    have hkind : token.kind = .eof := eq_of_beq hend
    have hliteral := (next_literal lexer).2
    rw [hnext] at hliteral
    refine ⟨token, ?_, congrArg₂ Piece.mk hkind (hliteral hkind)⟩
    rw [List.filter_cons_of_neg (by simp [hend])]
    rfl
  | case2 lexer token behind hnext hend ih =>
    obtain ⟨last, htokens, hlast⟩ := ih
    refine ⟨last, ?_, hlast⟩
    rw [List.filter_cons_of_pos (by simp [hend]), List.cons_append, ← htokens]

theorem pieces_eq_front (d : Dialect) (text : String) :
    pieces d text.toList = front d text ++ [Grammar.endPiece] := by
  obtain ⟨last, htokens, hlast⟩ := tokens_eq_front (ofSource text d)
  rw [← map_piece_tokenize, tokenize, htokens, List.map_append, List.map_singleton, hlast]
  rfl

theorem pieces_ne_nil (d : Dialect) (text : String) : pieces d text.toList ≠ [] := by
  rw [pieces_eq_front]
  exact List.append_ne_nil_of_right_ne_nil _ (List.cons_ne_nil _ _)

theorem Complete.tokens_line (h : Complete d text) (rest : String) :
    ∃ bytes lines, tokenize (text ++ "\n" ++ rest) d =
      (tokenize text d).filter (fun t => !t.isEof) ++ (tokenize rest d).map (Token.moved bytes lines) := by
  have hjoin : ofSource (text ++ "\n" ++ rest) d = (ofSource text d).followed rest := by
    simp [ofSource, followed, Cursor.start, Cursor.followed]
  exact ⟨_, _, by rw [tokenize, hjoin, tokens_followed h]; rfl⟩

theorem Complete.pieces_line (h : Complete d text) (rest : String) :
    pieces d (text ++ "\n" ++ rest).toList = front d text ++ pieces d rest.toList := by
  obtain ⟨bytes, lines, htokens⟩ := h.tokens_line rest
  rw [← map_piece_tokenize, htokens, List.map_append, List.map_map, ← map_piece_tokenize]
  rfl

/-- Several lines, and a text behind them. -/
def linesText (lines : List String) (last : String) : String :=
  lines.foldr (fun line rest => line ++ "\n" ++ rest) last

theorem pieces_linesText {lines : List String} (h : ∀ line ∈ lines, Complete d line) (last : String) :
    pieces d (linesText lines last).toList = lines.flatMap (front d) ++ pieces d last.toList := by
  induction lines with
  | nil => rfl
  | cons line lines ih =>
    rw [List.flatMap_cons, List.append_assoc, ← ih fun line h' => h line (List.mem_cons_of_mem _ h')]
    exact (h line List.mem_cons_self).pieces_line _

/-- Lines, and what closes them as another text on a line of its own does. -/
theorem pieces_intercalate {closing last line : String} {lines : List String}
    (h : ∀ line' ∈ line :: lines, Complete d line' ∧
      pieces d (line' ++ closing).toList = pieces d (line' ++ "\n" ++ last).toList) :
    pieces d ("\n".intercalate (line :: lines) ++ closing).toList =
      (line :: lines).flatMap (front d) ++ pieces d last.toList := by
  induction lines generalizing line with
  | nil =>
    obtain ⟨hcomplete, hclosing⟩ := h line List.mem_cons_self
    rw [String.intercalate_singleton, hclosing, hcomplete.pieces_line, List.flatMap_singleton]
  | cons line' lines ih =>
    rw [String.intercalate_cons_cons, String.append_assoc, (h line List.mem_cons_self).1.pieces_line,
      ih fun x hx => h x (List.mem_cons_of_mem _ hx)]
    exact (List.append_assoc _ _ _).symm

theorem pieces_lines {line : String} {lines : List String} (h : ∀ line' ∈ line :: lines, Complete d line') :
    pieces d ("\n".intercalate (line :: lines)).toList =
      (line :: lines).flatMap (front d) ++ [Grammar.endPiece] := by
  have hend : pieces d "".toList = [Grammar.endPiece] := pieces_nil d
  have hlines (line' : String) (h' : line' ∈ line :: lines) : Complete d line' ∧
      pieces d (line' ++ "").toList = pieces d (line' ++ "\n" ++ "").toList := by
    refine ⟨h line' h', ?_⟩
    rw [(h line' h').pieces_line, hend, String.append_empty, pieces_eq_front]
  have hpieces := pieces_intercalate hlines
  rwa [String.append_empty, hend] at hpieces

theorem utf8ByteSize_line (line rest : String) :
    rest.utf8ByteSize < (line ++ "\n" ++ rest).utf8ByteSize := by
  have : "\n".utf8ByteSize = 1 := by decide
  simp only [String.utf8ByteSize_append]
  omega

theorem utf8ByteSize_lt_line (line rest : String) :
    line.utf8ByteSize < (line ++ "\n" ++ rest).utf8ByteSize := by
  have : "\n".utf8ByteSize = 1 := by decide
  simp only [String.utf8ByteSize_append]
  omega

/-- Lines that follow make a text longer. -/
theorem utf8ByteSize_linesText (line : String) (lines : List String) (last : String) :
    last.utf8ByteSize < (linesText (line :: lines) last).utf8ByteSize := by
  induction lines generalizing line with
  | nil => exact utf8ByteSize_line line last
  | cons line' lines ih => exact (ih line').trans (utf8ByteSize_line line _)

theorem utf8ByteSize_lt_linesText {line : String} {lines : List String} (h : line ∈ lines) (last : String) :
    line.utf8ByteSize < (linesText lines last).utf8ByteSize := by
  induction lines with
  | nil => cases h
  | cons line' lines ih =>
    rcases List.mem_cons.1 h with rfl | h
    · exact utf8ByteSize_lt_line line _
    · exact (ih h).trans (utf8ByteSize_line line' _)

/-- The parsers of two texts that begin with the same tokens, of which the second one is longer. -/
theorem at_ofSource {J : Junction} {xs : List Token} {text' : String} (pools : Pools)
    (hleft : tokenize text d = xs ++ J.left) (hright : tokenize text' d = xs ++ J.right)
    (hlong : text.utf8ByteSize < text'.utf8ByteSize) :
    J.At xs (.ofSource text d false pools) (.ofSource text' d false pools) := by
  have hbefore := Parser.before_ofSource text d pools
  have hbefore' := Parser.before_ofSource text' d pools
  have hplain := Parser.plain_ofSource text d pools
  have hplain' := Parser.plain_ofSource text' d pools
  rw [hleft] at hbefore
  rw [hright] at hbefore'
  refine ⟨hbefore, hbefore', hplain.dialect.trans hplain'.dialect.symm,
    hplain.outside.trans hplain'.outside.symm, ?_, ?_, fun x hx hclosing => ?_⟩
  · rw [Parser.ofSource_eq, Parser.ofSource_eq, Parser.countCurrent_eq, Parser.countCurrent_eq]
  · rwa [Parser.source_ofSource, Parser.source_ofSource]
  · have htoken : x ∈ tokenize text d := hleft ▸ List.mem_append_left _ hx
    have hvariable := closing_of_mem_tokens htoken hclosing
    rcases TokenKind.eq_of_isOpen hclosing with hk | hk <;> rw [Token.closes, hk, hvariable] <;> rfl

/-- The junction of a text with two texts that may follow it, of which the second is longer. -/
theorem Complete.junction (h : Complete d text) {next next' : String}
    (hlong : next.utf8ByteSize < next'.utf8ByteSize) :
    ∃ (J : Junction) (xs : List Token),
      J.At xs (.ofSource (text ++ "\n" ++ next) d false {}) (.ofSource (text ++ "\n" ++ next') d false {}) ∧
      xs.map Token.piece = front d text ∧
      J.left.map Token.piece = pieces d next.toList ∧ J.right.map Token.piece = pieces d next'.toList := by
  have htokens (rest : String) : ∃ t ts, tokenize rest d = t :: ts := by
    refine List.exists_cons_of_ne_nil fun hnil => pieces_ne_nil d rest ?_
    rw [← map_piece_tokenize, hnil]
    rfl
  obtain ⟨x, xs, hx⟩ := htokens next
  obtain ⟨y, ys, hy⟩ := htokens next'
  obtain ⟨bytes, lines, hleft⟩ := h.tokens_line next
  obtain ⟨bytes', lines', hright⟩ := h.tokens_line next'
  rw [hx] at hleft
  rw [hy] at hright
  let J : Junction :=
    ⟨x.moved bytes lines, xs.map (.moved bytes lines), y.moved bytes' lines', ys.map (.moved bytes' lines')⟩
  refine ⟨J, (tokenize text d).filter fun t => !t.isEof, at_ofSource {} hleft hright ?_, rfl, ?_, ?_⟩
  · simp only [String.utf8ByteSize_append]
    exact Nat.add_lt_add_left hlong _
  · rw [← map_piece_tokenize, hx, List.map_cons, Junction.left, List.map_cons, List.map_map]
    rfl
  · rw [← map_piece_tokenize, hy, List.map_cons, Junction.right, List.map_cons, List.map_map]
    rfl

end Lexer

namespace Production

variable {d : Dialect} {α β : Type} {m : Production α} {a : α} {text next next' : String} {l : α → Level}

/-- A production takes a text where another one stands on the next line: it reads all of the text, and
stops before the other one. -/
structure TakesBefore (m : Production α) (d : Dialect) (text next : String) (a : α) : Prop where
  complete : Lexer.Complete d text
  reads : ∃ p, m (.ofSource (text ++ "\n" ++ next) d false {}) = .ok a p ∧
    p.upcoming.map Token.piece = Lexer.pieces d next.toList

namespace TakesBefore

/-- A run that a test tells apart shows that a text is taken. -/
theorem of_run' {f : α → Bool} (hcomplete : Lexer.Complete d text) (hf : ∀ b, f b → b = a)
    (h : EStateM.run' (do return (f (← m), (← get).upcoming.map Token.piece))
      (Parser.ofSource (text ++ "\n" ++ next) d false {}) = some (true, Lexer.pieces d next.toList)) :
    m.TakesBefore d text next a := by
  refine ⟨hcomplete, ?_⟩
  delta EStateM.run' EStateM.run at h
  rw [run_bind] at h
  cases hrun : m (Parser.ofSource (text ++ "\n" ++ next) d false {}) with
  | error e q =>
    rw [hrun] at h
    cases h
  | ok b q =>
    rw [hrun] at h
    obtain ⟨hfound, hpieces⟩ := Prod.mk.inj (Option.some.inj h)
    exact ⟨q, by rw [hf b hfound], hpieces⟩

/-- What is read from the pieces of a text is taken from the text. -/
theorem of_parses (hcomplete : Lexer.Complete d text)
    (h : Parses m (Lexer.pieces d (text ++ "\n" ++ next).toList) a (Lexer.pieces d next.toList)) :
    m.TakesBefore d text next a := by
  obtain ⟨p, heq, hp, -⟩ := h _ (Parser.ahead_ofSource _ d Pools.isFresh_empty) nofun
  exact ⟨hcomplete, p, heq, hp.pieces⟩

/-- The parser that a text is taken from. -/
theorem ahead (h : m.TakesBefore d text next a) : (Parser.ofSource (text ++ "\n" ++ next) d false {}).Ahead
    (Lexer.front d text ++ Lexer.pieces d next.toList) := by
  rw [← h.complete.pieces_line]
  exact Parser.ahead_ofSource _ d Pools.isFresh_empty

theorem one_lt (hne : Lexer.front d text ≠ []) :
    1 < (Lexer.front d text ++ Lexer.pieces d next.toList).length := by
  have hfront := List.length_pos_of_ne_nil hne
  have hnext := List.length_pos_of_ne_nil (Lexer.pieces_ne_nil d next)
  rw [List.length_append]
  omega

/-- What is taken from a text is read from its pieces. -/
theorem reads_here (hm : ∀ (L : Likeness) b, L.Lockstep b .start m m l) (h : m.TakesBefore d text next a)
    (hne : Lexer.front d text ≠ []) :
    Reads d m (Lexer.front d text ++ Lexer.pieces d next.toList) a (Lexer.pieces d next.toList) := by
  obtain ⟨p, heq, hqs⟩ := h.reads
  exact .of_run hm (one_lt hne) h.ahead (Parser.plain_ofSource _ d _) heq hqs

/-- What is taken before one text is taken before a longer one, if the production comes to the same there. -/
theorem instead (h : m.TakesBefore d text next a) (hne : Lexer.front d text ≠ [])
    (hlong : next.utf8ByteSize < next'.utf8ByteSize)
    (hsame : ∀ (J : Junction) (p : Parser), J.left.map Token.piece = Lexer.pieces d next.toList →
      J.right.map Token.piece = Lexer.pieces d next'.toList →
      J.Stands .inside (.ofSource (text ++ "\n" ++ next) d false {})
        (.ofSource (text ++ "\n" ++ next') d false {}) →
      m (.ofSource (text ++ "\n" ++ next) d false {}) = .ok a p →
      p.current.piece ∈ (Lexer.pieces d next.toList).head? →
      J.Past p ∨ ∃ q, m (.ofSource (text ++ "\n" ++ next') d false {}) = .ok a q ∧ ∃ xs, J.At xs p q) :
    m.TakesBefore d text next' a := by
  obtain ⟨J, xs, hat, hxs, hleft, hright⟩ := h.complete.junction hlong
  obtain ⟨p, heq, hqs⟩ := h.reads
  have hlength : p.upcoming.length = J.left.length := by
    rw [← List.length_map Token.piece, hqs, ← hleft, List.length_map]
  have hcurrent : p.current.piece ∈ (Lexer.pieces d next.toList).head? := by
    obtain ⟨t, ts, hts⟩ := List.exists_cons_of_ne_nil (Lexer.pieces_ne_nil d next)
    rw [hts] at hqs ⊢
    obtain ⟨x, _, hx, hpiece, -⟩ := List.map_eq_cons_iff.1 hqs
    rw [Parser.current_of_upcoming hx, hpiece]
    rfl
  have hinside : J.Stands .inside (.ofSource (text ++ "\n" ++ next) d false {})
      (.ofSource (text ++ "\n" ++ next') d false {}) := by
    cases xs with
    | nil => exact absurd hxs.symm hne
    | cons x xs => exact .inr ⟨x, xs, hat⟩
  rcases hsame J p hleft hright hinside heq hcurrent with hpast | ⟨q, hq, ys, hat'⟩
  · exact absurd hpast.length (by omega)
  obtain rfl : ys = [] := by
    have := congrArg List.length hat'.left.upcoming
    rw [List.length_append] at this
    exact List.eq_nil_of_length_eq_zero (by omega)
  refine ⟨h.complete, q, hq, ?_⟩
  rw [hat'.right.upcoming]
  exact hright

/-- A production that follows takes the same. Nothing is said where it stops before certain kinds of
tokens. -/
theorem follows_instead (E : TokenKind → Prop) (h : m.TakesBefore d text next a)
    (hne : Lexer.front d text ≠ []) (hlong : next.utf8ByteSize < next'.utf8ByteSize)
    (hstop : ∀ t ∈ (Lexer.pieces d next.toList).head?, ¬E t.kind)
    (hfollows : ∀ J : Junction, J.left.map Token.piece = Lexer.pieces d next.toList →
      J.right.map Token.piece = Lexer.pieces d next'.toList → ∀ n,
      J.FollowsUnless (fun _ p => E p.current.kind) .inside n m) : m.TakesBefore d text next' a := by
  refine h.instead hne hlong fun J p hleft hright hinside heq hcurrent => ?_
  obtain ⟨-, hto⟩ := hfollows J hleft hright _ _ _ hinside (Nat.lt_succ_self _) a p heq (hstop _ hcurrent)
  exact hto.imp_right fun ⟨q, hq, _, hat⟩ => ⟨q, hq, hat⟩

/-- A production that tells texts apart takes the same if that is what it reads there. -/
theorem tells_instead (E : TokenKind → Prop) (h : m.TakesBefore d text next a)
    (hne : Lexer.front d text ≠ []) (hlong : next.utf8ByteSize < next'.utf8ByteSize)
    (hstop : ∀ t ∈ (Lexer.pieces d next.toList).head?, ¬E t.kind)
    (htells : ∀ J : Junction, J.left.map Token.piece = Lexer.pieces d next.toList →
      J.right.map Token.piece = Lexer.pieces d next'.toList →
      J.Tells (fun _ p => E p.current.kind) (· ≠ ·) .inside m)
    (hsame : ∃ q, m (.ofSource (text ++ "\n" ++ next') d false {}) = .ok a q) :
    m.TakesBefore d text next' a := by
  refine h.instead hne hlong fun J p hleft hright hinside heq hcurrent => ?_
  obtain ⟨-, hto⟩ := htells J hleft hright _ _ hinside a p heq (hstop _ hcurrent)
  refine hto.imp_right ?_
  rintro ⟨q, hat, ⟨hq, -⟩ | ⟨-, hapart⟩⟩
  · exact ⟨q, hq, hat⟩
  · obtain ⟨q', hq'⟩ := hsame
    exact absurd rfl (hapart a q' hq')

end TakesBefore

end Production

/-! ## Lines before a parenthesis -/

/-- What follows is quiet if its first pieces are. -/
theorem Junction.Quiet.of_pieces {J : Junction} {t u t' u' : Piece} {ps ps' : List Piece}
    (hleft : J.left.map Token.piece = t :: u :: ps) (hright : J.right.map Token.piece = t' :: u' :: ps')
    (hhere : t.kind.continues = false) (hthere : t'.kind.continues = false)
    (hnamed : J.here.isName → J.there.isName)
    (hoperator : Grammar.operator? t.kind u.kind = none → Grammar.operator? t'.kind u'.kind = none) :
    J.Quiet := by
  obtain ⟨h, hs, hcons, rfl, hbehind⟩ := List.map_eq_cons_iff.1 hleft
  obtain ⟨h', hs', hcons', rfl, hbeyond⟩ := List.map_eq_cons_iff.1 hright
  obtain ⟨x, xs, rfl, rfl, -⟩ := List.map_eq_cons_iff.1 hbehind
  obtain ⟨x', xs', rfl, rfl, -⟩ := List.map_eq_cons_iff.1 hbeyond
  obtain ⟨rfl, hJ⟩ := List.cons.inj hcons
  obtain ⟨rfl, hJ'⟩ := List.cons.inj hcons'
  refine ⟨hhere, hthere, hnamed, ?_, ?_, fun next next' hnext hnext' => ?_⟩
  · rw [hJ]
    exact List.cons_ne_nil _ _
  · rw [hJ']
    exact List.cons_ne_nil _ _
  · rw [hJ] at hnext
    rw [hJ'] at hnext'
    cases hnext
    cases hnext'
    exact hoperator

namespace Lexer

variable {d : Dialect}

/-- A text with which nothing that stands before it goes on. -/
def Apart (d : Dialect) (text : String) : Prop :=
  ∃ t ts, front d text = t :: ts ∧ t.kind.continues = false ∧
    ∀ rest ≠ [], ∃ u us, ts ++ rest = u :: us ∧ Grammar.operator? t.kind u.kind = none

/-- The pieces of several lines, with a parenthesis behind them. -/
def linePieces (d : Dialect) (lines : List String) : List Piece :=
  lines.flatMap (front d) ++ [.of .rightParen, Grammar.endPiece]

theorem pieces_paren (d : Dialect) : pieces d ")".toList = [.of .rightParen, Grammar.endPiece] := by
  have h := pieces_rightParen d []
  rwa [pieces_nil] at h

theorem linePieces_cons (line : String) (lines : List String) :
    linePieces d (line :: lines) = front d line ++ linePieces d lines := by
  simp [linePieces]

theorem linePieces_ne_nil {lines : List String} : linePieces d lines ≠ [] := by
  simp [linePieces]

theorem pieces_linesText_paren {lines : List String} (h : ∀ line ∈ lines, Complete d line) :
    pieces d (linesText lines ")").toList = linePieces d lines := by
  rw [pieces_linesText h, pieces_paren, linePieces]

theorem pieces_intercalate_paren {closing line : String} {lines : List String}
    (h : ∀ line' ∈ line :: lines, Complete d line' ∧
      pieces d (line' ++ closing).toList = pieces d (line' ++ "\n" ++ ")").toList) :
    pieces d ("\n".intercalate (line :: lines) ++ closing).toList = linePieces d (line :: lines) := by
  rw [pieces_intercalate h, pieces_paren, linePieces]

end Lexer

namespace Production

variable {d : Dialect} {α : Type} {m : Production α} {a : α} {text : String} {l : α → Level}

/-- A production takes a text: it reads all of it, and stops before the parenthesis on the next line. -/
abbrev Takes (m : Production α) (d : Dialect) (text : String) (a : α) : Prop := m.TakesBefore d text ")" a

namespace Takes

theorem pieces (h : m.Takes d text a) : Lexer.pieces d (text ++ "\n" ++ ")").toList =
    Lexer.front d text ++ [.of .rightParen, Grammar.endPiece] := by
  rw [h.complete.pieces_line, Lexer.pieces_paren]

/-- What is taken alone is read before any number of lines and the parenthesis behind them, if these go on
with nothing. -/
theorem reads_lines (hm : ∀ (L : Likeness) b, L.Lockstep b .start m m l)
    (hfollows : ∀ J : Junction, J.Quiet → ∀ n,
      J.FollowsUnless (fun _ p => p.current.kind = .dot) .inside n m)
    (h : m.Takes d text a) (hne : Lexer.front d text ≠ []) {lines : List String}
    (hlines : ∀ line ∈ lines, Lexer.Complete d line ∧ Lexer.Apart d line) :
    Reads d m (Lexer.front d text ++ Lexer.linePieces d lines) a (Lexer.linePieces d lines) := by
  cases lines with
  | nil =>
    have hreads := h.reads_here hm hne
    rwa [Lexer.pieces_paren] at hreads
  | cons line lines =>
    obtain ⟨-, hapart⟩ := hlines line List.mem_cons_self
    obtain ⟨t, ts, hfront, ht, hnext⟩ := hapart
    obtain ⟨u, us, hus, hop⟩ := hnext (Lexer.linePieces d lines) Lexer.linePieces_ne_nil
    have hpieces := Lexer.pieces_linesText_paren fun line h => (hlines line h).1
    have hcons : Lexer.linePieces d (line :: lines) = t :: u :: us := by
      rw [Lexer.linePieces_cons, hfront, List.cons_append, hus]
    have hparen := Lexer.pieces_paren d
    have htakes : m.TakesBefore d text (Lexer.linesText (line :: lines) ")") a := by
      refine h.follows_instead (· = .dot) hne (Lexer.utf8ByteSize_linesText line lines ")") ?_
        fun J hleft hright n => ?_
      · rw [hparen]
        rintro t ht
        cases ht
        decide
      rw [hparen] at hleft
      rw [hpieces, hcons] at hright
      refine hfollows J (.of_pieces hleft hright rfl ht (fun hname => ?_) fun _ => hop) n
      have hkind : J.here.kind = .rightParen := congrArg Piece.kind (List.cons.inj hleft).1
      rw [Token.isName, hkind] at hname
      cases hname
    rw [← hpieces]
    exact htakes.reads_here hm hne

end Takes

end Production

end SqlFrontend
