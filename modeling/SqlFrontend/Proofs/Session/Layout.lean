import Mathlib.Data.List.Forall2
import SqlFrontend.Proofs.Lexing.Pieces
import SqlFrontend.Proofs.Session.SideBySide

/-!
# Layout is not read

Two sources with the same pieces are read alike, wherever white space, comments and line breaks put
them: no production looks at a place or at the text between two tokens.

* `Lexer.next_pieces`: lexers with the same pieces ahead read the same piece.
* `Parser.SamePieces`, `Likeness.layout`: parsers with the same pieces ahead and the same record of
  errors, but for their places.
* `Parser.results_of_pieces`: a whole run gives the same answers, the same record of errors and the
  same count of tokens.
-/

namespace SqlFrontend

/-! ## Pieces ahead -/

/-- Places that need not correspond. -/
def AnyPlace (_ _ : Span) : Prop := True

theorem Token.alike_of_piece {t t' : Token} (h : t.piece = t'.piece) : t.Alike AnyPlace t' :=
  ⟨congrArg Piece.kind h, congrArg Piece.literal h, trivial⟩

theorem Token.isEof_of_piece {t t' : Token} (h : t.piece = t'.piece) : t.isEof = t'.isEof :=
  (Token.alike_of_piece h).isEof

/-- Behind the end of a text is the end again. -/
theorem Lexer.pieces_behind_end {lexer : Lexer} (h : lexer.next.1.isEof) :
    lexer.next.2.tokens.map Token.piece = [⟨.eof, ""⟩] := by
  rw [map_piece_tokens, next_end h, pieces_nil]

/-- Lexers with the same pieces ahead read the same piece, and have the same ones ahead behind it. -/
theorem Lexer.next_pieces {here there : Lexer}
    (h : here.tokens.map Token.piece = there.tokens.map Token.piece) :
    here.next.1.piece = there.next.1.piece ∧
      here.next.2.tokens.map Token.piece = there.next.2.tokens.map Token.piece := by
  rw [tokens_eq here, tokens_eq there] at h
  have hpiece : here.next.1.piece = there.next.1.piece := by
    split at h <;> split at h <;> exact (List.cons.inj h).1
  refine ⟨hpiece, ?_⟩
  cases hend : here.next.1.isEof with
  | true =>
    have hend' : there.next.1.isEof := (Token.isEof_of_piece hpiece).symm.trans hend
    rw [pieces_behind_end hend, pieces_behind_end hend']
  | false =>
    have hend' : there.next.1.isEof = false := (Token.isEof_of_piece hpiece).symm.trans hend
    rw [hend, hend', if_neg nofun, if_neg nofun] at h
    exact (List.cons.inj h).2

namespace Parser

/-! ## Parsers -/

/-- Errors that are shown alike, one by one. -/
def ErrorsAlike (errors errors' : Array ParseError) : Prop :=
  List.Forall₂ (ParseError.Alike AnyPlace) errors.toList errors'.toList

theorem ErrorsAlike.empty : ErrorsAlike #[] #[] := .nil

theorem ErrorsAlike.push {errors errors' : Array ParseError} {e e' : ParseError}
    (h : ErrorsAlike errors errors') (he : e.Alike AnyPlace e') :
    ErrorsAlike (errors.push e) (errors'.push e') := by
  rw [ErrorsAlike, Array.toList_push, Array.toList_push]
  exact List.rel_append h (.cons he .nil)

theorem ErrorsAlike.append {errors errors' others others' : Array ParseError}
    (h : ErrorsAlike errors errors') (ho : ErrorsAlike others others') :
    ErrorsAlike (errors ++ others) (errors' ++ others') := by
  rw [ErrorsAlike, Array.toList_append, Array.toList_append]
  exact List.rel_append h ho

/-- Errors at one place each are shown alike where their causes are equal. -/
theorem errorsAlike_atPlace (s t : Span) (others : List ParseError) :
    ErrorsAlike (atPlace s others).toArray (atPlace t others).toArray := by
  induction others with
  | nil => exact .nil
  | cons e others ih => exact .cons ⟨.refl e.cause, trivial⟩ ih

/-- Parsers with the same pieces ahead, the same count of tokens and the same record of errors but for
their places; neither is in a quoted body, and time is not limited. -/
structure SamePieces (p q : Parser) : Prop where
  left : p.Sound
  right : q.Sound
  alike : p.Alike AnyPlace .fresh q
  ahead : p.lexer.tokens.map Token.piece = q.lexer.tokens.map Token.piece
  live : p.expired = false
  plain : p.recovering = false
  errors : ErrorsAlike p.errors q.errors
  tokenCount : p.tokenCount = q.tokenCount
  endCounted : p.endCounted = q.endCounted

namespace SamePieces

variable {p q : Parser}

theorem not_cancelled (h : p.SamePieces q) : ¬p.cancelled ∧ ¬q.cancelled := by
  have hp : ¬p.cancelled := fun hc => by
    have := (h.left.stopped hc).1
    rw [h.live] at this
    cases this
  exact ⟨hp, h.alike.cancelled ▸ hp⟩

/-- Only the place, the count and the errors matter. -/
theorem congr {p' q' : Parser} (h : p.SamePieces q)
    (hp : p' = { p with
      errors := p'.errors, deferred := p'.deferred, pools := p'.pools,
      routineDepth := p'.routineDepth })
    (hq : q' = { q with
      errors := q'.errors, deferred := q'.deferred, pools := q'.pools,
      routineDepth := q'.routineDepth })
    (hdepth : p'.routineDepth = q'.routineDepth) (hpools : p'.pools.Alike .fresh q'.pools)
    (herrors : ErrorsAlike p'.errors q'.errors) : p'.SamePieces q' := by
  obtain ⟨hleft, hright, halike, hahead, hlive, hplain, -, hcount, hend⟩ := h
  rw [hp, hq]
  exact ⟨hleft.congr rfl rfl rfl rfl rfl, hright.congr rfl rfl rfl rfl rfl,
    ⟨halike.current, halike.peek, halike.dialect, halike.expired, halike.cancelled,
      halike.recovering, hdepth, hpools⟩, hahead, hlive, hplain, herrors, hcount, hend⟩

/-- Only the count of tokens changes. -/
theorem countCurrent (hp : p.countCurrent.Sound) (hq : q.countCurrent.Sound)
    (h : p.Sound → q.Sound → p.SamePieces q) : p.countCurrent.SamePieces q.countCurrent := by
  rw [countCurrent_eq] at hp hq
  obtain ⟨-, -, halike, hahead, hlive, hplain, herrors, hcount, hend⟩ :=
    h (hp.congr rfl rfl rfl rfl rfl) (hq.congr rfl rfl rfl rfl rfl)
  have hatEnd : p.atEnd = q.atEnd := halike.here.atEnd
  rw [countCurrent_eq, countCurrent_eq]
  refine ⟨hp, hq, ⟨halike.current, halike.peek, halike.dialect, halike.expired, halike.cancelled,
    halike.recovering, halike.routineDepth, halike.pools⟩, hahead, hlive, hplain, herrors, ?_, ?_⟩
  · simp only [hatEnd, hend, hcount]
  · simp only [hatEnd, hend]

theorem advance (h : p.SamePieces q) : p.advance.SamePieces q.advance := by
  obtain ⟨hp, hq⟩ := h.not_cancelled
  have hlive : ¬p.expired := by rw [h.live]; nofun
  have hnext := Lexer.next_pieces h.ahead
  have hsound := And.intro h.left.advance h.right.advance
  have hdialect : p.lexer.next.2.dialect = q.lexer.next.2.dialect := by
    rw [Lexer.next_dialect, Lexer.next_dialect]
    exact h.alike.dialect
  rw [advance_of_live hp hlive, advance_of_live hq (h.alike.expired ▸ hlive)] at hsound ⊢
  exact countCurrent hsound.1 hsound.2 fun hleft hright => ⟨hleft, hright, ⟨h.alike.peek,
    Token.alike_of_piece hnext.1, hdialect, h.alike.expired, h.alike.cancelled,
    h.alike.recovering, h.alike.routineDepth, h.alike.pools⟩, hnext.2, h.live, h.plain, h.errors,
    h.tokenCount, h.endCounted⟩

end SamePieces

end Parser

/-- Parsers with the same pieces ahead. Their errors are shown alike, and none of them is
cancellation. -/
def Likeness.layout : Likeness where
  place := AnyPlace
  how := .fresh
  state p q := p.SamePieces q ∧ p.deferred = #[] ∧ q.deferred = #[]
  failed e p e' q := p.SamePieces q ∧ e.Alike AnyPlace e' ∧
    Parser.ErrorsAlike p.deferred q.deferred ∧ ¬e.isCancelled ∧ ¬e'.isCancelled
  left h := h.1.left
  right h := h.1.right
  alike h := h.1.alike.here
  advance h := .inl ⟨h.1.advance, by rw [Same.deferred_advance, Same.deferred_advance]; exact h.2⟩
  withPools h hPQ := ⟨h.1.congr rfl rfl h.1.alike.routineDepth hPQ h.1.errors, h.2⟩
  atDepth n h := ⟨h.1.congr rfl rfl rfl h.1.alike.pools h.1.errors, h.2⟩
  failed_alike h := h.1.alike.here
  failed_withPools h hPQ := ⟨h.1.congr rfl rfl h.1.alike.routineDepth hPQ h.1.errors, h.2⟩
  failed_atDepth n h := ⟨h.1.congr rfl rfl rfl h.1.alike.pools h.1.errors, h.2⟩
  expects {p q what} h _ _ := by
    obtain ⟨hp, hq⟩ := h.1.not_cancelled
    rw [Parser.expectedError, Parser.expectedError, if_neg hp, if_neg hq]
    refine ⟨h.1, ParseError.alike_unexpected what h.1.alike.current, ?_, nofun, nofun⟩
    rw [h.2.1, h.2.2]
    exact .empty
  fails {p q t t' cause} h _ _ hc := by
    have hlive : ¬cause = .cancelled := fun he => h.1.not_cancelled.1 (hc.cancelled he)
    have hdeferred : Parser.ErrorsAlike p.deferred q.deferred := by
      rw [h.2.1, h.2.2]
      exact .empty
    refine ⟨h.1, ⟨.refl cause, trivial⟩, hdeferred, ?_, ?_⟩ <;>
      rwa [ParseError.isCancelled, beq_iff_eq]
  relays {p q t t' cause others} h _ _ hc _ := by
    have hlive : ¬cause = .cancelled := fun he => h.1.not_cancelled.1 (hc.cancelled he)
    have hdeferred : Parser.ErrorsAlike (p.deferred ++ (atPlace t.span others).toArray)
        (q.deferred ++ (atPlace t'.span others).toArray) := by
      rw [h.2.1, h.2.2]
      exact Parser.ErrorsAlike.empty.append (Parser.errorsAlike_atPlace t.span t'.span others)
    refine ⟨h.1.congr rfl rfl h.1.alike.routineDepth h.1.alike.pools h.1.errors,
      ⟨.refl cause, trivial⟩, hdeferred, ?_, ?_⟩ <;>
      rwa [ParseError.isCancelled, beq_iff_eq]
  record h hr _ := by
    rw [h.1.plain] at hr
    cases hr

/-- Errors are recorded in the same order. -/
theorem Likeness.records_layout : layout.Records := by
  rintro e e' p q ⟨hsame, halike, hdeferred, he, he'⟩
  refine ⟨halike, ?_⟩
  rw [Parser.record, Parser.record, if_neg he, if_neg he']
  exact ⟨hsame.congr rfl rfl hsame.alike.routineDepth hsame.alike.pools
    ((hsame.errors.push halike).append hdeferred), rfl, rfl⟩

namespace Parser

/-- New parsers of sources with the same pieces. -/
theorem abreast_ofSource {a b : String} {d : Dialect}
    (h : (Lexer.tokenize a d).map Token.piece = (Lexer.tokenize b d).map Token.piece) {P Q : Pools}
    (hP : P.IsFresh) (hQ : Q.IsFresh) :
    Likeness.layout.Abreast (ofSource a d false P) (ofSource b d false Q) := by
  have hleft := ready_ofSource a d P
  have hright := ready_ofSource b d Q
  have hcurrent := @Lexer.next_pieces (.ofSource a d) (.ofSource b d) h
  have hpeek := Lexer.next_pieces hcurrent.2
  have hsound := And.intro hleft.sound hright.sound
  have hdialect := (dialect_ofSource a d false P).trans (dialect_ofSource b d false Q).symm
  refine ⟨hleft, hright, ⟨?_, hleft.settled, hright.settled⟩, fun _ => id⟩
  rw [ofSource_eq, countCurrent_eq, ofSource_eq, countCurrent_eq] at hdialect
  rw [ofSource_eq, ofSource_eq] at hsound ⊢
  exact .countCurrent hsound.1 hsound.2 fun hleft hright => ⟨hleft, hright,
    ⟨Token.alike_of_piece hcurrent.1, Token.alike_of_piece hpeek.1, hdialect, rfl, rfl, rfl, rfl,
      hP, hQ⟩, hpeek.2, rfl, rfl, .empty, rfl, rfl⟩

/-- Layout and comments never change how a source is read. Two sources whose tokens agree on kind and
literal give the same statements and errors that are shown alike, keep the same record of errors, but
for their places, and take the same count of tokens. -/
theorem results_of_pieces (a b : String) (d : Dialect)
    (h : (Lexer.tokenize a d).map Token.piece = (Lexer.tokenize b d).map Token.piece) {P Q : Pools}
    (hP : P.IsFresh) (hQ : Q.IsFresh) :
    let p := ofSource a d false P
    let q := ofSource b d false Q
    List.Forall₂ (AnswerAlike AnyPlace) p.results.1 q.results.1 ∧
      ErrorsAlike p.results.2.errors q.results.2.errors ∧
      p.results.2.tokenCount = q.results.2.tokenCount := by
  intro p q
  have hresults := (abreast_ofSource h hP hQ).results Likeness.records_layout
  have hlast := hresults.2.state.1
  exact ⟨hresults.1, hlast.errors, hlast.tokenCount⟩

/-- A comment in place of a blank. -/
theorem results_of_pieces_comment :
    let p := ofSource "SELECT a" .mySql false {}
    let q := ofSource "SELECT/**/\n a --" .mySql false {}
    (Lexer.tokenize "SELECT a" .mySql).map Token.piece =
        (Lexer.tokenize "SELECT/**/\n a --" .mySql).map Token.piece ∧
      Pools.IsFresh {} ∧ List.Forall₂ (AnswerAlike AnyPlace) p.results.1 q.results.1 ∧
      ErrorsAlike p.results.2.errors q.results.2.errors ∧
      p.results.2.tokenCount = q.results.2.tokenCount := by
  intro p q
  have h : (Lexer.tokenize "SELECT a" .mySql).map Token.piece =
      (Lexer.tokenize "SELECT/**/\n a --" .mySql).map Token.piece := by decide +kernel
  exact ⟨h, Pools.isFresh_empty,
    results_of_pieces "SELECT a" "SELECT/**/\n a --" .mySql h Pools.isFresh_empty
      Pools.isFresh_empty⟩

end Parser

end SqlFrontend
