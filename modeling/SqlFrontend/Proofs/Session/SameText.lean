import SqlFrontend.Proofs.Parsing.Pieces
import SqlFrontend.Proofs.Session.Layout

/-!
# Parsers before the same text

A text can be the rest of a source, or a source of its own, as the text of a quoted body is. Parsers before
it are treated alike by all productions, however much each of them has read before. Unlike parsers of two
sources with the same pieces, they need not have met the same errors or counted the same tokens.

Results:
* `Parser.SameText`: parsers that stop at errors, with the same pieces ahead.
* `Parser.Ahead.sameText`: two parsers before known pieces are such parsers.
* `Likeness.text`: productions treat them alike.
-/

namespace SqlFrontend

namespace Parser

/-- Parsers with the same pieces ahead. Both stop at errors, and time is not limited. -/
structure SameText (p q : Parser) : Prop where
  left : p.Sound
  right : q.Sound
  alike : p.Alike AnyPlace .fresh q
  ahead : p.lexer.tokens.map Token.piece = q.lexer.tokens.map Token.piece
  live : p.expired = false
  halting : p.recovering = false

namespace SameText

variable {p q : Parser}

theorem not_cancelled (h : p.SameText q) : ¬p.cancelled ∧ ¬q.cancelled := by
  have hp : ¬p.cancelled := fun hc => by
    have := (h.left.stopped hc).1
    rw [h.live] at this
    cases this
  exact ⟨hp, h.alike.cancelled ▸ hp⟩

/-- What was met before does not count. -/
theorem congr {p' q' : Parser} (h : p.SameText q)
    (hp : p' = { p with
      deferred := p'.deferred, pools := p'.pools, routineDepth := p'.routineDepth })
    (hq : q' = { q with
      deferred := q'.deferred, pools := q'.pools, routineDepth := q'.routineDepth })
    (hdepth : p'.routineDepth = q'.routineDepth) (hpools : p'.pools.Alike .fresh q'.pools) :
    p'.SameText q' := by
  obtain ⟨hleft, hright, halike, hahead, hlive, hhalting⟩ := h
  rw [hp, hq]
  exact ⟨hleft.congr rfl rfl rfl rfl rfl, hright.congr rfl rfl rfl rfl rfl,
    ⟨halike.current, halike.peek, halike.dialect, halike.expired, halike.cancelled,
      halike.recovering, hdepth, hpools⟩, hahead, hlive, hhalting⟩

theorem advance (h : p.SameText q) : p.advance.SameText q.advance := by
  obtain ⟨hp, hq⟩ := h.not_cancelled
  have hlive : ¬p.expired := by rw [h.live]; nofun
  have hnext := Lexer.next_pieces h.ahead
  have hsound := And.intro h.left.advance h.right.advance
  have hdialect : p.lexer.next.2.dialect = q.lexer.next.2.dialect := by
    rw [Lexer.next_dialect, Lexer.next_dialect]
    exact h.alike.dialect
  rw [advance_of_live hp hlive, advance_of_live hq (h.alike.expired ▸ hlive), countCurrent_eq,
    countCurrent_eq] at hsound ⊢
  exact ⟨hsound.1, hsound.2, ⟨h.alike.peek, Token.alike_of_piece hnext.1, hdialect, h.alike.expired,
    h.alike.cancelled, h.alike.recovering, h.alike.routineDepth, h.alike.pools⟩, hnext.2, h.live,
    h.halting⟩

end SameText

/-- What a parser shows behind its current token: the next one, and what its lexer has ahead. -/
theorem Ahead.behind {p : Parser} {t u : Piece} {ps : List Piece} (h : p.Ahead (t :: u :: ps)) :
    p.peek.piece = u ∧
      p.lexer.tokens.map Token.piece = if u.kind = .eof then [⟨.eof, ""⟩] else ps := by
  have hpieces := h.pieces
  rw [upcoming] at hpieces
  split at hpieces
  · cases hpieces
  split at hpieces
  · next hend =>
    obtain rfl : p.peek.piece = u := (List.cons.inj (List.cons.inj hpieces).2).1
    have hrest : p.lexer.cursor.rest = [] :=
      (h.sound.done hend).resolve_left (by simp [h.running])
    rw [Lexer.map_piece_tokens, hrest, Lexer.pieces_nil]
    exact ⟨rfl, (if_pos (beq_iff_eq.1 hend)).symm⟩
  · next hmore =>
    obtain ⟨rfl, htokens⟩ := List.cons.inj (List.cons.inj hpieces).2
    exact ⟨rfl, htokens.trans (if_neg fun hend => hmore (beq_iff_eq.2 hend)).symm⟩

/-- Before known pieces, only the setting has to be compared. -/
theorem Ahead.sameText {p q : Parser} {t u : Piece} {ps : List Piece} (hp : p.Ahead (t :: u :: ps))
    (hq : q.Ahead (t :: u :: ps)) (hdialect : p.dialect = q.dialect)
    (hdepth : p.routineDepth = q.routineDepth) (hleft : p.recovering = false)
    (hright : q.recovering = false) : p.SameText q := by
  obtain ⟨hpeek, htokens⟩ := hp.behind
  obtain ⟨hpeek', htokens'⟩ := hq.behind
  exact ⟨hp.sound, hq.sound, ⟨Token.alike_of_piece (hp.current.trans hq.current.symm),
    Token.alike_of_piece (hpeek.trans hpeek'.symm), hdialect, hp.live.trans hq.live.symm,
    hp.running.trans hq.running.symm, hleft.trans hright.symm, hdepth, hp.pools, hq.pools⟩,
    htokens.trans htokens'.symm, hp.live, hleft⟩

end Parser

/-- Parsers before the same text. Of errors nothing is said. -/
def Likeness.text : Likeness where
  place := AnyPlace
  how := .fresh
  state := Parser.SameText
  failed _ p _ q := p.SameText q
  left h := h.left
  right h := h.right
  alike h := h.alike.here
  advance h := .inl h.advance
  withPools h hPQ := h.congr rfl rfl h.alike.routineDepth hPQ
  atDepth _ h := h.congr rfl rfl rfl h.alike.pools
  failed_alike h := h.alike.here
  failed_withPools h hPQ := h.congr rfl rfl h.alike.routineDepth hPQ
  failed_atDepth _ h := h.congr rfl rfl rfl h.alike.pools
  expects h _ _ := h
  fails h _ _ _ := h
  relays h _ _ _ _ := h.congr rfl rfl h.alike.routineDepth h.alike.pools
  record h hr _ := by
    rw [h.halting] at hr
    cases hr

end SqlFrontend
