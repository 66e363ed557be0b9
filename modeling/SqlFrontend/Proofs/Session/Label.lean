import SqlFrontend.Proofs.Grammar.Label
import SqlFrontend.Proofs.Lexing.Separator
import SqlFrontend.Proofs.Session.Progress
import SqlFrontend.Proofs.Session.Taking

/-!
# Labels at the end of a construct

A source that is a labelled loop or block is read up to its closing words as it is in a longer source. What
stands behind these words decides the rest: nothing, or a name. Behind a loop it has to be the label again.

Results:
* `Parser.openedLoop?`, `Parser.openedBlock?`: the loop or the block that a source holds, and the tokens that
  are left at its end.
* `Lexer.Complete.junction_line`: a text, and the same text with more on a line of its own.
* `Parser.opened_line`: up to its closing words the construct is opened in the longer source as well.
* `Parser.results_of_endLabel`: the run over a labelled loop or block with a name behind its closing words.
-/

namespace SqlFrontend

namespace Parser

variable {p q : Parser}

/-! ## Openings -/

/-- What is opened behind a label that a text starts with, and the kinds of the tokens that are left
there. -/
def opened? {α : Type} (opening : Grammar.Nested → String → Production α) (p : Parser) :
    Option (α × List TokenKind) :=
  match Grammar.opened opening p.skipSeparators with
  | .ok a q => some (a, q.upcoming.map Token.kind)
  | .error _ _ => none

/-- The labelled loop that a text starts with, up to the words that close it, and the kinds of the
tokens that are left there. -/
def openedLoop? (p : Parser) : Option (Grammar.OpenLoop × List TokenKind) :=
  opened? Grammar.loopOpening p

/-- The labelled block that a text starts with, up to the word that closes it, and the kinds of the
tokens that are left there. -/
def openedBlock? (p : Parser) : Option (Block × List TokenKind) :=
  opened? Grammar.blockOpening p

variable {α : Type} {opening : Grammar.Nested → String → Production α} {a : α}

theorem exists_of_opened? {kinds : List TokenKind} (h : opened? opening p = some (a, kinds)) :
    ∃ q, Grammar.opened opening p.skipSeparators = .ok a q ∧ q.upcoming.map Token.kind = kinds := by
  unfold opened? at h
  split at h
  · next q hread => cases h; exact ⟨_, hread, rfl⟩
  · cases h

/-- An opening that parsers which are alike read alike. -/
def OpensAlike (opening : Grammar.Nested → String → Production α) : Prop :=
  ∀ (L : Likeness) b N N', L.Nested b N N' → ∀ label,
    L.Lockstep b .moved (opening N label) (opening N' label) fun _ => .moved

theorem opensAlike_loop : OpensAlike Grammar.loopOpening := fun _ _ _ _ h _ => .loopOpening h

theorem opensAlike_block : OpensAlike Grammar.blockOpening := fun _ _ _ _ h _ => .blockOpening h

theorem OpensAlike.outcome (h : OpensAlike opening) {L : Likeness} (hpq : L.state p q) :
    Likeness.Outcome L (p, q) p q (fun _ => .moved) (Grammar.opened opening p)
      (Grammar.opened opening q) :=
  Likeness.outcome_tied (m := fun N => Grammar.labelledOpening (opening N))
    (fun hnested => .labelledOpening (h L _ _ _ hnested)) hpq

theorem Ready.opened (hp : p.Ready) (hopening : OpensAlike opening)
    (h : Grammar.opened opening p = .ok a q) : Answers p none q := by
  have houtcome := hopening.outcome hp.state
  rw [h] at houtcome
  cases houtcome with
  | ok hs hl _ _ => exact hp.answers hl hs
  | past hpast =>
    cases hpast
    contradiction

/-- Of parsers that may stand before tokens in common, both open the same, if one does so before the end of
these. -/
theorem OpensAlike.junction {J : Junction} (hopening : OpensAlike opening) {p' : Parser}
    (h : J.Sees p q ∨ J.Spent p) (hp : Grammar.opened opening p.skipSeparators = .ok a p')
    (hleft : ¬J.Spent p') :
    ∃ q', Grammar.opened opening q.skipSeparators = .ok a q' ∧ ∃ x xs, J.At (x :: xs) p' q' := by
  have hskip : J.Sees p.skipSeparators q.skipSeparators ∨ J.Spent p.skipSeparators := by
    rcases h with hsees | hspent
    · exact Likeness.Lockstep.skipWhile (L := .junction J)
        (fun x y h => by rw [h.cancelled, h.current.kind, h.atBatchSeparator]) hsees
    · exact .inr (hspent.reaches (.skipWhile _ _))
  have hsees : J.Sees p.skipSeparators q.skipSeparators := by
    refine hskip.resolve_right fun hspent => hleft ?_
    have houtcome := hopening.outcome (L := .junction J) (p := p.skipSeparators) hspent.sees
    rw [hp] at houtcome
    cases houtcome with
    | ok _ hreaches _ _ => exact hspent.reaches hreaches
    | past hpast => cases hpast with | ok hpast _ _ => exact hpast
  have houtcome := hopening.outcome (L := .junction J) hsees
  rw [hp] at houtcome
  generalize Grammar.opened opening q.skipSeparators = r at houtcome
  cases houtcome with
  | ok hstate _ _ _ =>
    obtain ⟨x, xs, hat, -⟩ | ⟨hspent, -⟩ := hstate
    · exact ⟨_, rfl, x, xs, hat⟩
    · exact absurd hspent hleft
  | past hpast => cases hpast with | ok hpast _ _ => exact absurd hpast hleft

end Parser

/-! ## A further line -/

namespace Lexer

variable {d : Dialect} {text : String}

/-- A text without its end is what it has in common with the same text and more on a line of its own. -/
theorem Complete.junction_line (h : Complete d text) (more : String) (pools : Pools) :
    ∃ (J : Junction) (xs : List Token),
      J.At xs (.ofSource text d false pools) (.ofSource (text ++ "\n" ++ more) d false pools) ∧
      J.behind = [] ∧ J.right = (tokenize more d).map
        (Token.moved (text.utf8ByteSize + 1) (text.toList.count '\n' + 1)) := by
  obtain ⟨last, hleft, -⟩ := tokens_eq_front (ofSource text d)
  have hmore : (tokenize more d).map
      (Token.moved (text.utf8ByteSize + 1) (text.toList.count '\n' + 1)) ≠ [] := by
    rw [Ne, List.map_eq_nil_iff, tokenize, tokens_eq]
    split <;> exact List.cons_ne_nil _ _
  obtain ⟨y, ys, hy⟩ := List.exists_cons_of_ne_nil hmore
  have hright := tokenize_line text more d h
  rw [hy] at hright ⊢
  exact ⟨⟨last, [], y, ys⟩, _, at_ofSource pools hleft hright (utf8ByteSize_lt_line text more), rfl, rfl⟩

end Lexer

namespace Parser

variable {p q : Parser} {α : Type} {opening : Grammar.Nested → String → Production α} {a : α}
  {source : String} {d : Dialect} {pools : Pools}

/-- A text whose last token is a keyword has no token that lacks its end. -/
theorem complete_of_reaches (h : (ofSource source d false pools).Reaches p) (ts : List Token)
    {word last : Token} (hleft : p.upcoming = ts ++ [word, last]) (hword : word.kind ≠ .illegal) :
    Lexer.Complete d source := by
  have hp := ready_ofSource source d pools
  have hend : ¬p.atEnd := by
    intro hend
    have hlength := congrArg List.length ((upcoming_of_atEnd hend).symm.trans hleft)
    simp at hlength
  obtain ⟨passed, hpassed⟩ := h.upcoming hp.sound (hp.not_cancelled (.refl _) hp.sound) hp.not_expired hend
  rw [upcoming_ofSource, hleft, ← List.append_assoc] at hpassed
  intro t ht
  refine Bool.eq_false_iff.2 fun hopen => ?_
  obtain ⟨before, finish, htokens⟩ := Lexer.tokens_of_unterminated ht hopen
  obtain ⟨-, hlast⟩ := List.append_inj' (hpassed.symm.trans htokens) rfl
  rw [(List.cons.inj hlast).1] at hword
  exact hword (eq_of_beq (Bool.and_eq_true_iff.1 hopen).1)

/-- In a text with more on a line of its own the same is opened as in the text alone, before the same closing
words and what was added. -/
theorem opened_line (more : String) (hopening : OpensAlike opening) (others : List Keyword)
    (h : opened? opening (ofSource source d false pools) =
      some (a, .keyword .END :: (others.map TokenKind.keyword ++ [.eof]))) :
    ∃ (p q : Parser) (first : Token) (words : List Token) (last : Token),
      Grammar.opened opening (ofSource source d false pools).skipSeparators = .ok a p ∧
      Grammar.opened opening (ofSource (source ++ "\n" ++ more) d false pools).skipSeparators = .ok a q ∧
      p.upcoming = first :: words ++ [last] ∧
      q.upcoming = first :: words ++ (Lexer.tokenize more d).map
        (Token.moved (source.utf8ByteSize + 1) (source.toList.count '\n' + 1)) ∧
      first.kind = .keyword .END ∧ words.map Token.kind = others.map TokenKind.keyword ∧
      last.kind = .eof := by
  have hp := ready_ofSource source d pools
  obtain ⟨p, hread, hkinds⟩ := exists_of_opened? h
  obtain ⟨first, rest, hleft, hfirst, hkinds⟩ := List.map_eq_cons_iff.1 hkinds
  obtain ⟨words, ends, rfl, hwords, hkinds⟩ := List.map_eq_append_iff.1 hkinds
  obtain ⟨last, rfl, hlast⟩ := List.map_eq_singleton_iff.1 hkinds
  have hreaches := hp.skipSeparators.reaches.trans (hp.skipSeparators.ready.opened hopening hread).reaches
  -- the last token of the text is a keyword, and so has its end
  have hcomplete : Lexer.Complete d source := by
    rcases List.eq_nil_or_concat' words with rfl | ⟨init, word, rfl⟩
    · exact complete_of_reaches hreaches [] hleft (by rw [hfirst]; nofun)
    · have hword : word.kind ∈ others.map TokenKind.keyword := by
        rw [← hwords, List.map_append]
        exact List.mem_append_right _ List.mem_cons_self
      obtain ⟨keyword, -, hkeyword⟩ := List.mem_map.1 hword
      rw [List.append_assoc] at hleft
      exact complete_of_reaches hreaches (first :: init) hleft (by rw [← hkeyword]; nofun)
  obtain ⟨J, xs, hat, hbehind, hright⟩ := hcomplete.junction_line more pools
  have hspent : ¬J.Spent p := by
    rintro ⟨-, -, hlength | ⟨-, hopen⟩⟩
    · rw [hleft, Junction.left, hbehind] at hlength
      simp at hlength
    · rw [current_of_upcoming hleft, hfirst] at hopen
      cases hopen
  obtain ⟨q, hread', x, ys, hat'⟩ := hopening.junction hat.sees hread hspent
  have heq := hat'.left.upcoming
  rw [hleft, Junction.left, hbehind, ← List.cons_append] at heq
  obtain ⟨hfront, -⟩ := List.append_inj' heq rfl
  refine ⟨p, q, first, words, last, hread, hread', hleft, ?_, hfirst, hwords, hlast⟩
  rw [hat'.right.upcoming, ← hfront, hright]

/-! ## Closing words at the end of a text -/

section

variable {o : Grammar.OpenLoop} {b : Block} {first second name last : Token}

theorem Answers.errors_eq (h : Answers p none q) : q.errors = p.errors :=
  Array.toList_inj.1 h.logged.eq

theorem Ready.steady (hp : p.Ready) : p.Steady :=
  ⟨hp.live, by simpa using hp.not_cancelled (.refl p) hp.sound, hp.plain⟩

/-- Where tokens are left behind an opening, text was left before it. -/
theorem Ready.not_atEnd_of_opened (hp : p.Ready) (hopening : OpensAlike opening)
    (h : Grammar.opened opening p = .ok a q) {ts : List Token} (hleft : q.upcoming = first :: second :: ts) :
    ¬p.atEnd := by
  intro hend
  have hlength := Junction.length_le_of_reaches (hp.opened hopening h).reaches hp.sound
  rw [hleft, upcoming_of_atEnd hend] at hlength
  simp at hlength

/-- A loop whose closing words end the text. -/
theorem Ready.results_closedLoop (hp : p.Ready)
    (h : Grammar.opened Grammar.loopOpening p.skipSeparators = .ok o q)
    (hleft : q.upcoming = [first, second, last]) (hfirst : first.kind = .keyword .END)
    (hsecond : second.kind = .keyword o.word) (hlast : last.kind = .eof) :
    p.results.1 = [.ok o.loop] ∧ p.results.2.errors = p.errors := by
  have hstart := hp.skipSeparators
  have hmore := hstart.ready.not_atEnd_of_opened opensAlike_loop h hleft
  have hopen := (hstart.ready.opened opensAlike_loop h).behind hstart
  have hsteady := hopen.ready.steady
  have hbehind := (hopen.ready.advance.ready.advance.behind hopen.ready.advance).behind hopen
  have hcurrent := current_of_upcoming (hsteady.advance.upcoming_tail (hsteady.upcoming_tail hleft))
  have hend : q.advance.advance.atEnd := by simp [atEnd, Token.isEof, hcurrent, hlast]
  have hparse : Grammar.parse p.skipSeparators = .ok o.loop q.advance.advance := by
    rw [Grammar.parse_of_openedLoop h, Grammar.closeLoop, Production.run_bind,
      Grammar.loopEnd_closed hsteady hleft hfirst hsecond hlast]
    rfl
  rw [hp.results_ok_atEnd hmore hparse hend]
  exact ⟨rfl, hbehind.errors_eq⟩

/-- A loop with a name behind its closing words, at the end of the text. -/
theorem Ready.results_namedLoop (hp : p.Ready)
    (h : Grammar.opened Grammar.loopOpening p.skipSeparators = .ok o q)
    (hleft : q.upcoming = [first, second, name, last]) (hfirst : first.kind = .keyword .END)
    (hsecond : second.kind = .keyword o.word) (hname : name.kind = .identifier)
    (hbatch : q.isBatchSeparator name = false) (hlast : last.kind = .eof) :
    let mismatch : ParseError := ⟨.labelMismatch name.literal o.label, name.span⟩
    (p.results.1, p.results.2.errors) =
      if Text.sameWord o.label name.literal then ([.ok o.loop], p.errors)
      else ([.error mismatch], p.errors.push mismatch) := by
  intro mismatch
  have hstart := hp.skipSeparators
  have hmore := hstart.ready.not_atEnd_of_opened opensAlike_loop h hleft
  have hopen := (hstart.ready.opened opensAlike_loop h).behind hstart
  have hsteady := hopen.ready.steady
  have hsecond' := hopen.ready.advance.ready.advance
  have hbehind := ((hsecond'.ready.advance.behind hsecond').behind hopen.ready.advance).behind hopen
  have hcurrent := current_of_upcoming (hsteady.advance.advance.upcoming_tail
    (hsteady.advance.upcoming_tail (hsteady.upcoming_tail hleft)))
  have hend : q.advance.advance.advance.atEnd := by simp [atEnd, Token.isEof, hcurrent, hlast]
  have hclose : Grammar.loopEnd o.word (some o.label) q = _ :=
    Grammar.loopEnd_named hsteady hleft hfirst hsecond hname hbatch hlast
  have hparse := Grammar.parse_of_openedLoop h
  rw [Grammar.closeLoop, Production.run_bind, hclose] at hparse
  by_cases hsame : Text.sameWord o.label name.literal
  · rw [if_pos hsame] at hparse ⊢
    rw [hp.results_ok_atEnd hmore hparse hend]
    exact Prod.ext rfl hbehind.errors_eq
  · rw [if_neg hsame] at hparse ⊢
    have hrecord : (q.advance.advance.advance.record mismatch).errors = p.errors.push mismatch := by
      have hlive : ¬mismatch.isCancelled := by simp [mismatch, ParseError.isCancelled]
      rw [Parser.record, if_neg hlive, hbehind.ready.settled, hbehind.errors_eq]
      exact Array.append_empty
    rw [hp.results_error_atEnd hmore hparse hend]
    exact Prod.ext rfl hrecord

/-- A block whose closing word ends the text. -/
theorem Ready.results_closedBlock (hp : p.Ready)
    (h : Grammar.opened Grammar.blockOpening p.skipSeparators = .ok b q)
    (hleft : q.upcoming = [first, last]) (hfirst : first.kind = .keyword .END)
    (hlast : last.kind = .eof) :
    p.results.1 = [.ok (.block { b with endLabel := none })] ∧ p.results.2.errors = p.errors := by
  have hstart := hp.skipSeparators
  have hmore := hstart.ready.not_atEnd_of_opened opensAlike_block h hleft
  have hopen := (hstart.ready.opened opensAlike_block h).behind hstart
  have hbehind := hopen.ready.advance.behind hopen
  have hcurrent := current_of_upcoming (hopen.ready.steady.upcoming_tail hleft)
  have hend : q.advance.atEnd := by simp [atEnd, Token.isEof, hcurrent, hlast]
  have hname : ¬q.advance.atTrailingName := by simp [atTrailingName, Token.isIdentifier, hcurrent, hlast]
  have hparse := Grammar.parse_of_openedBlock h
  rw [Grammar.run_closeBlock (current_of_upcoming hleft ▸ hfirst), if_neg hname] at hparse
  rw [hp.results_ok_atEnd hmore hparse hend]
  exact ⟨rfl, hbehind.errors_eq⟩

/-- A block with a name behind its closing word, at the end of the text. -/
theorem Ready.results_namedBlock (hp : p.Ready)
    (h : Grammar.opened Grammar.blockOpening p.skipSeparators = .ok b q)
    (hleft : q.upcoming = [first, name, last]) (hfirst : first.kind = .keyword .END)
    (hname : name.kind = .identifier) (hbatch : q.isBatchSeparator name = false)
    (hlast : last.kind = .eof) :
    p.results.1 = [.ok (.block { b with endLabel := some name.literal })] ∧
      p.results.2.errors = p.errors := by
  have hstart := hp.skipSeparators
  have hmore := hstart.ready.not_atEnd_of_opened opensAlike_block h hleft
  have hopen := (hstart.ready.opened opensAlike_block h).behind hstart
  have hbehind := (hopen.ready.advance.ready.advance.behind hopen.ready.advance).behind hopen
  have hupcoming := hopen.ready.steady.upcoming_tail hleft
  have hcurrent := current_of_upcoming hupcoming
  have hbatch' : q.advance.isBatchSeparator name = false := by
    rwa [isBatchSeparator, advance_dialect]
  have htrailing := Grammar.atTrailingName_of_upcoming hupcoming hname hbatch' hlast
  have hend : q.advance.advance.atEnd := by
    simp [atEnd, Token.isEof, current_of_upcoming (hopen.ready.steady.advance.upcoming_tail hupcoming), hlast]
  have hparse := Grammar.parse_of_openedBlock h
  rw [Grammar.run_closeBlock (current_of_upcoming hleft ▸ hfirst), if_pos htrailing, hcurrent] at hparse
  rw [hp.results_ok_atEnd hmore hparse hend]
  exact ⟨rfl, hbehind.errors_eq⟩

end

/-! ## A label behind the end -/

/-- The second of two tokens of a text is its end. -/
theorem kind_of_tokens_pair {t last : Token} (h : Lexer.tokenize source d = [t, last]) :
    last.kind = .eof := by
  obtain ⟨finish, htokens, hfinish⟩ := Lexer.tokens_eq_front (Lexer.ofSource source d)
  have hpair := htokens.symm.trans h
  rw [show [t, last] = [t] ++ [last] from rfl] at hpair
  obtain ⟨-, hlast⟩ := List.append_inj' hpair rfl
  rw [← (List.cons.inj hlast).1]
  exact congrArg Piece.kind hfinish

/-- A name behind the closing words of a labelled loop has to be the label, whatever the loop holds and
however deep it nests others. If it is, up to the case of ASCII letters, the loop is the same statement
with the name and without it. If it is not, this is an error at the name and nothing else is read. Behind
the closing word of a labelled block any name stands: the block is the same statement, and keeps the name. -/
theorem results_of_endLabel (source word : String) (d : Dialect) (pools : Pools) {name last : Token}
    (hword : Lexer.tokenize word d = [name, last]) (hname : name.kind = .identifier)
    (hbatch : ∀ separator ∈ d.batchSeparator?, ¬Text.sameWord name.literal separator) :
    let start := ofSource source d false pools
    let alone := start.results
    let labelled := (ofSource (source ++ "\n" ++ word) d false pools).results
    (∀ o, openedLoop? start = some (o, [.keyword .END, .keyword o.word, .eof]) →
      let place := (name.moved (source.utf8ByteSize + 1) (source.toList.count '\n' + 1)).span
      let mismatch : ParseError := ⟨.labelMismatch name.literal o.label, place⟩
      (alone.1 = [.ok o.loop] ∧ alone.2.errors = #[]) ∧
        mismatch.cause.kind = .structural ∧
        (labelled.1, labelled.2.errors) =
          if Text.sameWord o.label name.literal then ([.ok o.loop], #[])
          else ([.error mismatch], #[mismatch])) ∧
      ∀ b, openedBlock? start = some (b, [.keyword .END, .eof]) →
        (alone.1 = [.ok (.block { b with endLabel := none })] ∧ alone.2.errors = #[]) ∧
          labelled.1 = [.ok (.block { b with endLabel := some name.literal })] ∧
          labelled.2.errors = #[] := by
  intro start alone labelled
  have hp := ready_ofSource source d pools
  have hq := ready_ofSource (source ++ "\n" ++ word) d pools
  have hlast := kind_of_tokens_pair hword
  have hbatch' {q : Parser} (hreaches : (ofSource (source ++ "\n" ++ word) d false pools).Reaches q) :
      q.isBatchSeparator
        (name.moved (source.utf8ByteSize + 1) (source.toList.count '\n' + 1)) = false := by
    rw [isBatchSeparator, hreaches.dialect.trans (dialect_ofSource _ d false pools)]
    split
    · next separator hseparator =>
      exact Bool.and_eq_false_iff.2 (.inr (Bool.eq_false_iff.2 (hbatch separator hseparator)))
    · rfl
  refine ⟨fun o h => ?_, fun b h => ?_⟩
  · intro place mismatch
    obtain ⟨p, q, first, words, end', hopen, hopen', hleft, hleft', hfirst, hwords, hend⟩ :=
      opened_line word opensAlike_loop [o.word] h
    obtain ⟨second, rfl, hsecond⟩ := List.map_eq_singleton_iff.1 hwords
    rw [hword] at hleft'
    have hreaches := hq.skipSeparators.reaches.trans
      (hq.skipSeparators.ready.opened opensAlike_loop hopen').reaches
    have hclosed := hp.results_closedLoop hopen hleft hfirst hsecond hend
    have hnamed := hq.results_namedLoop hopen' hleft' hfirst hsecond hname (hbatch' hreaches) hlast
    rw [errors_ofSource] at hclosed hnamed
    exact ⟨hclosed, rfl, hnamed⟩
  · obtain ⟨p, q, first, words, end', hopen, hopen', hleft, hleft', hfirst, hwords, hend⟩ :=
      opened_line word opensAlike_block [] h
    obtain rfl := List.map_eq_nil_iff.1 hwords
    rw [hword] at hleft'
    have hreaches := hq.skipSeparators.reaches.trans
      (hq.skipSeparators.ready.opened opensAlike_block hopen').reaches
    have hclosed := hp.results_closedBlock hopen hleft hfirst hend
    have hnamed := hq.results_namedBlock hopen' hleft' hfirst hname (hbatch' hreaches) hlast
    rw [errors_ofSource] at hclosed hnamed
    exact ⟨hclosed, hnamed⟩

/-- The label of an inner loop does not fit behind the outer one. Behind a block any name fits. -/
theorem results_of_endLabel_inner :
    let source := "<<a>> LOOP b: LOOP EXIT b; END LOOP b; END LOOP"
    let block := "a: BEGIN EXIT b; END"
    let name : Token := ⟨.identifier, "b", ⟨0, 1, 1, 1⟩⟩
    let mismatch : ParseError := ⟨.labelMismatch "b" "a", ⟨48, 49, 2, 1⟩⟩
    let labelled (text : String) := (ofSource (text ++ "\n" ++ "b") .postgreSql false {}).results
    (∃ o, o.label = "a" ∧ o.word = .LOOP ∧ openedLoop? (ofSource source .postgreSql false {}) =
        some (o, [.keyword .END, .keyword o.word, .eof])) ∧
      Lexer.tokenize "b" .postgreSql = [name, ⟨.eof, "", ⟨1, 1, 1, 2⟩⟩] ∧
      name.kind = .identifier ∧
      (∀ separator ∈ Dialect.batchSeparator? .postgreSql, ¬Text.sameWord name.literal separator) ∧
      (labelled source).1 = [.error mismatch] ∧ (labelled source).2.errors = #[mismatch] ∧
      ∃ b : Block, b.label = some "a" ∧
        openedBlock? (ofSource block .postgreSql false {}) = some (b, [.keyword .END, .eof]) ∧
        (labelled block).1 = [.ok (.block { b with endLabel := some "b" })] := by
  intro source block name mismatch labelled
  have hread : (openedLoop? (ofSource source .postgreSql false {})).map
      (fun x => (x.1.label, x.1.word, x.2)) =
        some ("a", .LOOP, [.keyword .END, .keyword .LOOP, .eof]) := by decide +kernel
  obtain ⟨⟨o, kinds⟩, hopen, heq⟩ := Option.map_eq_some_iff.1 hread
  obtain ⟨hlabel, hword, rfl⟩ : o.label = "a" ∧ o.word = .LOOP ∧
      kinds = [.keyword .END, .keyword .LOOP, .eof] := by simpa using heq
  have hopen' : openedLoop? (ofSource source .postgreSql false {}) =
      some (o, [.keyword .END, .keyword o.word, .eof]) := by rw [hword]; exact hopen
  have hblock : (openedBlock? (ofSource block .postgreSql false {})).map (fun x => (x.1.label, x.2)) =
      some (some "a", [.keyword .END, .eof]) := by decide +kernel
  obtain ⟨⟨b, kinds⟩, hopened, heq⟩ := Option.map_eq_some_iff.1 hblock
  obtain ⟨hnamed, rfl⟩ : b.label = some "a" ∧ kinds = [.keyword .END, .eof] := by simpa using heq
  have htokens : Lexer.tokenize "b" .postgreSql = [name, ⟨.eof, "", ⟨1, 1, 1, 2⟩⟩] := by
    decide +kernel
  have hbatch : ∀ separator ∈ Dialect.batchSeparator? .postgreSql,
      ¬Text.sameWord name.literal separator := by decide +kernel
  have hother : ¬Text.sameWord o.label "b" := by rw [hlabel]; decide +kernel
  have hresults := ((results_of_endLabel source "b" .postgreSql {} htokens rfl hbatch).1 o hopen').2.2
  have hlabelled := ((results_of_endLabel block "b" .postgreSql {} htokens rfl hbatch).2 b hopened).2.1
  have hplace : (name.moved (source.utf8ByteSize + 1) (source.toList.count '\n' + 1)).span =
      ⟨48, 49, 2, 1⟩ := by decide +kernel
  rw [if_neg hother, hlabel, hplace] at hresults
  exact ⟨⟨o, hlabel, hword, hopen'⟩, htokens, rfl, hbatch, congrArg Prod.fst hresults,
    congrArg Prod.snd hresults, b, hnamed, hopened, hlabelled⟩

/-- The label of a block and the name behind its end. -/
def blockLabels? : Except ParseError Statement → Option (Option String × Option String)
  | .ok (.block block) => some (block.label, block.endLabel)
  | _ => none

/-- A block takes any name behind its end, as it is. -/
theorem results_of_endLabel_block :
    let results (source : String) := (ofSource source .mySql false {}).results.1
    (results "a: BEGIN END").map blockLabels? = [some (some "a", none)] ∧
      (results ("a: BEGIN END" ++ "\n" ++ "b")).map blockLabels? = [some (some "a", some "b")] ∧
      ¬Text.sameWord "a" "b" := by
  decide +kernel

end Parser

end SqlFrontend
