import SqlFrontend.Proofs.Kinship.Statement
import SqlFrontend.Proofs.Lexing.LetterCase
import SqlFrontend.Proofs.Session.Boundary

/-!
# The case of keywords is not read

Two sources that differ only in the case of letters in keywords are read in the same way. The text of a
keyword can get into a tree, where a keyword stands for a name, an option or a type; all that depends on
it there is the case of letters in the tree.

* `Parser.Respelt`, `Kinship.respelt`: parsers at one place of two such sources, and what productions
  preserve of them.
* `AnswerKin`: statements and errors that are equal but for the case of letters in their texts.
* `Parser.results_of_respelt`: a whole run over two such sources gives such answers.
-/

namespace SqlFrontend

namespace Parser

/-! ## Parsers -/

/-- Errors that are shown alike but for the case of letters, one by one. -/
def ErrorsKin (errors errors' : Array ParseError) : Prop :=
  List.Forall₂ ParseError.Kin errors.toList errors'.toList

theorem ErrorsKin.empty : ErrorsKin #[] #[] := .nil

theorem ErrorsKin.append {errors errors' others others' : Array ParseError}
    (h : ErrorsKin errors errors') (ho : ErrorsKin others others') :
    ErrorsKin (errors ++ others) (errors' ++ others') := by
  rw [ErrorsKin, Array.toList_append, Array.toList_append]
  exact List.rel_append h ho

theorem ErrorsKin.push {errors errors' : Array ParseError} {e e' : ParseError}
    (h : ErrorsKin errors errors') (he : e.Kin e') : ErrorsKin (errors.push e) (errors'.push e') := by
  rw [ErrorsKin, Array.toList_push, Array.toList_push]
  exact List.rel_append h (.cons he .nil)

theorem errorsKin_atPlace (s : Span) {others others' : List ParseError}
    (h : List.Forall₂ ParseError.Kin others others') :
    ErrorsKin (atPlace s others).toArray (atPlace s others').toArray := by
  induction h with
  | nil => exact .nil
  | cons he _ ih => exact .cons ⟨he.cause, rfl⟩ ih

/-- Parsers at one place of two sources that differ ahead only in the case of letters in keywords. What
they have recorded differs only in the case of letters, too. Time is not limited. -/
structure Respelt (p q : Parser) : Prop where
  sound : p.Sound
  current : p.current.Kin false q.current
  peek : p.peek.Kin false q.peek
  lexer : p.lexer.Respelt q.lexer
  size : p.lexer.source.utf8ByteSize = q.lexer.source.utf8ByteSize
  live : p.expired = false ∧ q.expired = false
  running : p.cancelled = false ∧ q.cancelled = false
  recovering : p.recovering = q.recovering
  routineDepth : p.routineDepth = q.routineDepth
  pools : p.pools.IsFresh ∧ q.pools.IsFresh
  errors : ErrorsKin p.errors q.errors
  deferred : ErrorsKin p.deferred q.deferred
  tokenCount : p.tokenCount = q.tokenCount
  endCounted : p.endCounted = q.endCounted

namespace Respelt

variable {p q : Parser}

theorem atEnd (h : p.Respelt q) : p.atEnd = q.atEnd := h.current.isEof

theorem remaining (h : p.Respelt q) : q.remaining = p.remaining := by
  rw [Parser.remaining, Parser.remaining, h.atEnd, h.size, h.current.span]

theorem shown (h : p.Respelt q) (last : TokenKind) : p.Shown false last q where
  current _ := h.current
  ended := nofun
  peek _ := h.peek
  follows := nofun
  dialect := h.lexer.dialect
  recovering := h.recovering
  routineDepth := h.routineDepth
  pools := h.pools
  sound := h.sound
  live := h.live
  running := h.running
  batch := nofun

/-- Parsers stay so if only their records change. -/
theorem withRecords (h : p.Respelt q) {errors deferred errors' deferred' : Array ParseError}
    (he : ErrorsKin errors errors') (hd : ErrorsKin deferred deferred') :
    Respelt { p with errors, deferred } { q with errors := errors', deferred := deferred' } :=
  ⟨h.sound.congr rfl rfl rfl rfl rfl, h.current, h.peek, h.lexer, h.size, h.live, h.running,
    h.recovering, h.routineDepth, h.pools, he, hd, h.tokenCount, h.endCounted⟩

theorem withPools (h : p.Respelt q) {P Q : Pools} (hP : P.IsFresh) (hQ : Q.IsFresh) :
    Respelt { p with pools := P } { q with pools := Q } :=
  ⟨h.sound.congr rfl rfl rfl rfl rfl, h.current, h.peek, h.lexer, h.size, h.live, h.running,
    h.recovering, h.routineDepth, ⟨hP, hQ⟩, h.errors, h.deferred, h.tokenCount, h.endCounted⟩

theorem atDepth (h : p.Respelt q) (n : ℕ) :
    Respelt { p with routineDepth := n } { q with routineDepth := n } :=
  ⟨h.sound.congr rfl rfl rfl rfl rfl, h.current, h.peek, h.lexer, h.size, h.live, h.running,
    h.recovering, rfl, h.pools, h.errors, h.deferred, h.tokenCount, h.endCounted⟩

theorem countCurrent (h : p.Respelt q) : p.countCurrent.Respelt q.countCurrent := by
  have hsound := h.sound.countCurrent
  rw [countCurrent_eq] at hsound
  rw [countCurrent_eq, countCurrent_eq]
  refine ⟨hsound, h.current, h.peek, h.lexer, h.size, h.live, h.running, h.recovering,
    h.routineDepth, h.pools, h.errors, h.deferred, ?_, ?_⟩
  · dsimp only
    rw [h.atEnd, h.endCounted, h.tokenCount]
  · dsimp only
    rw [h.atEnd, h.endCounted]

theorem advance (h : p.Respelt q) : p.advance.Respelt q.advance := by
  have hnext := h.lexer.next
  have hp : ¬p.cancelled ∧ ¬p.expired := ⟨by simp [h.running.1], by simp [h.live.1]⟩
  have hq : ¬q.cancelled ∧ ¬q.expired := ⟨by simp [h.running.2], by simp [h.live.2]⟩
  have hread : (p.advance.Sound → Respelt
      { p with lexer := p.lexer.next.2, current := p.peek, peek := p.lexer.next.1 }
      { q with lexer := q.lexer.next.2, current := q.peek, peek := q.lexer.next.1 }) := by
    intro hsound
    rw [advance_of_live hp.1 hp.2, countCurrent_eq] at hsound
    refine ⟨hsound.congr rfl rfl rfl rfl rfl, h.peek, hnext.1, hnext.2, ?_, h.live, h.running,
      h.recovering, h.routineDepth, h.pools, h.errors, h.deferred, h.tokenCount, h.endCounted⟩
    dsimp only
    rw [Lexer.next_source, Lexer.next_source, h.size]
  have hadvance := (hread h.sound.advance).countCurrent
  rwa [← advance_of_live hp.1 hp.2, ← advance_of_live hq.1 hq.2] at hadvance

/-- The beginnings of two sources. -/
theorem ofSource {a b : String} {d : Dialect} (h : Lexer.KeywordsRespelt d a b) {P Q : Pools}
    (hP : P.IsFresh) (hQ : Q.IsFresh) :
    (Parser.ofSource a d false P).Respelt (Parser.ofSource b d false Q) := by
  have hcurrent := h.ofSource.next
  have hpeek := hcurrent.2.next
  have hsound := sound_ofSource a d false P
  have hsize : a.utf8ByteSize = b.utf8ByteSize := by
    rw [← String.utf8Len_toList, ← String.utf8Len_toList]
    exact h.ofSource.cursor.rest.utf8Len
  rw [ofSource_eq, ofSource_eq]
  rw [ofSource_eq, countCurrent_eq] at hsound
  refine countCurrent ⟨hsound.congr rfl rfl rfl rfl rfl, hcurrent.1, hpeek.1, hpeek.2, ?_,
    ⟨rfl, rfl⟩, ⟨rfl, rfl⟩, rfl, rfl, ⟨hP, hQ⟩, .empty, .empty, rfl, rfl⟩
  dsimp only
  rw [Lexer.next_source, Lexer.next_source, Lexer.next_source, Lexer.next_source]
  exact hsize

/-- What is quoted is text, in which no letter may differ. -/
theorem nested (h : p.Respelt q) (body : String) : (p.nested body).Respelt (q.nested body) := by
  have hbody : (Parser.ofSource body p.dialect false p.pools).Respelt
      (Parser.ofSource body p.dialect false q.pools) := ofSource (.refl body) h.pools.1 h.pools.2
  have hdialect : p.dialect = q.dialect := h.lexer.dialect
  rw [Parser.nested, Parser.nested, h.live.1, h.live.2, ← hdialect]
  exact ⟨hbody.sound.congr rfl rfl rfl rfl rfl, hbody.current, hbody.peek, hbody.lexer, hbody.size,
    hbody.live, hbody.running, rfl, rfl, hbody.pools, hbody.errors, hbody.deferred,
    hbody.tokenCount, hbody.endCounted⟩

theorem record (h : p.Respelt q) {e e' : ParseError} (he : e.Kin e') :
    (p.record e).Respelt (q.record e') := by
  rw [Parser.record, Parser.record, ← he.isCancelled]
  split
  · exact h
  · exact h.withRecords ((h.errors.push he).append h.deferred) .empty

end Respelt

end Parser

/-- Parsers of two sources that differ only in the case of letters in keywords. -/
def Kinship.respelt : Kinship where
  goesOn := false
  last := .eof
  lead := 0
  state := Parser.Respelt
  failed e p e' q := p.Respelt q ∧ e.Kin e'
  shown h := h.shown .eof
  remaining h := h.remaining
  advance h _ := h.advance
  withPools h hP hQ := h.withPools hP hQ
  atDepth n h := h.atDepth n
  errors _ h := h.errors
  failed_shown h := h.1.shown .eof
  failed_kin h := ⟨h.2, h.1.errors⟩
  failed_withPools h hP hQ := ⟨h.1.withPools hP hQ, h.2⟩
  failed_atDepth n h := ⟨h.1.atDepth n, h.2⟩
  expects {p q} what _ h := by
    have hp : ¬p.cancelled := by simp [h.running.1]
    have hq : ¬q.cancelled := by simp [h.running.2]
    rw [Parser.expectedError, Parser.expectedError, if_neg hp, if_neg hq]
    exact ⟨h, ParseError.kin_unexpected what h.current⟩
  defers {p q s cause cause' others others'} _ h hc ho :=
    ⟨h.withRecords h.errors (h.deferred.append (Parser.errorsKin_atPlace s ho)), hc, rfl⟩
  record _ h _ := h.1.record h.2
  nested body _ h := h.nested body

/-! ## Sessions -/

/-- Statements with the same kinds of nodes that are equal but for the case of letters in their texts,
or errors that are shown alike but for it. -/
inductive AnswerKin : Except ParseError Statement → Except ParseError Statement → Prop
  | ok {s s' : Statement} (tags : s.tags = s'.tags)
      (texts : mapTexts Text.lower s = mapTexts Text.lower s') : AnswerKin (.ok s) (.ok s')
  | error {e e' : ParseError} (h : e.Kin e') : AnswerKin (.error e) (.error e')

/-- The kinds of nodes do not depend on texts. -/
theorem AnswerKin.of_texts {s s' : Statement} (h : mapTexts Text.lower s = mapTexts Text.lower s') :
    AnswerKin (.ok s) (.ok s') := by
  have htags := congrArg Statement.tags h
  change (s.mapTexts Text.lower).tags = (s'.mapTexts Text.lower).tags at htags
  rw [Statement.tags_mapTexts, Statement.tags_mapTexts] at htags
  exact .ok htags h

namespace Parser.Respelt

variable {p q : Parser}

theorem skipWhile (h : p.Respelt q) {condition : Parser → Bool}
    (hc : ∀ p q, p.Respelt q → condition p = condition q) :
    (p.skipWhile condition).Respelt (q.skipWhile condition) :=
  Kinship.Kindred.state_skipWhile (G := .respelt) hc (fun _ _ => nofun) h

theorem skipSemicolons (h : p.Respelt q) : p.skipSemicolons.Respelt q.skipSemicolons :=
  h.skipWhile fun p q h => by rw [h.current.kind]

theorem skipSeparators (h : p.Respelt q) : p.skipSeparators.Respelt q.skipSeparators := by
  refine h.skipWhile fun p q h => ?_
  have hbatch : p.atBatchSeparator = q.atBatchSeparator :=
    Kinship.Kindred.isBatchSeparator_eq (G := .respelt) h h.current
  rw [h.running.1, h.running.2, h.current.kind, hbatch]

/-- The next statement is read in the same way. -/
theorem statement (h : p.Respelt q) (hp : p.deferred = #[]) (hq : q.deferred = #[]) :
    AnswerKin p.statement.1 q.statement.1 ∧ p.statement.2.Respelt q.statement.2 := by
  have hpclear : { p with deferred := #[] } = p := by rw [← hp]
  have hqclear : { q with deferred := #[] } = q := by rw [← hq]
  have houtcome := Kinship.parse_outcome (G := .respelt) h.skipSeparators
  rw [Parser.statement, Parser.statement, hpclear, hqclear]
  revert houtcome
  generalize Grammar.parse p.skipSeparators = r, Grammar.parse q.skipSeparators = r'
  intro houtcome
  cases houtcome with
  | @ok s s' p' q' hs hv _ =>
    have hstate : p'.Respelt q' := hs
    exact ⟨.of_texts hv, hstate.skipSemicolons⟩
  | @error e e' p' q' _ hf =>
    have hrecord : (p'.record e).Respelt (q'.record e') := hf.1.record hf.2
    dsimp only
    rw [hrecord.running.1, hrecord.running.2]
    exact ⟨.error hf.2, Kinship.Kindred.state_synchronize (G := .respelt) rfl hrecord⟩
  | stuck hgoesOn => cases hgoesOn
  | apart hgoesOn => cases hgoesOn
  | lost hgoesOn => cases hgoesOn

/-- So is the rest of the source. -/
theorem results (h : p.Respelt q) (hp : p.Ready) (hq : q.Ready) :
    List.Forall₂ AnswerKin p.results.1 q.results.1 ∧ p.results.2.Respelt q.results.2 := by
  have hall : ∀ q : Parser, q.Ready → p.Respelt q →
      List.Forall₂ AnswerKin p.results.1 q.results.1 ∧ p.results.2.Respelt q.results.2 := by
    refine hp.induction (fun p hp hend q hq h => ?_) fun p hp hend ih q hq h => ?_
    · rw [results_ended hend, results_ended (h.skipSeparators.atEnd ▸ hend)]
      exact ⟨.nil, h.skipSeparators⟩
    · have hend' : ¬q.skipSeparators.atEnd := h.skipSeparators.atEnd ▸ hend
      have hstatement := h.skipSeparators.statement hp.skipSeparators.ready.settled
        hq.skipSeparators.ready.settled
      have hothers := ih _ (hq.next? hend').1.ready hstatement.2
      rw [hp.results_found hend, hq.results_found hend']
      exact ⟨.cons hstatement.1 hothers.1, hothers.2⟩
  exact hall q hq h

end Parser.Respelt

namespace Parser

/-- The case of keywords never changes how a source is read. Two sources that differ only in the case of
letters in keywords of the first one have tokens of the same kinds at the same places. They give
statements with the same kinds of nodes that are equal but for the case of letters in their texts, and
errors that are shown alike but for it. So is the record of errors, and the count of tokens is the
same. -/
theorem results_of_respelt (a b : String) (d : Dialect) (h : Lexer.KeywordsRespelt d a b)
    {P Q : Pools} (hP : P.IsFresh) (hQ : Q.IsFresh) :
    let p := ofSource a d false P
    let q := ofSource b d false Q
    List.Forall₂ (fun t t' => t.kind = t'.kind ∧ t.span = t'.span)
        (Lexer.tokenize a d) (Lexer.tokenize b d) ∧
      List.Forall₂ AnswerKin p.results.1 q.results.1 ∧
      ErrorsKin p.results.2.errors q.results.2.errors ∧
      p.results.2.tokenCount = q.results.2.tokenCount := by
  intro p q
  have hresults := (Respelt.ofSource h hP hQ).results (ready_ofSource a d P) (ready_ofSource b d Q)
  exact ⟨h.ofSource.tokens.imp fun t t' ht => ⟨ht.kind, ht.span⟩, hresults.1, hresults.2.errors,
    hresults.2.tokenCount⟩

/-- A keyword that stands for the name of a function is in the tree as it is spelt. -/
theorem results_of_respelt_function :
    let p := ofSource "SELECT LEFT(a, 1)" .mySql false {}
    let q := ofSource "select Left(a, 1)" .mySql false {}
    Lexer.KeywordsRespelt .mySql "SELECT LEFT(a, 1)" "select Left(a, 1)" ∧ Pools.IsFresh {} ∧
      List.Forall₂ (fun t t' => t.kind = t'.kind ∧ t.span = t'.span)
        (Lexer.tokenize "SELECT LEFT(a, 1)" .mySql) (Lexer.tokenize "select Left(a, 1)" .mySql) ∧
      List.Forall₂ AnswerKin p.results.1 q.results.1 ∧
      ErrorsKin p.results.2.errors q.results.2.errors ∧
      p.results.2.tokenCount = q.results.2.tokenCount := by
  intro p q
  have hselect : ∃ t ∈ Lexer.tokenize "SELECT LEFT(a, 1)" .mySql,
      t.kind = .keyword .SELECT ∧ t.span.start = 0 ∧ t.span.stop = 6 := by decide +kernel
  have hleft : ∃ t ∈ Lexer.tokenize "SELECT LEFT(a, 1)" .mySql,
      t.kind = .keyword .LEFT ∧ t.span.start = 7 ∧ t.span.stop = 11 := by decide +kernel
  have hplace : ∀ i < 17, "SELECT LEFT(a, 1)".toList[i]? ≠ "select Left(a, 1)".toList[i]? →
      i < 6 ∨ 7 ≤ i ∧ i < 11 := by decide +kernel
  have hoffset : ∀ i < 17, String.utf8Len ("SELECT LEFT(a, 1)".toList.take i) = i := by
    decide +kernel
  have hletters : Text.lower "SELECT LEFT(a, 1)" = Text.lower "select Left(a, 1)" := by
    apply String.toList_injective
    rw [Text.lower, Text.lower, String.toList_map, String.toList_map]
    decide +kernel
  have h : Lexer.KeywordsRespelt .mySql "SELECT LEFT(a, 1)" "select Left(a, 1)" := by
    refine ⟨hletters, fun i hne => ?_⟩
    by_cases hi : i < 17
    · rw [hoffset i hi]
      rcases hplace i hi hne with hi | hi
      · obtain ⟨t, ht, hkind, hstart, hstop⟩ := hselect
        exact ⟨t, ht, ⟨_, hkind⟩, by omega, by omega⟩
      · obtain ⟨t, ht, hkind, hstart, hstop⟩ := hleft
        exact ⟨t, ht, ⟨_, hkind⟩, by omega, by omega⟩
    · refine absurd ?_ hne
      rw [List.getElem?_eq_none (Nat.le_of_not_lt hi), List.getElem?_eq_none (Nat.le_of_not_lt hi)]
  exact ⟨h, Pools.isFresh_empty,
    results_of_respelt "SELECT LEFT(a, 1)" "select Left(a, 1)" .mySql h Pools.isFresh_empty
      Pools.isFresh_empty⟩

end Parser

end SqlFrontend
