import SqlFrontend.Proofs.Grammar.ClosedBody
import SqlFrontend.Proofs.Session.Characteristics

/-!
# The characteristics of a routine in any order

The characteristics of a routine stand before its body and behind it. They can change places, and sides.

Results:
* `Grammar.takes_head_lines`: the head of a routine ends before whichever characteristic comes first. The
  last parameter could take a word of it for a type, but then it is not read before that characteristic.
* `Grammar.takes_body`: the body ends before characteristics.
* `Parser.results_characteristics`: characteristics that say different things make the same routine in every
  order and on either side of the body, with what each of them says and with nothing else.
-/

namespace SqlFrontend

/-! ## What stands behind a head -/

namespace Junction

variable {J : Junction}

/-- What may stand behind a head: its first word and what follows that. -/
def EndsHead (ps : List Piece) : Prop :=
  ∃ t u us, ps = t :: u :: us ∧ t.kind.followsHead ∧
    (t.kind = .keyword .NOT → u.kind = .keyword .DETERMINISTIC)

/-- A body behind a head, or a characteristic that stands before it. -/
theorem BehindHead.of_pieces (hleft : EndsHead (J.left.map Token.piece))
    (hright : EndsHead (J.right.map Token.piece))
    (h : J.here.kind = J.there.kind ∨ J.here.kind.startsBody ∧ J.there.kind.startsOption) :
    J.BehindHead := by
  obtain ⟨t, u, us, hleft, ht, -⟩ := hleft
  obtain ⟨t', u', us', hright, ht', hnot⟩ := hright
  have hhere : J.here.kind = t.kind := congrArg Piece.kind (List.cons.inj hleft).1
  have hthere : J.there.kind = t'.kind := congrArg Piece.kind (List.cons.inj hright).1
  refine ⟨.of_pieces hleft hright (TokenKind.continues_of_followsHead ht)
    (TokenKind.continues_of_followsHead ht') ?_ ?_, hhere ▸ ht, hthere ▸ ht'⟩
  · rcases h with hsame | ⟨hbody, -⟩
    · rw [Token.isName, Token.isName, hsame]
      exact id
    · rw [Token.not_isName_of_startsBody hbody]
      exact fun hname => absurd hname Bool.false_ne_true
  · rw [hhere, hthere] at h
    intro hnone
    rcases Bool.or_eq_true_iff.1 ht' with hoption | hbody
    · by_cases hkind : t'.kind = .keyword .NOT
      · rw [hkind, hnot hkind]
        rfl
      · exact TokenKind.operator?_of_startsOption hoption hkind _
    · rcases h with hsame | ⟨-, hoption⟩
      · rw [← hnone, hsame]
        exact TokenKind.operator?_of_startsBody hbody _ _
      · rcases TokenKind.eq_of_startsBody hbody with hk | hk | hk | hk | hk <;> rw [hk] at hoption <;>
          cases hoption

end Junction

namespace Lexer

variable {d : Dialect} {text : String} {us : List Piece}

/-- A text that may stand behind a head: a body, or a characteristic. -/
def FollowsHead (d : Dialect) (text : String) : Prop :=
  ∃ t ts, front d text = t :: ts ∧ t.kind.followsHead ∧
    (t.kind = .keyword .NOT → ∃ u us, ts = u :: us ∧ u.kind = .keyword .DETERMINISTIC)

theorem FollowsHead.endsHead (h : FollowsHead d text) (hus : us ≠ []) :
    Junction.EndsHead (front d text ++ us) := by
  obtain ⟨t, ts, hts, ht, hnot⟩ := h
  rw [hts]
  cases ts with
  | nil =>
    obtain ⟨u, us, rfl⟩ := List.exists_cons_of_ne_nil hus
    refine ⟨t, u, us, rfl, ht, fun hk => ?_⟩
    obtain ⟨_, _, hnil, -⟩ := hnot hk
    cases hnil
  | cons u ts =>
    refine ⟨t, u, ts ++ us, rfl, ht, fun hk => ?_⟩
    obtain ⟨_, _, hcons, hu⟩ := hnot hk
    cases hcons
    exact hu

/-- A text without illegal tokens has its ends. -/
theorem complete_of_legal (h : .illegal ∉ (front d text).map Piece.kind) : Complete d text := by
  intro t ht
  rw [Token.isUnterminated, Bool.and_eq_false_iff]
  refine .inl (beq_false_of_ne fun hkind => h ?_)
  refine List.mem_map.2 ⟨t.piece, List.mem_map.2 ⟨t, List.mem_filter.2 ⟨ht, ?_⟩, rfl⟩, hkind⟩
  rw [Token.isEof, hkind]
  rfl

end Lexer

namespace RoutineChange.Spelt

variable {d : Dialect} {text : String} {c : RoutineChange}

theorem complete (h : c.Spelt (Lexer.front d text)) : Lexer.Complete d text :=
  Lexer.complete_of_legal h.legal

theorem followsHead (h : c.Spelt (Lexer.front d text)) : Lexer.FollowsHead d text := by
  obtain ⟨t, ts, hts, ht, hnot⟩ := h.starts
  exact ⟨t, ts, hts, Bool.or_eq_true_iff.2 (.inl ht), hnot⟩

end RoutineChange.Spelt

/-- What is read behind a front of a construct is read behind that. -/
theorem Production.Reads.of_opens {α β : Type} {d : Dialect} {opening : Production α} {rest : α → Production β}
    {whole : Production β} {a : α} {b : β} {ps qs rs : List Piece} (h : Grammar.Opens opening rest whole)
    (hopening : Reads d opening ps a qs) (hrest : Reads d (rest a) qs b rs) : Reads d whole ps b rs := by
  intro p hp hplain
  obtain ⟨q, hq, hqs, hreaches⟩ := hopening p hp hplain
  obtain ⟨r, hr, hrs, hreaches'⟩ := hrest q hqs (hplain.reaches hreaches)
  exact ⟨r, (h p a q hq).trans hr, hrs, hreaches.trans hreaches'⟩

namespace Grammar

open Production

variable {d : Dialect} {c : RoutineChange} {options : RoutineOptions} {head : RoutineHead} {body : Block}
  {heading clause text next next' : String} {us us' : List Piece} {p q : Parser}

/-! ## Heads and bodies -/

theorem create_of_routineHead (h : routineHead .tied p = .ok head q) : p.current.kind = .keyword .CREATE := by
  obtain ⟨_, x, hx, _⟩ := ok_of_bind h
  by_contra hcreate
  simp [hcreate] at hx

/-- A body starts with a word of its own. -/
theorem front_of_body (h : (closedBody .tied).TakesBefore d text "" body) :
    ∃ t ts, Lexer.front d text = t :: ts ∧ t.kind.startsBody := by
  obtain ⟨q, hq, -⟩ := h.reads
  have hstarts := startsBody_of_closedBody hq
  have hahead := h.ahead
  cases hfront : Lexer.front d text with
  | nil =>
    rw [hfront, show Lexer.pieces d "".toList = [endPiece] from Lexer.pieces_nil d] at hahead
    rw [hahead.kind] at hstarts
    cases hstarts
  | cons t ts =>
    rw [hfront] at hahead
    exact ⟨t, ts, rfl, hahead.kind ▸ hstarts⟩

theorem followsHead_of_body (h : (closedBody .tied).TakesBefore d text "" body) :
    Lexer.FollowsHead d text := by
  obtain ⟨t, ts, hts, ht⟩ := front_of_body h
  refine ⟨t, ts, hts, Bool.or_eq_true_iff.2 (.inr ht), fun hnot => ?_⟩
  rw [hnot] at ht
  cases ht

/-- A head starts with the first word of a definition. -/
theorem front_of_head (h : (routineHead .tied).TakesBefore d heading text head)
    (hbody : (closedBody .tied).TakesBefore d text "" body) :
    ∃ t ts, Lexer.front d heading = t :: ts ∧ t.kind = .keyword .CREATE := by
  obtain ⟨q, hq, -⟩ := h.reads
  have hcreate := create_of_routineHead hq
  have hahead := h.ahead
  cases hfront : Lexer.front d heading with
  | nil =>
    obtain ⟨t, ts, hts, ht⟩ := front_of_body hbody
    rw [hfront, List.nil_append, Lexer.pieces_eq_front, hts] at hahead
    rw [← hahead.kind, hcreate] at ht
    cases ht
  | cons t ts =>
    rw [hfront] at hahead
    exact ⟨t, ts, rfl, hahead.kind.symm.trans hcreate⟩

/-- A head stops neither before a point nor before the word for options of SQL Server, if a body or a
characteristic follows. -/
theorem stop_of_followsHead (h : Lexer.FollowsHead d text) (hnext : Lexer.pieces d next.toList =
    Lexer.front d text ++ us) :
    ∀ t ∈ (Lexer.pieces d next.toList).head?, ¬(t.kind = .dot ∨ t.kind = .keyword .WITH) := by
  obtain ⟨t, ts, hts, ht, -⟩ := h
  rw [hnext, hts]
  rintro _ ⟨⟩
  rintro (hk | hk) <;> rw [hk] at ht <;> cases ht

/-- A head is taken before whatever starts with the same text. -/
theorem takes_head_longer (h : (routineHead .tied).TakesBefore d heading next head)
    (hheading : Lexer.front d heading ≠ []) (hlong : next.utf8ByteSize < next'.utf8ByteSize)
    (htext : Lexer.FollowsHead d text) (hnext : Lexer.pieces d next.toList = Lexer.front d text ++ us)
    (hnext' : Lexer.pieces d next'.toList = Lexer.front d text ++ us') (hus : us ≠ []) (hus' : us' ≠ []) :
    (routineHead .tied).TakesBefore d heading next' head := by
  refine h.follows_instead (fun k => k = .dot ∨ k = .keyword .WITH) hheading hlong
    (stop_of_followsHead htext hnext) fun J hleft hright n => ?_
  rw [hnext] at hleft
  rw [hnext'] at hright
  have hkind : J.here.kind = J.there.kind := by
    obtain ⟨t, ts, hts, -⟩ := htext
    rw [hts] at hleft hright
    exact (congrArg Piece.kind (List.cons.inj hleft).1).trans
      (congrArg Piece.kind (List.cons.inj hright).1).symm
  have hJ : J.BehindHead :=
    .of_pieces (hleft ▸ htext.endsHead hus) (hright ▸ htext.endsHead hus') (.inl hkind)
  refine (Junction.Tells.routineHead hJ).follows ?_ n
  rintro ⟨hthere, hhere⟩
  rw [Token.isName_kind, hkind] at hhere
  exact hhere hthere

/-- A head is taken before a characteristic, if it is read there at all. -/
theorem takes_head_option (h : (routineHead .tied).TakesBefore d heading text head)
    (hheading : Lexer.front d heading ≠ []) (hbody : (closedBody .tied).TakesBefore d text "" body)
    (hclause : c.Spelt (Lexer.front d clause))
    (hread : ∃ q, routineHead .tied (.ofSource (heading ++ "\n" ++ (clause ++ "\n" ++ text)) d false {}) =
      .ok head q) :
    (routineHead .tied).TakesBefore d heading (clause ++ "\n" ++ text) head := by
  obtain ⟨t, ts, hts, ht⟩ := front_of_body hbody
  obtain ⟨v, vs, hvs, hv, -⟩ := hclause.starts
  have htext := followsHead_of_body hbody
  have hpieces := Lexer.pieces_eq_front d text
  have hpieces' := hclause.complete.pieces_line text
  refine h.tells_instead (fun k => k = .dot ∨ k = .keyword .WITH) hheading
    (Lexer.utf8ByteSize_line clause text) (stop_of_followsHead htext hpieces) (fun J hleft hright => ?_) hread
  refine Junction.Tells.routineHead (.of_pieces ?_ ?_ (.inr ⟨?_, ?_⟩))
  · rw [hleft, hpieces]
    exact htext.endsHead (List.cons_ne_nil _ _)
  · rw [hright, hpieces']
    exact hclause.followsHead.endsHead (Lexer.pieces_ne_nil d text)
  · rw [hpieces, hts] at hleft
    have hhere : J.here.kind = t.kind := congrArg Piece.kind (List.cons.inj hleft).1
    rwa [hhere]
  · rw [hpieces', hvs] at hright
    have hthere : J.there.kind = v.kind := congrArg Piece.kind (List.cons.inj hright).1
    rwa [hthere]

/-- A head is taken before characteristics and a body, if it is taken before each of the characteristics. -/
theorem takes_head_lines (h : (routineHead .tied).TakesBefore d heading text head)
    (hheading : Lexer.front d heading ≠ []) (hbody : (closedBody .tied).TakesBefore d text "" body)
    {before : List (String × RoutineChange)} (hbefore : ∀ clause ∈ before,
      clause.2.Spelt (Lexer.front d clause.1) ∧
        (routineHead .tied).TakesBefore d heading (clause.1 ++ "\n" ++ text) head) (after : List String) :
    (routineHead .tied).TakesBefore d heading
      (Lexer.linesText (before.map Prod.fst ++ text :: after) "") head := by
  cases before with
  | nil =>
    exact takes_head_longer h hheading (Lexer.utf8ByteSize_lt_linesText List.mem_cons_self "")
      (followsHead_of_body hbody) (Lexer.pieces_eq_front d text) (hbody.complete.pieces_line _)
      (List.cons_ne_nil _ _) (Lexer.pieces_ne_nil d _)
  | cons clause others =>
    obtain ⟨hspelt, htakes⟩ := hbefore clause List.mem_cons_self
    refine takes_head_longer htakes hheading ?_ hspelt.followsHead (hspelt.complete.pieces_line text)
      (hspelt.complete.pieces_line _) (Lexer.pieces_ne_nil d text) (Lexer.pieces_ne_nil d _)
    have hlong : text.utf8ByteSize <
        (Lexer.linesText (others.map Prod.fst ++ text :: after) "").utf8ByteSize :=
      Lexer.utf8ByteSize_lt_linesText (List.mem_append_right _ List.mem_cons_self) ""
    rw [List.map_cons, List.cons_append, Lexer.linesText, List.foldr_cons, ← Lexer.linesText]
    simpa only [String.utf8ByteSize_append, Nat.add_lt_add_iff_left] using hlong

/-- The lines of a routine behind its head have their ends. -/
theorem complete_lines {before after : List (String × RoutineChange)} (hbody : Lexer.Complete d text)
    (h : ∀ clause ∈ before ++ after, clause.2.Spelt (Lexer.front d clause.1)) :
    ∀ line ∈ before.map Prod.fst ++ text :: after.map Prod.fst, Lexer.Complete d line := by
  have hclause (clauses : List (String × RoutineChange)) (hclauses : clauses ⊆ before ++ after) :
      ∀ line ∈ clauses.map Prod.fst, Lexer.Complete d line :=
    List.forall_mem_map.2 fun clause hclause => (h clause (hclauses hclause)).complete
  refine List.forall_mem_append.2 ⟨hclause before (List.subset_append_left _ _), ?_⟩
  exact List.forall_mem_cons.2 ⟨hbody, hclause after (List.subset_append_right _ _)⟩

/-- A body that closes is taken before characteristics. -/
theorem takes_body (h : (closedBody .tied).TakesBefore d text "" body) {lines : List String}
    (hlines : ∀ line ∈ lines, ∃ c : RoutineChange, c.Spelt (Lexer.front d line)) :
    (closedBody .tied).TakesBefore d text (Lexer.linesText lines "") body := by
  cases lines with
  | nil => exact h
  | cons line lines =>
    obtain ⟨t, ts, hts, -⟩ := front_of_body h
    obtain ⟨c, hc⟩ := hlines line List.mem_cons_self
    obtain ⟨v, vs, hvs, hv, -⟩ := hc.starts
    refine h.follows_instead (fun _ => False) (by rw [hts]; exact List.cons_ne_nil t ts)
      (Lexer.utf8ByteSize_linesText line lines "") (fun _ _ => id) fun J hleft hright n => ?_
    refine (Junction.Follows.closedBody ⟨?_, ?_⟩).anyway
    · rw [show Lexer.pieces d "".toList = [endPiece] from Lexer.pieces_nil d] at hleft
      exact congrArg Piece.kind (List.cons.inj hleft).1
    · have hpieces := hc.complete.pieces_line (Lexer.linesText lines "")
      change _ = Lexer.pieces d (line ++ "\n" ++ Lexer.linesText lines "").toList at hright
      rw [hpieces, hvs] at hright
      have hthere : J.there.kind = v.kind := congrArg Piece.kind (List.cons.inj hright).1
      rwa [hthere]

/-- Characteristics are read one after the other. -/
theorem reads_characteristics {clauses : List (String × RoutineChange)}
    (h : ∀ clause ∈ clauses, clause.2.Spelt (Lexer.front d clause.1) ∧ clause.2.Known d)
    {t : Piece} (ht : t.kind.startsBody ∨ t.kind = .eof) (options : RoutineOptions) :
    Reads d (routineOptions options) ((clauses.map Prod.fst).flatMap (Lexer.front d) ++ t :: us)
      ((clauses.map Prod.snd).foldl RoutineChange.apply options) (t :: us) := by
  induction clauses generalizing options with
  | nil =>
    refine .of_parsesIn (.look fun p hp => run_routineOptions_none ?_ options)
    rwa [hp.kind]
  | cons clause clauses ih =>
    obtain ⟨hspelt, hknown⟩ := h clause List.mem_cons_self
    have hothers := ih (fun clause' h' => h clause' (List.mem_cons_of_mem _ h')) (clause.2.apply options)
    obtain ⟨u, vs, hus⟩ := List.exists_cons_of_ne_nil
      (List.append_ne_nil_of_right_ne_nil ((clauses.map Prod.fst).flatMap (Lexer.front d))
        (List.cons_ne_nil t us))
    rw [hus] at hothers
    rw [List.map_cons, List.flatMap_cons, List.append_assoc, hus]
    exact reads_characteristic hspelt hknown hothers

/-- Where the head of a routine is read, a statement is that head and what is read behind it. -/
theorem opens_routine : Opens (routineHead .tied) (routineRest .tied) (statement .tied) :=
  fun p head q h => (statement_of_create (create_of_routineHead h)).trans (splits_create.opens p head q h)

/-- The head of a procedure without parameters. -/
theorem parses_routineHead {N : Nested} {name : String} (ht : t.kind ≠ .keyword .WITH) :
    Parses (routineHead N) (.of (.keyword .CREATE) :: .of (.keyword .PROCEDURE) :: ⟨.identifier, name⟩ ::
      .of .leftParen :: .of .rightParen :: t :: us) ⟨false, ⟨none, name⟩, [], none⟩ (t :: us) := by
  have hnamed : Parses (namedHead N false) (.of (.keyword .PROCEDURE) :: ⟨.identifier, name⟩ ::
      .of .leftParen :: .of .rightParen :: t :: us) ⟨false, ⟨none, name⟩, [], none⟩ (t :: us) := by
    refine .bind .kind (.bind (.consumeTrue rfl (by decide)) (.ifTrue rfl ?_))
    exact .bind (parses_objectName (by decide)) (.bind parses_parameters .ret)
  have hnone : Parses executionOptions? (t :: us) none (t :: us) :=
    .look fun p hp => run_executionOptions?_none fun h => ht (hp.kind.symm.trans h.1)
  refine .bind (.expectKeyword rfl) (.bind (.bind (.checkKeywordsFalse (by decide))
    (.bind (.checkKeywordsFalse (by decide)) (.ifFalse (by decide) .ret))) ?_)
  refine .bind (.bindIfFalse (.bind .kind .ret) .ret) (.bind (.consumeFalse (by decide)) ?_)
  refine .bind (.bindIfFalse (.consumeFalse (by decide))
    (.bindIfFalse (.consumeFalse (by decide)) .ret)) (.bind hnamed ?_)
  exact .bind (.loopDone (.bind hnone .ret)) .ret

/-- A definition of a routine has the head that is read first. -/
theorem head_of_statement (hcreate : p.current.kind = .keyword .CREATE)
    (h : statement .tied p = .ok (head.statement options body) q) :
    ∃ x found y, routineHead .tied p = .ok head x ∧ routineOptions {} x = .ok found y := by
  rw [statement_of_create hcreate] at h
  obtain ⟨head', x, hx⟩ := splits_create.found p _ q (head.isRoutine_statement options body) h
  rw [splits_create.opens p head' x hx] at h
  obtain ⟨found, y, hfound, h⟩ := ok_of_bind h
  obtain ⟨body', z, hbody', h⟩ := ok_of_bind h
  obtain ⟨found', w, hfound', h⟩ := ok_of_bind h
  have hsame : head'.statement found' body' = head.statement options body := (EStateM.Result.ok.inj h).1
  obtain ⟨rfl, -, -⟩ := RoutineHead.statement_inj hsame
  exact ⟨x, found, y, hx, hfound⟩

/-- A routine with characteristics before its body and behind it. -/
theorem reads_routine {before after : List (String × RoutineChange)}
    (hhead : (routineHead .tied).TakesBefore d heading
      (Lexer.linesText (before.map Prod.fst ++ text :: after.map Prod.fst) "") head)
    (hheading : Lexer.front d heading ≠ []) (hbody : (closedBody .tied).TakesBefore d text "" body)
    (h : ∀ clause ∈ before ++ after, clause.2.Spelt (Lexer.front d clause.1) ∧ clause.2.Known d) :
    Reads d (statement .tied) (Lexer.front d heading ++
        (before.map Prod.fst ++ text :: after.map Prod.fst).flatMap (Lexer.front d) ++ [endPiece])
      (head.statement (((before ++ after).map Prod.snd).foldl RoutineChange.apply {}) body) [endPiece] := by
  have hend : Lexer.pieces d "".toList = [endPiece] := Lexer.pieces_nil d
  have hbefore := fun clause h' => h clause (List.mem_append_left after h')
  have hafter := fun clause h' => h clause (List.mem_append_right before h')
  have hlast : ∀ line ∈ after.map Prod.fst, ∃ c : RoutineChange, c.Spelt (Lexer.front d line) :=
    List.forall_mem_map.2 fun clause hclause => ⟨clause.2, (hafter clause hclause).1⟩
  have hcomplete := complete_lines hbody.complete fun clause hclause => (h clause hclause).1
  obtain ⟨t, ts, hts, ht⟩ := front_of_body hbody
  have hne : Lexer.front d text ≠ [] := by rw [hts]; exact List.cons_ne_nil t ts
  have hreadsHead := hhead.reads_here (fun L _ => .routineHead L.nested_tied) hheading
  have hreadsBody := (takes_body hbody hlast).reads_here (fun L _ => .closedBody L.nested_tied) hne
  rw [Lexer.pieces_linesText hcomplete, hend] at hreadsHead
  have hcomplete' : ∀ line ∈ after.map Prod.fst, Lexer.Complete d line := fun line hline =>
    hcomplete line (List.mem_append_right _ (List.mem_cons_of_mem _ hline))
  rw [Lexer.pieces_linesText hcomplete', hend] at hreadsBody
  rw [List.append_assoc]
  refine .of_opens opens_routine hreadsHead ?_
  rw [List.flatMap_append, List.flatMap_cons, List.append_assoc, List.append_assoc, List.map_append,
    List.foldl_append]
  rw [hts, List.cons_append] at hreadsBody ⊢
  have hroutineBody : Reads d (routineBody .tied) _ _ _ :=
    .of_opens opens_routineBody hreadsBody (.of_parsesIn .ret)
  refine (reads_characteristics hbefore (.inl ht) _).bind (hroutineBody.bind ?_)
  exact (reads_characteristics hafter (.inr rfl) _).bind (.of_parsesIn .ret)

end Grammar

/-! ## Sources -/

namespace Parser

open Grammar

variable {d : Dialect} {pools : Pools} {source : String} {s : Statement}

/-- What a source is read to does not depend on its pools. -/
theorem ok_of_results {t u : Piece} {us : List Piece} (hpools : pools.IsFresh)
    (hpieces : Lexer.pieces d source.toList = t :: u :: us) (ht : t.kind = .keyword .CREATE)
    (h : (ofSource source d false pools).results.1 = [.ok s]) :
    ∃ q, Grammar.statement .tied (ofSource source d false {}) = .ok s q := by
  have hahead := ahead_ofSource source d hpools
  have hahead' := ahead_ofSource source d Pools.isFresh_empty
  rw [hpieces] at hahead hahead'
  have hplace : (ofSource source d false pools).skipSeparators = ofSource source d false pools :=
    hahead.skipSeparators (by rw [ht]; decide) (by rw [ht]; decide)
  have hmore : ¬(ofSource source d false pools).skipSeparators.atEnd := by
    rw [hplace, atEnd, Token.isEof, hahead.kind, ht]
    decide
  have hsettled : { ofSource source d false pools with deferred := #[] } = ofSource source d false pools := by
    rw [← hahead.settled]
  rw [(ready_ofSource source d pools).results_found hmore, hplace, statement, hsettled, hplace] at h
  cases hparse : Grammar.parse (ofSource source d false pools) with
  | error e q =>
    rw [hparse] at h
    cases (List.cons.inj h).1
  | ok found q =>
    rw [hparse] at h
    cases (List.cons.inj h).1
    have hrun := (Nested.tied_agreesAt hahead.underway).statement.trans hparse
    have hreads : Production.Reads d (Grammar.statement .tied) _ _ _ :=
      .of_run (fun L _ => .statement L.nested_tied) (by simp) hahead (plain_ofSource source d pools) hrun rfl
    obtain ⟨r, hr, -⟩ := hreads _ hahead' (plain_ofSource source d {})
    exact ⟨r, hr⟩

/-- Where a routine is read with a characteristic, its head is taken before that, and the dialect has what
it names. -/
theorem takes_of_results {heading clause text : String} {head : RoutineHead} {body : Block}
    {options : RoutineOptions} {c : RoutineChange} (hpools : pools.IsFresh)
    (hhead : (routineHead .tied).TakesBefore d heading text head)
    (hbody : (closedBody .tied).TakesBefore d text "" body) (hclause : c.Spelt (Lexer.front d clause))
    (hresults : (ofSource ("\n".intercalate [heading, clause, text]) d false pools).results.1 =
      [.ok (head.statement options body)]) :
    (routineHead .tied).TakesBefore d heading (clause ++ "\n" ++ text) head ∧ c.Known d := by
  obtain ⟨t, ts, hts, ht⟩ := front_of_head hhead hbody
  have hne : Lexer.front d heading ≠ [] := by rw [hts]; exact List.cons_ne_nil t ts
  have hsource : "\n".intercalate [heading, clause, text] = heading ++ "\n" ++ (clause ++ "\n" ++ text) := by
    rw [String.intercalate_cons_cons, String.intercalate_cons_cons, String.intercalate_singleton]
  rw [hsource] at hresults
  have hrest := hclause.complete.pieces_line text
  have hpieces := hhead.complete.pieces_line (clause ++ "\n" ++ text)
  obtain ⟨v, vs, hvs⟩ := List.exists_cons_of_ne_nil (List.append_ne_nil_of_right_ne_nil ts
    (Lexer.pieces_ne_nil d (clause ++ "\n" ++ text)))
  rw [hts, List.cons_append, hvs] at hpieces
  obtain ⟨q, hq⟩ := ok_of_results hpools hpieces ht hresults
  have hahead := ahead_ofSource (heading ++ "\n" ++ (clause ++ "\n" ++ text)) d Pools.isFresh_empty
  rw [hpieces] at hahead
  obtain ⟨x, found, y, hx, hfound⟩ := head_of_statement (hahead.kind.trans ht) hq
  have htakes := takes_head_option hhead hne hbody hclause ⟨x, hx⟩
  obtain ⟨x', hx', hahead', hreaches⟩ :=
    htakes.reads_here (fun L _ => .routineHead L.nested_tied) hne _ htakes.ahead (plain_ofSource _ d _)
  obtain ⟨-, rfl⟩ := EStateM.Result.ok.inj (hx.symm.trans hx')
  rw [hrest] at hahead'
  have hknown := known_of_routineOptions hahead' hclause hfound
  rw [hreaches.dialect, dialect_ofSource] at hknown
  exact ⟨htakes, hknown⟩

/-- A source with the tokens of a routine is read as that routine. -/
theorem results_of_takes {heading text : String} {head : RoutineHead} {body : Block}
    (before after : List (String × RoutineChange)) (hpools : pools.IsFresh)
    (hhead : (routineHead .tied).TakesBefore d heading
      (Lexer.linesText (before.map Prod.fst ++ text :: after.map Prod.fst) "") head)
    (hbody : (closedBody .tied).TakesBefore d text "" body)
    (hcreate : ∃ t ts, Lexer.front d heading = t :: ts ∧ t.kind = .keyword .CREATE)
    (h : ∀ clause ∈ before ++ after, clause.2.Spelt (Lexer.front d clause.1) ∧ clause.2.Known d)
    (hsource : Lexer.pieces d source.toList = Lexer.pieces d
      ("\n".intercalate (heading :: (before.map Prod.fst ++ text :: after.map Prod.fst))).toList) :
    (ofSource source d false pools).results.1 =
        [.ok (head.statement (((before ++ after).map Prod.snd).foldl RoutineChange.apply {}) body)] ∧
      (ofSource source d false pools).results.2.errors = #[] := by
  obtain ⟨t, ts, hts, ht⟩ := hcreate
  have hheading : Lexer.front d heading ≠ [] := by rw [hts]; exact List.cons_ne_nil t ts
  have hlines : ∀ line ∈ heading :: (before.map Prod.fst ++ text :: after.map Prod.fst),
      Lexer.Complete d line :=
    List.forall_mem_cons.2
      ⟨hhead.complete, complete_lines hbody.complete fun clause hclause => (h clause hclause).1⟩
  have hahead := ahead_ofSource source d hpools
  rw [hsource, Lexer.pieces_lines hlines, List.flatMap_cons] at hahead
  obtain ⟨q, hq, hqs, -⟩ := reads_routine hhead hheading hbody h _ hahead (plain_ofSource source d pools)
  have hparse : Grammar.parse (ofSource source d false pools) = .ok _ q :=
    (Nested.tied_agreesAt hahead.underway).statement.symm.trans hq
  rw [hts] at hahead
  exact hahead.results_of_run (ready_ofSource source d pools) (by rw [ht]; decide) (by rw [ht]; decide)
    (by rw [ht]; decide) hparse hqs

/-- The characteristics of a routine may be written in any order, before the body and behind it. Let a
definition of a routine be given by its head and by a body that is a block or in quotes, and let there be
characteristics about different things. Let the definition be read with each of them alone before the body,
and say just what that one says. In every order and on either side of the body, they make one and the same
routine: it says what each of them says, and nothing else. How the parts are separated does not matter, as
long as there are the same tokens as in lines. -/
theorem results_characteristics {heading text : String} {head : RoutineHead} {body : Block}
    {clauses : List (String × RoutineChange)} (hpools : pools.IsFresh)
    (hhead : (routineHead .tied).TakesBefore d heading text head)
    (hbody : (closedBody .tied).TakesBefore d text "" body)
    (hclauses : ∀ clause ∈ clauses, clause.2.Spelt (Lexer.front d clause.1) ∧
      (ofSource ("\n".intercalate [heading, clause.1, text]) d false pools).results.1 =
        [.ok (head.statement (clause.2.apply {}) body)])
    (hfields : (clauses.map fun clause => clause.2.field).Nodup) :
    ∃ options : RoutineOptions,
      (∀ field, options.change? field =
        (clauses.map Prod.snd).find? fun change => change.field = field) ∧
      ∀ before after : List (String × RoutineChange), (before ++ after).Perm clauses →
        ∀ source : String, Lexer.pieces d source.toList = Lexer.pieces d
            ("\n".intercalate (heading :: (before.map Prod.fst ++ text :: after.map Prod.fst))).toList →
          (ofSource source d false pools).results.1 = [.ok (head.statement options body)] ∧
            (ofSource source d false pools).results.2.errors = #[] := by
  let changes := clauses.map Prod.snd
  have hchanges : (changes.map RoutineChange.field).Nodup := by rwa [List.map_map]
  refine ⟨changes.foldl RoutineChange.apply {}, RoutineChange.change?_foldl hchanges,
    fun before after hperm source hsource => ?_⟩
  have hperm' : changes.foldl RoutineChange.apply {} =
      ((before ++ after).map Prod.snd).foldl RoutineChange.apply {} :=
    RoutineChange.foldl_apply_perm (hperm.map Prod.snd).symm hchanges {}
  have hall : ∀ clause ∈ before ++ after, clause.2.Spelt (Lexer.front d clause.1) ∧
      (routineHead .tied).TakesBefore d heading (clause.1 ++ "\n" ++ text) head ∧ clause.2.Known d := by
    intro clause hclause
    obtain ⟨hspelt, hresults⟩ := hclauses clause (hperm.mem_iff.1 hclause)
    exact ⟨hspelt, takes_of_results hpools hhead hbody hspelt hresults⟩
  obtain ⟨t, ts, hts, ht⟩ := front_of_head hhead hbody
  have hheading : Lexer.front d heading ≠ [] := by rw [hts]; exact List.cons_ne_nil t ts
  have htakes := takes_head_lines hhead hheading hbody
    (fun clause hclause => ⟨(hall clause (List.mem_append_left _ hclause)).1,
      (hall clause (List.mem_append_left _ hclause)).2.1⟩) (after.map Prod.fst)
  rw [hperm']
  exact results_of_takes before after hpools htakes hbody ⟨t, ts, hts, ht⟩
    (fun clause hclause => ⟨(hall clause hclause).1, (hall clause hclause).2.2⟩) hsource

/-- Characteristics share words, and a word behind the body could be a name for it. -/
theorem results_characteristics_apart :
    let head : RoutineHead := ⟨false, ⟨none, "p"⟩, [], none⟩
    let body : Block := ⟨none, [], [], none, none⟩
    let clauses : List (String × RoutineChange) :=
      [("LANGUAGE SQL", .language "SQL"), ("SECURITY DEFINER", .security .definer),
        ("NOT DETERMINISTIC", .deterministic false)]
    Pools.IsFresh {} ∧ (routineHead .tied).TakesBefore .mySql "CREATE PROCEDURE p ()" "BEGIN END" head ∧
      (closedBody .tied).TakesBefore .mySql "BEGIN END" "" body ∧
      (∀ clause ∈ clauses, clause.2.Spelt (Lexer.front .mySql clause.1) ∧
        (ofSource ("\n".intercalate ["CREATE PROCEDURE p ()", clause.1, "BEGIN END"])
          .mySql false {}).results.1 = [.ok (head.statement (clause.2.apply {}) body)]) ∧
      (clauses.map fun clause => clause.2.field).Nodup ∧
      ∃ options : RoutineOptions, options.change? .language = some (.language "SQL") ∧
        options.change? .security = some (.security .definer) ∧ options.change? .comment = none ∧
        ∀ lines ∈ [["LANGUAGE SQL", "SECURITY DEFINER", "NOT DETERMINISTIC", "BEGIN END"],
            ["NOT DETERMINISTIC", "BEGIN END", "LANGUAGE SQL", "SECURITY DEFINER"]],
          (ofSource ("\n".intercalate ("CREATE PROCEDURE p ()" :: lines)) .mySql false {}).results.1 =
            [.ok (head.statement options body)] := by
  intro head body clauses
  have hbody : (closedBody .tied).TakesBefore .mySql "BEGIN END" "" body := by
    refine .of_run' (f := fun found => found.label.isNone && found.declarations.isEmpty &&
      found.body.isEmpty && found.handlers.isNone && found.endLabel.isNone) (by decide +kernel) ?_
      (by decide +kernel)
    rintro ⟨label, declarations, statements, handlers, endLabel⟩ hbare
    simp only [Bool.and_eq_true, Option.isNone_iff_eq_none, List.isEmpty_iff] at hbare
    obtain ⟨⟨⟨⟨rfl, rfl⟩, rfl⟩, rfl⟩, rfl⟩ := hbare
    rfl
  have hfront : Lexer.front .mySql "CREATE PROCEDURE p ()" =
      [.of (.keyword .CREATE), .of (.keyword .PROCEDURE), ⟨.identifier, "p"⟩, .of .leftParen,
        .of .rightParen] := by decide +kernel
  have hhead (next : String) (t : Piece) (us : List Piece)
      (hnext : Lexer.pieces .mySql next.toList = t :: us) (ht : t.kind ≠ .keyword .WITH) :
      (routineHead .tied).TakesBefore .mySql "CREATE PROCEDURE p ()" next head := by
    have hcomplete : Lexer.Complete .mySql "CREATE PROCEDURE p ()" := by decide +kernel
    refine .of_parses hcomplete ?_
    rw [hcomplete.pieces_line, hfront, hnext]
    exact parses_routineHead ht
  have hspelt : ∀ clause ∈ clauses, clause.2.Spelt (Lexer.front .mySql clause.1) := by
    have hlanguage : RoutineChange.Spelt [⟨.keyword .LANGUAGE, "LANGUAGE"⟩, ⟨.keyword .SQL, "SQL"⟩]
        (.language (Text.upper "SQL")) := .language rfl rfl
    have hfronts : Lexer.front .mySql "LANGUAGE SQL" =
        [⟨.keyword .LANGUAGE, "LANGUAGE"⟩, ⟨.keyword .SQL, "SQL"⟩] ∧ Text.upper "SQL" = "SQL" := by
      decide +kernel
    simp only [clauses, List.forall_mem_cons, List.not_mem_nil, false_imp_iff, implies_true, and_true]
    refine ⟨?_, .security (by decide +kernel), .notDeterministic (by decide +kernel)⟩
    rw [hfronts.2] at hlanguage
    rwa [hfronts.1]
  have hknown : ∀ clause ∈ clauses, clause.2.Known .mySql := by
    simp only [clauses, List.forall_mem_cons, List.not_mem_nil, false_imp_iff, implies_true, and_true]
    refine ⟨fun h => ?_, fun h => ?_, fun h => ?_⟩ <;> simp at h
  have hresults : ∀ clause ∈ clauses,
      (ofSource ("\n".intercalate ["CREATE PROCEDURE p ()", clause.1, "BEGIN END"])
        .mySql false {}).results.1 = [.ok (head.statement (clause.2.apply {}) body)] := by
    intro clause hclause
    obtain ⟨t, ts, hts, ht, -⟩ := (hspelt clause hclause).starts
    have hnext := (hspelt clause hclause).complete.pieces_line (Lexer.linesText ["BEGIN END"] "")
    rw [hts, List.cons_append] at hnext
    have htakes := hhead _ t _ hnext fun hwith => by rw [hwith] at ht; cases ht
    refine (results_of_takes [clause] [] Pools.isFresh_empty htakes hbody
      ⟨_, _, hfront, rfl⟩ (fun clause' h => ?_) rfl).1
    rw [List.append_nil, List.mem_singleton] at h
    exact ⟨h ▸ hspelt clause hclause, h ▸ hknown clause hclause⟩
  have hfields : (clauses.map fun clause => clause.2.field).Nodup := by decide
  have hhead' : (routineHead .tied).TakesBefore .mySql "CREATE PROCEDURE p ()" "BEGIN END" head :=
    hhead "BEGIN END" ⟨.keyword .BEGIN, "BEGIN"⟩ [⟨.keyword .END, "END"⟩, endPiece]
      (by decide +kernel) (by decide)
  obtain ⟨options, hoptions, horders⟩ := results_characteristics Pools.isFresh_empty hhead' hbody
    (fun clause hclause => ⟨hspelt clause hclause, hresults clause hclause⟩) hfields
  refine ⟨Pools.isFresh_empty, hhead', hbody,
    fun clause hclause => ⟨hspelt clause hclause, hresults clause hclause⟩, hfields, options,
    hoptions .language, hoptions .security, hoptions .comment, fun lines hlines => ?_⟩
  have hturned : (clauses.drop 2 ++ clauses.take 2).Perm clauses := by decide
  rcases List.mem_pair.1 hlines with rfl | rfl
  · exact (horders clauses [] (by rw [List.append_nil]) _ rfl).1
  · exact (horders _ _ hturned _ rfl).1

end Parser

end SqlFrontend
