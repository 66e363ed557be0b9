import SqlFrontend.Proofs.Grammar.Heading
import SqlFrontend.Proofs.Session.Taking
import SqlFrontend.Proofs.Tree.Changes

/-!
# The characteristics of a routine

The characteristics of a routine are written before its body and behind it. Each of them says one thing
about the routine.

Results:
* `RoutineChange`: what a characteristic says. `RoutineOptions.change?` is what is said about one of the
  fields.
* `RoutineChange.Spelt`: the pieces that a characteristic is written with.
* `Grammar.reads_characteristic`: it is read, whatever stands behind it.
* `Grammar.known_of_routineOptions`: if it is read at all, the dialect has the language that it names.
-/

namespace SqlFrontend

/-! ## What characteristics say -/

/-- What a characteristic can be about. -/
inductive RoutineField where
  | language
  | security
  | deterministic
  | dataAccess
  | comment
  | volatility
  deriving DecidableEq

/-- What a characteristic says. -/
inductive RoutineChange where
  | language (name : String)
  | security (mode : SecurityMode)
  | deterministic (value : Bool)
  | dataAccess (access : DataAccess)
  | comment (text : String)
  | volatility (value : Volatility)
  deriving DecidableEq

namespace RoutineChange

def field : RoutineChange → RoutineField
  | language _ => .language
  | security _ => .security
  | deterministic _ => .deterministic
  | dataAccess _ => .dataAccess
  | comment _ => .comment
  | volatility _ => .volatility

/-- The options with what a characteristic says. -/
def apply (options : RoutineOptions) : RoutineChange → RoutineOptions
  | language name => { options with language := some name }
  | security mode => { options with security := some mode }
  | deterministic value => { options with deterministic := some value }
  | dataAccess access => { options with dataAccess := some access }
  | comment text => { options with comment := some text }
  | volatility value => { options with volatility := some value }

/-- Characteristics about different things can change places. -/
theorem apply_comm {c c' : RoutineChange} (h : c.field ≠ c'.field) (options : RoutineOptions) :
    c'.apply (c.apply options) = c.apply (c'.apply options) := by
  cases c <;> cases c' <;> first | rfl | exact absurd rfl h

end RoutineChange

/-- What is said about one of the fields, or nothing where none is set. -/
def RoutineOptions.change? (options : RoutineOptions) : RoutineField → Option RoutineChange
  | .language => options.language.map .language
  | .security => options.security.map .security
  | .deterministic => options.deterministic.map .deterministic
  | .dataAccess => options.dataAccess.map .dataAccess
  | .comment => options.comment.map .comment
  | .volatility => options.volatility.map .volatility

namespace RoutineChange

/-- A characteristic sets its own field and no other one. -/
theorem change?_apply {field : RoutineField} (c : RoutineChange) (options : RoutineOptions) :
    (c.apply options).change? field = if c.field = field then some c else options.change? field := by
  cases c <;> cases field <;> rfl

/-- Without characteristics nothing is said. -/
theorem change?_default (field : RoutineField) : ({} : RoutineOptions).change? field = none := by
  cases field <;> rfl

/-- What is said by characteristics about different things. -/
theorem change?_foldl {cs : List RoutineChange} (hcs : (cs.map field).Nodup) (field : RoutineField) :
    (cs.foldl apply {}).change? field = cs.find? fun c => c.field = field := by
  have hvalue := value?_foldl_changes (fun options : RoutineOptions => options.change? field)
    change?_apply hcs {}
  rwa [change?_default, Option.or_none] at hvalue

/-- Characteristics about different things say the same in every order. -/
theorem foldl_apply_perm {cs cs' : List RoutineChange} (h : cs.Perm cs') (hcs : (cs.map field).Nodup)
    (options : RoutineOptions) : cs.foldl apply options = cs'.foldl apply options :=
  foldl_changes_perm apply_comm h hcs options

end RoutineChange

/-! ## How characteristics are written -/

/-- Decides whether a token of a kind is a name. -/
def TokenKind.isName : TokenKind → Bool
  | .identifier | .quotedIdentifier => true
  | .keyword word => !word.isReserved
  | _ => false

theorem Token.isName_kind (t : Token) : t.isName = t.kind.isName := rfl

/-- The word for whose rights a routine runs with. -/
def SecurityMode.word : SecurityMode → Keyword
  | definer => .DEFINER
  | invoker => .INVOKER

/-- The words for what a routine does with data. -/
def DataAccess.words : DataAccess → List Keyword
  | containsSql => [.CONTAINS, .SQL]
  | noSql => [.NO, .SQL]
  | readsSqlData => [.READS, .SQL, .DATA]
  | modifiesSqlData => [.MODIFIES, .SQL, .DATA]

/-- The word for what the result of a function depends on. -/
def Volatility.word : Volatility → Keyword
  | immutable => .IMMUTABLE
  | stable => .STABLE
  | volatile => .VOLATILE

namespace RoutineChange

/-- A dialect has the language that a characteristic names, as far as it has to. -/
def Known (d : Dialect) (c : RoutineChange) : Prop := c = .language "PLPGSQL" → d.supports .plpgsql

/-- The pieces that a characteristic is written with. -/
inductive Spelt : List Piece → RoutineChange → Prop
  | language {word name : Piece} (hword : word.kind = .keyword .LANGUAGE) (hname : name.kind.isName) :
    Spelt [word, name] (.language (Text.upper name.literal))
  | security {ps : List Piece} {mode : SecurityMode}
    (hps : ps.map Piece.kind = [.keyword .SECURITY, .keyword mode.word]) : Spelt ps (.security mode)
  | sqlSecurity {ps : List Piece} {mode : SecurityMode}
    (hps : ps.map Piece.kind = [.keyword .SQL, .keyword .SECURITY, .keyword mode.word]) :
    Spelt ps (.security mode)
  | deterministic {ps : List Piece} (hps : ps.map Piece.kind = [.keyword .DETERMINISTIC]) :
    Spelt ps (.deterministic true)
  | notDeterministic {ps : List Piece}
    (hps : ps.map Piece.kind = [.keyword .NOT, .keyword .DETERMINISTIC]) : Spelt ps (.deterministic false)
  | dataAccess {ps : List Piece} {access : DataAccess}
    (hps : ps.map Piece.kind = access.words.map .keyword) : Spelt ps (.dataAccess access)
  | comment {word text : Piece} (hword : word.kind = .keyword .COMMENT) (htext : text.kind = .string) :
    Spelt [word, text] (.comment text.literal)
  | volatility {ps : List Piece} {value : Volatility}
    (hps : ps.map Piece.kind = [.keyword value.word]) : Spelt ps (.volatility value)

namespace Spelt

variable {ps : List Piece} {c : RoutineChange}

/-- A characteristic starts with a word that leads to it. -/
theorem starts (h : c.Spelt ps) : ∃ t ts, ps = t :: ts ∧ t.kind.startsOption ∧
    (t.kind = .keyword .NOT → ∃ u us, ts = u :: us ∧ u.kind = .keyword .DETERMINISTIC) := by
  cases h with
  | language hword hname => exact ⟨_, _, rfl, by rw [hword]; rfl, by rw [hword]; exact nofun⟩
  | comment hword htext => exact ⟨_, _, rfl, by rw [hword]; rfl, by rw [hword]; exact nofun⟩
  | security hps | sqlSecurity hps | deterministic hps =>
    obtain ⟨t, ts, rfl, ht, -⟩ := List.map_eq_cons_iff.1 hps
    exact ⟨t, ts, rfl, by rw [ht]; rfl, by rw [ht]; exact nofun⟩
  | notDeterministic hps =>
    obtain ⟨t, ts, rfl, ht, hts⟩ := List.map_eq_cons_iff.1 hps
    obtain ⟨u, us, rfl, hu, -⟩ := List.map_eq_cons_iff.1 hts
    exact ⟨t, u :: us, rfl, by rw [ht]; rfl, fun _ => ⟨u, us, rfl, hu⟩⟩
  | @dataAccess _ access hps =>
    cases access
    all_goals
      obtain ⟨t, ts, rfl, ht, -⟩ := List.map_eq_cons_iff.1 hps
      exact ⟨t, ts, rfl, by rw [ht]; rfl, by rw [ht]; exact nofun⟩
  | @volatility _ value hps =>
    obtain ⟨t, ts, rfl, ht, -⟩ := List.map_eq_cons_iff.1 hps
    cases value <;> exact ⟨t, ts, rfl, by rw [ht]; rfl, by rw [ht]; exact nofun⟩

/-- No piece of a characteristic is illegal. -/
theorem legal (h : c.Spelt ps) : .illegal ∉ ps.map Piece.kind := by
  cases h with
  | language hword hname =>
    intro hmem
    simp [hword] at hmem
    rw [← hmem] at hname
    cases hname
  | comment hword htext => simp [hword, htext]
  | @dataAccess _ access hps =>
    rw [hps]
    cases access <;> decide
  | @volatility _ value hps =>
    rw [hps]
    simp
  | security hps | sqlSecurity hps | deterministic hps | notDeterministic hps =>
    rw [hps]
    simp

end Spelt

end RoutineChange

namespace Grammar

open Production

variable {d : Dialect} {d? : Option Dialect} {c : RoutineChange} {options : RoutineOptions}
  {t u : Piece} {ps us : List Piece} {p q : Parser}

theorem run_name_isName (h : p.current.isName) : name p = .ok p.current.literal p.advance := by
  simp [name, h]

theorem parses_oneName (h : t.kind.isName) : ParsesIn d? name (t :: us) t.literal us := by
  have hend : t.kind ≠ .eof := by
    intro heof
    rw [heof] at h
    cases h
  refine .bindIfTrue (.look fun p hp => ?_) (.takeLiteral hend)
  rw [run_atName, Token.isName_kind, hp.kind, h]

theorem parses_language (hname : t.kind.isName)
    (hknown : Text.upper t.literal = "PLPGSQL" → d.supports .plpgsql) :
    ParsesIn (some d) language (t :: us) (Text.upper t.literal) us := by
  refine .bindAny (fun _ => ⟨_, rfl⟩) fun place => .bind (parses_oneName hname) ?_
  by_cases hprocedural : Text.upper t.literal = "PLPGSQL"
  · refine .ifTrue hprocedural (.bind (.bind .dialect (.ifTrue (hknown hprocedural) .ret)) .ret)
  · exact .ifFalse hprocedural .ret

theorem parses_securityMode {mode : SecurityMode} (h : t.kind = .keyword mode.word) :
    ParsesIn d? securityMode (t :: us) mode us := by
  cases mode with
  | definer => exact .bindIfTrue (.consumeTrue h nofun) .ret
  | invoker =>
    exact .bindIfFalse (.consumeFalse (by rw [h]; decide)) (.bind (.expectKeyword h) .ret)

/-- A round of the characteristics. -/
theorem reads_round {found options' : RoutineOptions} {qs : List Piece} (hne : ps ≠ [])
    (h : ParsesIn (some d) (routineOption? options) (ps ++ us) (some options') us)
    (hothers : Reads d (routineOptions options') us found qs) :
    Reads d (routineOptions options) (ps ++ us) found qs := by
  have hround : Reads d (routineRound options) (ps ++ us) (.more options') us := .of_parsesIn (h.bind .ret)
  refine hround.loopMore ?_ hothers
  rw [List.length_append]
  exact Nat.lt_add_of_pos_left (List.length_pos_of_ne_nil hne)

theorem parses_security {mode : SecurityMode} (ht : t.kind = .keyword .SECURITY)
    (hu : u.kind = .keyword mode.word) :
    ParsesIn d? (routineOption? options) (t :: u :: us)
      (some { options with security := some mode }) us := by
  refine .bind .kind (.bind .peekKind ?_)
  rw [ht]
  exact .bind (.advance (by rw [ht]; decide)) (.bind (parses_securityMode hu) .ret)

/-- A characteristic is read, whatever stands behind it. -/
theorem reads_characteristic {found : RoutineOptions} {qs : List Piece} (h : c.Spelt ps)
    (hknown : c.Known d) (hothers : Reads d (routineOptions (c.apply options)) (u :: us) found qs) :
    Reads d (routineOptions options) (ps ++ u :: us) found qs := by
  have hadvance {t : Piece} {word : Keyword} {rest : List Piece} (ht : t.kind = .keyword word) :
      ParsesIn (some d) advance (t :: rest) () rest := .advance (by rw [ht]; exact nofun)
  cases h with
  | language hword hname =>
    refine reads_round (List.cons_ne_nil _ _) (.bind .kind (.bind .peekKind ?_)) hothers
    rw [hword]
    refine .bind (hadvance hword) (.bind (parses_language hname fun hprocedural => hknown ?_) .ret)
    rw [hprocedural]
  | security hps =>
    simp only [List.map_eq_cons_iff, List.map_eq_nil_iff] at hps
    obtain ⟨t, _, rfl, ht, v, _, rfl, hv, rfl⟩ := hps
    exact reads_round (List.cons_ne_nil _ _) (parses_security ht hv) hothers
  | @sqlSecurity _ mode hps =>
    simp only [List.map_eq_cons_iff, List.map_eq_nil_iff] at hps
    obtain ⟨t, _, rfl, ht, v, _, rfl, hv, w, _, rfl, hw, rfl⟩ := hps
    -- the first word is passed in a round of its own
    have hfirst : ParsesIn (some d) (routineOption? options) ([t] ++ v :: w :: u :: us) (some options)
        (v :: w :: u :: us) := by
      refine .bind .kind (.bind .peekKind ?_)
      rw [ht, hv]
      exact .bind (hadvance ht) .ret
    have hmode : Reads d (routineOptions options) ([v, w] ++ u :: us) found qs :=
      reads_round (List.cons_ne_nil _ _) (parses_security hv hw) hothers
    have hboth : Reads d (routineOptions options) ([t] ++ v :: w :: u :: us) found qs :=
      reads_round (List.cons_ne_nil _ _) hfirst hmode
    exact hboth
  | deterministic hps =>
    simp only [List.map_eq_cons_iff, List.map_eq_nil_iff] at hps
    obtain ⟨t, _, rfl, ht, rfl⟩ := hps
    refine reads_round (List.cons_ne_nil _ _) (.bind .kind (.bind .peekKind ?_)) hothers
    rw [ht]
    exact .bind (hadvance ht) .ret
  | notDeterministic hps =>
    simp only [List.map_eq_cons_iff, List.map_eq_nil_iff] at hps
    obtain ⟨t, _, rfl, ht, v, _, rfl, hv, rfl⟩ := hps
    refine reads_round (List.cons_ne_nil _ _) (.bind .kind (.bind .peekKind ?_)) hothers
    rw [ht, hv]
    exact .bind (hadvance ht) (.bind (hadvance hv) .ret)
  | @dataAccess _ access hps =>
    cases access
    all_goals
      simp only [DataAccess.words, List.map_cons, List.map_nil, List.map_eq_cons_iff,
        List.map_eq_nil_iff] at hps
      obtain ⟨t, _, rfl, ht, v, _, rfl, hv, hps⟩ := hps
    case noSql =>
      subst hps
      refine reads_round (List.cons_ne_nil _ _) (.bind .kind (.bind .peekKind ?_)) hothers
      rw [ht, hv]
      exact .bind (hadvance ht) (.bind (hadvance hv) .ret)
    case containsSql =>
      subst hps
      refine reads_round (List.cons_ne_nil _ _) (.bind .kind (.bind .peekKind ?_)) hothers
      rw [ht]
      exact .bind (hadvance ht) (.bind (.expectKeyword hv) .ret)
    all_goals
      obtain ⟨w, _, rfl, hw, rfl⟩ := hps
      refine reads_round (List.cons_ne_nil _ _) (.bind .kind (.bind .peekKind ?_)) hothers
      rw [ht]
      exact .bind (hadvance ht) (.bind (.expectKeyword hv) (.bind (.expectKeyword hw) .ret))
  | comment hword htext =>
    refine reads_round (List.cons_ne_nil _ _) (.bind .kind (.bind .peekKind ?_)) hothers
    rw [hword, htext]
    exact .bind (hadvance hword) (.bind (.takeLiteral (by rw [htext]; decide)) .ret)
  | @volatility _ value hps =>
    simp only [List.map_eq_cons_iff, List.map_eq_nil_iff] at hps
    obtain ⟨t, _, rfl, ht, rfl⟩ := hps
    refine reads_round (List.cons_ne_nil _ _) (.bind .kind (.bind .peekKind ?_)) hothers
    rw [ht]
    cases value <;> exact .bind (hadvance ht) .ret

/-- Where no characteristic starts, none is read. -/
theorem run_routineOptions_none (h : p.current.kind.startsBody ∨ p.current.kind = .eof)
    (options : RoutineOptions) : routineOptions options p = .ok options p := by
  refine run_loop_done ?_
  have hnone : routineOption? options p = .ok none p := by
    rw [routineOption?, run_bind, run_kind]
    dsimp only
    rw [run_bind, run_peekKind]
    rcases h with h | h
    · rcases TokenKind.eq_of_startsBody h with h | h | h | h | h <;> rw [h] <;> rfl
    · rw [h]
      rfl
  rw [run_bind, hnone]
  rfl

theorem ok_of_routineOptions {found : RoutineOptions} (h : routineOptions options p = .ok found q) :
    ∃ step x, routineRound options p = .ok step x := by
  cases hround : routineRound options p with
  | error e x =>
    rw [routineOptions_eq_loop, run_loop_error hround] at h
    cases h
  | ok step x => exact ⟨step, x, rfl⟩

/-- The procedural language is named only where the dialect has it. -/
theorem supports_of_language {found : String} (h : language p = .ok found q)
    (hprocedural : Text.upper p.current.literal = "PLPGSQL") : p.dialect.supports .plpgsql := by
  obtain ⟨place, x, hplace, h⟩ := ok_of_bind h
  cases hplace
  obtain ⟨text, x, hname, h⟩ := ok_of_bind h
  by_cases hnamed : p.current.isName
  swap
  · simp [name, hnamed] at hname
  rw [run_name_isName hnamed] at hname
  cases hname
  rw [if_pos hprocedural] at h
  obtain ⟨_, y, hrequire, _⟩ := ok_of_bind h
  rw [← (Parser.Reaches.advance p).dialect]
  by_contra hsupports
  simp [require, hsupports] at hrequire
  cases hrequire

/-- Once a characteristic is read, the dialect has the language that is named. -/
theorem known_of_routineOptions {found : RoutineOptions} (hp : p.Ahead (ps ++ us)) (h : c.Spelt ps)
    (heq : routineOptions options p = .ok found q) : c.Known p.dialect := by
  intro hc
  cases h with
  | @language word name hword hname =>
    obtain ⟨step, x, hround⟩ := ok_of_routineOptions heq
    obtain ⟨option, y, hoption, -⟩ := ok_of_bind hround
    have hrun : routineOption? options p =
        (do return some { options with language := some (← language) }) p.advance := by
      rw [routineOption?, run_bind, run_kind, hp.kind, hword]
      rfl
    rw [hrun] at hoption
    obtain ⟨found, z, hlanguage, -⟩ := ok_of_bind hoption
    obtain ⟨hname, -⟩ := hp.advance (by rw [hword]; decide)
    have hprocedural : Text.upper name.literal = "PLPGSQL" := RoutineChange.language.inj hc
    have hsupports := supports_of_language hlanguage (by rw [hname.literal, hprocedural])
    rwa [(Parser.Reaches.advance p).dialect] at hsupports
  | _ => cases hc

end Grammar

end SqlFrontend
