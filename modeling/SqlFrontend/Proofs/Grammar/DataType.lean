import SqlFrontend.Proofs.Grammar.Descent
import SqlFrontend.Proofs.Parsing.Success
import SqlFrontend.Proofs.Summary.DataType

/-!
# Data types as they are read

Results:
* `Parser.Reading`: a parser of a text whose names have no quotes.
* `Grammar.spelled_of_dataType`: what is read of a type there is spelt in its dialect, with numbers of 64
  bits.
-/

namespace SqlFrontend

/-! ## Names without quotes -/

/-- A token that is no name in quotes, and that is a word if it is a name or a keyword. -/
structure Token.Unquoted (d : Dialect) (t : Token) : Prop where
  kind : t.kind ≠ .quotedIdentifier
  word : (t.kind = .identifier ∨ ∃ keyword, t.kind = .keyword keyword) → t.piece.IsWord d

theorem Token.unquoted_of_isEof {d : Dialect} {t : Token} (h : t.isEof) : t.Unquoted d := by
  rw [isEof, beq_iff_eq] at h
  refine ⟨by rw [h]; decide, fun hword => ?_⟩
  rw [h] at hword
  rcases hword with hword | ⟨_, hword⟩ <;> cases hword

namespace Parser

/-- A parser that reads a statement in a dialect, without a time limit, from a text whose names have no
quotes. -/
structure Reading (d : Dialect) (p : Parser) : Prop where
  underway : p.Underway
  live : p.expired = false
  running : p.cancelled = false
  dialect : p.dialect = d
  words : ∀ t ∈ p.upcoming, t.Unquoted d

namespace Reading

variable {d : Dialect} {p q : Parser}

theorem current (h : p.Reading d) : p.current.Unquoted d := by
  refine h.words _ ?_
  unfold upcoming
  split
  · exact List.mem_cons_self
  split <;> exact List.mem_cons_self

theorem reaches (h : p.Reading d) (hpq : p.Reaches q) (hq : q.Underway) : q.Reading d := by
  have hinv := hpq.invariant_of_live
    (I := fun x => (x.Sound ∧ ∀ t ∈ x.upcoming, t.Unquoted d) ∧ x.cancelled = false)
    (by simp [h.running]) (by simp [h.live]) ⟨⟨h.underway.sound, h.words⟩, h.running⟩ ?_ ?_
  · exact ⟨hq, hpq.expired.trans h.live, hinv.2, hpq.dialect.trans h.dialect, hinv.1.2⟩
  · rintro x hc he ⟨⟨hsound, hwords⟩, -⟩
    refine ⟨⟨hsound.advance, fun t ht => ?_⟩, ?_⟩
    · by_cases hend : x.atEnd
      · rw [upcoming_of_atEnd (hsound.atEnd_advance hend)] at ht
        obtain rfl := List.mem_singleton.1 ht
        exact Token.unquoted_of_isEof (hsound.atEnd_advance hend)
      · exact hwords t (upcoming_advance hend hc he ▸ List.mem_cons_of_mem _ ht)
    · rw [advance_of_live hc he, countCurrent_eq]
      simpa using hc
  · rintro x y hxy ⟨⟨hsound, hwords⟩, hrunning⟩
    have hupcoming : x.course.upcoming = y.course.upcoming := congrArg upcoming hxy
    have hcancelled : x.course.cancelled = y.course.cancelled := congrArg cancelled hxy
    exact ⟨⟨hsound.of_course hxy, fun t ht => hwords t ((congrArg (t ∈ ·) hupcoming).mpr ht)⟩,
      hcancelled.symm.trans hrunning⟩

theorem advance (h : p.Reading d) : p.advance.Reading d := h.reaches (.advance p) h.underway.advance

/-- A production that is in lockstep with itself goes on in the text. -/
theorem of_lockstep {α : Type} {m : Production α} {l : Level} {k : α → Level} {a : α} (base : Parser)
    (h : p.Reading d) (hlevel : l.Holds (base, base) p p)
    (hm : (Likeness.same .equal p.errors).Lockstep (base, base) l m m k) (hq : m p = .ok a q) :
    q.Reading d ∧ (k a).Holds (base, base) q q := by
  have houtcome := hm (base, base) ⟨.refl base, .refl base⟩ p p h.underway.same hlevel
  rw [hq] at houtcome
  cases houtcome with
  | ok hstate hreaches _ hthere => exact ⟨h.reaches hreaches (.of_same hstate), hthere⟩
  | past h => cases h; contradiction

end Reading

end Parser

/-! ## The parts of a type -/

namespace Grammar

open Production DataType

variable {d : Dialect} {t : DataType} {p q : Parser}

theorem run_consumeWord (word : String) (p : Parser) :
    consumeWord word p = if p.current.isWord word then .ok true p.advance else .ok false p := by
  show (consumeIf (checkWord word)) p = _
  rw [consumeIf, run_bind]
  change (if p.current.isWord word = true then _ else _ : Production Bool) p = _
  split <;> rfl

theorem lt_of_natural? {text : String} {n : ℕ} (h : Numeral.natural? text = some n) : n < 2 ^ 64 := by
  unfold Numeral.natural? at h
  simpa using (Option.filter_eq_some_iff.1 h).2

theorem typeNumber_gives : Gives typeNumber (· < 2 ^ 64) := by
  refine .bindIf (.after fun place => .after fun text => ?_) .expectedThen
  split
  · next n hn => exact .ret (lt_of_natural? hn)
  · exact .fail

theorem typeModifier_gives : Gives typeModifier TypeModifier.Fits := by
  refine .inParens (.bindIf (.ret trivial) (.bind typeNumber_gives fun precision hprecision => ?_))
  exact .bindIf (.bind typeNumber_gives fun scale hscale => .ret ⟨hprecision, hscale⟩) (.ret hprecision)

theorem timeZone_gives (name : String) : Gives (timeZone name) fun whole => whole = name ∨
    (name = "TIMESTAMP" ∨ name = "TIME") ∧
      (whole = name ++ " WITH TIME ZONE" ∨ whole = name ++ " WITHOUT TIME ZONE") := by
  refine .ite (fun hname => ?_) fun _ => .ret (.inl rfl)
  have htime : name = "TIMESTAMP" ∨ name = "TIME" := by simpa using hname
  refine .after fun atWith => .after fun p => .ite (fun _ => ?_) fun _ => .bindIf ?_ (.ret (.inl rfl))
  · exact .after fun _ => .after fun _ => .after fun _ => .ret (.inr ⟨htime, .inl rfl⟩)
  · exact .after fun _ => .after fun _ => .ret (.inr ⟨htime, .inr rfl⟩)

/-- The name of a type before the words about a time zone. -/
theorem ok_of_typeName {name : String} (h : typeName p = .ok name q) :
    let first := Text.upper p.current.literal
    name = first ∨ (first = "DOUBLE" ∧ name = first ++ " PRECISION") ∨
      ((first = "CHARACTER" ∨ first = "CHAR") ∧ name = first ++ " VARYING") := by
  intro first
  obtain ⟨text, r, htext, h⟩ := ok_of_bind h
  cases htext
  have hgives : Gives (do
      if first = "DOUBLE" then
        return if ← consumeWord "PRECISION" then first ++ " PRECISION" else first
      else if first = "CHARACTER" || first = "CHAR" then
        return if ← consumeWord "VARYING" then first ++ " VARYING" else first
      else return first) fun name => name = first ∨ (first = "DOUBLE" ∧ name = first ++ " PRECISION") ∨
      ((first = "CHARACTER" ∨ first = "CHAR") ∧ name = first ++ " VARYING") := by
    refine .ite (fun hfirst => .after fun more => .ret ?_) fun _ =>
      .ite (fun hfirst => .after fun more => .ret ?_) fun _ => .ret (.inl rfl)
    · cases more
      · exact .inl rfl
      · exact .inr (.inl ⟨hfirst, rfl⟩)
    · cases more
      · exact .inl rfl
      · exact .inr (.inr ⟨by simpa using hfirst, rfl⟩)
  exact hgives _ _ _ h

theorem typeDimensions_gives :
    Gives typeDimensions fun sizes => ∀ size ∈ sizes, ∀ n ∈ size, n < 2 ^ 64 := by
  refine .many (.after fun d => .ite (fun _ => .bindIf ?_ (.ret nofun)) fun _ => .ret nofun)
  extract_lets rest
  have hrest {size : Option ℕ} (hsize : ∀ n ∈ size, n < 2 ^ 64) :
      Gives (rest size) fun item => ∀ size ∈ item, ∀ n ∈ size, n < 2 ^ 64 :=
    .after fun _ => .ret fun _ h => by cases h; exact hsize
  refine .bindIf (.bind (Q := fun size => ∀ n ∈ size, n < 2 ^ 64) (.map ?_) fun size => hrest)
    (.bind (.ret nofun) fun size => hrest)
  intro p n q h m hm
  cases hm
  exact typeNumber_gives p n q h

/-- There are dimensions in one dialect only. -/
theorem typeDimensions_eq_nil {sizes : List (Option ℕ)} (h : typeDimensions p = .ok sizes q)
    (hsizes : sizes ≠ []) : p.dialect = .postgreSql := by
  by_contra hdialect
  have hnone : typeDimension? p = .ok none p := by
    simp only [typeDimension?, run_bind, run_dialect, run_ite, if_neg hdialect, run_pure]
  rw [typeDimensions_eq, run_many_none hnone] at h
  cases h
  exact hsizes rfl

/-! ## The type -/

/-- The words of a name, from the part that is read first and the whole. -/
theorem exists_tail {first name whole : String}
    (hname : name = first ∨ (first = "DOUBLE" ∧ name = first ++ " PRECISION") ∨
      ((first = "CHARACTER" ∨ first = "CHAR") ∧ name = first ++ " VARYING"))
    (hwhole : whole = name ∨ (name = "TIMESTAMP" ∨ name = "TIME") ∧
      (whole = name ++ " WITH TIME ZONE" ∨ whole = name ++ " WITHOUT TIME ZONE")) :
    ∃ tail more, whole = first ++ tail ∧ NameTail first tail more := by
  rcases hname with rfl | ⟨rfl, rfl⟩ | ⟨hfirst, rfl⟩
  · rcases hwhole with rfl | ⟨htime, rfl | rfl⟩
    · exact ⟨"", [], String.append_empty.symm, .bare _⟩
    · exact ⟨_, _, rfl, .zone htime⟩
    · exact ⟨_, _, rfl, .noZone htime⟩
  · rcases hwhole with rfl | ⟨htime, -⟩
    · exact ⟨_, _, rfl, .precision⟩
    · exact absurd htime (by decide +kernel)
  · rcases hwhole with rfl | ⟨htime, -⟩
    · exact ⟨_, _, rfl, .varying hfirst⟩
    · rcases hfirst with rfl | rfl <;> exact absurd htime (by decide +kernel)

/-- A name without quotes stands for itself in capitals. -/
theorem isWord_of_isName (hp : p.Reading d) (hname : p.current.isName) :
    Piece.IsWord d ⟨p.current.kind, Text.upper p.current.literal⟩ ∧
      (p.current.kind = .identifier ∨
        ∃ keyword, p.current.kind = .keyword keyword ∧ keyword.isReserved = false) := by
  have hkind : p.current.kind = .identifier ∨
      ∃ keyword, p.current.kind = .keyword keyword ∧ keyword.isReserved = false := by
    unfold Token.isName at hname
    split at hname
    · next h => exact .inl h
    · next h => exact absurd h hp.current.kind
    · next keyword h => exact .inr ⟨keyword, h, by simpa using hname⟩
    · cases hname
  have hword := hp.current.word (hkind.imp_right fun ⟨keyword, h, _⟩ => ⟨keyword, h⟩)
  exact ⟨hword.upper, hkind⟩

/-- What is read of a type is spelt in the dialect, with numbers of 64 bits. -/
theorem spelled_of_dataType (hp : p.Reading d) (h : dataType p = .ok t q) :
    ∃ spelling, t.Spelled d spelling := by
  obtain ⟨isSet, p₁, hset, h⟩ := ok_of_bind h
  obtain ⟨_, _, hisName, h⟩ := ok_of_bind h
  cases hisName
  by_cases hname : p₁.current.isName
  swap
  · rw [if_neg hname] at h
    obtain ⟨_, _, h, -⟩ := ok_of_bind h
    cases h
  rw [if_pos hname] at h
  obtain ⟨name, p₂, hfirst, h⟩ := ok_of_bind h
  obtain ⟨_, _, hopen, h⟩ := ok_of_bind h
  cases hopen
  obtain ⟨modifier, p₃, hmodifier, h⟩ : ∃ modifier p₃,
      (modifier = none ∧ p₃ = p₂ ∨ ∃ m, modifier = some m ∧ typeModifier p₂ = .ok m p₃) ∧
      (do
        let name ← timeZone name
        let dimensions ← typeDimensions
        let isUnsigned ← consumeWord "UNSIGNED"
        return { name := if isSet then "SETOF " ++ name else name, modifier, isUnsigned, dimensions :
                 DataType }) p₃ = .ok t q := by
    dsimp only at h
    by_cases hparen : p₂.current.kind == .leftParen
    · rw [if_pos hparen] at h
      obtain ⟨_, p₃, hmodifier, h⟩ := ok_of_bind h
      obtain ⟨m, hm, rfl⟩ := ok_of_map hmodifier
      exact ⟨some m, p₃, .inr ⟨m, rfl, hm⟩, h⟩
    · rw [if_neg hparen] at h
      exact ⟨none, p₂, .inl ⟨rfl, rfl⟩, h⟩
  obtain ⟨whole, p₄, hwhole, h⟩ := ok_of_bind h
  obtain ⟨dimensions, p₅, hdimensions, h⟩ := ok_of_bind h
  obtain ⟨isUnsigned, _, -, h⟩ := ok_of_bind h
  cases h
  -- how far the reading has come
  have hp₁ : p₁.Reading d := by
    rw [run_consumeWord] at hset
    split at hset <;> cases hset
    · exact hp.advance
    · exact hp
  have hmore : ¬p₁.atEnd := fun hend => by
    rw [Parser.atEnd, Token.isEof, beq_iff_eq] at hend
    rw [Token.isName, hend] at hname
    cases hname
  have hp₂ : p₂.Reading d :=
    (hp₁.of_lockstep (l := .token) p₁ ⟨⟨.refl p₁, .refl p₁⟩, hmore, hmore⟩
      (.typeName (l := .start)) hfirst).1
  have hp₃ : p₃.Reading d := by
    rcases hmodifier with ⟨-, rfl⟩ | ⟨m, -, hm⟩
    · exact hp₂
    · exact (hp₂.of_lockstep (l := .start) p₂ ⟨.refl p₂, .refl p₂⟩ .typeModifier hm).1
  have hp₄ : p₄.Reading d :=
    (hp₃.of_lockstep (l := .start) p₃ ⟨.refl p₃, .refl p₃⟩ .timeZone hwhole).1
  -- the words of the name
  obtain ⟨hword, hkind⟩ := isWord_of_isName hp₁ hname
  obtain ⟨tail, more, rfl, htail⟩ := exists_tail (ok_of_typeName hfirst) (timeZone_gives name _ _ _ hwhole)
  refine ⟨⟨isSet, ⟨p₁.current.kind, Text.upper p₁.current.literal⟩, tail, more⟩, ?_, hword, hkind,
    Text.upper_upper _, ?_, htail, ?_, ?_, ?_⟩
  · cases isSet <;> simp [String.append_assoc]
  · intro hisSet hidentifier
    dsimp only at hisSet
    rw [hisSet, run_consumeWord] at hset
    split at hset
    · cases hset
    next hset' =>
    cases hset
    rw [Text.sameWord_upper]
    dsimp only at hidentifier
    simpa [Token.isWord, hidentifier] using hset'
  · intro m hm
    rcases hmodifier with ⟨rfl, -⟩ | ⟨m', rfl, hm'⟩
    · cases hm
    · cases hm
      exact typeModifier_gives _ _ _ hm'
  · exact fun hsome => hp₄.dialect.symm.trans (typeDimensions_eq_nil hdimensions hsome)
  · exact typeDimensions_gives _ _ _ hdimensions

end Grammar

end SqlFrontend
