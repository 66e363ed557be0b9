import SqlFrontend.Grammar.Statement
import SqlFrontend.Proofs.Grammar.Routine
import SqlFrontend.Proofs.Parsing.Pieces

/-!
# The body of a function

A function without parameters is read up to its body, which comes in two spellings: in quotes, where it is
a source of its own, and as it is.

Results:
* `Grammar.comes_createFunction`: the rest of the definition is read where the body starts.
* `Grammar.routineBody_eq`: where a block starts, the body is that block.
* `Grammar.quotedBody_ok`, `Grammar.quotedText_ok`: a quoted body is a text of its own in order, and that
  text consists of the block it starts with.
-/

namespace SqlFrontend

/-- Decides by its first two tokens whether a text starts with a block: at a word for one, which is not that
for a transaction, or at a label. -/
def TokenKind.OpensBlock (first second : TokenKind) : Prop :=
  (first = .keyword .BEGIN ∧
      ∀ word ∈ [Keyword.TRY, .TRAN, .TRANSACTION, .WORK], second ≠ .keyword word) ∨
    first = .keyword .DECLARE ∨ first = .lt ∧ second = .lt

/-- Only three kinds of tokens open a block. -/
theorem TokenKind.OpensBlock.ne {k k' other : TokenKind} (h : k.OpensBlock k')
    (hother : other ∉ [.keyword .BEGIN, .keyword .DECLARE, .lt]) : k ≠ other := by
  rintro rfl
  rcases h with ⟨rfl, -⟩ | rfl | ⟨rfl, -⟩ <;> exact hother (by decide)

namespace Grammar

open Production

variable {N : Nested} {t u : Piece} {ps us : List Piece} {p : Parser}

/-! ## The way to the body -/

theorem parses_objectName {name : String} (ht : t.kind ≠ .dot) :
    Parses objectName (⟨.identifier, name⟩ :: t :: us) ⟨none, name⟩ (t :: us) := by
  refine .bind (.name rfl) (.loopDone ?_)
  refine .bind (.checkFalse ht) (.bindAny (fun _ => ⟨_, rfl⟩) fun x => ?_)
  exact .ifFalse (by simp) .ret

theorem parses_parameters : Parses (parameters N) (.of .leftParen :: .of .rightParen :: us) [] us := by
  have hnone : Parses (do if ← check .rightParen then return [] else list (parameter N))
      (.of .rightParen :: us) [] (.of .rightParen :: us) := .bindIfTrue (.checkTrue rfl) .ret
  exact .bindIfTrue (.checkTrue rfl) (.inParens hnone)

theorem parses_dataType (hparen : t.kind ≠ .leftParen) (hbracket : t.kind ≠ .leftBracket)
    (hname : t.kind ≠ .identifier) :
    Parses dataType (⟨.identifier, "INT"⟩ :: t :: us) { name := "INT" } (t :: us) := by
  have hdimensions : Parses typeDimensions (t :: us) [] (t :: us) := by
    refine .loopDone (.bind (a := none) (.bindAny (fun _ => ⟨_, rfl⟩) fun d => ?_) .ret)
    by_cases hd : d = .postgreSql
    · exact .ifTrue hd (.bindIfFalse (.consumeFalse hbracket) .ret)
    · exact .ifFalse hd .ret
  have htypeName : Parses typeName (⟨.identifier, "INT"⟩ :: t :: us) "INT" (t :: us) := by
    refine .bind (.takeLiteral nofun) ?_
    exact .ifFalse (by decide +kernel) (.ifFalse (by decide +kernel) (by
      rw [show Text.upper "INT" = "INT" by decide +kernel]; exact .ret))
  refine .bind (.consumeWordFalse fun _ => by decide +kernel) (.bindIfTrue (.atName rfl) ?_)
  refine .bind htypeName (.bindIfFalse (.checkFalse hparen) (.bind .ret ?_))
  exact .bind (.ifFalse (by decide) .ret) (.bind hdimensions (.bind (.consumeWordFalse (absurd · hname)) .ret))

theorem parses_returnType (hparen : t.kind ≠ .leftParen) (hbracket : t.kind ≠ .leftBracket)
    (hname : t.kind ≠ .identifier) :
    Parses returnType (⟨.identifier, "INT"⟩ :: t :: us) { name := "INT" } (t :: us) := by
  refine .bindCurrent fun x hx => ?_
  have hliteral : x.literal.startsWith "@" = false := by
    rw [show x.literal = "INT" from congrArg Piece.literal hx]
    decide +kernel
  rw [hliteral]
  refine .bindAny (fun _ => ⟨_, rfl⟩) fun y => .ifFalse (by simp) ?_
  exact .bindIfFalse (.consumeFalse nofun) (parses_dataType hparen hbracket hname)

/-- Kinds of tokens that no characteristic of a routine starts with. -/
def endsOptions : List TokenKind :=
  [.keyword .AS, .keyword .BEGIN, .keyword .DECLARE, .lt, .semicolon, .eof]

/-- Behind semicolons is the end only if a semicolon or the end stands here. -/
theorem mem_endsOptions_of_atEnd (h : p.skipSemicolons.atEnd) : p.current.kind ∈ endsOptions := by
  by_cases hk : p.current.kind = .semicolon
  · rw [hk]
    decide
  · rw [Parser.skipSemicolons, Parser.skipWhile, if_neg (by simpa using hk), Parser.atEnd, Token.isEof,
      beq_iff_eq] at h
    rw [h]
    decide

theorem run_routineOptions (h : p.current.kind ∈ endsOptions) (options : RoutineOptions) :
    routineOptions options p = .ok options p := by
  refine run_loop_done ?_
  have hnone : routineOption? options p = .ok none p := by
    rw [routineOption?, run_bind, run_kind]
    dsimp only
    rw [run_bind, run_peekKind]
    simp only [endsOptions, List.mem_cons, List.not_mem_nil, or_false] at h
    rcases h with h | h | h | h | h | h <;> rw [h] <;> rfl
  rw [run_bind, hnone]
  rfl

theorem parses_routineOptions (h : t.kind ∈ endsOptions) (options : RoutineOptions) :
    Parses (routineOptions options) (t :: us) options (t :: us) :=
  .look fun _ hp => run_routineOptions (hp.kind ▸ h) options

/-- The pieces before the body of a function without parameters. -/
def functionHeader : List Piece :=
  [.of (.keyword .CREATE), .of (.keyword .FUNCTION), ⟨.identifier, "f"⟩, .of .leftParen, .of .rightParen,
    .of (.keyword .RETURNS), ⟨.identifier, "INT"⟩]

/-- The function that is defined with a body. -/
def functionOf (options : RoutineOptions) (body : Block) : Statement :=
  .createFunction { orReplace := false, name := ⟨none, "f"⟩, parameters := [], options, body }
    { name := "INT" }

/-- The rest of the definition, for a given reading of the body. -/
def functionEnd (readBody : Production Block) : Production Statement := do
  let body ← readBody
  return functionOf (← routineOptions {}) body

theorem routineEnd_bind :
    (routineEnd N false ⟨none, "f"⟩ [] >>= fun r => Pure.pure (.createFunction r { name := "INT" })) =
      routineOptions {} >>= fun options => routineBody N >>= fun body =>
        routineOptions options >>= fun options => Pure.pure (functionOf options body) := by
  simp only [routineEnd, bind_assoc, pure_bind]
  rfl

theorem comes_createFunction (ht : t.kind ∈ endsOptions) :
    Comes (statement N) (functionHeader ++ t :: us) (functionEnd (routineBody N)) (t :: us) := by
  have hother (k : TokenKind) (hk : k ∉ endsOptions) : t.kind ≠ k := fun h => hk (h ▸ ht)
  have hreturns : Parses returnType (⟨.identifier, "INT"⟩ :: t :: us) { name := "INT" } (t :: us) :=
    parses_returnType (hother .leftParen (by decide)) (hother .leftBracket (by decide))
      (hother .identifier (by decide))
  have horReplace : Parses orReplace (functionHeader.tail ++ t :: us) false (functionHeader.tail ++ t :: us) :=
    .bind (.checkKeywordsFalse (by decide)) (.bind (.checkKeywordsFalse (by decide)) (.ifFalse (by decide) .ret))
  have hclustering : Parses clustering (functionHeader.tail ++ t :: us) none (functionHeader.tail ++ t :: us) :=
    .bindIfFalse (.consumeFalse (by decide)) (.bindIfFalse (.consumeFalse (by decide)) .ret)
  have htemporary : Parses (consumeAny [.keyword .TEMPORARY, .keyword .TEMP])
      (functionHeader.tail ++ t :: us) false (functionHeader.tail ++ t :: us) :=
    .bindIfFalse (.bind .kind .ret) .ret
  refine .bind .kind (.ifTrue (by decide) ?_)
  refine .bind (.expectKeyword rfl) (.bind horReplace (.bind htemporary ?_))
  refine .bind (.consumeFalse (by decide)) (.bind hclustering (.bind .kind ?_))
  refine .bind (.expectKeyword rfl) (.bind (parses_objectName (by decide)) ?_)
  refine .bind parses_parameters (.bind (.consumeTrue rfl (by decide)) (.ifTrue rfl ?_))
  refine .bind hreturns ?_
  rw [routineEnd_bind]
  exact .bind (parses_routineOptions ht {}) .refl

theorem functionEnd_ok {readBody : Production Block} {q : Parser} {s : Statement}
    (h : functionEnd readBody p = .ok s q) :
    ∃ body r, readBody p = .ok body r ∧
      (r.current.kind ∈ endsOptions → s = functionOf {} body) := by
  rw [functionEnd, run_bind] at h
  revert h
  cases readBody p with
  | error e r => exact nofun
  | ok body r =>
    intro h
    refine ⟨body, r, rfl, fun hends => ?_⟩
    dsimp only at h
    rw [run_bind, run_routineOptions hends] at h
    cases h
    rfl

theorem run_functionEnd {readBody : Production Block} {r : Parser} {body : Block}
    (h : readBody p = .ok body r) (hends : r.current.kind ∈ endsOptions) :
    functionEnd readBody p = .ok (functionOf {} body) r := by
  rw [functionEnd, run_bind, h]
  dsimp only
  rw [run_bind, run_routineOptions hends]
  rfl

/-! ## The body in quotes -/

theorem comes_quotedBody {text : String} :
    Comes (routineBody N) (.of (.keyword .AS) :: ⟨.dollarQuote, text⟩ :: us) (quotedBody N)
      (⟨.dollarQuote, text⟩ :: us) := by
  refine .bind (.consumeTrue rfl nofun) (.ifTrue rfl (.bindAny (fun _ => ⟨_, rfl⟩) fun d => ?_))
  exact .bind (.checkTrue rfl) (.ifTrue rfl .refl)

/-! ## The body in place -/

theorem mem_endsOptions_of_opensBlock {k k' : TokenKind} (h : k.OpensBlock k') : k ∈ endsOptions := by
  rcases h with ⟨rfl, -⟩ | rfl | ⟨rfl, -⟩ <;> decide

theorem run_atBlockStart (h : p.current.kind.OpensBlock p.peek.kind) (hdialect : p.dialect = .postgreSql) :
    atBlockStart p = .ok true p := by
  rw [atBlockStart, run_bind, run_kind]
  dsimp only
  rw [run_bind, run_peekKind]
  dsimp only
  revert h
  generalize p.current.kind = k, p.peek.kind = k'
  intro h
  rcases h with ⟨rfl, hother⟩ | rfl | ⟨rfl, rfl⟩
  · simp only [List.forall_mem_cons] at hother
    obtain ⟨htry, htran, htransaction, hwork, -⟩ := hother
    cases k' with
    | keyword word => cases word <;> first | rfl | contradiction
    | _ => rfl
  · change EStateM.Result.ok (decide (p.dialect = .postgreSql)) p = _
    rw [hdialect]
    rfl
  · rfl

/-- Where a block starts, the body of a routine is that block. -/
theorem routineBody_eq (h : p.current.kind.OpensBlock p.peek.kind) (hdialect : p.dialect = .postgreSql) :
    routineBody N p = inRoutine (labelledBlock N) p := by
  have hstart := run_atBlockStart h hdialect
  have hne (other : TokenKind) (hother : other ∉ [.keyword .BEGIN, .keyword .DECLARE, .lt]) :
      p.current.kind ≠ other := TokenKind.OpensBlock.ne h hother
  have has := hne (.keyword .AS) (by decide)
  have his := hne (.keyword .IS) (by decide)
  have hdollar := hne .dollarQuote (by decide)
  have hstring := hne .string (by decide)
  simp [routineBody, has, his, hdollar, hstring, hstart]

/-- A text that starts with a block consists of it. -/
theorem quotedText_ok {body : Block} {q : Parser} (hstart : atBlockStart p = .ok true p)
    (h : quotedText N p = .ok body q) :
    ∃ r, labelledBlock N p = .ok body r ∧ r.skipSemicolons.atEnd := by
  rw [quotedText, run_bind, hstart] at h
  dsimp only at h
  rw [if_pos rfl, run_bind] at h
  revert h
  cases hblock : labelledBlock N p with
  | error e r => exact nofun
  | ok other r =>
    dsimp only
    intro h
    rw [run_bind] at h
    change (if r.skipSemicolons.atEnd then Pure.pure other else expected "end of routine body" : Production Block)
      r.skipSemicolons = _ at h
    by_cases hend : r.skipSemicolons.atEnd
    · rw [if_pos hend] at h
      cases h
      exact ⟨r, rfl, hend⟩
    · rw [if_neg hend] at h
      cases h

/-- A quoted body is in order if its text is read without an error. -/
theorem quotedBody_ok {body : Block} {q : Parser} (h : quotedBody N p = .ok body q) :
    ∃ inner, quotedText N (p.nested p.current.literal) = .ok body inner ∧ inner.errors = #[] ∧
      q = { p.advance with pools := inner.pools } := by
  rw [Likeness.quotedBody_eq] at h
  revert h
  cases quotedText N (p.nested p.current.literal) with
  | error e inner =>
    rw [Likeness.quotedOutcome_error]
    intro h
    split at h
    · cases h
    · split at h <;> cases h
  | ok other inner =>
    rw [Likeness.quotedOutcome_ok]
    intro h
    split at h
    · cases h
    · split at h
      · next hnone =>
        cases h
        exact ⟨inner, rfl, Array.toList_eq_nil_iff.1 hnone, rfl⟩
      · cases h

end Grammar

end SqlFrontend
