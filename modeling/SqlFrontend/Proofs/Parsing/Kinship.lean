import SqlFrontend.Proofs.Parsing.Likeness
import SqlFrontend.Proofs.Text.Case
import SqlFrontend.Proofs.Tree.Texts

/-!
# Parsers that are kin

Two parsers can be kin without showing the same tokens to a production. There are two cases: keywords
may be spelt in other cases of their letters, or the text of the second parser goes on, with the word
that ends a batch, where the text of the first one ends. What is read then corresponds, too: up to the
case of letters, or until the first text is at its end.

Results:
* `Same`: equal values, or values that are equal but for the case of letters in their texts.
* `Token.Kin`, `ParseError.Kin`: tokens and errors that correspond.
* `Kinship`: a relation between parsers that productions preserve, and one between failures.
-/

namespace SqlFrontend

/-! ## Values -/

/-- Equal values, or values that are equal but for the case of letters in their texts. -/
def Same {α : Type} [Textual α] (exact : Bool) (a a' : α) : Prop :=
  if exact then a = a' else mapTexts Text.lower a = mapTexts Text.lower a'

section

variable {α : Type} [Textual α] {exact : Bool}

theorem Same.refl (a : α) : Same exact a a := by
  unfold Same
  split <;> rfl

theorem Same.of_eq {a a' : α} (h : a = a') : Same exact a a' := h ▸ .refl a

theorem Same.lower {s s' : String} (h : Same exact s s') : Text.lower s = Text.lower s' := by
  cases exact with
  | true => exact congrArg Text.lower h
  | false => exact h

theorem Same.upper {s s' : String} (h : Same exact s s') : Text.upper s = Text.upper s' :=
  Text.upper_eq_of_lower_eq h.lower

theorem Same.append {s s' t t' : String} (h : Same exact s s') (ht : Same exact t t') :
    Same exact (s ++ t) (s' ++ t') := by
  cases exact with
  | true => exact congrArg₂ (· ++ ·) h ht
  | false =>
    show Text.lower (s ++ t) = Text.lower (s' ++ t')
    rw [Text.lower_append, Text.lower_append, h.lower, ht.lower]

theorem Same.some {a a' : α} (h : Same exact a a') : Same exact (some a) (some a') := by
  cases exact with
  | true => exact congrArg Option.some h
  | false => exact congrArg Option.some h

theorem Same.option {x x' : Option α} (h : Same exact x x') : Option.Rel (Same exact) x x' := by
  cases exact with
  | true =>
    obtain rfl : x = x' := h
    cases x with
    | none => exact .none
    | some a => exact .some (.refl a)
  | false =>
    have hmap : x.map (mapTexts Text.lower) = x'.map (mapTexts Text.lower) := h
    cases x <;> cases x'
    · exact .none
    · cases hmap
    · cases hmap
    · exact .some (Option.some.inj hmap)

theorem Same.isEmpty {xs xs' : List α} (h : Same exact xs xs') : xs.isEmpty = xs'.isEmpty := by
  cases exact with
  | true => exact congrArg List.isEmpty h
  | false =>
    have hmap : xs.map (mapTexts Text.lower) = xs'.map (mapTexts Text.lower) := h
    rw [← List.isEmpty_map, hmap, List.isEmpty_map]

theorem Same.cons {a a' : α} {xs xs' : List α} (h : Same exact a a') (hxs : Same exact xs xs') :
    Same exact (a :: xs) (a' :: xs') := by
  cases exact with
  | true => exact congrArg₂ List.cons h hxs
  | false => exact congrArg₂ List.cons h hxs

theorem Same.list {xs xs' : List α} (h : List.Forall₂ (Same exact) xs xs') : Same exact xs xs' := by
  induction h with
  | nil => exact .refl []
  | cons ha _ ih => exact ha.cons ih

theorem Same.or {x x' y y' : Option α} (h : Same exact x x') (h' : Same exact y y') :
    Same exact (x <|> y) (x' <|> y') := by
  cases h.option with
  | none => exact h'
  | some _ => exact h

theorem Same.getD {x x' : Option α} {a a' : α} (h : Same exact x x') (h' : Same exact a a') :
    Same exact (x.getD a) (x'.getD a') := by
  cases h.option with
  | none => exact h'
  | some ha => exact ha

theorem Same.optionMap {β : Type} [Textual β] {f : α → β} {x x' : Option α} (h : Same exact x x')
    (hf : ∀ a a', Same exact a a' → Same exact (f a) (f a')) :
    Same exact (x.map f) (x'.map f) := by
  cases h.option with
  | none => exact .refl none
  | some ha => exact (hf _ _ ha).some

theorem Same.optionBind {β : Type} [Textual β] {f : α → Option β} {x x' : Option α}
    (h : Same exact x x') (hf : ∀ a a', Same exact a a' → Same exact (f a) (f a')) :
    Same exact (x.bind f) (x'.bind f) := by
  cases h.option with
  | none => exact .refl none
  | some ha => exact hf _ _ ha

theorem Same.listAppend {xs xs' ys ys' : List α} (h : Same exact xs xs') (h' : Same exact ys ys') :
    Same exact (xs ++ ys) (xs' ++ ys') := by
  cases exact with
  | true => exact congrArg₂ List.append h h'
  | false =>
    show (xs ++ ys).map (mapTexts Text.lower) = (xs' ++ ys').map (mapTexts Text.lower)
    rw [List.map_append, List.map_append]
    exact congrArg₂ List.append h h'

theorem Same.reverse {xs xs' : List α} (h : Same exact xs xs') :
    Same exact xs.reverse xs'.reverse := by
  cases exact with
  | true => exact congrArg List.reverse h
  | false =>
    show xs.reverse.map (mapTexts Text.lower) = xs'.reverse.map (mapTexts Text.lower)
    rw [List.map_reverse, List.map_reverse]
    exact congrArg List.reverse h

theorem Same.prod {β : Type} [Textual β] {x x' : α × β} (h : Same exact x x') :
    Same exact x.1 x'.1 ∧ Same exact x.2 x'.2 := by
  cases exact with
  | true => exact ⟨congrArg Prod.fst h, congrArg Prod.snd h⟩
  | false => exact ⟨congrArg Prod.fst h, congrArg Prod.snd h⟩

end

/-! ## Tokens -/

/-- The same token, or a keyword that is spelt in other cases of its letters. -/
structure Token.Kin (exact : Bool) (t t' : Token) : Prop where
  kind : t.kind = t'.kind
  span : t.span = t'.span
  same : Same exact t.literal t'.literal
  literal : (∀ word, t.kind ≠ .keyword word) → t.literal = t'.literal

namespace Token.Kin

variable {exact : Bool} {t t' : Token}

theorem refl (t : Token) : t.Kin exact t := ⟨rfl, rfl, .refl _, fun _ => rfl⟩

theorem isEof (h : t.Kin exact t') : t.isEof = t'.isEof := by
  rw [Token.isEof, Token.isEof, h.kind]

theorem isName (h : t.Kin exact t') : t.isName = t'.isName := by
  rw [Token.isName, Token.isName, h.kind]

theorem isIdentifier (h : t.Kin exact t') : t.isIdentifier = t'.isIdentifier := by
  rw [Token.isIdentifier, Token.isIdentifier, h.kind]

theorem isWord (h : t.Kin exact t') (word : String) : t.isWord word = t'.isWord word := by
  rw [Token.isWord, Token.isWord, h.kind, Text.sameWord_of_lower_eq h.same.lower rfl]

/-- Errors name a keyword by its canonical spelling. -/
theorem describe (h : t.Kin exact t') : t.describe = t'.describe := by
  by_cases hk : ∃ word, t.kind = .keyword word
  · obtain ⟨word, hk⟩ := hk
    rw [Token.describe, Token.describe, ← h.kind, hk]
  · rw [not_exists] at hk
    rw [Token.describe, Token.describe, h.kind, h.literal hk]

end Token.Kin

/-! ## Errors -/

/-- Causes that are shown alike but for the case of letters. -/
structure ParseCause.Kin (c c' : ParseCause) : Prop where
  kind : c.kind = c'.kind
  message : Text.lower c.message = Text.lower c'.message
  expected : c.expected?.map Text.lower = c'.expected?.map Text.lower
  found : c.found?.map Text.lower = c'.found?.map Text.lower

theorem ParseCause.Kin.refl (c : ParseCause) : c.Kin c := ⟨rfl, rfl, rfl, rfl⟩

/-- Errors at one place that are shown alike but for the case of letters. -/
structure ParseError.Kin (e e' : ParseError) : Prop where
  cause : e.cause.Kin e'.cause
  span : e.span = e'.span

/-- Only cancellation is of its kind. -/
theorem ParseCause.kind_eq_cancelled {c : ParseCause} : c.kind = .cancelled ↔ c = .cancelled := by
  cases c with
  | unexpected what t =>
    rw [ParseCause.kind]
    split <;> simp
  | _ => simp [ParseCause.kind]

theorem ParseError.Kin.isCancelled {e e' : ParseError} (h : e.Kin e') :
    e.isCancelled = e'.isCancelled := by
  rw [ParseError.isCancelled, ParseError.isCancelled, Bool.eq_iff_iff, beq_iff_eq, beq_iff_eq,
    ← ParseCause.kind_eq_cancelled, ← ParseCause.kind_eq_cancelled, h.cause.kind]

theorem ParseError.kin_unexpected {exact : Bool} {t t' : Token} (what : String)
    (h : t.Kin exact t') : (unexpected what t).Kin (unexpected what t') := by
  have hmessage (t : Token) : (ParseCause.unexpected what t).message =
      if t.kind = .illegal then t.literal else "expected " ++ what ++ ", got " ++ t.describe := rfl
  have hcause : (ParseCause.unexpected what t).Kin (.unexpected what t') := by
    constructor
    · rw [ParseCause.kind, ParseCause.kind, h.kind]
    · rw [hmessage, hmessage, h.kind, h.describe]
      split
      · exact h.same.lower
      · rfl
    · rfl
    · rw [ParseCause.found?, ParseCause.found?, h.describe]
  exact ⟨hcause, h.span⟩

theorem ParseCause.kin_labelMismatch {exact : Bool} {endLabel label label' : String}
    (h : Same exact label label') : (labelMismatch endLabel label).Kin (labelMismatch endLabel label') := by
  refine ⟨rfl, ?_, rfl, rfl⟩
  show Text.lower ("end label " ++ endLabel ++ " does not match " ++ label) =
    Text.lower ("end label " ++ endLabel ++ " does not match " ++ label')
  rw [Text.lower_append, Text.lower_append _ label', h.lower]

/-! ## Kinships -/

/-- What two parsers that are kin show to a production. The text of the second one may go on with the
word that ends a batch where the first one is at its end; then all before is equal, and `last` is the
kind of the token there. -/
structure Parser.Shown (goesOn : Bool) (last : TokenKind) (p q : Parser) : Prop where
  current : ¬(goesOn = true ∧ p.atEnd) → p.current.Kin goesOn q.current
  ended : goesOn = true → p.atEnd → q.atBatchSeparator
  peek : ¬(goesOn = true ∧ (p.atEnd ∨ p.peek.isEof)) → p.peek.Kin goesOn q.peek
  follows : goesOn = true → ¬p.atEnd → p.peek.isEof →
    q.isBatchSeparator q.peek ∧ p.current.kind = last
  dialect : p.dialect = q.dialect
  recovering : p.recovering = q.recovering
  routineDepth : p.routineDepth = q.routineDepth
  pools : p.pools.IsFresh ∧ q.pools.IsFresh
  sound : p.Sound
  live : p.expired = false ∧ q.expired = false
  running : p.cancelled = false ∧ q.cancelled = false
  /-- A text that goes on is in the dialect that has batches, is not quoted, and quotes no other. -/
  batch : goesOn = true → p.dialect = .sqlServer ∧ p.recovering = false ∧
    p.current.kind ≠ .dollarQuote

/-- A way for two parsers to be kin. -/
structure Kinship where
  /-- Whether the second text goes on where the first one ends. -/
  goesOn : Bool
  /-- The kind of the last token of the first text. -/
  last : TokenKind
  /-- By how much more text the second parser has before it. -/
  lead : ℕ
  state : Parser → Parser → Prop
  failed : ParseError → Parser → ParseError → Parser → Prop
  shown : ∀ {p q}, state p q → p.Shown goesOn last q
  remaining : ∀ {p q}, state p q → q.remaining = p.remaining + lead
  advance : ∀ {p q}, state p q → (goesOn = true → ¬p.atEnd) → state p.advance q.advance
  withPools : ∀ {p q} {P Q : Pools}, state p q → P.IsFresh → Q.IsFresh →
    state { p with pools := P } { q with pools := Q }
  atDepth : ∀ {p q} (n : ℕ), state p q →
    state { p with routineDepth := n } { q with routineDepth := n }
  errors : ∀ {p q}, goesOn = false → state p q →
    List.Forall₂ ParseError.Kin p.errors.toList q.errors.toList
  failed_shown : ∀ {e p e' q}, failed e p e' q → p.Shown goesOn last q
  failed_kin : ∀ {e p e' q}, failed e p e' q →
    e.Kin e' ∧ List.Forall₂ ParseError.Kin p.errors.toList q.errors.toList
  failed_withPools : ∀ {e p e' q} {P Q : Pools}, failed e p e' q → P.IsFresh → Q.IsFresh →
    failed e { p with pools := P } e' { q with pools := Q }
  failed_atDepth : ∀ {e p e' q} (n : ℕ), failed e p e' q →
    failed e { p with routineDepth := n } e' { q with routineDepth := n }
  expects : ∀ {p q} (what : String), goesOn = false → state p q →
    failed (p.expectedError what) p (q.expectedError what) q
  defers : ∀ {p q s cause cause' others others'}, goesOn = false → state p q →
    ParseCause.Kin cause cause' → List.Forall₂ ParseError.Kin others others' →
    failed ⟨cause, s⟩ (p.defer (atPlace s others)) ⟨cause', s⟩ (q.defer (atPlace s others'))
  record : ∀ {e p e' q}, goesOn = false → failed e p e' q → p.recovering = true →
    state (p.record e) (q.record e')
  nested : ∀ {p q} (body : String), goesOn = false → state p q →
    state (p.nested body) (q.nested body)

end SqlFrontend
