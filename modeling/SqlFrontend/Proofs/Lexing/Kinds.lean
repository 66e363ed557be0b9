import SqlFrontend.Lexing.Token

/-!
# Kinds that differ

Rules about productions ask that the kinds of tokens they name differ from others: that they are none
of the end of the text, of a name or of a keyword. For a kind that is written out, this holds by the
definition of a test, and is found from there as an instance.

Results:
* `Certain`: a test passes by its definition alone.
* `Apart`, `Outside`: a value is known to differ from another one, or from those of a list.
-/

namespace SqlFrontend

/-- A test passes by its definition alone, so that this need not be said where a rule is used. -/
class Certain (test : Bool) : Prop where
  holds : test = true

instance : Certain true := ⟨rfl⟩

/-- Two values that are known to differ. -/
class Apart {α : Type} (a b : α) : Prop where
  ne : a ≠ b

/-- A value that is known to be none of a list. -/
class Outside {α : Type} (a : α) (l : List α) : Prop where
  notMem : a ∉ l

instance {α : Type} {a : α} : Outside a [] := ⟨List.not_mem_nil⟩

instance {α : Type} {a b : α} {l : List α} [h : Apart a b] [hl : Outside a l] : Outside a (b :: l) :=
  ⟨List.not_mem_cons_of_ne_of_not_mem h.ne hl.notMem⟩

/-- Decides whether a word is not `WITH`, the only one that can end a text as if a statement began. -/
@[reducible] def Keyword.isNotWith : Keyword → Bool
  | .WITH => false
  | _ => true

instance {word : Keyword} [h : Certain word.isNotWith] : Apart .WITH word :=
  ⟨by rintro rfl; cases h.holds⟩

namespace TokenKind

/-- Decides whether a kind is not that of the end of the text. -/
@[reducible] def isMore : TokenKind → Bool
  | .eof => false
  | _ => true

theorem ne_eof_of_isMore {k : TokenKind} (h : k.isMore) : k ≠ .eof := by
  rintro rfl
  cases h

instance {k : TokenKind} [h : Certain k.isMore] : Apart .eof k := ⟨(ne_eof_of_isMore h.holds).symm⟩

/-- Decides whether a kind is none that closes a construct. -/
@[reducible] def isOpen : TokenKind → Bool
  | .rightParen | .keyword .END => false
  | _ => true

theorem eq_of_isOpen {k : TokenKind} (h : k.isOpen = false) : k = .rightParen ∨ k = .keyword .END := by
  unfold isOpen at h
  split at h
  · exact .inl rfl
  · exact .inr rfl
  · cases h

theorem isOpen_of_ne {k : TokenKind} (hparen : k ≠ .rightParen) (hend : k ≠ .keyword .END) : k.isOpen := by
  cases h : k.isOpen with
  | true => rfl
  | false => exact ((eq_of_isOpen h).elim hparen hend).elim

theorem ne_of_isOpen {k : TokenKind} (h : k.isOpen) : k ≠ .rightParen ∧ k ≠ .keyword .END := by
  constructor <;>
  · rintro rfl
    cases h

/-- Decides whether a kind is not that of a keyword. -/
@[reducible] def isNoKeyword : TokenKind → Bool
  | .keyword _ => false
  | _ => true

instance {word : Keyword} {k : TokenKind} [h : Certain k.isNoKeyword] : Apart (.keyword word) k :=
  ⟨by rintro rfl; cases h.holds⟩

instance {word word' : Keyword} [h : Apart word word'] : Apart (keyword word) (.keyword word') :=
  ⟨fun heq => h.ne (TokenKind.keyword.inj heq)⟩

/-- A kind that is one of two others differs from what both of them differ from. -/
theorem apart_of_or {k first second kind : TokenKind} (hk : k = first ∨ k = second)
    [h : Apart first kind] [h' : Apart second kind] : Apart k kind := by
  rcases hk with rfl | rfl
  · exact h
  · exact h'

end TokenKind

end SqlFrontend
