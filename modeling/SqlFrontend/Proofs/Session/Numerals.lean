import SqlFrontend.Proofs.Lexing.Tiling
import SqlFrontend.Proofs.Session.Boundary

/-!
# Numbers in a source

A number of a source is a numeral, unless it has two points. As a numeral it stands for a constant, and
so only a number with two points is one that a parser cannot read.

Results:
* `Token.Denotes`: what a numeral stands for.
* `Lexer.denotes_of_session`: every number that a lexer reads denotes, but for those with two points.
* `Parser.numbers_denote`: the same for the tokens of a source, and what errors say of them.
-/

namespace SqlFrontend

open Numeral

/-- A token is a numeral and is read as the constant that this stands for. Digits alone are an integer if
it has 64 bits, and a fraction if not. -/
structure Token.Denotes (t : Token) : Prop where
  isNumeral : IsNumeral t.literal.toList
  constant : ∃ value, Literal.ofNumeral? t.literal = some value ∧
    ∀ p : Parser, p.current = t → Grammar.number p = .ok (.literal value) p.advance
  integer : IsDigits t.literal.toList → ∀ n, digits? t.literal.toList = some n →
    Literal.ofNumeral? t.literal =
      some (if n ≤ 2 ^ 63 - 1 then .integer n else .float (.ofDecimal n 0))

theorem Token.IsNumeric.denotes {t : Token} (h : t.IsNumeric)
    (h' : ¬HasTwoPoints t.literal.toList) : t.Denotes := by
  have hnumeral : IsNumeral t.literal.toList := h.resolve_right h'
  obtain ⟨value, hvalue⟩ := Literal.ofNumeral?_of_isNumeral hnumeral
  refine ⟨hnumeral, ⟨value, hvalue, fun p hp => ?_⟩, fun hdigits n hn => ?_⟩
  · rw [Likeness.Lockstep.number_eq, hp, hvalue]
  · exact Literal.ofNumeral?_of_isDigits hdigits hn

namespace Lexer

theorem isNumeric_of_session (lexer : Lexer) (calls : List Call) :
    ∀ read ∈ lexer.session calls, read.token.kind = .number → read.token.IsNumeric := by
  induction calls generalizing lexer with
  | nil => exact fun _ h => (List.not_mem_nil h).elim
  | cons call calls ih =>
    cases call with
    | setDialect dialect => exact ih (lexer.setDialect dialect)
    | next =>
      intro read hread hk
      rcases List.mem_cons.1 hread with rfl | hread
      · exact next_numeric hk
      · exact ih lexer.next.2 read hread hk

theorem isNumeric_of_mem_tokens {lexer : Lexer} {t : Token} (h : t ∈ lexer.tokens)
    (hk : t.kind = .number) : t.IsNumeric := by
  rw [tokens_eq_session] at h
  obtain ⟨read, hread, rfl⟩ := List.mem_map.1 h
  exact lexer.isNumeric_of_session _ read hread hk

end Lexer

namespace Parser

/-- Every number of a source is a numeral that denotes a constant, unless it has two points, whichever
dialects it is read under. An error about a numeral, at any time of a session, is about one with two
points. -/
theorem numbers_denote (source : String) (d : Dialect) :
    (∀ t ∈ Lexer.tokenize source d, t.kind = .number → ¬HasTwoPoints t.literal.toList → t.Denotes) ∧
    (∀ calls, ∀ read ∈ (Lexer.ofSource source d).session calls, read.token.kind = .number →
      ¬HasTwoPoints read.token.literal.toList → read.token.Denotes) ∧
    (∀ p : Parser, p.InSession → ∀ e ∈ p.errors, ∀ text, e.cause = .invalidNumeral text →
      HasTwoPoints text.toList) := by
  refine ⟨fun t ht hk => ?_, fun calls read hread hk => ?_, fun p hp e he => ?_⟩
  · exact (Lexer.isNumeric_of_mem_tokens ht hk).denotes
  · exact (Lexer.isNumeric_of_session _ calls read hread hk).denotes
  · exact (hp.ready.due e he).numeral

/-- A number with two points is one token, which is no numeral and which no expression can hold. -/
theorem numbers_denote_points :
    (∃ t ∈ Lexer.tokenize ".5.6" .mySql, t.kind = .number ∧ ¬IsNumeral t.literal.toList ∧
      Literal.ofNumeral? t.literal = none) ∧
    (ofSource "SELECT .5.6" .mySql false {}).results.2.errors.toList.map ParseError.cause =
      [.invalidNumeral ".5.6"] := by
  have hnone : Literal.ofNumeral? ".5.6" = none := by decide +kernel
  refine ⟨⟨⟨.number, ".5.6", ⟨0, 4, 1, 1⟩⟩, by decide +kernel, rfl, fun hnumeral => ?_, hnone⟩,
    by decide +kernel⟩
  obtain ⟨value, hvalue⟩ := Literal.ofNumeral?_of_isNumeral hnumeral
  rw [hnone] at hvalue
  cases hvalue

end Parser

end SqlFrontend
