import SqlFrontend.Document.Writer
import SqlFrontend.Document.Lexeme
import SqlFrontend.Proofs.Document.Numeral

/-!
# Texts of lexemes

A text reads as some lexemes if it does so whatever stands before it, and whatever stands behind it that
a number could not go on with.

Results:
* `Spelling.take?_escape`: a character that is written in a string is read as itself.
* `Reads`: texts that read as lexemes. They are put together with `Reads.append`, `Reads.cons` and
  `Reads.blanks_append`.
* `reads_quoted`, `reads_numeral`: the texts of strings and numbers.
-/

namespace SqlFrontend.Document

/-! ## Strings -/

namespace Spelling

variable {s : Spelling} {c : Char} {rest : List Char}

theorem unit?_controlEscape : ∀ n < 0x20,
    unit? '0' '0' (Nat.digitChar (n / 16)) (Nat.digitChar (n % 16)) = some n := by
  decide

theorem take?_controlEscape (hc : c.toNat < 0x20) :
    s.take? (controlEscape c.toNat ++ rest) = (s.push c).take? rest := by
  have hunit : s.pushUnit c.toNat = s.push c := by
    rw [pushUnit, if_neg (by omega), if_neg (by omega), Char.ofNat_toNat]
  rw [controlEscape]
  simp only [List.cons_append, List.nil_append]
  rw [take?, unit?_controlEscape _ hc]
  dsimp only
  rw [hunit]

theorem take?_plain (hquote : c ≠ '"') (hmark : c ≠ '\\') (hc : ¬c.toNat < 0x20) :
    s.take? (c :: rest) = (s.push c).take? rest := by
  rw [take?]
  · rw [if_neg (by simp [hc, hmark])]
  all_goals simp_all

/-- What a character is written as is read as the character. -/
theorem take?_escape (s : Spelling) (c : Char) (rest : List Char) :
    s.take? (escape c ++ rest) = (s.push c).take? rest := by
  rw [escape]
  split
  · next h => subst h; rfl
  split
  · next h => subst h; rfl
  split
  · next h => subst h; rfl
  split
  · next h => subst h; rfl
  split
  · next h => subst h; rfl
  split
  · next h => subst h; rfl
  split
  · next h => subst h; rfl
  next hquote hmark _ _ _ _ _ =>
  split
  · next hc => exact take?_controlEscape hc
  · next hc => exact take?_plain hquote hmark hc

theorem take?_escapes (before text : List Char) (rest : List Char) :
    take? ⟨some before, none⟩ (text.flatMap escape ++ '"' :: rest) =
      some (some (String.ofList (before.reverse ++ text)), rest) := by
  induction text generalizing before with
  | nil =>
    rw [List.append_nil]
    rfl
  | cons c text ih =>
    rw [List.flatMap_cons, List.append_assoc, take?_escape]
    exact (ih (c :: before)).trans (by rw [List.reverse_cons, List.append_assoc]; rfl)

end Spelling

theorem toList_quoted (text : String) :
    (quoted text).toList = '"' :: (text.toList.flatMap escape ++ ['"']) := by
  simp [quoted]

/-! ## Lexemes one by one -/

/-- One step of the reading of lexemes. -/
theorem lexemesFrom?_eq (before : List Lexeme) (text : List Char) :
    lexemesFrom? before text =
      if text.dropWhile isBlank = [] then some before.reverse
      else (Lexeme.take? (text.dropWhile isBlank)).bind fun (lexeme, left) =>
        lexemesFrom? (lexeme :: before) left := by
  rw [lexemesFrom?.eq_def]
  split
  · next hstart => rw [if_pos hstart]
  · next c rest hstart =>
    rw [hstart, if_neg (List.cons_ne_nil _ _)]
    split
    · next hread => rw [hread, Option.bind_some]
    · next hread => rw [hread, Option.bind_none]

theorem lexemesFrom?_nil (before : List Lexeme) : lexemesFrom? before [] = some before.reverse := by
  rw [lexemesFrom?_eq]
  rfl

theorem lexemesFrom?_blanks {blanks : List Char} (h : ∀ c ∈ blanks, isBlank c)
    (before : List Lexeme) (text : List Char) :
    lexemesFrom? before (blanks ++ text) = lexemesFrom? before text := by
  rw [lexemesFrom?_eq, lexemesFrom?_eq before text, List.dropWhile_append_of_pos h]

theorem lexemesFrom?_cons {c : Char} {text rest : List Char} {lexeme : Lexeme} (hc : ¬isBlank c)
    (h : Lexeme.take? (c :: text) = some (lexeme, rest)) (before : List Lexeme) :
    lexemesFrom? before (c :: text) = lexemesFrom? (lexeme :: before) rest := by
  rw [lexemesFrom?_eq, List.dropWhile_cons_of_neg hc, if_neg (List.cons_ne_nil _ _), h,
    Option.bind_some]

/-! ## Texts that read as lexemes -/

/-- A text reads as some lexemes where it stands before something that no number goes on with. -/
def Reads (text : List Char) (lexemes : List Lexeme) : Prop :=
  ∀ before rest, Numeral.Stops rest →
    lexemesFrom? before (text ++ rest) = lexemesFrom? (lexemes.reverse ++ before) rest

namespace Reads

variable {text text' : List Char} {lexemes lexemes' : List Lexeme}

theorem append (h : Reads text lexemes) (h' : Reads text' lexemes') (hstops : Numeral.Stops text') :
    Reads (text ++ text') (lexemes ++ lexemes') := by
  intro before rest hrest
  have hbehind : Numeral.Stops (text' ++ rest) := by
    cases text' with
    | nil => exact hrest
    | cons => exact hstops
  rw [List.append_assoc, h before _ hbehind, h' _ rest hrest, List.reverse_append, List.append_assoc]

/-- A text of one lexeme. -/
theorem of_take? {c : Char} {lexeme : Lexeme} (hc : ¬isBlank c)
    (h : ∀ rest, Numeral.Stops rest → Lexeme.take? (c :: (text ++ rest)) = some (lexeme, rest)) :
    Reads (c :: text) [lexeme] :=
  fun before rest hrest => lexemesFrom?_cons hc (h rest hrest) before

/-- A character that is a lexeme, before other lexemes. -/
theorem cons {c : Char} {lexeme : Lexeme} (hc : ¬isBlank c)
    (htake : ∀ rest, Lexeme.take? (c :: rest) = some (lexeme, rest)) (h : Reads text lexemes) :
    Reads (c :: text) (lexeme :: lexemes) := by
  intro before rest hrest
  rw [List.cons_append, lexemesFrom?_cons hc (htake _) before, h _ rest hrest, List.reverse_cons,
    List.append_assoc]
  rfl

/-- Blanks before lexemes. -/
theorem blanks_append {blanks : List Char} (hblanks : ∀ c ∈ blanks, isBlank c)
    (h : Reads text lexemes) : Reads (blanks ++ text) lexemes := by
  intro before rest hrest
  rw [List.append_assoc, lexemesFrom?_blanks hblanks, h before rest hrest]

theorem nil : Reads [] [] := fun _ _ _ => rfl

/-- The whole text. -/
theorem lexemesFrom?_eq_some (h : Reads text lexemes) : lexemesFrom? [] text = some lexemes := by
  have hall := h [] [] (by simp [Numeral.Stops])
  rwa [List.append_nil, List.append_nil, lexemesFrom?_nil, List.reverse_reverse] at hall

end Reads

theorem reads_null : Reads "null".toList [.null] := by
  have htext : "null".toList = 'n' :: ['u', 'l', 'l'] := rfl
  rw [htext]
  exact .of_take? (by decide) fun rest _ => rfl

theorem reads_boolean (b : Bool) :
    Reads (if b then "true" else "false").toList [.boolean b] := by
  have htrue : "true".toList = 't' :: ['r', 'u', 'e'] := rfl
  have hfalse : "false".toList = 'f' :: ['a', 'l', 's', 'e'] := rfl
  cases b with
  | true =>
    rw [if_pos rfl, htrue]
    exact .of_take? (by decide) fun rest _ => rfl
  | false =>
    rw [if_neg Bool.false_ne_true, hfalse]
    exact .of_take? (by decide) fun rest _ => rfl

theorem reads_quoted (text : String) : Reads (quoted text).toList [.string (some text)] := by
  rw [toList_quoted]
  refine .of_take? (by decide) fun rest _ => ?_
  have hread := Spelling.take?_escapes [] text.toList rest
  rw [List.reverse_nil, List.nil_append, String.ofList_toList] at hread
  rw [Lexeme.take?, List.append_assoc, List.singleton_append]
  exact congrArg (Option.map _) hread

theorem reads_numeral {text : List Char} {n : Numeral} (h : Numeral.take? text = some (n, [])) :
    Reads text [.number n] := by
  obtain ⟨c, text, rfl, hc⟩ := Numeral.exists_eq_cons_of_take? h
  have hother {d : Char} (hd : d ≠ '-' ∧ ¬d.isDigit) : c ≠ d := by
    rintro rfl
    exact hc.elim hd.1 hd.2
  refine .of_take? ?_ fun rest hrest => ?_
  · simp [isBlank, hother]
  · have hread := Numeral.take?_append h hrest
    rw [Lexeme.take?]
    · rw [← List.cons_append, hread]
      rfl
    all_goals simp [hother]

theorem toList_lineBreak (depth : ℕ) :
    (lineBreak depth).toList = '\n' :: List.replicate (2 * depth) ' ' := by
  simp [lineBreak]

theorem Reads.lineBreak_append {text : List Char} {lexemes : List Lexeme} (h : Reads text lexemes)
    (depth : ℕ) : Reads ((lineBreak depth).toList ++ text) lexemes := by
  refine h.blanks_append fun c hc => ?_
  rw [toList_lineBreak] at hc
  rcases List.mem_cons.1 hc with rfl | hc
  · rfl
  · rw [List.eq_of_mem_replicate hc]
    rfl

theorem stops_lineBreak_append (depth : ℕ) (rest : List Char) :
    Numeral.Stops ((lineBreak depth).toList ++ rest) := by
  rw [toList_lineBreak]
  exact Numeral.stops_cons (by decide) _

end SqlFrontend.Document
