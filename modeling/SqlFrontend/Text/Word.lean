/-!
# Words

Keywords, names of options and the like are compared and normalised without regard to the case of
ASCII letters; all other characters stand for themselves.

* `upper`, `lower`: the two spellings of a word.
* `sameWord`: whether two words differ at most in the case of ASCII letters. It is an equivalence
  (`sameWord_comm`, `sameWord_self`).
-/

namespace SqlFrontend.Text

/-- Spells the ASCII letters of a word as capitals. -/
def upper (s : String) : String := s.map Char.toUpper

/-- Spells the ASCII letters of a word as small letters. -/
def lower (s : String) : String := s.map Char.toLower

/-- Decides whether two words are equal up to the case of ASCII letters. -/
def sameWord (a b : String) : Bool := lower a == lower b

theorem sameWord_self (a : String) : sameWord a a := by simp [sameWord]

theorem sameWord_comm (a b : String) : sameWord a b = sameWord b a := by
  simp [sameWord, Bool.beq_comm]

/-- Writes the items one after the other with `separator` between neighbours. -/
def separated (separator : String) (items : List String) : String := separator.intercalate items

end SqlFrontend.Text
