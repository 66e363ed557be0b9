/-!
# White space

The characters that separate tokens and that are cut from both ends of a name given by a user: the
Unicode property White_Space.

* `isBlank`: membership in that class; `isBlank_of_isWhitespace` says that core's ASCII class is in
  it.
* `trim`: a text without the white space at its two ends.
-/

namespace SqlFrontend.Text

/-- Decides whether `c` has the Unicode property White_Space. -/
def isBlank (c : Char) : Bool :=
  let n := c.toNat
  (0x09 ≤ n && n ≤ 0x0D) || n == 0x20 || n == 0x85 || n == 0xA0 || n == 0x1680 ||
    (0x2000 ≤ n && n ≤ 0x200A) || n == 0x2028 || n == 0x2029 || n == 0x202F || n == 0x205F ||
    n == 0x3000

theorem isBlank_of_isWhitespace {c : Char} (h : c.isWhitespace) : isBlank c := by
  simp only [Char.isWhitespace, Bool.or_eq_true, decide_eq_true_eq] at h
  rcases h with ((h | h) | h) | h <;> subst h <;> decide

/-- Cuts the white space off both ends of a text. -/
def trim (s : String) : String :=
  String.ofList ((s.toList.dropWhile isBlank).reverse.dropWhile isBlank).reverse

end SqlFrontend.Text
