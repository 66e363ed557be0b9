/-!
# Source locations

A span is a stretch of a source text: two byte offsets, and the line and the column of its first
character. Lines and columns count from one, columns in characters.

* `Span.merge`: the smallest stretch over two spans, located where the earlier one starts.

Section 3, *Tokens*, of the polysql specification.
-/

namespace SqlFrontend

/-- A stretch of a source text. -/
structure Span where
  /-- Byte offset of the first character. -/
  start : Nat
  /-- Byte offset behind the last character. -/
  stop : Nat
  /-- Line of the first character. -/
  line : Nat
  /-- Column of the first character. -/
  column : Nat
  deriving DecidableEq, Repr

namespace Span

/-- The empty span at the beginning of a text. -/
def origin : Span := ⟨0, 0, 1, 1⟩

instance : Inhabited Span := ⟨origin⟩

/-- The length of a span in bytes. -/
def length (s : Span) : Nat := s.stop - s.start

/-- Decides whether a span covers no byte. -/
def isEmpty (s : Span) : Bool := s.start == s.stop

/-- Covers both spans. The location is that of the span that starts first, of `s` in a tie. -/
def merge (s t : Span) : Span :=
  let first := if s.start ≤ t.start then s else t
  { first with stop := max s.stop t.stop }

/-- Names the place of a span, for a reader. -/
def describe (s : Span) : String := s!"line {s.line}, column {s.column}"

theorem merge_start (s t : Span) : (s.merge t).start = min s.start t.start := by
  unfold merge; split <;> simp <;> omega

theorem merge_stop (s t : Span) : (s.merge t).stop = max s.stop t.stop := rfl

end Span

end SqlFrontend
