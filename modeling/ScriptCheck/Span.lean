/-!
# Places in a source text

A span is a range of bytes together with the line and column where it starts. Spans only decorate diagnostics: no rule of
the analysis looks at them.
-/

namespace ScriptCheck

/-- A range of bytes, `stop` excluded, and the line and column of its start. -/
structure Span where
  start : Nat
  stop : Nat
  line : Nat
  column : Nat
  deriving DecidableEq, Repr, Inhabited

namespace Span

/-- The span of nothing in particular. -/
def zero : Span := ⟨0, 0, 0, 0⟩

/-- The smallest range that covers both, placed at the line and column of the first. -/
def merge (a b : Span) : Span := { a with start := min a.start b.start, stop := max a.stop b.stop }

/-- The number of bytes covered; a range that ends before it starts covers none. -/
def length (s : Span) : Nat := s.stop - s.start

/-- A range as a diagnostic points to it: where it starts and how long it is. -/
def region (s : Span) : Nat × Nat := (s.start, s.length)

end Span

end ScriptCheck
