import ScriptCheck.Syntax.Tree

/-!
# Numbering the nodes of a tree

Whoever builds a tree takes each node from a builder, which numbers them 0, 1, 2, … in the order they are taken and places
them at the span set last.
-/

namespace ScriptCheck

/-- The next number to hand out and the place for the next node. -/
structure Builder where
  next : Nat
  span : Span

namespace Builder

/-- A builder that has handed out nothing. -/
def empty : Builder := ⟨0, .zero⟩

/-- Sets the place for the nodes to come. -/
def setSpan (b : Builder) (span : Span) : Builder := { b with span }

/-- The next node, and the builder after it. -/
def take (b : Builder) : Node × Builder := (⟨b.next, b.span⟩, { b with next := b.next + 1 })

end Builder

end ScriptCheck
