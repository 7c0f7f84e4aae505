/-!
Places in a source text: byte offsets for programs that cut the text, line and column for the
student who reads it.
-/

namespace GlyphMachine

/-- A stretch of source text. -/
structure Span where
  /-- byte offset of its first character -/
  start : Nat
  /-- byte offset just after its last character -/
  stop : Nat
  /-- line of its first character, counted from one -/
  line : Nat
  /-- column of its first character in clusters, counted from one -/
  column : Nat
deriving DecidableEq, Repr

/-- A thing found at a place of the source. -/
structure Located (α : Type) where
  item : α
  span : Span
deriving DecidableEq, Repr

namespace Located

/-- The same place with another thing in it. -/
def map {α β : Type} (f : α → β) (x : Located α) : Located β :=
  ⟨f x.item, x.span⟩

end Located

end GlyphMachine
