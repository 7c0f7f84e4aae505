/-!
What a run has printed so far.
-/

namespace GlyphMachine

/-- Printed lines, latest first, and the bytes they count for. -/
structure Output where
  latest : List String
  bytes : Nat
deriving DecidableEq

namespace Output

/-- Nothing printed. -/
def empty : Output := ⟨[], 0⟩

/-- What a printed line counts for: its bytes and a line break. -/
def cost (line : String) : Nat :=
  line.utf8ByteSize + 1

/-- The output with one more line. -/
def print (o : Output) (line : String) : Output :=
  ⟨line :: o.latest, o.bytes + cost line⟩

/-- The printed lines, first to last. -/
def lines (o : Output) : List String :=
  o.latest.reverse

@[simp] theorem lines_print (o : Output) (line : String) :
    (o.print line).lines = o.lines ++ [line] := by
  simp [lines, print]

end Output

end GlyphMachine
