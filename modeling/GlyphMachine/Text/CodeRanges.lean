/-!
Sets of code points given by ranges, held as a balanced search tree so that a look-up in a table
of several hundred ranges takes a dozen comparisons.
-/

namespace GlyphMachine.Text

/-- A search tree of disjoint ranges, the lower ones to the left. -/
inductive CodeRanges where
  | empty
  | node (left : CodeRanges) (first last : Nat) (right : CodeRanges)

namespace CodeRanges

/-- Whether the code lies in one of the ranges. -/
def contains : CodeRanges → Nat → Bool
  | empty, _ => false
  | node left first last right, n =>
    if n < first then left.contains n
    else if n ≤ last then true
    else right.contains n

/-- A tree of at most the given height over the first ranges of an ascending list, and the ranges
left over. -/
def build : Nat → List (Nat × Nat) → CodeRanges × List (Nat × Nat)
  | 0, rs => (empty, rs)
  | height + 1, rs =>
    match build height rs with
    | (left, []) => (left, [])
    | (left, (first, last) :: rs) =>
      let (right, rest) := build height rs
      (node left first last right, rest)

/-- The tree over an ascending list of disjoint ranges: its height leaves room for all of them. -/
def ofList (rs : List (Nat × Nat)) : CodeRanges :=
  (build (rs.length.log2 + 1) rs).1

end CodeRanges

end GlyphMachine.Text
