import GlyphMachine.Text.Cluster

/-!
Display width: the columns a text takes on a terminal that shows every emoji two cells wide.
-/

namespace GlyphMachine.Text

/-- The byte order mark, a cluster of its own. -/
def byteOrderMark : Char := '\uFEFF'

/-- Columns of one cluster: none for a byte order mark, one for ASCII and two for all else. -/
def Cluster.width (g : Cluster) : Nat :=
  if g = [byteOrderMark] then 0
  else if g.all (·.toNat < 0x80) then 1
  else 2

/-- Columns of a sequence of clusters. -/
def widthOf : List Cluster → Nat
  | [] => 0
  | g :: gs => g.width + widthOf gs

/-- Columns of a text. -/
def displayWidth (cs : List Char) : Nat :=
  widthOf (clusters cs)

end GlyphMachine.Text
