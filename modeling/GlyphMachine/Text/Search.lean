/-!
Search for one text inside another.
-/

namespace GlyphMachine.Text

/-- Whether the first text stands somewhere in the second. -/
def occursIn (needle : List Char) : List Char → Bool
  | [] => needle.isEmpty
  | c :: cs => needle.isPrefixOf (c :: cs) || occursIn needle cs

end GlyphMachine.Text
