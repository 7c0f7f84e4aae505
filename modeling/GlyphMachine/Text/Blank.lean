import GlyphMachine.Text.CodeRanges

/-!
Blank characters: the White_Space property, and trimming by it.
-/

namespace GlyphMachine.Text

/-- Codes with the White_Space property. -/
def blanks : CodeRanges := .ofList
  [(0x9, 0xD), (0x20, 0x20), (0x85, 0x85), (0xA0, 0xA0), (0x1680, 0x1680), (0x2000, 0x200A),
   (0x2028, 0x2029), (0x202F, 0x202F), (0x205F, 0x205F), (0x3000, 0x3000)]

/-- Whether the character is white space. -/
def isBlank (c : Char) : Bool :=
  blanks.contains c.toNat

/-- The text without its trailing white space. -/
def trimEnd (cs : List Char) : List Char :=
  (cs.reverse.dropWhile isBlank).reverse

/-- Whether the text holds nothing but white space. -/
def allBlank (cs : List Char) : Bool :=
  cs.all isBlank

end GlyphMachine.Text
