/-!
Texts as bytes in UTF-8.
-/

namespace GlyphMachine.Text

/-- A sequence of bytes. -/
abbrev Bytes := List UInt8

/-- The bytes of a text. -/
def encode (s : String) : Bytes :=
  s.toUTF8.data.toList

/-- The text that bytes stand for, if they are valid. -/
def decode? (bytes : Bytes) : Option String :=
  String.fromUTF8? ⟨bytes.toArray⟩

end GlyphMachine.Text
