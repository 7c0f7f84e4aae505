import GlyphMachine.Text.Bytes

/-!
Lines of a text. A line ends at a line feed, and one carriage return directly before the line feed
belongs to the line end; a carriage return elsewhere is an ordinary character. Text after the last
line feed is a line unless it is empty.
-/

namespace GlyphMachine.Text

/-- A line without its line end. -/
structure Line where
  /-- byte offset of the line in the text -/
  start : Nat
  text : List Char
deriving DecidableEq, Repr

namespace Line

/-- Byte offset just after the line's last character. -/
def stop (l : Line) : Nat :=
  l.start + byteSize l.text

end Line

/-- The text of a line read backwards, less the carriage return of its line end. -/
def dropReturn : List Char → List Char
  | '\r' :: cs => cs.reverse
  | cs => cs.reverse

/-- The lines of a text that starts at the given offset, where `read` holds, backwards, the
characters of the present line that were read already. -/
def linesFrom (start : Nat) (read : List Char) : List Char → List Line
  | [] => if read.isEmpty then [] else [⟨start, read.reverse⟩]
  | c :: cs =>
    if c = '\n' then ⟨start, dropReturn read⟩ :: linesFrom (start + byteSize read + 1) [] cs
    else linesFrom start (c :: read) cs

/-- The lines of a text. -/
def lines (cs : List Char) : List Line :=
  linesFrom 0 [] cs

end GlyphMachine.Text
