import GlyphMachine.Span
import GlyphMachine.Text.Lines
import GlyphMachine.Text.Width

/-!
Snippets: the line of the source that a span lies on, and where in it a marker belongs.
-/

namespace GlyphMachine

/-- A source line with the columns a span covers. -/
structure Snippet where
  line : Nat
  column : Nat
  /-- display columns before the span -/
  offset : Nat
  /-- display columns of the span, at least one -/
  width : Nat
  sourceLine : List Char
deriving DecidableEq, Repr

namespace Snippet

/-- The span cuts a character in two. -/
structure CutCharacter where
deriving DecidableEq, Repr

/-- The snippet of a span on a given line: none if the span starts outside the line. A span that
goes on beyond the line is cut at its end. -/
def onLine (l : Text.Line) (span : Span) : Except CutCharacter (Option Snippet) :=
  if span.start < l.start ∨ l.stop < span.start then .ok none
  else
    let covered := max (min span.stop l.stop) span.start - span.start
    match Text.splitAtByte? (span.start - l.start) l.text with
    | none => .error {}
    | some (before, rest) =>
      match Text.splitAtByte? covered rest with
      | none => .error {}
      | some (marked, _) =>
        .ok (some {
          line := span.line
          column := span.column
          offset := Text.displayWidth before
          width := max (Text.displayWidth marked) 1
          sourceLine := l.text })

/-- The snippet of a span: none if the text has no such line or the span starts outside it. -/
def of (source : String) (span : Span) : Except CutCharacter (Option Snippet) :=
  match span.line with
  | 0 => .ok none
  | n + 1 =>
    match (Text.lines source.toList)[n]? with
    | none => .ok none
    | some l => onLine l span

end Snippet

end GlyphMachine
