import GlyphMachine.Glyph
import GlyphMachine.Span

/-!
Tokens of a source text: glyphs and the words that stand as their operands.
-/

namespace GlyphMachine

/-- A token. -/
inductive Token where
  | opcode (op : Opcode)
  /-- the directive that defines a label -/
  | labelDef
  | literal (value : Word)
  | label (name : String)
deriving DecidableEq, Repr

namespace Token

/-- The token of a glyph. -/
def ofGlyph : Glyph → Token
  | .op o => opcode o
  | .labelDef => labelDef

/-- The token as dumps show it. -/
def text : Token → String
  | opcode op => "Opcode(" ++ op.glyph ++ " " ++ op.name ++ ")"
  | labelDef => "LabelDef(" ++ Glyph.labelDef.text ++ ")"
  | literal value => "Literal(" ++ value.text ++ ")"
  | label name => "Label(" ++ name ++ ")"

/-- A dump of tokens, one a line behind its line and column. -/
def dump (tokens : List (Located Token)) : String :=
  String.join (tokens.map fun t =>
    toString t.span.line ++ ":" ++ toString t.span.column ++ "\t" ++ t.item.text ++ "\n")

end Token

end GlyphMachine
