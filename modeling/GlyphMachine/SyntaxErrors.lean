import GlyphMachine.Glyph
import GlyphMachine.Span

/-!
Syntax errors: what can be wrong with a source text, each with the message a student reads. Lexical
errors concern single words and glyphs, assembly errors how they fit together.
-/

namespace GlyphMachine

/-- A word or glyph that cannot be read. -/
inductive LexError where
  | unknownGlyph (text : String)
  /-- a glyph that no word follows, and what should have followed -/
  | missingOperand (glyph : Glyph) (expected : Arity)
  | invalidLiteral (text : String)
  | invalidLabel (text : String)
deriving DecidableEq, Repr

/-- How an instruction can be malformed. -/
inductive Malformation where
  | strayNumber (value : Word)
  | strayLabel (name : String)
  | expectsNumber (op : Opcode)
  | expectsTarget (op : Opcode)
  | expectsName
  | negativeTarget (value : Word)
  /-- a remark that does not come from the assembler -/
  | remark (text : String)
deriving DecidableEq, Repr

/-- Tokens that do not fit together. -/
inductive AssemblyError where
  | unresolvedLabel (name : String)
  | duplicateLabel (name : String) (firstLine : Nat)
  | malformed (cause : Malformation)
deriving DecidableEq, Repr

/-- One thing wrong with a source text. -/
inductive SyntaxIssue where
  | lexical (error : LexError)
  | assembly (error : AssemblyError)
deriving DecidableEq, Repr

namespace LexError

def message : LexError → String
  | unknownGlyph text => "unknown glyph `" ++ text ++ "`"
  | missingOperand glyph expected => glyph.text ++ " needs " ++ expected.expected ++ " after it"
  | invalidLiteral text =>
    "invalid number `" ++ text ++ "`, numbers must be whole and between "
      ++ toString Word.least ++ " and " ++ toString Word.greatest
  | invalidLabel text =>
    "invalid label name `" ++ text
      ++ "`, labels use letters, digits and `_` and must not start with a digit"

end LexError

namespace Malformation

def message : Malformation → String
  | strayNumber value => "the number `" ++ value.text ++ "` does not belong to any instruction"
  | strayLabel name => "the label `" ++ name ++ "` does not belong to any instruction"
  | expectsNumber op => op.glyph ++ " expects a number"
  | expectsTarget op => op.glyph ++ " expects a label or an instruction index"
  | expectsName => Glyph.labelDef.text ++ " expects a label name"
  | negativeTarget value => "jump target " ++ value.text ++ " is negative"
  | remark text => text

end Malformation

namespace AssemblyError

def message : AssemblyError → String
  | unresolvedLabel name => "no label named `" ++ name ++ "` is defined"
  | duplicateLabel name firstLine =>
    "label `" ++ name ++ "` is already defined on line " ++ toString firstLine
  | malformed cause => "malformed instruction: " ++ cause.message

end AssemblyError

namespace SyntaxIssue

def message : SyntaxIssue → String
  | lexical error => error.message
  | assembly error => error.message

def isLexical : SyntaxIssue → Bool
  | lexical _ => true
  | assembly _ => false

end SyntaxIssue

/-- Everything wrong with one source text, in source order. -/
structure SyntaxErrors where
  issues : List (Located SyntaxIssue)
deriving DecidableEq

namespace SyntaxErrors

/-- The issues in source order; issues that start at the same offset keep their order. -/
def ofIssues (issues : List (Located SyntaxIssue)) : SyntaxErrors :=
  ⟨issues.mergeSort fun a b => a.span.start ≤ b.span.start⟩

/-- Lexical errors as syntax errors. -/
def ofLexErrors (errors : List (Located LexError)) : SyntaxErrors :=
  ofIssues (errors.map (·.map .lexical))

/-- Assembly errors as syntax errors. -/
def ofAssemblyErrors (errors : List (Located AssemblyError)) : SyntaxErrors :=
  ofIssues (errors.map (·.map .assembly))

/-- Number of issues. -/
def count (e : SyntaxErrors) : Nat :=
  e.issues.length

/-- The first issue in the source. -/
def first? (e : SyntaxErrors) : Option (Located SyntaxIssue) :=
  e.issues.head?

/-- Whether some issue is lexical. -/
def hasLexical (e : SyntaxErrors) : Bool :=
  e.issues.any (·.item.isLexical)

/-- All issues, one a line behind its line and column. -/
def message (e : SyntaxErrors) : String :=
  "\n".intercalate (e.issues.map fun i =>
    "line " ++ toString i.span.line ++ ", column " ++ toString i.span.column ++ ": "
      ++ i.item.message)

end SyntaxErrors

end GlyphMachine
