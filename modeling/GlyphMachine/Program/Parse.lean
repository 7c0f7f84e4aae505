import GlyphMachine.Program.Assembly
import GlyphMachine.Token.Lexer

/-!
Programs from source texts. Lexical errors stop the reading before assembly starts.
-/

namespace GlyphMachine.Program

/-- The program of a source text, or its syntax errors. -/
def parse (source : String) : Except SyntaxErrors Program :=
  match tokenize source with
  | .error errors => .error (.ofLexErrors errors)
  | .ok tokens =>
    match ofTokens tokens with
    | .error errors => .error (.ofAssemblyErrors errors)
    | .ok program => .ok program

end GlyphMachine.Program
