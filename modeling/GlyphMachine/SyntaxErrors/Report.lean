import GlyphMachine.SyntaxErrors
import GlyphMachine.SyntaxErrors.Snippet

/-!
Reports of syntax errors: for each issue a heading, the source line with carets under the offending
text, and the message.
-/

namespace GlyphMachine

/-- Whether headings are coloured for a terminal. -/
inductive Colouring where
  | plain
  | red
deriving DecidableEq, Repr

namespace Colouring

/-- A heading in its colour: red, then back to the terminal's own. -/
def paint : Colouring → String → String
  | plain, heading => heading
  | red, heading => "\x1b[38;5;1m" ++ heading ++ "\x1b[39m"

end Colouring

namespace Snippet

/-- The source line and the line of carets under it. -/
def text (s : Snippet) : String :=
  String.ofList s.sourceLine ++ "\n"
    ++ String.ofList (List.replicate s.offset ' ' ++ List.replicate s.width '^') ++ "\n"

end Snippet

namespace SyntaxErrors

/-- The report of one issue. The source line is left out where it cannot be shown. -/
def reportIssue (colouring : Colouring) (source : String) (i : Located SyntaxIssue) : String :=
  let heading :=
    "SYNTAX ERROR: line " ++ toString i.span.line ++ ", column " ++ toString i.span.column
  let marked := match Snippet.of source i.span with
    | .ok (some s) => s.text
    | _ => ""
  colouring.paint heading ++ "\n" ++ marked ++ i.item.message ++ "\n"

/-- The report of all issues against the source they were found in. -/
def report (e : SyntaxErrors) (colouring : Colouring) (source : String) : String :=
  String.join (e.issues.map (reportIssue colouring source))

end SyntaxErrors

end GlyphMachine
