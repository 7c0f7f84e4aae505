import GlyphMachine.CommandLine.Options
import GlyphMachine.Journal
import GlyphMachine.SyntaxErrors.Report
import GlyphMachine.Workspace

/-!
Plans: what an invocation does is laid down first, as a list of actions with the way it ends if
they all succeed.
-/

namespace GlyphMachine

/-! ## How an invocation ends -/

/-- An invocation that came to its end. -/
inductive Outcome where
  | compiled (program : Program)
  | ran (trace : Trace)
  | checked (verdict : Verdict)

/-- An invocation that failed. -/
inductive Failure where
  | read (path : String) (error : FileError)
  | write (path : String) (error : FileError)
  | badSource (source : String) (errors : SyntaxErrors)
deriving DecidableEq

namespace Outcome

def exitCode : Outcome → Nat
  | compiled _ => 0
  | ran trace => if trace.status.isHalted then 0 else 1
  | checked verdict => if verdict.passed then 0 else 1

end Outcome

namespace Failure

def message : Failure → String
  | read path error => "unable to read " ++ path ++ ": " ++ error.message
  | write path error => "unable to write " ++ path ++ ": " ++ error.message
  | badSource _ errors => errors.message

/-- What a terminal shows of the failure. -/
def report : Failure → String
  | badSource source errors => errors.report .red source
  | failure => failure.message ++ "\n"

def exitCode : Failure → Nat
  | badSource .. => 2
  | read .. | write .. => 3

end Failure

/-! ## Plans -/

/-- One thing an invocation does. -/
inductive Action where
  /-- writes to the standard output -/
  | write (text : String)
  /-- writes to the end of a file -/
  | append (path : String) (text : String)
  | log (record : Record)
deriving DecidableEq

/-- Actions, and how the invocation ends once they have all succeeded. -/
structure Plan where
  actions : List Action
  ending : Except Failure Outcome

namespace Plan

/-- Writes a line to the standard output. -/
def writeLine (line : String) : Action :=
  .write (line ++ "\n")

/-- Writes a dump: as a line to the standard output, or behind a heading to the end of a file. -/
def dump (destination : Option Destination) (text : String) : List Action :=
  match destination with
  | none => []
  | some .output => [writeLine text]
  | some (.file path) => [.append path ("========= FILE " ++ path ++ " ========\n" ++ text)]

/-- Writes what a run printed and, unless it halted, how it ended. -/
def display (trace : Trace) : List Action :=
  trace.output.map writeLine
    ++ if trace.status.isHalted then [] else [writeLine trace.status.message]

/-- The line that tells a verdict. -/
def verdictLine (verdict : Verdict) : String :=
  match verdict.reason with
  | none => "PASSED"
  | some reason => "FAILED: " ++ reason.message

/-- The plan once the program is there: dump it, and unless the run is dry run it and check what
it printed. -/
def ofProgram (options : Options) (run : Program → Trace) (program : Program) : Plan :=
  let compile :=
    .log (.compiled options.sourceName program.size) :: dump options.programDump program.listing
  if options.dryRun then ⟨compile, .ok (.compiled program)⟩
  else
    let trace := run program
    let actions := compile ++ (Record.ofRun program trace).map .log ++ display trace
    match options.expectation? with
    | none => ⟨actions, .ok (.ran trace)⟩
    | some expectation =>
      let verdict := expectation.judge trace
      ⟨actions ++ [writeLine (verdictLine verdict)], .ok (.checked verdict)⟩

/-- The plan for a source text: dump its tokens, then go on with the program they make. -/
def ofSource (options : Options) (run : Program → Trace) (source : String) : Plan :=
  match tokenize source with
  | .error errors => ⟨[], .error (.badSource source (.ofLexErrors errors))⟩
  | .ok tokens =>
    let first := dump options.tokensDump (Token.dump tokens)
    match Program.ofTokens tokens with
    | .error errors => ⟨first, .error (.badSource source (.ofAssemblyErrors errors))⟩
    | .ok program =>
      let rest := ofProgram options run program
      ⟨first ++ rest.actions, rest.ending⟩

end Plan

end GlyphMachine
