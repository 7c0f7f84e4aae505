import GlyphMachine.Expectation
import GlyphMachine.Machine.Run
import GlyphMachine.Program.Parse

/-!
The engine: source text to trace and verdict under one budget. An engine keeps nothing from one
run to the next.
-/

namespace GlyphMachine

/-- Version of the language: it changes with the glyphs, the word size or what an opcode does. -/
def languageVersion : Nat := 1

/-- A budget, and the clock its time limit is held against. -/
structure Engine where
  budget : Budget
  clock : Clock := .stopped

namespace Engine

/-- The trace of a program. -/
def run (e : Engine) (program : Program) : Trace :=
  Job.run ⟨program, e.budget⟩ e.clock

/-- The trace of a source text, or its syntax errors. -/
def runSource (e : Engine) (source : String) : Except SyntaxErrors Trace :=
  (Program.parse source).map e.run

/-- The verdict on a submission. One with syntax errors fails without being run. -/
def validateStep (e : Engine) (source : String) (expectation : Expectation) : Verdict :=
  match e.runSource source with
  | .error errors => ⟨[], some (.badSource errors)⟩
  | .ok trace => expectation.judge trace

end Engine

end GlyphMachine
