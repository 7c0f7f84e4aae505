/-!
Budgets: ceilings on what one run may use, and the breach that ends a run at a ceiling. Times are
in microseconds.
-/

namespace GlyphMachine

/-- Ceilings for one run. -/
structure Budget where
  maxInstructions : Nat
  timeLimit : Nat
  maxStackDepth : Nat
  /-- bytes of output, counting one line break for each printed line -/
  maxOutputBytes : Nat
deriving DecidableEq, Repr

namespace Budget

/-- Microseconds in a millisecond. -/
def millisecond : Nat := 1000

/-- Generous for a lesson program, and soon over for one that loops. -/
def standard : Budget where
  maxInstructions := 100000
  timeLimit := 250 * millisecond
  maxStackDepth := 1024
  maxOutputBytes := 64 * 1024

end Budget

/-- Which ceiling a run has reached, with its value. -/
inductive Breach where
  | instructionLimit (limit : Nat)
  | timeLimit (limit : Nat)
  | stackLimit (limit : Nat)
  | outputLimit (limit : Nat)
deriving DecidableEq, Repr

namespace Breach

/-- Name of the ceiling in log records. -/
def name : Breach → String
  | instructionLimit _ => "InstructionLimit"
  | timeLimit _ => "TimeLimit"
  | stackLimit _ => "StackLimit"
  | outputLimit _ => "OutputLimit"

/-- A time limit is shown in whole milliseconds. -/
def message : Breach → String
  | instructionLimit limit => "your program ran more than " ++ toString limit ++ " instructions"
  | timeLimit limit =>
    "your program ran longer than " ++ toString (limit / Budget.millisecond) ++ " ms"
  | stackLimit limit => "your program used more than " ++ toString limit ++ " stack slots"
  | outputLimit limit => "your program printed more than " ++ toString limit ++ " bytes"

end Breach

end GlyphMachine
