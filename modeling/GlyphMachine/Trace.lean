import GlyphMachine.Budget
import GlyphMachine.Glyph
import GlyphMachine.Span

/-!
Traces: what a run printed and why it ended. A run that was cut short keeps what it had printed.
-/

namespace GlyphMachine

/-- Number of words the stack can hold, whatever the budget. -/
def stackCapacity : Nat := 4096

/-- What a program did that the machine cannot. -/
inductive FaultCause where
  | stackUnderflow (needed available : Nat)
  | stackOverflow
  | divideByZero
  | invalidJumpTarget (target size : Nat)
deriving DecidableEq, Repr

namespace FaultCause

def message : FaultCause → String
  | stackUnderflow needed available =>
    "stack underflow, " ++ toString needed ++ " value(s) needed but the stack holds "
      ++ toString available
  | stackOverflow =>
    "stack overflow, the stack holds at most " ++ toString stackCapacity ++ " values"
  | divideByZero => "division by zero"
  | invalidJumpTarget target size =>
    "jump target " ++ toString target ++ " is outside the program (last valid target is "
      ++ toString size ++ ")"

end FaultCause

/-- A fault, and the instruction that raised it. -/
structure Fault where
  cause : FaultCause
  pc : Nat
  opcode : Opcode
  span : Option Span
deriving DecidableEq, Repr

namespace Fault

def message (f : Fault) : String :=
  let place := match f.span with
    | some span => ", line " ++ toString span.line ++ ", column " ++ toString span.column
    | none => ""
  f.cause.message ++ " at " ++ f.opcode.glyph ++ " (instruction " ++ toString f.pc ++ place ++ ")"

end Fault

/-- How a run ended. -/
inductive Status where
  | halted
  | faulted (fault : Fault)
  | stopped (breach : Breach)
deriving DecidableEq, Repr

namespace Status

def isHalted : Status → Bool
  | halted => true
  | _ => false

def message : Status → String
  | halted => "halted"
  | faulted fault => "runtime error: " ++ fault.message
  | stopped breach => "stopped: " ++ breach.message

end Status

/-- The observable result of a run. -/
structure Trace where
  /-- printed lines, first to last -/
  output : List String
  status : Status
  /-- number of instructions executed -/
  executed : Nat
deriving DecidableEq, Repr

namespace Trace

/-- The printed lines as one text. -/
def text (t : Trace) : String :=
  "\n".intercalate t.output

end Trace

end GlyphMachine
