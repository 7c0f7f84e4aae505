import GlyphMachine.Instruction
import GlyphMachine.Machine.Output
import GlyphMachine.Machine.Stack
import GlyphMachine.Trace

/-!
The stack machine: its state between two instructions, and the effect of each instruction on it.
-/

namespace GlyphMachine

/-- State of the machine between two instructions. -/
structure Machine where
  pc : Nat
  stack : Stack
  output : Output
deriving DecidableEq

/-- What an instruction does to a run. -/
inductive Effect where
  | next (m : Machine)
  | halt
  | fault (cause : FaultCause)
  | breach (breach : Breach)
deriving DecidableEq

namespace Machine

/-- The machine before the first instruction. -/
def initial : Machine := ⟨0, .empty, .empty⟩

/-- On to the next instruction with another stack. -/
def advance (m : Machine) (stack : Stack) : Effect :=
  .next { m with pc := m.pc + 1, stack := stack }

/-- On to the next instruction with one more word on a stack. The budget's ceiling is enforced
where it lies below the capacity, the capacity itself otherwise. -/
def advancePush (m : Machine) (budget : Budget) (stack : Stack) (w : Word) : Effect :=
  if budget.maxStackDepth ≤ stack.depth ∧ budget.maxStackDepth < stackCapacity then
    .breach (.stackLimit budget.maxStackDepth)
  else if stackCapacity ≤ stack.depth then .fault .stackOverflow
  else m.advance (stack.push w)

/-- Too few words on the stack. -/
def underflow (m : Machine) (needed : Nat) : Effect :=
  .fault (.stackUnderflow needed m.stack.depth)

/-- On to the next instruction with one more printed line, if it fits. -/
def advancePrint (m : Machine) (budget : Budget) (stack : Stack) (line : String) : Effect :=
  if budget.maxOutputBytes < m.output.bytes + Output.cost line then
    .breach (.outputLimit budget.maxOutputBytes)
  else .next ⟨m.pc + 1, stack, m.output.print line⟩

/-- On to a jump target, which may lie just behind the last instruction. -/
def jumpTo (m : Machine) (size : Nat) (stack : Stack) (target : Nat) : Effect :=
  if size < target then .fault (.invalidJumpTarget target size)
  else .next { m with pc := target, stack := stack }

/-- The effect of one instruction in a program of the given size. -/
def exec (size : Nat) (budget : Budget) (m : Machine) : Instruction → Effect
  | .push value => m.advancePush budget m.stack value
  | .print =>
    match m.stack.pop? with
    | some (w, stack) => m.advancePrint budget stack w.text
    | none => m.underflow 1
  | .halt => .halt
  | .binary op =>
    match m.stack.popPair? with
    | some (a, b, stack) =>
      match op.eval? a b with
      | some w => m.advancePush budget stack w
      | none => .fault .divideByZero
    | none => m.underflow 2
  | .dup =>
    match m.stack.pop? with
    | some (w, _) => m.advancePush budget m.stack w
    | none => m.underflow 1
  | .swap =>
    match m.stack.popPair? with
    | some (a, b, stack) => m.advance ((stack.push b).push a)
    | none => m.underflow 2
  | .drop =>
    match m.stack.pop? with
    | some (_, stack) => m.advance stack
    | none => m.underflow 1
  | .jump target => m.jumpTo size m.stack target
  | .jumpIf target =>
    match m.stack.pop? with
    | some (w, stack) => if w = 0 then m.advance stack else m.jumpTo size stack target
    | none => m.underflow 1

end Machine

end GlyphMachine
