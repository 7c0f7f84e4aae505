import GlyphMachine.Glyph

/-!
Instructions: an opcode together with its operand. Jump targets are indices of instructions.
-/

namespace GlyphMachine

/-- One instruction of a program. -/
inductive Instruction where
  | push (value : Word)
  | print
  | halt
  | binary (op : BinaryOp)
  | dup
  | swap
  | drop
  | jump (target : Nat)
  | jumpIf (target : Nat)
deriving DecidableEq, Repr

/-- The operand of an instruction. -/
inductive Operand where
  | word (value : Word)
  | address (target : Nat)
deriving DecidableEq, Repr

namespace Operand

/-- The operand as listings show it: an address behind an at sign. -/
def text : Operand → String
  | word w => w.text
  | address a => "@" ++ toString a

end Operand

namespace Instruction

/-- The instruction of an opcode that takes no operand. -/
def nullary? : Opcode → Option Instruction
  | .print => some print
  | .halt => some halt
  | .binary op => some (binary op)
  | .dup => some dup
  | .swap => some swap
  | .drop => some drop
  | .push | .jump | .jumpIf => none

def opcode : Instruction → Opcode
  | push _ => .push
  | print => .print
  | halt => .halt
  | binary op => .binary op
  | dup => .dup
  | swap => .swap
  | drop => .drop
  | jump _ => .jump
  | jumpIf _ => .jumpIf

def operand? : Instruction → Option Operand
  | push value => some (.word value)
  | jump target | jumpIf target => some (.address target)
  | _ => none

/-- The instruction as listings show it. -/
def text (i : Instruction) : String :=
  match i.operand? with
  | some operand => i.opcode.glyph ++ " " ++ operand.text
  | none => i.opcode.glyph

/-- Exactly the opcodes without operand make an instruction on their own. -/
theorem nullary?_isSome_iff (o : Opcode) : (nullary? o).isSome ↔ o.arity = .none := by
  cases o <;> simp [nullary?, Opcode.arity]

end Instruction

end GlyphMachine
