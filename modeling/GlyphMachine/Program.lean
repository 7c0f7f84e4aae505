import GlyphMachine.Instruction
import GlyphMachine.Span

/-!
Programs: instructions with the places of their glyphs, and the addresses of the labels. The
listing shows every label on a line above the instruction it addresses.
-/

namespace GlyphMachine

/-- An assembled program. -/
structure Program where
  code : Array (Located Instruction)
  /-- label names and addresses, ascending by name -/
  labels : List (String × Nat)
deriving DecidableEq

namespace Program

/-- The program without instructions. -/
def empty : Program := ⟨#[], []⟩

/-- Number of instructions. -/
def size (p : Program) : Nat :=
  p.code.size

/-- The instruction at an address. -/
def get? (p : Program) (address : Nat) : Option Instruction :=
  p.code[address]?.map (·.item)

/-- The place of the glyph of the instruction at an address. -/
def span? (p : Program) (address : Nat) : Option Span :=
  p.code[address]?.map (·.span)

/-- The instructions in order. -/
def instructions (p : Program) : List Instruction :=
  p.code.toList.map (·.item)

/-- The address of a label. -/
def address? (p : Program) (name : String) : Option Nat :=
  p.labels.lookup name

/-- The listing lines of the labels at an address. -/
def labelLines (labels : List (String × Nat)) (address : Nat) : List String :=
  (labels.filter (·.2 = address)).map fun (name, _) => name ++ ":"

/-- The listing line of an instruction. -/
def instructionLine (address : Nat) (i : Instruction) : String :=
  Text.padded 4 address ++ "    " ++ i.text

/-- The listing lines from an address on: the labels there, then the instruction there, if any. -/
def listingLines (labels : List (String × Nat)) (address : Nat) : List Instruction → List String
  | [] => labelLines labels address
  | i :: is =>
    labelLines labels address ++ instructionLine address i :: listingLines labels (address + 1) is

/-- The listing of a program. -/
def listing (p : Program) : String :=
  String.join ((listingLines p.labels 0 p.instructions).map (· ++ "\n"))

end Program

end GlyphMachine
