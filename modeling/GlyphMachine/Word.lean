import GlyphMachine.Text.Decimal

/-!
Machine words: signed 64-bit integers with wrapping arithmetic, their numerals, and the binary
operators of the machine.
-/

namespace GlyphMachine

/-- A machine word. -/
abbrev Word := Int64

namespace Word

/-- Width of a word in bits. -/
def bits : Nat := 64

/-- The least word, minus two to the sixty-third. -/
def least : Int := -9223372036854775808

/-- The greatest word, one less than two to the sixty-third. -/
def greatest : Int := 9223372036854775807

/-- The word of an integer in range. -/
def ofInt? (i : Int) : Option Word :=
  if least ≤ i ∧ i ≤ greatest then some (.ofInt i) else none

/-- The word written as a signed decimal numeral, if it is one in range. -/
def ofText? (cs : List Char) : Option Word :=
  (Text.integer? cs).bind ofInt?

/-- The decimal numeral of a word. -/
def text (w : Word) : String :=
  toString w.toInt

/-- The word that stands for a truth value. -/
def ofBool (b : Bool) : Word :=
  if b then 1 else 0

end Word

/-- Operators that take two words and give one. -/
inductive BinaryOp where
  | add
  | sub
  | mul
  | div
  | mod
  | eq
  | lt
  | gt
deriving DecidableEq, Repr

namespace BinaryOp

/-- Value of the operator: arithmetic wraps, division truncates toward zero, the remainder has the
sign of the left operand, a comparison gives one or zero. There is none for division by zero. -/
def eval? : BinaryOp → Word → Word → Option Word
  | add, a, b => some (a + b)
  | sub, a, b => some (a - b)
  | mul, a, b => some (a * b)
  | div, a, b => if b = 0 then none else some (a / b)
  | mod, a, b => if b = 0 then none else some (a % b)
  | eq, a, b => some (Word.ofBool (a = b))
  | lt, a, b => some (Word.ofBool (a < b))
  | gt, a, b => some (Word.ofBool (b < a))

end BinaryOp

end GlyphMachine
