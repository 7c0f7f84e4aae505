import GlyphMachine.Word

/-!
The operand stack.
-/

namespace GlyphMachine

/-- The operand stack, top first, with its depth at hand. -/
structure Stack where
  cells : List Word
  depth : Nat
  depth_eq : depth = cells.length
deriving DecidableEq

namespace Stack

/-- The empty stack. -/
def empty : Stack := ⟨[], 0, rfl⟩

/-- The stack of the given words, top first. -/
def ofCells (cells : List Word) : Stack := ⟨cells, cells.length, rfl⟩

/-- The stack with one more word on top. -/
def push (s : Stack) (w : Word) : Stack :=
  ⟨w :: s.cells, s.depth + 1, by simp [s.depth_eq]⟩

/-- The top word and the stack below it. -/
def pop? : Stack → Option (Word × Stack)
  | ⟨[], _, _⟩ => none
  | ⟨w :: cells, depth, h⟩ => some (w, ⟨cells, depth - 1, by simp [h]⟩)

/-- The word below the top, the top word, and the stack below both. -/
def popPair? (s : Stack) : Option (Word × Word × Stack) := do
  let (b, s) ← s.pop?
  let (a, s) ← s.pop?
  return (a, b, s)

@[simp] theorem pop?_push (s : Stack) (w : Word) : (s.push w).pop? = some (w, s) := by
  rcases s with ⟨cells, depth, h⟩
  rfl

@[simp] theorem popPair?_push_push (s : Stack) (a b : Word) :
    ((s.push a).push b).popPair? = some (a, b, s) := by
  simp [popPair?]

/-- Only the empty stack has no top word. -/
theorem pop?_eq_none_iff {s : Stack} : s.pop? = none ↔ s.depth = 0 := by
  rcases s with ⟨_ | ⟨w, cells⟩, depth, rfl⟩ <;> simp [pop?]

end Stack

end GlyphMachine
