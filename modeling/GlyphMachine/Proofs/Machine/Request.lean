import GlyphMachine.Machine

/-!
# Requests

Most of what an instruction does has nothing to do with the budget. `Request` is
that part: `Machine.request` says what the instruction asks for, and
`Request.grant` holds it against the ceilings of a budget. `exec_eq_grant` splits
`Machine.exec` into the two. Facts about one instruction are then facts about
requests (`Request.Sound` collects what every request keeps), and the effect of a
budget is the rules of `Request.Outcome`.
-/

namespace GlyphMachine

/-- What an instruction asks for, before any ceiling is held against it. -/
inductive Request where
  /-- to go on in this state -/
  | move (next : Machine)
  /-- to put the word on this stack and go on -/
  | push (stack : Stack) (w : Word)
  /-- to print the line and go on with this stack -/
  | print (stack : Stack) (line : String)
  | halt
  | fault (cause : FaultCause)

namespace Machine

/-- On to a target, if the program reaches that far. -/
def jumpRequest (m : Machine) (size : Nat) (stack : Stack) (target : Nat) : Request :=
  if size < target then .fault (.invalidJumpTarget target size)
  else .move { m with pc := target, stack := stack }

/-- What the instruction asks for in a program of the given size. -/
def request (size : Nat) (m : Machine) : Instruction → Request
  | .push value => .push m.stack value
  | .print =>
    match m.stack.pop? with
    | some (w, stack) => .print stack w.text
    | none => .fault (.stackUnderflow 1 m.stack.depth)
  | .halt => .halt
  | .binary op =>
    match m.stack.popPair? with
    | some (a, b, stack) =>
      match op.eval? a b with
      | some w => .push stack w
      | none => .fault .divideByZero
    | none => .fault (.stackUnderflow 2 m.stack.depth)
  | .dup =>
    match m.stack.pop? with
    | some (w, _) => .push m.stack w
    | none => .fault (.stackUnderflow 1 m.stack.depth)
  | .swap =>
    match m.stack.popPair? with
    | some (a, b, stack) => .move ⟨m.pc + 1, (stack.push b).push a, m.output⟩
    | none => .fault (.stackUnderflow 2 m.stack.depth)
  | .drop =>
    match m.stack.pop? with
    | some (_, stack) => .move ⟨m.pc + 1, stack, m.output⟩
    | none => .fault (.stackUnderflow 1 m.stack.depth)
  | .jump target => m.jumpRequest size m.stack target
  | .jumpIf target =>
    match m.stack.pop? with
    | some (w, stack) =>
      if w = 0 then .move ⟨m.pc + 1, stack, m.output⟩ else m.jumpRequest size stack target
    | none => .fault (.stackUnderflow 1 m.stack.depth)

end Machine

namespace Request

/-- What comes of a request under a budget. -/
def grant (budget : Budget) (m : Machine) : Request → Effect
  | move next => .next next
  | push stack w => m.advancePush budget stack w
  | print stack line => m.advancePrint budget stack line
  | halt => .halt
  | fault cause => .fault cause

/-! ## Instructions as granted requests -/

theorem grant_jumpRequest (budget : Budget) (m : Machine) (size : Nat) (stack : Stack)
    (target : Nat) :
    (m.jumpRequest size stack target).grant budget m = m.jumpTo size stack target := by
  unfold Machine.jumpRequest Machine.jumpTo
  split <;> rfl

/-- An instruction does what it asks for, as far as the budget grants it. -/
theorem exec_eq_grant (size : Nat) (budget : Budget) (m : Machine) (i : Instruction) :
    m.exec size budget i = (m.request size i).grant budget m := by
  cases i with
  | push => rfl
  | halt => rfl
  | jump target => exact (grant_jumpRequest budget m size m.stack target).symm
  | print | dup | drop =>
    rcases popped : m.stack.pop? with _ | ⟨w, stack⟩ <;>
      simp only [Machine.exec, Machine.request, popped] <;> rfl
  | swap =>
    rcases popped : m.stack.popPair? with _ | ⟨a, b, stack⟩ <;>
      simp only [Machine.exec, Machine.request, popped] <;> rfl
  | binary op =>
    rcases popped : m.stack.popPair? with _ | ⟨a, b, stack⟩
    · simp only [Machine.exec, Machine.request, popped]
      rfl
    · rcases value : op.eval? a b with _ | w <;>
        simp only [Machine.exec, Machine.request, popped, value] <;> rfl
  | jumpIf target =>
    rcases popped : m.stack.pop? with _ | ⟨w, stack⟩
    · simp only [Machine.exec, Machine.request, popped]
      rfl
    · simp only [Machine.exec, Machine.request, popped]
      split
      · rfl
      · exact (grant_jumpRequest budget m size stack target).symm

end Request

/-! ## Popping -/

namespace Stack

theorem depth_of_pop? {s rest : Stack} {w : Word} (popped : s.pop? = some (w, rest)) :
    s.depth = rest.depth + 1 := by
  rcases s with ⟨_ | ⟨v, cells⟩, depth, rfl⟩
  · cases popped
  · cases popped
    rfl

theorem depth_of_popPair? {s rest : Stack} {a b : Word} (popped : s.popPair? = some (a, b, rest)) :
    s.depth = rest.depth + 2 := by
  simp only [popPair?, Option.bind_eq_bind, Option.bind_eq_some_iff, Prod.exists] at popped
  obtain ⟨top, below, first, second, bottom, last, ⟨⟩⟩ := popped
  rw [depth_of_pop? first, depth_of_pop? last]

@[simp] theorem depth_push (s : Stack) (w : Word) : (s.push w).depth = s.depth + 1 := rfl

end Stack

/-! ## What a budget grants -/

section Ceilings

variable {budget : Budget} {m : Machine} {stack : Stack} {w : Word} {line : String}

theorem advancePush_of_room (room : stack.depth < min budget.maxStackDepth stackCapacity) :
    m.advancePush budget stack w = .next ⟨m.pc + 1, stack.push w, m.output⟩ := by
  rw [Machine.advancePush, if_neg (by omega), if_neg (by omega)]
  rfl

theorem advancePush_of_limit (full : budget.maxStackDepth ≤ stack.depth)
    (low : budget.maxStackDepth < stackCapacity) :
    m.advancePush budget stack w = .breach (.stackLimit budget.maxStackDepth) := by
  rw [Machine.advancePush, if_pos ⟨full, low⟩]

theorem advancePush_of_full (full : stackCapacity ≤ stack.depth)
    (high : stackCapacity ≤ budget.maxStackDepth) :
    m.advancePush budget stack w = .fault .stackOverflow := by
  rw [Machine.advancePush, if_neg (by omega), if_pos full]

/-- A stack has room, is at the ceiling of the budget, or is full. -/
theorem room_or_limit_or_full (budget : Budget) (stack : Stack) :
    stack.depth < min budget.maxStackDepth stackCapacity ∨
    budget.maxStackDepth ≤ stack.depth ∧ budget.maxStackDepth < stackCapacity ∨
    stackCapacity ≤ stack.depth ∧ stackCapacity ≤ budget.maxStackDepth := by
  omega

theorem advancePrint_of_room (room : m.output.bytes + Output.cost line ≤ budget.maxOutputBytes) :
    m.advancePrint budget stack line = .next ⟨m.pc + 1, stack, m.output.print line⟩ := by
  rw [Machine.advancePrint, if_neg (by omega)]

theorem advancePrint_of_limit (full : budget.maxOutputBytes < m.output.bytes + Output.cost line) :
    m.advancePrint budget stack line = .breach (.outputLimit budget.maxOutputBytes) := by
  rw [Machine.advancePrint, if_pos full]

end Ceilings

namespace Request

/-- What comes of a request, by rules. A push is held against the ceiling of the
budget where that is below the capacity of the stack, and against the capacity
otherwise. -/
inductive Outcome (budget : Budget) (m : Machine) : Request → Effect → Prop
  | move {next : Machine} : Outcome budget m (.move next) (.next next)
  | push {stack : Stack} {w : Word} : stack.depth < min budget.maxStackDepth stackCapacity →
    Outcome budget m (.push stack w) (.next ⟨m.pc + 1, stack.push w, m.output⟩)
  | print {stack : Stack} {line : String} :
    m.output.bytes + Output.cost line ≤ budget.maxOutputBytes →
    Outcome budget m (.print stack line) (.next ⟨m.pc + 1, stack, m.output.print line⟩)
  | halt : Outcome budget m .halt .halt
  | fault {cause : FaultCause} : Outcome budget m (.fault cause) (.fault cause)
  | stackOverflow {stack : Stack} {w : Word} : stackCapacity ≤ stack.depth →
    stackCapacity ≤ budget.maxStackDepth → Outcome budget m (.push stack w) (.fault .stackOverflow)
  | stackLimit {stack : Stack} {w : Word} : budget.maxStackDepth ≤ stack.depth →
    budget.maxStackDepth < stackCapacity →
    Outcome budget m (.push stack w) (.breach (.stackLimit budget.maxStackDepth))
  | outputLimit {stack : Stack} {line : String} :
    budget.maxOutputBytes < m.output.bytes + Output.cost line →
    Outcome budget m (.print stack line) (.breach (.outputLimit budget.maxOutputBytes))

theorem outcome_grant (budget : Budget) (m : Machine) (r : Request) :
    Outcome budget m r (r.grant budget m) := by
  cases r with
  | move next => exact .move
  | halt => exact .halt
  | fault cause => exact .fault
  | push stack w =>
    rw [grant]
    rcases room_or_limit_or_full budget stack with room | ⟨full, low⟩ | ⟨full, high⟩
    · rw [advancePush_of_room room]
      exact .push room
    · rw [advancePush_of_limit full low]
      exact .stackLimit full low
    · rw [advancePush_of_full full high]
      exact .stackOverflow full high
  | print stack line =>
    rw [grant]
    rcases Nat.lt_or_ge budget.maxOutputBytes (m.output.bytes + Output.cost line) with full | room
    · rw [advancePrint_of_limit full]
      exact .outputLimit full
    · rw [advancePrint_of_room room]
      exact .print room

theorem grant_eq_of_outcome {budget : Budget} {m : Machine} {r : Request} {effect : Effect}
    (outcome : Outcome budget m r effect) : r.grant budget m = effect := by
  cases outcome with
  | move | halt | fault => rfl
  | push room => exact advancePush_of_room room
  | print room => exact advancePrint_of_room room
  | stackOverflow full high => exact advancePush_of_full full high
  | stackLimit full low => exact advancePush_of_limit full low
  | outputLimit full => exact advancePrint_of_limit full

/-- The effect of an instruction is the outcome of what it asks for. -/
theorem exec_eq_iff {size : Nat} {budget : Budget} {m : Machine} {i : Instruction}
    {effect : Effect} :
    m.exec size budget i = effect ↔ Outcome budget m (m.request size i) effect := by
  rw [exec_eq_grant]
  constructor
  · intro granted
    rw [← granted]
    exact outcome_grant budget m _
  · exact grant_eq_of_outcome

end Request

/-! ## What every request keeps -/

namespace Request

/-- A request made at `m` in a program of the given size: it never leaves the
program, never grows the stack but by a push, prints numerals only and leaves it to
the stack to overflow. -/
def Sound (size : Nat) (m : Machine) : Request → Prop
  | move next => next.pc ≤ size ∧ next.stack.depth ≤ m.stack.depth ∧ next.output = m.output
  | push stack _ => stack.depth ≤ m.stack.depth
  | print stack line => stack.depth ≤ m.stack.depth ∧ ∃ w : Word, line = toString w.toInt
  | halt => True
  | fault cause => cause ≠ .stackOverflow

theorem jumpRequest_sound (m : Machine) (size : Nat) {stack : Stack} (target : Nat)
    (shallow : stack.depth ≤ m.stack.depth) : Sound size m (m.jumpRequest size stack target) := by
  unfold Machine.jumpRequest
  split
  · simp [Sound]
  · exact ⟨by dsimp only; omega, shallow, rfl⟩

theorem request_sound {size : Nat} {m : Machine} (inside : m.pc < size) (i : Instruction) :
    Sound size m (m.request size i) := by
  cases i with
  | push value => exact Nat.le_refl _
  | halt => trivial
  | jump target => exact jumpRequest_sound m size target (Nat.le_refl _)
  | print =>
    simp only [Machine.request]
    split
    · rename_i w stack popped
      have depth := Stack.depth_of_pop? popped
      exact ⟨by omega, w, rfl⟩
    · simp [Sound]
  | binary op =>
    simp only [Machine.request]
    split
    · rename_i a b stack popped
      have depth := Stack.depth_of_popPair? popped
      split
      · simp only [Sound]
        omega
      · simp [Sound]
    · simp [Sound]
  | dup =>
    simp only [Machine.request]
    split
    · exact Nat.le_refl _
    · simp [Sound]
  | swap =>
    simp only [Machine.request]
    split
    · rename_i a b stack popped
      have depth := Stack.depth_of_popPair? popped
      refine ⟨inside, ?_, rfl⟩
      simp only [Stack.depth_push]
      omega
    · simp [Sound]
  | drop =>
    simp only [Machine.request]
    split
    · rename_i w stack popped
      have depth := Stack.depth_of_pop? popped
      exact ⟨inside, by dsimp only; omega, rfl⟩
    · simp [Sound]
  | jumpIf target =>
    simp only [Machine.request]
    split
    · rename_i w stack popped
      have depth := Stack.depth_of_pop? popped
      split
      · exact ⟨inside, by dsimp only; omega, rfl⟩
      · exact jumpRequest_sound m size target (by omega)
    · simp [Sound]

variable {size : Nat} {budget : Budget} {m next : Machine} {r : Request}

theorem Outcome.pc_le (goes : Outcome budget m r (.next next)) (inside : m.pc < size)
    (sound : Sound size m r) : next.pc ≤ size := by
  cases goes with
  | move => exact sound.1
  | push | print => exact inside

/-- Only a push makes the stack deeper, and never beyond the ceilings. -/
theorem Outcome.depth_le (goes : Outcome budget m r (.next next)) (sound : Sound size m r) :
    next.stack.depth ≤ m.stack.depth ∨
      next.stack.depth ≤ min budget.maxStackDepth stackCapacity := by
  cases goes with
  | move => exact .inl sound.2.1
  | push room => exact .inr room
  | print => exact .inl sound.1

/-- A request leaves the output alone or prints one numeral that fits. -/
theorem Outcome.output_cases (goes : Outcome budget m r (.next next)) (sound : Sound size m r) :
    next.output = m.output ∨
      ∃ w : Word, next.output = m.output.print (toString w.toInt) ∧
        next.output.bytes ≤ budget.maxOutputBytes := by
  cases goes with
  | move => exact .inl sound.2.2
  | push => exact .inl rfl
  | print room =>
    obtain ⟨-, w, rfl⟩ := sound
    exact .inr ⟨w, rfl, room⟩

/-- A request that runs into a ceiling names the one in the budget. -/
theorem Outcome.breach_cases {breach : Breach} (breached : Outcome budget m r (.breach breach)) :
    breach = .stackLimit budget.maxStackDepth ∧ budget.maxStackDepth < stackCapacity ∨
      breach = .outputLimit budget.maxOutputBytes := by
  cases breached with
  | stackLimit _ low => exact .inl ⟨rfl, low⟩
  | outputLimit => exact .inr rfl

/-- The stack overflows only where the budget would have allowed more. -/
theorem Outcome.capacity_le (overflows : Outcome budget m r (.fault .stackOverflow))
    (sound : Sound size m r) : stackCapacity ≤ budget.maxStackDepth := by
  cases overflows with
  | fault => exact absurd rfl sound
  | stackOverflow _ high => exact high

end Request

end GlyphMachine
