import GlyphMachine.Proofs.Machine.Sandbox

/-!
# Errors of a step

Which errors an instruction can raise, and exactly when. `Machine.Asks` gives the request
of an instruction by rules: one for all instructions that find too few words, and one or
more for each that finds enough of them (`asks_request`). Every kind of error is then a
look at these rules and at the ceilings of the budget. That no operator overflows the
stack is left to the depth of reached configurations (`Reached.sandboxed`), since its
result takes less room than its operands did.
-/

namespace GlyphMachine

/-- Number of words that the instruction takes from the stack. -/
def Instruction.operands : Instruction → Nat
  | push _ | halt | jump _ => 0
  | print | dup | drop | jumpIf _ => 1
  | binary _ | swap => 2

/-! ## The words on the stack -/

namespace Stack

variable {s rest : Stack} {a b w : Word}

/-- The top word. -/
def top? (s : Stack) : Option Word :=
  s.cells.head?

theorem top?_of_pop? (popped : s.pop? = some (w, rest)) : s.top? = some w := by
  rcases s with ⟨_ | ⟨v, cells⟩, depth, rfl⟩
  · cases popped
  · cases popped
    rfl

theorem top?_of_popPair? (popped : s.popPair? = some (a, b, rest)) : s.top? = some b := by
  simp only [popPair?, Option.bind_eq_bind, Option.bind_eq_some_iff, Prod.exists] at popped
  obtain ⟨top, below, first, second, bottom, last, ⟨⟩⟩ := popped
  exact top?_of_pop? first

/-- Two words are there unless the stack holds fewer. -/
theorem depth_lt_of_popPair?_eq_none (missing : s.popPair? = none) : s.depth < 2 := by
  rcases s with ⟨_ | ⟨v, _ | ⟨w, cells⟩⟩, depth, rfl⟩
  · exact Nat.zero_lt_two
  · exact Nat.one_lt_two
  · cases missing

end Stack

/-- Division and remainder have no value for a divisor of zero. -/
theorem BinaryOp.eval?_eq_none_iff {op : BinaryOp} {a b : Word} :
    op.eval? a b = none ↔ (op = .div ∨ op = .mod) ∧ b = 0 := by
  cases op <;> simp [eval?]

/-! ## The rules of requests -/

/-- What an instruction asks for. -/
inductive Machine.Asks (size : Nat) (m : Machine) : Instruction → Request → Prop
  | underflow {i : Instruction} (few : m.stack.depth < i.operands) :
    Asks size m i (.fault (.stackUnderflow i.operands m.stack.depth))
  | push {value : Word} : Asks size m (.push value) (.push m.stack value)
  | print {w : Word} {rest : Stack} (popped : m.stack.pop? = some (w, rest)) :
    Asks size m .print (.print rest w.text)
  | halt : Asks size m .halt .halt
  | result {op : BinaryOp} {a b w : Word} {rest : Stack}
    (popped : m.stack.popPair? = some (a, b, rest)) (value : op.eval? a b = some w) :
    Asks size m (.binary op) (.push rest w)
  | divideByZero {op : BinaryOp} {a b : Word} {rest : Stack}
    (popped : m.stack.popPair? = some (a, b, rest)) (undefined : op.eval? a b = none) :
    Asks size m (.binary op) (.fault .divideByZero)
  | dup {w : Word} {rest : Stack} (popped : m.stack.pop? = some (w, rest)) :
    Asks size m .dup (.push m.stack w)
  | swap {a b : Word} {rest : Stack} (popped : m.stack.popPair? = some (a, b, rest)) :
    Asks size m .swap (.move ⟨m.pc + 1, (rest.push b).push a, m.output⟩)
  | drop {w : Word} {rest : Stack} (popped : m.stack.pop? = some (w, rest)) :
    Asks size m .drop (.move ⟨m.pc + 1, rest, m.output⟩)
  | jump {target : Nat} (inside : ¬ size < target) :
    Asks size m (.jump target) (.move ⟨target, m.stack, m.output⟩)
  | jumpOut {target : Nat} (outside : size < target) :
    Asks size m (.jump target) (.fault (.invalidJumpTarget target size))
  | stay {target : Nat} {w : Word} {rest : Stack} (popped : m.stack.pop? = some (w, rest))
    (zero : w = 0) : Asks size m (.jumpIf target) (.move ⟨m.pc + 1, rest, m.output⟩)
  | jumpIf {target : Nat} {w : Word} {rest : Stack} (popped : m.stack.pop? = some (w, rest))
    (truthy : w ≠ 0) (inside : ¬ size < target) :
    Asks size m (.jumpIf target) (.move ⟨target, rest, m.output⟩)
  | jumpIfOut {target : Nat} {w : Word} {rest : Stack} (popped : m.stack.pop? = some (w, rest))
    (truthy : w ≠ 0) (outside : size < target) :
    Asks size m (.jumpIf target) (.fault (.invalidJumpTarget target size))

/-- The instruction has its words and adds one to a stack that has reached the lower of
its ceilings. -/
def Machine.PushesBeyond (budget : Budget) (m : Machine) (i : Instruction) : Prop :=
  i.operands ≤ m.stack.depth ∧ ((∃ value, i = .push value) ∨ i = .dup) ∧
    m.stack.depth = min budget.maxStackDepth stackCapacity

namespace Machine

variable {size needed available target limit : Nat} {m : Machine} {i : Instruction} {r : Request}

theorem Asks.of_pop?_eq_none (one : i.operands = 1) (missing : m.stack.pop? = none) :
    m.Asks size i (.fault (.stackUnderflow 1 m.stack.depth)) := by
  rw [← one]
  apply Asks.underflow
  rw [one, Stack.pop?_eq_none_iff.mp missing]
  exact Nat.one_pos

theorem Asks.of_popPair?_eq_none (two : i.operands = 2) (missing : m.stack.popPair? = none) :
    m.Asks size i (.fault (.stackUnderflow 2 m.stack.depth)) := by
  rw [← two]
  apply Asks.underflow
  rw [two]
  exact Stack.depth_lt_of_popPair?_eq_none missing

/-- The rules give the request of every instruction. -/
theorem asks_request (size : Nat) (m : Machine) (i : Instruction) :
    m.Asks size i (m.request size i) := by
  cases i with
  | push value => exact .push
  | halt => exact .halt
  | jump target =>
    rw [request, jumpRequest]
    split
    case isTrue outside => exact .jumpOut outside
    case isFalse inside => exact .jump inside
  | print =>
    rw [request]
    split
    case h_1 w rest popped => exact .print popped
    case h_2 missing => exact .of_pop?_eq_none rfl missing
  | dup =>
    rw [request]
    split
    case h_1 w rest popped => exact .dup popped
    case h_2 missing => exact .of_pop?_eq_none rfl missing
  | drop =>
    rw [request]
    split
    case h_1 w rest popped => exact .drop popped
    case h_2 missing => exact .of_pop?_eq_none rfl missing
  | swap =>
    rw [request]
    split
    case h_1 a b rest popped => exact .swap popped
    case h_2 missing => exact .of_popPair?_eq_none rfl missing
  | binary op =>
    rw [request]
    split
    case h_1 a b rest popped =>
      split
      case h_1 w value => exact .result popped value
      case h_2 undefined => exact .divideByZero popped undefined
    case h_2 missing => exact .of_popPair?_eq_none rfl missing
  | jumpIf target =>
    rw [request]
    split
    case h_1 w rest popped =>
      split
      case isTrue zero => exact .stay popped zero
      case isFalse truthy =>
        rw [jumpRequest]
        split
        case isTrue outside => exact .jumpIfOut popped truthy outside
        case isFalse inside => exact .jumpIf popped truthy inside
    case h_2 missing => exact .of_pop?_eq_none rfl missing

namespace Asks

/-- An instruction that finds the words it takes asks for no underflow. -/
theorem eq_underflow_iff (asks : m.Asks size i r) :
    r = .fault (.stackUnderflow needed available) ↔
      m.stack.depth < i.operands ∧ needed = i.operands ∧ available = m.stack.depth := by
  cases asks with
  | underflow few => simp [few, eq_comm]
  | push | halt | jump | jumpOut => simp [Instruction.operands]
  | print popped | dup popped | drop popped | stay popped | jumpIf popped | jumpIfOut popped =>
    simp [Instruction.operands, Stack.depth_of_pop? popped]
  | result popped | divideByZero popped | swap popped =>
    have enough := Stack.depth_of_popPair? popped
    simp only [Instruction.operands, reduceCtorEq, Request.fault.injEq, false_iff]
    omega

/-- Only a division and a remainder by zero ask for a division by zero. -/
theorem eq_divideByZero_iff (asks : m.Asks size i r) :
    r = .fault .divideByZero ↔
      i.operands ≤ m.stack.depth ∧ (i = .binary .div ∨ i = .binary .mod) ∧
        m.stack.top? = some 0 := by
  cases asks with
  | underflow few => simp [Nat.not_le.mpr few]
  | push | print | halt | dup | swap | drop | jump | jumpOut | stay | jumpIf | jumpIfOut => simp
  | @result op a b w rest popped value =>
    have defined : ¬ ((op = .div ∨ op = .mod) ∧ b = 0) := by
      rw [← BinaryOp.eval?_eq_none_iff, value]
      exact Option.some_ne_none w
    simp only [reduceCtorEq, Instruction.binary.injEq, Stack.top?_of_popPair? popped,
      Option.some.injEq, defined, and_false]
  | divideByZero popped undefined =>
    obtain ⟨division, rfl⟩ := BinaryOp.eval?_eq_none_iff.mp undefined
    simp [Instruction.operands, Stack.depth_of_popPair? popped, Stack.top?_of_popPair? popped,
      division]

/-- Only a jump that is taken asks for a target beyond the program. -/
theorem eq_invalidJumpTarget_iff (asks : m.Asks size i r) :
    r = .fault (.invalidJumpTarget target limit) ↔
      i.operands ≤ m.stack.depth ∧
        (i = .jump target ∨ i = .jumpIf target ∧ m.stack.top? ≠ some 0) ∧
        size < target ∧ limit = size := by
  have beyond {address : Nat} (outside : size < address) :
      address = target ∧ size = limit ↔ address = target ∧ size < target ∧ limit = size := by
    constructor
    · intro same
      exact ⟨same.1, same.1 ▸ outside, same.2.symm⟩
    · intro same
      exact ⟨same.1, same.2.2.symm⟩
  have within {address : Nat} (inside : ¬ size < address) (same : address = target) :
      ¬ size < target := same ▸ inside
  cases asks with
  | underflow few => simp [Nat.not_le.mpr few]
  | push | print | halt | result | divideByZero | dup | swap | drop => simp
  | jump inside =>
    simp only [reduceCtorEq, Instruction.jump.injEq, false_and, or_false, false_iff]
    exact fun conditions => within inside conditions.2.1 conditions.2.2.1
  | jumpOut outside => simp [Instruction.operands, beyond outside]
  | stay popped zero => simp [Stack.top?_of_pop? popped, zero]
  | jumpIf popped truthy inside =>
    simp only [reduceCtorEq, Instruction.jumpIf.injEq, false_or, false_iff]
    exact fun conditions => within inside conditions.2.1.1 conditions.2.2.1
  | jumpIfOut popped truthy outside =>
    simp [Instruction.operands, Stack.depth_of_pop? popped, Stack.top?_of_pop? popped, truthy,
      beyond outside]

/-- Where the stack keeps to its ceilings, only a push and a copy of the top ask for a word
on a stack that has reached them: the result of an operator takes less room than its
operands. -/
theorem exists_push_iff {budget : Budget}
    (within : m.stack.depth ≤ min budget.maxStackDepth stackCapacity) (asks : m.Asks size i r) :
    (∃ stack w, r = .push stack w ∧ min budget.maxStackDepth stackCapacity ≤ stack.depth) ↔
      m.PushesBeyond budget i := by
  unfold PushesBeyond
  generalize min budget.maxStackDepth stackCapacity = ceiling at within ⊢
  have reached : ceiling ≤ m.stack.depth ↔ m.stack.depth = ceiling :=
    ⟨Nat.le_antisymm within, fun same => Nat.le_of_eq same.symm⟩
  cases asks with
  | underflow few => simp [Nat.not_le.mpr few]
  | print | halt | divideByZero | swap | drop | jump | jumpOut | stay | jumpIf | jumpIfOut => simp
  | push => simp [Instruction.operands, reached]
  | dup popped =>
    have enough : 1 ≤ m.stack.depth := by
      rw [Stack.depth_of_pop? popped]
      exact Nat.le_add_left 1 _
    simp [Instruction.operands, reached, enough]
  | @result _ _ _ _ rest popped =>
    have room : ¬ ceiling ≤ rest.depth := by
      have taken := Stack.depth_of_popPair? popped
      omega
    simp [and_assoc, room]

/-- Only a print asks to print, and what it prints is the word on top. -/
theorem exists_print_iff {P : String → Prop} (asks : m.Asks size i r) :
    (∃ stack line, r = .print stack line ∧ P line) ↔
      i.operands ≤ m.stack.depth ∧ i = .print ∧ ∃ w, m.stack.top? = some w ∧ P w.text := by
  cases asks with
  | underflow few => simp [Nat.not_le.mpr few]
  | push | halt | result | divideByZero | dup | swap | drop | jump | jumpOut | stay | jumpIf
  | jumpIfOut => simp
  | print popped =>
    simp [Instruction.operands, Stack.depth_of_pop? popped, Stack.top?_of_pop? popped, and_assoc]

end Asks

end Machine

/-! ## What the budget adds -/

namespace Request

variable {budget : Budget} {m : Machine} {r : Request}

/-- A fault comes from the instruction itself, or a push finds the stack full. -/
theorem outcome_fault_iff {cause : FaultCause} :
    Outcome budget m r (.fault cause) ↔ r = .fault cause ∨
      cause = .stackOverflow ∧ stackCapacity ≤ budget.maxStackDepth ∧
        ∃ stack w, r = .push stack w ∧
          min budget.maxStackDepth stackCapacity ≤ stack.depth := by
  constructor
  · intro outcome
    cases outcome with
    | fault => exact .inl rfl
    | stackOverflow full high => exact .inr ⟨rfl, high, _, _, rfl, by omega⟩
  · intro conditions
    obtain rfl | ⟨rfl, high, stack, w, rfl, full⟩ := conditions
    · exact .fault
    · exact .stackOverflow (by omega) high

/-- A push runs into the ceiling of the budget where that is below the capacity. -/
theorem outcome_stackLimit_iff {limit : Nat} :
    Outcome budget m r (.breach (.stackLimit limit)) ↔
      limit = budget.maxStackDepth ∧ budget.maxStackDepth < stackCapacity ∧
        ∃ stack w, r = .push stack w ∧
          min budget.maxStackDepth stackCapacity ≤ stack.depth := by
  constructor
  · intro outcome
    cases outcome with
    | stackLimit full low => exact ⟨rfl, low, _, _, rfl, by omega⟩
  · intro conditions
    obtain ⟨rfl, low, stack, w, rfl, full⟩ := conditions
    exact .stackLimit (by omega) low

/-- A print runs into the ceiling of the budget where its line is too long. -/
theorem outcome_outputLimit_iff {limit : Nat} :
    Outcome budget m r (.breach (.outputLimit limit)) ↔
      limit = budget.maxOutputBytes ∧ ∃ stack line, r = .print stack line ∧
        budget.maxOutputBytes < m.output.bytes + Output.cost line := by
  constructor
  · intro outcome
    cases outcome with
    | outputLimit full => exact ⟨rfl, _, _, rfl, full⟩
  · intro conditions
    obtain ⟨rfl, stack, line, rfl, full⟩ := conditions
    exact .outputLimit full

end Request

/-! ## Errors of a tick -/

namespace Tick

/-- The fault that ends the run. -/
def cause? : Tick → Option FaultCause
  | done ⟨_, .faulted fault, _⟩ => some fault.cause
  | done _ | go _ => none

/-- The ceiling at which the run ends. -/
def breach? : Tick → Option Breach
  | done ⟨_, .stopped breach, _⟩ => some breach
  | done _ | go _ => none

end Tick

section Ticks

variable {job : Job} {elapsed : Nat} {c : Configuration} {i : Instruction} {meter : Meter}

theorem Configuration.cause?_tick (fetched : job.program.get? c.machine.pc = some i)
    (charged : c.meter.charge job.budget elapsed = .ok meter) {cause : FaultCause} :
    (c.tick job elapsed).cause? = some cause ↔
      Request.Outcome job.budget c.machine (c.machine.request job.program.size i)
        (.fault cause) := by
  rw [← Request.exec_eq_iff, tick]
  simp only [fetched, charged]
  rcases c.machine.exec job.program.size job.budget i with next | _ | cause | breach <;>
    simp [Tick.cause?, Configuration.finish]

/-- All faults but a full stack are what the instruction asks for. -/
theorem Configuration.cause?_tick_eq_request (c : Configuration)
    (fetched : job.program.get? c.machine.pc = some i)
    (charged : c.meter.charge job.budget elapsed = .ok meter) {cause : FaultCause}
    (other : cause ≠ .stackOverflow) :
    (c.tick job elapsed).cause? = some cause ↔
      c.machine.request job.program.size i = .fault cause := by
  rw [cause?_tick fetched charged, Request.outcome_fault_iff]
  simp only [other, false_and, or_false]

theorem Configuration.breach?_tick (fetched : job.program.get? c.machine.pc = some i)
    (charged : c.meter.charge job.budget elapsed = .ok meter) {breach : Breach} :
    (c.tick job elapsed).breach? = some breach ↔
      Request.Outcome job.budget c.machine (c.machine.request job.program.size i)
        (.breach breach) := by
  rw [← Request.exec_eq_iff, tick]
  simp only [fetched, charged]
  rcases c.machine.exec job.program.size job.budget i with next | _ | cause | breach <;>
    simp [Tick.breach?, Configuration.finish]

end Ticks

/-- The tick at the instruction `i` ends the run with an error exactly where it should. An
instruction that finds too few words underflows. One that finds enough divides by zero,
leaves the program, pushes beyond a ceiling or prints more than is left, if it is of that
kind. Whatever ends the run leaves the printed lines as they are. -/
structure RaisesErrors (job : Job) (c : Configuration) (i : Instruction) (t : Tick) : Prop where
  stackUnderflow : ∀ needed available,
    t.cause? = some (.stackUnderflow needed available) ↔
      c.machine.stack.depth < i.operands ∧ needed = i.operands ∧
        available = c.machine.stack.depth
  divideByZero : t.cause? = some .divideByZero ↔
    i.operands ≤ c.machine.stack.depth ∧ (i = .binary .div ∨ i = .binary .mod) ∧
      c.machine.stack.top? = some 0
  invalidJumpTarget : ∀ target size,
    t.cause? = some (.invalidJumpTarget target size) ↔
      i.operands ≤ c.machine.stack.depth ∧
        (i = .jump target ∨ i = .jumpIf target ∧ c.machine.stack.top? ≠ some 0) ∧
        job.program.size < target ∧ size = job.program.size
  stackOverflow : t.cause? = some .stackOverflow ↔
    stackCapacity ≤ job.budget.maxStackDepth ∧ c.machine.PushesBeyond job.budget i
  stackLimit : ∀ limit, t.breach? = some (.stackLimit limit) ↔
    limit = job.budget.maxStackDepth ∧ job.budget.maxStackDepth < stackCapacity ∧
      c.machine.PushesBeyond job.budget i
  outputLimit : ∀ limit, t.breach? = some (.outputLimit limit) ↔
    limit = job.budget.maxOutputBytes ∧ i.operands ≤ c.machine.stack.depth ∧ i = .print ∧
      ∃ w : Word, c.machine.stack.top? = some w ∧
        job.budget.maxOutputBytes - printedBytes c.machine.output.lines <
          w.text.utf8ByteSize + 1
  output_eq : ∀ trace, t = .done trace → trace.output = c.machine.output.lines

/-- In every configuration that a run reaches, an instruction that is charged raises
exactly the errors that it should, with what they say, and none of them changes what was
printed. -/
theorem step_errors_are_exact {job : Job} {clock : Clock} {elapsed : Nat} {c : Configuration}
    {i : Instruction} {meter : Meter} (reached : Reached job clock c)
    (fetched : job.program.get? c.machine.pc = some i)
    (charged : c.meter.charge job.budget elapsed = .ok meter) :
    RaisesErrors job c i (c.tick job elapsed) := by
  have asks := c.machine.asks_request job.program.size i
  have sandboxed := reached.sandboxed
  have sound := Request.request_sound (Program.lt_size_of_get? fetched) i
  have pushes := asks.exists_push_iff sandboxed.depth_le
  refine ⟨?_, ?_, ?_, ?_, ?_, ?_, ?_⟩
  · intro needed available
    exact (c.cause?_tick_eq_request fetched charged (by simp)).trans asks.eq_underflow_iff
  · exact (c.cause?_tick_eq_request fetched charged (by simp)).trans asks.eq_divideByZero_iff
  · intro target size
    exact (c.cause?_tick_eq_request fetched charged (by simp)).trans asks.eq_invalidJumpTarget_iff
  · have other : c.machine.request job.program.size i ≠ .fault .stackOverflow := by
      intro asked
      rw [asked] at sound
      exact sound rfl
    rw [Configuration.cause?_tick fetched charged, Request.outcome_fault_iff, pushes]
    simp only [other, false_or, true_and]
  · intro limit
    rw [Configuration.breach?_tick fetched charged, Request.outcome_stackLimit_iff, pushes]
  · intro limit
    have remaining (w : Word) :
        job.budget.maxOutputBytes < c.machine.output.bytes + Output.cost w.text ↔
          job.budget.maxOutputBytes - printedBytes c.machine.output.lines <
            w.text.utf8ByteSize + 1 := by
      have counted := sandboxed.bytes_eq
      have within := sandboxed.bytes_le
      rw [Output.cost]
      omega
    rw [Configuration.breach?_tick fetched charged, Request.outcome_outputLimit_iff,
      asks.exists_print_iff]
    simp only [remaining]
  · intro trace ended
    exact (Configuration.tick_eq_done_iff.mp ended).output_eq

/-- Pushes a word and copies it. -/
def pushAndCopy : Program where
  code := #[⟨.push 7, ⟨0, 4, 1, 1⟩⟩, ⟨.dup, ⟨7, 11, 1, 5⟩⟩]
  labels := []

/-- The copy does not fit on a stack of one word. -/
theorem step_errors_are_exact_full_stack :
    ∃ c, Reached ⟨pushAndCopy, ⟨9, 1, 1, 9⟩⟩ .stopped c ∧
      pushAndCopy.get? c.machine.pc = some .dup ∧ c.machine.stack.depth = 1 ∧
      RaisesErrors ⟨pushAndCopy, ⟨9, 1, 1, 9⟩⟩ c .dup
        (c.tick ⟨pushAndCopy, ⟨9, 1, 1, 9⟩⟩ 0) ∧
      (c.tick ⟨pushAndCopy, ⟨9, 1, 1, 9⟩⟩ 0).breach? = some (.stackLimit 1) := by
  have reached : Reached ⟨pushAndCopy, ⟨9, 1, 1, 9⟩⟩ .stopped
      ⟨⟨1, 8⟩, ⟨1, .ofCells [7], .empty⟩⟩ :=
    .step .start (by decide +kernel)
  have errors : RaisesErrors ⟨pushAndCopy, ⟨9, 1, 1, 9⟩⟩ ⟨⟨1, 8⟩, ⟨1, .ofCells [7], .empty⟩⟩ .dup
      (Configuration.tick ⟨pushAndCopy, ⟨9, 1, 1, 9⟩⟩ 0 ⟨⟨1, 8⟩, ⟨1, .ofCells [7], .empty⟩⟩) :=
    step_errors_are_exact reached rfl rfl
  refine ⟨_, reached, rfl, rfl, errors, ?_⟩
  exact (errors.stackLimit 1).mpr ⟨rfl, by decide, by decide, .inr rfl, by decide⟩

end GlyphMachine
