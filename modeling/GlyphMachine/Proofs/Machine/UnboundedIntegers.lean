import GlyphMachine.Proofs.Machine.StepErrors
import Mathlib.Data.Int.ModEq
import Mathlib.Data.List.Forall2

/-!
# Words as integers modulo the word size

A program that only pushes, adds, subtracts, multiplies, moves words about and prints
computes what a machine of unbounded integers computes, modulo two to the sixty-fourth.
`IntegerMachine` is that machine and knows no ceiling. `Machine.Agrees` relates the two
between instructions; `Agrees.step` keeps it over one instruction, and
`Reached.agrees` over a run. A word wraps around any number of times on the way, since
only the class of each entry is kept.
-/

namespace GlyphMachine

/-! ## A machine of unbounded integers -/

/-- Operators that words share with the integers. -/
inductive RingOp where
  | add
  | sub
  | mul
deriving DecidableEq

namespace RingOp

/-- The operator on words. -/
def binary : RingOp → BinaryOp
  | add => .add
  | sub => .sub
  | mul => .mul

/-- The operator on integers. -/
def eval : RingOp → Int → Int → Int
  | add, x, y => x + y
  | sub, x, y => x - y
  | mul, x, y => x * y

end RingOp

/-- Instructions that compute with these operators only, and do not jump. -/
inductive RingInstruction where
  | push (value : Word)
  | compute (op : RingOp)
  | dup
  | swap
  | drop
  | print
deriving DecidableEq

/-- The instruction of the machine. -/
def RingInstruction.instruction : RingInstruction → Instruction
  | push value => .push value
  | compute op => .binary op.binary
  | dup => .dup
  | swap => .swap
  | drop => .drop
  | print => .print

/-- State of a machine of unbounded integers: its stack, top first, and what it has
printed, first to last. -/
structure IntegerMachine where
  stack : List Int
  printed : List Int
deriving DecidableEq

namespace IntegerMachine

/-- The machine before the first instruction. -/
def initial : IntegerMachine := ⟨[], []⟩

/-- The machine after an instruction, unless its stack underflows. -/
def step? : IntegerMachine → RingInstruction → Option IntegerMachine
  | ⟨s, out⟩, .push value => some ⟨value.toInt :: s, out⟩
  | ⟨y :: x :: s, out⟩, .compute op => some ⟨op.eval x y :: s, out⟩
  | ⟨x :: s, out⟩, .dup => some ⟨x :: x :: s, out⟩
  | ⟨y :: x :: s, out⟩, .swap => some ⟨x :: y :: s, out⟩
  | ⟨_ :: s, out⟩, .drop => some ⟨s, out⟩
  | ⟨x :: s, out⟩, .print => some ⟨s, out ++ [x]⟩
  | _, _ => none

/-- The machine after some instructions, unless one of them underflows. -/
def run? (m : IntegerMachine) (is : List RingInstruction) : Option IntegerMachine :=
  is.foldlM step? m

/-- The instruction with this number is the one that underflows. -/
def UnderflowsAt (is : List RingInstruction) (n : Nat) : Prop :=
  ∃ i m, is[n]? = some i ∧ initial.run? (is.take n) = some m ∧ m.step? i = none

theorem step?_eq_none_iff {m : IntegerMachine} {i : RingInstruction} :
    m.step? i = none ↔ m.stack.length < i.instruction.operands := by
  rcases m with ⟨_ | ⟨b, _ | ⟨a, s⟩⟩, out⟩ <;> cases i <;>
    simp [step?, RingInstruction.instruction, Instruction.operands]

section Runs

variable {is : List RingInstruction} {i : RingInstruction} {m m' : IntegerMachine} {n k : Nat}

theorem run?_take_add_one (fetched : is[n]? = some i) (before : initial.run? (is.take n) = some m) :
    initial.run? (is.take (n + 1)) = m.step? i := by
  rw [run?] at before ⊢
  rw [List.take_add_one, fetched, List.foldlM_append, before]
  simp

/-- What ran so far had run before. -/
theorem exists_run?_take (ran : initial.run? (is.take k) = some m) (earlier : n ≤ k) :
    ∃ m', initial.run? (is.take n) = some m' := by
  obtain ⟨more, cut⟩ := List.take_prefix_take_left earlier (l := is)
  rw [run?, ← cut, List.foldlM_append] at ran
  obtain ⟨m', before, -⟩ := Option.bind_eq_some_iff.mp ran
  exact ⟨m', before⟩

/-- What ran so far did not underflow. -/
theorem UnderflowsAt.le (underflows : UnderflowsAt is n)
    (ran : initial.run? (is.take k) = some m) : k ≤ n := by
  obtain ⟨i, before, fetched, reached, stuck⟩ := underflows
  by_contra later
  obtain ⟨after, further⟩ := exists_run?_take ran (Nat.lt_of_not_le later)
  rw [run?_take_add_one fetched reached, stuck] at further
  cases further

/-- Instructions that run to their end do not underflow. -/
theorem not_underflowsAt (ran : initial.run? is = some m) (n : Nat) : ¬ UnderflowsAt is n := by
  intro underflows
  rw [← List.take_length (l := is)] at ran
  have beyond := underflows.le ran
  obtain ⟨i, -, fetched, -⟩ := underflows
  obtain ⟨inside, -⟩ := List.getElem?_eq_some_iff.mp fetched
  omega

/-- No more than one instruction underflows. -/
theorem UnderflowsAt.unique (first : UnderflowsAt is n) (second : UnderflowsAt is k) : n = k := by
  obtain ⟨_, _, _, reached, _⟩ := id first
  obtain ⟨_, _, _, reached', _⟩ := id second
  exact Nat.le_antisymm (second.le reached) (first.le reached')

end Runs

end IntegerMachine

/-! ## Words that stand for integers -/

/-- The word and the integer are the same modulo the word size. -/
def Word.Congruent (w : Word) (i : Int) : Prop :=
  w.toInt ≡ i [ZMOD 2 ^ Word.bits]

/-- The line is the numeral of the one integer in the range of words that is the same as
this one modulo the word size. -/
def PrintsAs (line : String) (i : Int) : Prop :=
  ∃ r, -2 ^ 63 ≤ r ∧ r < 2 ^ 63 ∧ r ≡ i [ZMOD 2 ^ Word.bits] ∧ line = toString r

namespace Word.Congruent

variable {a b : Word} {i j : Int}

theorem refl (a : Word) : Word.Congruent a a.toInt :=
  Int.ModEq.refl _

/-- An operator that takes words as integers and wraps the result around. -/
theorem of_bmod {c : Word} {k : Int} (wraps : c.toInt = k.bmod (2 ^ 64)) : Word.Congruent c k := by
  rw [Word.Congruent, wraps]
  exact Int.bmod_emod

/-- An operator keeps operands and results congruent. -/
theorem eval? {op : RingOp} {c : Word} (first : a.Congruent i) (second : b.Congruent j)
    (value : op.binary.eval? a b = some c) : c.Congruent (op.eval i j) := by
  cases op with
  | add =>
    cases value
    exact (of_bmod (Int64.toInt_add a b)).trans (Int.ModEq.add first second)
  | sub =>
    cases value
    exact (of_bmod (Int64.toInt_sub a b)).trans (Int.ModEq.sub first second)
  | mul =>
    cases value
    exact (of_bmod (Int64.toInt_mul a b)).trans (Int.ModEq.mul first second)

theorem printsAs (same : a.Congruent i) : PrintsAs a.text i :=
  ⟨a.toInt, a.le_toInt, a.toInt_lt, same, rfl⟩

end Word.Congruent

/-! ## Both machines, step by step -/

namespace Stack

variable {s rest : Stack} {a b w : Word}

theorem cells_of_pop? (popped : s.pop? = some (w, rest)) : s.cells = w :: rest.cells := by
  rcases s with ⟨_ | ⟨v, cells⟩, depth, rfl⟩
  · cases popped
  · cases popped
    rfl

theorem cells_of_popPair? (popped : s.popPair? = some (a, b, rest)) :
    s.cells = b :: a :: rest.cells := by
  simp only [popPair?, Option.bind_eq_bind, Option.bind_eq_some_iff, Prod.exists] at popped
  obtain ⟨top, below, first, second, bottom, last, ⟨⟩⟩ := popped
  rw [cells_of_pop? first, cells_of_pop? last]

end Stack

/-- The machine has the stack and the output of the machine of integers, modulo the word
size. -/
structure Machine.Agrees (m : Machine) (e : IntegerMachine) : Prop where
  depth_eq : m.stack.depth = e.stack.length
  stack : List.Forall₂ Word.Congruent m.stack.cells e.stack
  printed : List.Forall₂ PrintsAs m.output.lines e.printed

namespace Machine.Agrees

variable {m next : Machine} {e : IntegerMachine} {i : RingInstruction} {size : Nat}
  {budget : Budget}

theorem of_cells (stack : List.Forall₂ Word.Congruent m.stack.cells e.stack)
    (printed : List.Forall₂ PrintsAs m.output.lines e.printed) : m.Agrees e :=
  ⟨m.stack.depth_eq.trans stack.length_eq, stack, printed⟩

theorem initial : Machine.initial.Agrees .initial :=
  .of_cells .nil .nil

/-- Both underflow or neither does. -/
theorem step?_eq_none_iff (agrees : m.Agrees e) :
    e.step? i = none ↔ m.stack.depth < i.instruction.operands := by
  rw [agrees.depth_eq, IntegerMachine.step?_eq_none_iff]

/-- Two words on top of the stack stand for two integers. -/
theorem of_popPair? (agrees : m.Agrees e) {a b : Word} {rest : Stack}
    (popped : m.stack.popPair? = some (a, b, rest)) :
    ∃ x y s, e = ⟨y :: x :: s, e.printed⟩ ∧ a.Congruent x ∧ b.Congruent y ∧
      List.Forall₂ Word.Congruent rest.cells s := by
  rcases e with ⟨entries, out⟩
  have stack := agrees.stack
  rw [Stack.cells_of_popPair? popped] at stack
  obtain ⟨y, _, top, below, rfl⟩ := List.forall₂_cons_left_iff.mp stack
  obtain ⟨x, s, bottom, later, rfl⟩ := List.forall₂_cons_left_iff.mp below
  exact ⟨x, y, s, rfl, bottom, top, later⟩

/-- The word on top of the stack stands for an integer. -/
theorem of_pop? (agrees : m.Agrees e) {w : Word} {rest : Stack}
    (popped : m.stack.pop? = some (w, rest)) :
    ∃ x s, e = ⟨x :: s, e.printed⟩ ∧ w.Congruent x ∧
      List.Forall₂ Word.Congruent rest.cells s := by
  rcases e with ⟨entries, out⟩
  have stack := agrees.stack
  rw [Stack.cells_of_pop? popped] at stack
  obtain ⟨x, s, top, later, rfl⟩ := List.forall₂_cons_left_iff.mp stack
  exact ⟨x, s, rfl, top, later⟩

/-- An instruction that no ceiling stops is executed alike. -/
theorem step (agrees : m.Agrees e)
    (goes : Request.Outcome budget m (m.request size i.instruction) (.next next)) :
    ∃ e', e.step? i = some e' ∧ next.Agrees e' ∧ next.pc = m.pc + 1 := by
  have asks := m.asks_request size i.instruction
  generalize m.request size i.instruction = r at goes asks
  have printed := agrees.printed
  cases i with
  | push value =>
    cases asks with
    | underflow => cases goes
    | push =>
      cases goes with
      | push => exact ⟨_, rfl, .of_cells (.cons (.refl value) agrees.stack) printed, rfl⟩
  | compute op =>
    cases asks with
    | underflow => cases goes
    | divideByZero => cases goes
    | result popped value =>
      obtain ⟨x, y, s, shape, bottom, top, later⟩ := agrees.of_popPair? popped
      cases goes with
      | push =>
        rw [shape]
        exact ⟨_, rfl, .of_cells (.cons (bottom.eval? top value) later) printed, rfl⟩
  | dup =>
    cases asks with
    | underflow => cases goes
    | dup popped =>
      obtain ⟨x, s, shape, top, later⟩ := agrees.of_pop? popped
      cases goes with
      | push =>
        have stack := agrees.stack
        rw [shape] at stack ⊢
        exact ⟨_, rfl, .of_cells (.cons top stack) printed, rfl⟩
  | swap =>
    cases asks with
    | underflow => cases goes
    | swap popped =>
      obtain ⟨x, y, s, shape, bottom, top, later⟩ := agrees.of_popPair? popped
      cases goes with
      | move =>
        rw [shape]
        exact ⟨_, rfl, .of_cells (.cons bottom (.cons top later)) printed, rfl⟩
  | drop =>
    cases asks with
    | underflow => cases goes
    | drop popped =>
      obtain ⟨x, s, shape, top, later⟩ := agrees.of_pop? popped
      cases goes with
      | move =>
        rw [shape]
        exact ⟨_, rfl, .of_cells later printed, rfl⟩
  | print =>
    cases asks with
    | underflow => cases goes
    | print popped =>
      obtain ⟨x, s, shape, top, later⟩ := agrees.of_pop? popped
      cases goes with
      | print =>
        rw [shape]
        refine ⟨_, rfl, .of_cells later ?_, rfl⟩
        rw [Output.lines_print]
        exact List.rel_append printed (.cons top.printsAs .nil)

/-- What ends the run at an instruction is a ceiling, unless both underflow. -/
theorem fault_cases (agrees : m.Agrees e) {cause : FaultCause}
    (faults : Request.Outcome budget m (m.request size i.instruction) (.fault cause)) :
    cause = .stackOverflow ∨ (∃ needed available, cause = .stackUnderflow needed available) ∧
      e.step? i = none := by
  rcases Request.outcome_fault_iff.mp faults with asked | ⟨overflow, -⟩
  · right
    have asks := m.asks_request size i.instruction
    rw [asked] at asks
    generalize fetched : i.instruction = instruction at asks
    cases asks with
    | underflow few =>
      rw [agrees.step?_eq_none_iff, fetched]
      exact ⟨⟨_, _, rfl⟩, few⟩
    | divideByZero popped undefined =>
      cases i with
      | compute op =>
        cases fetched
        cases op <;> cases undefined
      | _ => cases fetched
    | jumpOut | jumpIfOut => cases i <;> cases fetched
  · exact .inl overflow

end Machine.Agrees

/-- None of the instructions halts. -/
theorem Machine.not_halts {m : Machine} {i : RingInstruction} {size : Nat} {budget : Budget} :
    ¬ Request.Outcome budget m (m.request size i.instruction) .halt := by
  intro halts
  have asks := m.asks_request size i.instruction
  generalize m.request size i.instruction = r at halts asks
  cases halts
  generalize fetched : i.instruction = instruction at asks
  cases asks
  cases i <;> cases fetched

/-! ## Whole runs -/

/-- A ceiling ended the run: one of the budget, or the capacity of the stack. -/
def Status.AtCeiling : Status → Prop
  | .halted => False
  | .faulted fault => fault.cause = .stackOverflow
  | .stopped _ => True

section Runs

variable {is : List RingInstruction} {job : Job} {clock : Clock} {c : Configuration}

theorem exists_getElem?_of_get? (code : job.program.instructions = is.map (·.instruction))
    {n : Nat} {instruction : Instruction} (fetched : job.program.get? n = some instruction) :
    ∃ i, is[n]? = some i ∧ instruction = i.instruction := by
  rw [Program.get?_eq_getElem?_instructions, code, List.getElem?_map] at fetched
  obtain ⟨i, found, rfl⟩ := Option.map_eq_some_iff.mp fetched
  exact ⟨i, found, rfl⟩

/-- After every instruction the machine agrees with the machine of integers after the same
instructions. -/
theorem Reached.agrees (code : job.program.instructions = is.map (·.instruction))
    (reached : Reached job clock c) :
    c.machine.pc = c.meter.executed ∧
      ∃ e, IntegerMachine.initial.run? (is.take c.meter.executed) = some e ∧
        c.machine.Agrees e := by
  induction reached with
  | start => exact ⟨rfl, .initial, rfl, .initial⟩
  | @step c next _ goes ih =>
    obtain ⟨counted, e, ran, agrees⟩ := ih
    obtain ⟨instruction, fetched, charged, outcome⟩ := Configuration.tick_eq_go_iff.mp goes
    obtain ⟨-, executed, -⟩ := Meter.charge_eq_ok_iff.mp charged
    obtain ⟨i, found, rfl⟩ := exists_getElem?_of_get? code fetched
    obtain ⟨e', steps, agrees', advanced⟩ := agrees.step outcome
    rw [counted] at found advanced
    rw [executed]
    refine ⟨advanced, e', ?_, agrees'⟩
    rw [IntegerMachine.run?_take_add_one found ran, steps]

/-- A run ends at a ceiling, behind the last instruction, or at the instruction where both
machines underflow. -/
theorem EndsWith.ceiling_or_halted_or_underflow {trace : Trace} {elapsed : Nat}
    {e : IntegerMachine} (code : job.program.instructions = is.map (·.instruction))
    (counted : c.machine.pc = c.meter.executed)
    (ran : IntegerMachine.initial.run? (is.take c.meter.executed) = some e)
    (agrees : c.machine.Agrees e) (ends : EndsWith job elapsed c trace) :
    trace.status.AtCeiling ∨
      trace.status = .halted ∧ IntegerMachine.initial.run? is = some e ∨
      ∃ fault, trace.status = .faulted fault ∧ IntegerMachine.UnderflowsAt is fault.pc ∧
        ∃ needed available, fault.cause = .stackUnderflow needed available := by
  cases ends with
  | finished fetched =>
    rw [Program.get?_eq_getElem?_instructions, code, List.getElem?_eq_none_iff, List.length_map,
      counted] at fetched
    rw [List.take_of_length_le fetched] at ran
    exact .inr (.inl ⟨rfl, ran⟩)
  | refused | breach => exact .inl trivial
  | halt fetched _ halts =>
    obtain ⟨i, -, rfl⟩ := exists_getElem?_of_get? code fetched
    exact absurd halts Machine.not_halts
  | fault fetched _ faults =>
    obtain ⟨i, found, rfl⟩ := exists_getElem?_of_get? code fetched
    rcases agrees.fault_cases faults with overflow | ⟨underflow, stuck⟩
    · exact .inl overflow
    · rw [← counted] at ran
      exact .inr (.inr ⟨_, rfl, ⟨i, e, found, ran, stuck⟩, underflow⟩)

end Runs

/-- The job computes with words what the instructions compute with integers. -/
structure ComputesModuloWord (is : List RingInstruction) (job : Job) (clock : Clock) : Prop where
  /-- After every instruction the two machines agree. -/
  agrees : ∀ c, Reached job clock c →
    ∃ e, IntegerMachine.initial.run? (is.take c.meter.executed) = some e ∧ c.machine.Agrees e
  /-- The lines of the run are what the integers print that were printed so far. -/
  printed : ∃ n e, n ≤ (job.run clock).executed ∧
    IntegerMachine.initial.run? (is.take n) = some e ∧
    List.Forall₂ PrintsAs (job.run clock).output e.printed
  /-- If no ceiling ends the run, both machines underflow at one instruction. -/
  underflow_iff : ¬ (job.run clock).status.AtCeiling →
    ∀ n, IntegerMachine.UnderflowsAt is n ↔
      ∃ fault, (job.run clock).status = .faulted fault ∧ fault.pc = n ∧
        ∃ needed available, fault.cause = .stackUnderflow needed available
  /-- If none underflows either, both come to the end and have printed the same. -/
  halted : ¬ (job.run clock).status.AtCeiling → (∀ n, ¬ IntegerMachine.UnderflowsAt is n) →
    (job.run clock).status = .halted ∧ ∃ e, IntegerMachine.initial.run? is = some e ∧
      List.Forall₂ PrintsAs (job.run clock).output e.printed

/-- Whatever the budget, instructions that only push, add, subtract, multiply, move words
and print compute with words what they compute with integers of any size, modulo the word
size. -/
theorem words_compute_integers {is : List RingInstruction} {job : Job}
    (code : job.program.instructions = is.map (·.instruction)) (clock : Clock) :
    ComputesModuloWord is job clock := by
  obtain ⟨last, reached, ends⟩ := exists_last job clock
  obtain ⟨counted, e, ran, agrees⟩ := reached.agrees code
  have printed : List.Forall₂ PrintsAs (job.run clock).output e.printed := by
    rw [ends.output_eq]
    exact agrees.printed
  have cases := ends.ceiling_or_halted_or_underflow code counted ran agrees
  refine ⟨?_, ⟨_, e, reached.executed_le, ran, printed⟩, ?_, ?_⟩
  · intro c reached
    exact (reached.agrees code).2
  · intro free n
    constructor
    · intro underflows
      rcases cases with ceiling | ⟨-, whole⟩ | ⟨fault, faulted, there, cause⟩
      · exact absurd ceiling free
      · exact absurd underflows (IntegerMachine.not_underflowsAt whole n)
      · exact ⟨fault, faulted, there.unique underflows, cause⟩
    · rintro ⟨fault, faulted, rfl, -⟩
      rcases cases with ceiling | ⟨halted, -⟩ | ⟨fault', faulted', there, -⟩
      · exact absurd ceiling free
      · cases halted.symm.trans faulted
      · cases faulted'.symm.trans faulted
        exact there
  · intro free never
    rcases cases with ceiling | ⟨halted, whole⟩ | ⟨fault, -, there, -⟩
    · exact absurd ceiling free
    · exact ⟨halted, e, whole, printed⟩
    · exact absurd there (never _)

/-- Squares the greatest word and prints the result. -/
def squareGreatest : Program where
  code := #[⟨.push 9223372036854775807, ⟨0, 4, 1, 1⟩⟩, ⟨.dup, ⟨25, 29, 1, 23⟩⟩,
    ⟨.binary .mul, ⟨30, 36, 1, 25⟩⟩, ⟨.print, ⟨37, 44, 1, 27⟩⟩]
  labels := []

/-- The square has thirty-eight digits, and what is left of it is one. -/
theorem words_compute_integers_square :
    ComputesModuloWord [.push 9223372036854775807, .dup, .compute .mul, .print]
        ⟨squareGreatest, .standard⟩ .stopped ∧
      IntegerMachine.initial.run? [.push 9223372036854775807, .dup, .compute .mul, .print] =
        some ⟨[], [85070591730234615847396907784232501249]⟩ ∧
      (⟨squareGreatest, .standard⟩ : Job).run .stopped = ⟨["1"], .halted, 4⟩ :=
  ⟨words_compute_integers rfl .stopped, by decide +kernel, by decide +kernel⟩

end GlyphMachine
