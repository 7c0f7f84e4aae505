import GlyphMachine.Machine
import GlyphMachine.Program

/-!
Runs of a program under a budget. `Configuration.tick` fetches, charges and executes one
instruction, and `Configuration.run` does so until the run ends. A run past the last instruction
halts. Every instruction is charged before it is executed, and the meter never allows more than the
budget, so every run ends.
-/

namespace GlyphMachine

/-! ## Metering -/

/-- Instructions executed and instructions still allowed. -/
structure Meter where
  executed : Nat
  allowance : Nat
deriving DecidableEq, Repr

namespace Meter

/-- The meter of a fresh run. -/
def start (budget : Budget) : Meter := ⟨0, budget.maxInstructions⟩

/-- Charges one instruction, at the given time since the first one was fetched. The instruction
limit is checked before the time limit. -/
def charge (budget : Budget) (elapsed : Nat) (m : Meter) : Except Breach Meter :=
  match m.allowance with
  | 0 => .error (.instructionLimit budget.maxInstructions)
  | allowance + 1 =>
    if budget.timeLimit ≤ elapsed then .error (.timeLimit budget.timeLimit)
    else .ok ⟨m.executed + 1, allowance⟩

theorem allowance_of_charge {budget : Budget} {elapsed : Nat} {m m' : Meter}
    (h : m.charge budget elapsed = .ok m') : m.allowance = m'.allowance + 1 := by
  unfold charge at h
  split at h
  · cases h
  · split at h <;> cases h
    assumption

end Meter

/-! ## Runs -/

/-- A program under a budget. -/
structure Job where
  program : Program
  budget : Budget

/-- A run between two instructions. -/
structure Configuration where
  meter : Meter
  machine : Machine
deriving DecidableEq

/-- What comes after a configuration: another one, or the end of the run. -/
inductive Tick where
  | go (next : Configuration)
  | done (trace : Trace)
deriving DecidableEq

/-- A clock tells how many microseconds have passed since the first fetch when the given number of
instructions has been executed. -/
abbrev Clock := Nat → Nat

namespace Clock

/-- The clock of a machine that takes no time. -/
def stopped : Clock := fun _ => 0

end Clock

namespace Configuration

/-- The start of a run. -/
def initial (job : Job) : Configuration :=
  ⟨.start job.budget, .initial⟩

/-- The trace of a run that ends here. -/
def finish (c : Configuration) (status : Status) : Trace :=
  ⟨c.machine.output.lines, status, c.meter.executed⟩

/-- Fetches, charges and executes one instruction. -/
def tick (job : Job) (elapsed : Nat) (c : Configuration) : Tick :=
  match job.program.get? c.machine.pc with
  | none => .done (c.finish .halted)
  | some instruction =>
    match c.meter.charge job.budget elapsed with
    | .error breach => .done (c.finish (.stopped breach))
    | .ok meter =>
      let charged : Configuration := ⟨meter, c.machine⟩
      match c.machine.exec job.program.size job.budget instruction with
      | .next machine => .go ⟨meter, machine⟩
      | .halt => .done (charged.finish .halted)
      | .breach breach => .done (charged.finish (.stopped breach))
      | .fault cause =>
        let fault := ⟨cause, c.machine.pc, instruction.opcode, job.program.span? c.machine.pc⟩
        .done (charged.finish (.faulted fault))

/-- Every tick uses up one of the instructions allowed. -/
theorem allowance_of_tick {job : Job} {elapsed : Nat} {c c' : Configuration}
    (h : c.tick job elapsed = .go c') : c.meter.allowance = c'.meter.allowance + 1 := by
  unfold tick at h
  split at h
  · cases h
  · split at h
    · cases h
    · rename_i meter hcharge
      dsimp only at h
      split at h <;> cases h
      exact Meter.allowance_of_charge hcharge

/-- The trace of a run from a configuration on. -/
def run (job : Job) (clock : Clock) (c : Configuration) : Trace :=
  match _h : c.tick job (clock c.meter.executed) with
  | .done trace => trace
  | .go next => next.run job clock
termination_by c.meter.allowance
decreasing_by
  have := allowance_of_tick _h
  omega

end Configuration

namespace Job

/-- The trace of a job. -/
def run (job : Job) (clock : Clock) : Trace :=
  (Configuration.initial job).run job clock

end Job

end GlyphMachine
