import GlyphMachine.Proofs.Machine.Sandbox

/-!
# One program under two budgets

The run of a program under one budget is followed under another. As long as all it
reaches `Fits` the other budget, both runs go through the same configurations, up to
what their meters still allow (`Configuration.under`). Where it stops fitting, the
other run ends at once, and `Exceeds` says with which breach and after how many
instructions. `Reached.follow` is the simulation, by induction on the first run;
`run_eq_of_fits` and `Reached.exists_crossing` are the two ways it is used.
-/

namespace GlyphMachine

namespace Trace

/-- The run was not stopped by its time limit. -/
def InTime (t : Trace) : Prop :=
  ∀ limit, t.status ≠ .stopped (.timeLimit limit)

/-- The run ended on its own account: it halted or faulted. -/
def Concluded (t : Trace) : Prop :=
  t.status = .halted ∨ ∃ fault, t.status = .faulted fault

theorem Concluded.not_stopped {t : Trace} (concluded : t.Concluded) (breach : Breach) :
    t.status ≠ .stopped breach := by
  rcases concluded with halted | ⟨fault, faulted⟩
  · simp [halted]
  · simp [faulted]

end Trace

/-- Nothing at `c` is beyond the ceilings of the budget. -/
structure Fits (budget : Budget) (c : Configuration) : Prop where
  executed_le : c.meter.executed ≤ budget.maxInstructions
  depth_le : c.machine.stack.depth ≤ budget.maxStackDepth
  bytes_le : c.machine.output.bytes ≤ budget.maxOutputBytes

/-- The same point of a run under another budget. -/
def Configuration.under (budget : Budget) (c : Configuration) : Configuration :=
  ⟨⟨c.meter.executed, budget.maxInstructions - c.meter.executed⟩, c.machine⟩

/-- The ceiling that is in the way from `a` to `b`, and the instructions charged by
then: one that is over the instruction limit is not charged, one that is over the
other two is. -/
inductive Exceeds (budget : Budget) (a b : Configuration) : Breach → Nat → Prop
  | instructions : budget.maxInstructions < b.meter.executed →
    Exceeds budget a b (.instructionLimit budget.maxInstructions) a.meter.executed
  | stack : b.meter.executed ≤ budget.maxInstructions →
    budget.maxStackDepth < b.machine.stack.depth →
    Exceeds budget a b (.stackLimit budget.maxStackDepth) b.meter.executed
  | output : b.meter.executed ≤ budget.maxInstructions →
    budget.maxOutputBytes < b.machine.output.bytes →
    Exceeds budget a b (.outputLimit budget.maxOutputBytes) b.meter.executed

theorem fits_or_exceeds (budget : Budget) (a b : Configuration) :
    Fits budget b ∨ ∃ breach charged, Exceeds budget a b breach charged := by
  rcases Nat.lt_or_ge budget.maxInstructions b.meter.executed with spent | executed
  · exact .inr ⟨_, _, .instructions spent⟩
  rcases Nat.lt_or_ge budget.maxStackDepth b.machine.stack.depth with deep | shallow
  · exact .inr ⟨_, _, .stack executed deep⟩
  rcases Nat.lt_or_ge budget.maxOutputBytes b.machine.output.bytes with long | short
  · exact .inr ⟨_, _, .output executed long⟩
  · exact .inl ⟨executed, shallow, short⟩

theorem Exceeds.not_fits {budget : Budget} {a b : Configuration} {breach : Breach}
    {charged : Nat} (exceeds : Exceeds budget a b breach charged) : ¬ Fits budget b := by
  intro fits
  cases exceeds with
  | instructions spent => exact Nat.not_lt.mpr fits.executed_le spent
  | stack _ deep => exact Nat.not_lt.mpr fits.depth_le deep
  | output _ long => exact Nat.not_lt.mpr fits.bytes_le long

/-! ## Requests under two budgets -/

namespace Request

variable {size : Nat} {budget other : Budget} {m next : Machine} {r : Request}

theorem Outcome.next_of_fits (goes : Outcome budget m r (.next next))
    (shallow : next.stack.depth ≤ other.maxStackDepth)
    (short : next.output.bytes ≤ other.maxOutputBytes) : Outcome other m r (.next next) := by
  cases goes with
  | move => exact .move
  | push room =>
    rw [Stack.depth_push] at shallow
    exact .push (by omega)
  | print => exact .print short

theorem Outcome.stackLimit_of_deep (goes : Outcome budget m r (.next next))
    (sound : Sound size m r) (shallow : m.stack.depth ≤ other.maxStackDepth)
    (deep : other.maxStackDepth < next.stack.depth) :
    Outcome other m r (.breach (.stackLimit other.maxStackDepth)) := by
  cases goes with
  | move => exact absurd (Nat.le_trans sound.2.1 shallow) (Nat.not_le.mpr deep)
  | push room =>
    rw [Stack.depth_push] at deep
    exact .stackLimit (by omega) (by omega)
  | print => exact absurd (Nat.le_trans sound.1 shallow) (Nat.not_le.mpr deep)

theorem Outcome.outputLimit_of_long (goes : Outcome budget m r (.next next))
    (sound : Sound size m r) (short : m.output.bytes ≤ other.maxOutputBytes)
    (long : other.maxOutputBytes < next.output.bytes) :
    Outcome other m r (.breach (.outputLimit other.maxOutputBytes)) := by
  cases goes with
  | move => exact absurd short (Nat.not_le.mpr (sound.2.2 ▸ long))
  | push => exact absurd short (Nat.not_le.mpr long)
  | print => exact .outputLimit long

theorem Outcome.halt_of_halt (halts : Outcome budget m r .halt) : Outcome other m r .halt := by
  cases halts with
  | halt => exact .halt

/-- A fault does not depend on the budget: a stack that overflows under one is as
deep as the capacity, and so deep it may be under the other. -/
theorem Outcome.fault_of_fits {cause : FaultCause} (faults : Outcome budget m r (.fault cause))
    (sound : Sound size m r) (shallow : m.stack.depth ≤ other.maxStackDepth) :
    Outcome other m r (.fault cause) := by
  cases faults with
  | fault => exact .fault
  | stackOverflow full =>
    exact .stackOverflow full (Nat.le_trans full (Nat.le_trans sound shallow))

end Request

/-! ## Ticks under two budgets -/

section Ticks

variable {program : Program} {budget other : Budget} {elapsed elapsed' : Nat}
  {c next : Configuration}

theorem charge_under {meter : Meter} (executed : meter.executed = c.meter.executed + 1)
    (allowed : meter.executed ≤ other.maxInstructions) (early : elapsed' < other.timeLimit) :
    (c.under other).meter.charge other elapsed' =
      .ok ⟨meter.executed, other.maxInstructions - meter.executed⟩ := by
  rw [Meter.charge_eq_ok_iff]
  refine ⟨?_, executed, early⟩
  simp only [Configuration.under]
  omega

theorem tick_under_of_fits (goes : c.tick ⟨program, budget⟩ elapsed = .go next)
    (fits : Fits other next) (early : elapsed' < other.timeLimit) :
    (c.under other).tick ⟨program, other⟩ elapsed' = .go (next.under other) := by
  obtain ⟨i, fetched, charged, outcome⟩ := Configuration.tick_eq_go_iff.mp goes
  obtain ⟨-, executed, -⟩ := Meter.charge_eq_ok_iff.mp charged
  have charge := charge_under executed fits.executed_le early
  have goesOn := outcome.next_of_fits fits.depth_le fits.bytes_le
  exact Configuration.tick_eq_go_iff.mpr ⟨i, fetched, charge, goesOn⟩

theorem tick_under_of_exceeds {breach : Breach} {charged : Nat}
    (goes : c.tick ⟨program, budget⟩ elapsed = .go next) (fits : Fits other c)
    (exceeds : Exceeds other c next breach charged)
    (early : c.meter.executed < other.maxInstructions → elapsed' < other.timeLimit) :
    (c.under other).tick ⟨program, other⟩ elapsed' =
      .done ⟨c.machine.output.lines, .stopped breach, charged⟩ := by
  obtain ⟨i, fetched, paid, outcome⟩ := Configuration.tick_eq_go_iff.mp goes
  obtain ⟨-, executed, -⟩ := Meter.charge_eq_ok_iff.mp paid
  have sound := Request.request_sound (Program.lt_size_of_get? fetched) i
  have room := fits.executed_le
  rw [Configuration.tick_eq_done_iff]
  cases exceeds with
  | instructions spent =>
    refine .refused fetched (Meter.charge_eq_error_iff.mpr (.inl ⟨?_, rfl⟩))
    simp only [Configuration.under]
    omega
  | stack allowed deep =>
    have charge := charge_under executed allowed (early (by omega))
    have breached := outcome.stackLimit_of_deep sound fits.depth_le deep
    have ends : EndsWith ⟨program, other⟩ elapsed' (c.under other) _ :=
      .breach fetched charge breached
    exact ends
  | output allowed long =>
    have charge := charge_under executed allowed (early (by omega))
    have breached := outcome.outputLimit_of_long sound fits.bytes_le long
    have ends : EndsWith ⟨program, other⟩ elapsed' (c.under other) _ :=
      .breach fetched charge breached
    exact ends

/-- A run that ends on its own account ends alike under another budget that still
allows its last instruction. -/
theorem EndsWith.under {trace : Trace} (ends : EndsWith ⟨program, budget⟩ elapsed c trace)
    (concluded : trace.Concluded) (fits : Fits other c)
    (enough : trace.executed ≤ other.maxInstructions)
    (early : c.meter.executed < trace.executed → elapsed' < other.timeLimit) :
    EndsWith ⟨program, other⟩ elapsed' (c.under other) trace := by
  cases ends with
  | finished fetched => exact .finished fetched
  | refused | breach => exact absurd rfl (concluded.not_stopped _)
  | halt fetched charged halts =>
    obtain ⟨-, executed, -⟩ := Meter.charge_eq_ok_iff.mp charged
    have charge := charge_under executed enough (early (by simp only [Configuration.finish]; omega))
    have ends : EndsWith ⟨program, other⟩ elapsed' (c.under other) _ :=
      .halt fetched charge halts.halt_of_halt
    exact ends
  | @fault i _ _ fetched charged faults =>
    obtain ⟨-, executed, -⟩ := Meter.charge_eq_ok_iff.mp charged
    have charge := charge_under executed enough (early (by simp only [Configuration.finish]; omega))
    have sound := Request.request_sound (Program.lt_size_of_get? fetched) i
    have ends : EndsWith ⟨program, other⟩ elapsed' (c.under other) _ :=
      .fault fetched charge (faults.fault_of_fits sound fits.depth_le)
    exact ends

end Ticks

/-! ## Runs under two budgets -/

/-- The step from `a` to `b` at which the run of a job leaves another budget, and
the trace that run has there. -/
structure Crossing (job : Job) (clock : Clock) (other : Budget) (trace : Trace)
    (a b : Configuration) : Prop where
  reached : Reached job clock a
  goes : a.tick job (clock a.meter.executed) = .go b
  fits : Fits other a
  stopped : ∃ breach charged, Exceeds other a b breach charged ∧
    trace = ⟨a.machine.output.lines, .stopped breach, charged⟩

section Runs

variable {job : Job} {program : Program} {budget other : Budget} {clock clock' : Clock}
  {c : Configuration}

/-- In a run that is never late, an instruction that the meter allows is in time. -/
theorem Reached.early {i : Instruction} (inTime : (job.run clock).InTime)
    (reached : Reached job clock c) (fetched : job.program.get? c.machine.pc = some i)
    (allowed : c.meter.executed < job.budget.maxInstructions) :
    clock c.meter.executed < job.budget.timeLimit := by
  have metered := reached.executed_add_allowance
  rw [← Nat.not_le]
  intro late
  have refused : c.meter.charge job.budget (clock c.meter.executed) =
      .error (.timeLimit job.budget.timeLimit) :=
    Meter.charge_eq_error_iff.mpr (.inr ⟨by omega, late, rfl⟩)
  have ended := Configuration.tick_eq_done_iff.mpr (.refused fetched refused)
  rw [← reached.run_eq, Configuration.run_of_done ended] at inTime
  exact inTime _ rfl

/-- A run whose clock never reaches the time limit is in time. -/
theorem inTime_of_clock (early : ∀ n, clock n < job.budget.timeLimit) :
    (job.run clock).InTime := by
  obtain ⟨last, -, ends⟩ := exists_last job clock
  intro limit
  generalize job.run clock = trace at ends
  cases ends with
  | finished | halt | fault => exact nofun
  | refused _ charged =>
    rcases Meter.charge_eq_error_iff.mp charged with ⟨-, rfl⟩ | ⟨-, late, -⟩
    · exact nofun
    · exact absurd late (Nat.not_le.mpr (early _))
  | breach _ _ breached =>
    rcases breached.breach_cases with ⟨rfl, -⟩ | rfl <;> exact nofun

/-- What a run reaches under one budget it reaches under the other, unless it leaves
that budget on the way. -/
theorem Reached.follow (inTime : (Job.run ⟨program, other⟩ clock').InTime)
    (reached : Reached ⟨program, budget⟩ clock c) :
    Fits other c ∧ Reached ⟨program, other⟩ clock' (c.under other) ∨
      ∃ a b, Crossing ⟨program, budget⟩ clock other (Job.run ⟨program, other⟩ clock') a b := by
  induction reached with
  | start => exact .inl ⟨⟨Nat.zero_le _, Nat.zero_le _, Nat.zero_le _⟩, .start⟩
  | @step a b before goes ih =>
    rcases ih with ⟨fits, follows⟩ | crossing
    · obtain ⟨i, fetched, charged, -⟩ := Configuration.tick_eq_go_iff.mp goes
      obtain ⟨-, executed, -⟩ := Meter.charge_eq_ok_iff.mp charged
      have early := follows.early inTime fetched
      rcases fits_or_exceeds other a b with fitsNext | ⟨breach, n, exceeds⟩
      · have allowed : a.meter.executed < other.maxInstructions := by
          have := fitsNext.executed_le
          omega
        exact .inl ⟨fitsNext, follows.step (tick_under_of_fits goes fitsNext (early allowed))⟩
      · have ended := tick_under_of_exceeds goes fits exceeds early
        refine .inr ⟨a, b, before, goes, fits, breach, n, exceeds, ?_⟩
        rw [← follows.run_eq]
        exact Configuration.run_of_done ended
    · exact .inr crossing

/-- A run that reaches something beyond another budget leaves that budget somewhere. -/
theorem Reached.exists_crossing (inTime : (Job.run ⟨program, other⟩ clock').InTime)
    (reached : Reached ⟨program, budget⟩ clock c) (beyond : ¬ Fits other c) :
    ∃ a b, Crossing ⟨program, budget⟩ clock other (Job.run ⟨program, other⟩ clock') a b := by
  rcases reached.follow inTime with ⟨fits, -⟩ | crossing
  · exact absurd fits beyond
  · exact crossing

/-- A run that stays within another budget is reached there all the way. -/
theorem Reached.under (inTime : (Job.run ⟨program, other⟩ clock').InTime)
    (within : ∀ c, Reached ⟨program, budget⟩ clock c → Fits other c)
    (reached : Reached ⟨program, budget⟩ clock c) :
    Reached ⟨program, other⟩ clock' (c.under other) := by
  rcases reached.follow inTime with ⟨-, follows⟩ | ⟨a, b, crossing⟩
  · exact follows
  · obtain ⟨breach, n, exceeds, -⟩ := crossing.stopped
    exact absurd (within b (crossing.reached.step crossing.goes)) exceeds.not_fits

/-- A run that stays within another budget and ends on its own account is the same
run there. -/
theorem run_eq_of_fits (inTime : (Job.run ⟨program, other⟩ clock').InTime)
    (within : ∀ c, Reached ⟨program, budget⟩ clock c → Fits other c)
    (concluded : (Job.run ⟨program, budget⟩ clock).Concluded)
    (enough : (Job.run ⟨program, budget⟩ clock).executed ≤ other.maxInstructions) :
    Job.run ⟨program, other⟩ clock' = Job.run ⟨program, budget⟩ clock := by
  obtain ⟨last, reached, ends⟩ := exists_last ⟨program, budget⟩ clock
  have follows := reached.under inTime within
  have early : last.meter.executed < (Job.run ⟨program, budget⟩ clock).executed →
      clock' last.meter.executed < other.timeLimit := by
    intro charged
    rcases ends.executed_cases with same | ⟨-, i, fetched⟩
    · omega
    · exact follows.early inTime fetched (Nat.lt_of_lt_of_le charged enough)
  have endsAlike := ends.under concluded (within last reached) enough early
  rw [← follows.run_eq]
  exact Configuration.run_of_done (Configuration.tick_eq_done_iff.mpr endsAlike)

end Runs

end GlyphMachine
