import GlyphMachine.Proofs.Machine.Reach

/-!
# The sandbox

`Sandboxed` is the invariant of a run: the counter within the program or just
behind it, the stack and the output below their ceilings, an exact count of what
was printed, and a meter within the budget. `Sandboxed.step` keeps it over one tick
and `Reached.sandboxed` over a run. `EndsWith.respects` then reads off the last tick
which ceilings a trace can name.
-/

namespace GlyphMachine

/-- What printed lines count for: each for its bytes and a line break. -/
def printedBytes : List String → Nat
  | [] => 0
  | line :: lines => line.utf8ByteSize + 1 + printedBytes lines

/-- What holds between any two instructions of a job. -/
structure Sandboxed (job : Job) (c : Configuration) : Prop where
  pc_le : c.machine.pc ≤ job.program.size
  depth_le : c.machine.stack.depth ≤ min job.budget.maxStackDepth stackCapacity
  bytes_eq : c.machine.output.bytes = printedBytes c.machine.output.lines
  bytes_le : c.machine.output.bytes ≤ job.budget.maxOutputBytes
  numerals : ∀ line ∈ c.machine.output.lines, ∃ w : Word, line = toString w.toInt
  executed_le : c.meter.executed ≤ job.budget.maxInstructions

/-- What a trace owes to the budget of its job. -/
structure Respects (budget : Budget) (trace : Trace) : Prop where
  executed_le : trace.executed ≤ budget.maxInstructions
  instructionLimit : ∀ limit, trace.status = .stopped (.instructionLimit limit) →
    trace.executed = budget.maxInstructions ∧ limit = budget.maxInstructions
  stackLimit : ∀ limit, trace.status = .stopped (.stackLimit limit) →
    budget.maxStackDepth < stackCapacity ∧ limit = budget.maxStackDepth
  stackOverflow : ∀ fault, trace.status = .faulted fault → fault.cause = .stackOverflow →
    stackCapacity ≤ budget.maxStackDepth
  outputLimit : ∀ limit, trace.status = .stopped (.outputLimit limit) →
    limit = budget.maxOutputBytes

variable {job : Job} {clock : Clock} {c next : Configuration}

theorem printedBytes_append (lines more : List String) :
    printedBytes (lines ++ more) = printedBytes lines + printedBytes more := by
  induction lines with
  | nil => rw [List.nil_append, printedBytes, Nat.zero_add]
  | cons line lines ih =>
    rw [List.cons_append, printedBytes, printedBytes, ih]
    omega

/-! ## The invariant -/

theorem sandboxed_initial (job : Job) : Sandboxed job (.initial job) where
  pc_le := Nat.zero_le _
  depth_le := Nat.zero_le _
  bytes_eq := rfl
  bytes_le := Nat.zero_le _
  numerals := by
    intro line printed
    cases printed
  executed_le := Nat.zero_le _

/-- One instruction keeps a job in its sandbox. -/
theorem Sandboxed.step (sandboxed : Sandboxed job c)
    (metered : c.meter.executed + c.meter.allowance = job.budget.maxInstructions)
    {elapsed : Nat} (goes : c.tick job elapsed = .go next) : Sandboxed job next := by
  obtain ⟨i, fetched, charged, outcome⟩ := Configuration.tick_eq_go_iff.mp goes
  obtain ⟨allowance, executed, -⟩ := Meter.charge_eq_ok_iff.mp charged
  have inside := Program.lt_size_of_get? fetched
  have sound := Request.request_sound inside i
  have pc_le := outcome.pc_le inside sound
  have depth_le : next.machine.stack.depth ≤ min job.budget.maxStackDepth stackCapacity := by
    rcases outcome.depth_le sound with shallower | capped
    · exact Nat.le_trans shallower sandboxed.depth_le
    · exact capped
  rcases outcome.output_cases sound with same | ⟨w, printed, fits⟩
  · exact {
      pc_le, depth_le
      bytes_eq := same ▸ sandboxed.bytes_eq
      bytes_le := same ▸ sandboxed.bytes_le
      numerals := same ▸ sandboxed.numerals
      executed_le := by omega }
  · refine {
      pc_le, depth_le
      bytes_eq := ?_
      bytes_le := fits
      numerals := ?_
      executed_le := by omega }
    · rw [printed, Output.lines_print, printedBytes_append, ← sandboxed.bytes_eq]
      rfl
    · rw [printed, Output.lines_print]
      intro line among
      rcases List.mem_append.mp among with earlier | latest
      · exact sandboxed.numerals line earlier
      · exact ⟨w, List.mem_singleton.mp latest⟩

theorem Reached.sandboxed (reached : Reached job clock c) : Sandboxed job c := by
  induction reached with
  | start => exact sandboxed_initial job
  | step before goes ih => exact ih.step before.executed_add_allowance goes

/-! ## The end of a run -/

/-- A charged instruction is within the budget. -/
theorem Reached.charged_le (reached : Reached job clock c) {elapsed : Nat} {meter : Meter}
    (charged : c.meter.charge job.budget elapsed = .ok meter) :
    meter.executed ≤ job.budget.maxInstructions := by
  obtain ⟨allowance, executed, -⟩ := Meter.charge_eq_ok_iff.mp charged
  have metered := reached.executed_add_allowance
  omega

theorem EndsWith.respects {elapsed : Nat} {trace : Trace} (reached : Reached job clock c)
    (ends : EndsWith job elapsed c trace) : Respects job.budget trace := by
  cases ends with
  | finished =>
    refine ⟨reached.sandboxed.executed_le, ?_, ?_, ?_, ?_⟩ <;> simp [Configuration.finish]
  | halt _ charged =>
    refine ⟨reached.charged_le charged, ?_, ?_, ?_, ?_⟩ <;> simp [Configuration.finish]
  | refused _ charged =>
    have metered := reached.executed_add_allowance
    rcases Meter.charge_eq_error_iff.mp charged with ⟨spent, rfl⟩ | ⟨-, -, rfl⟩
    · have exhausted : c.meter.executed = job.budget.maxInstructions := by omega
      refine ⟨reached.sandboxed.executed_le, ?_, ?_, ?_, ?_⟩ <;>
        simp [Configuration.finish, exhausted]
    · refine ⟨reached.sandboxed.executed_le, ?_, ?_, ?_, ?_⟩ <;> simp [Configuration.finish]
  | breach _ charged breached =>
    rcases breached.breach_cases with ⟨rfl, low⟩ | rfl
    · refine ⟨reached.charged_le charged, ?_, ?_, ?_, ?_⟩ <;> simp [Configuration.finish, low]
    · refine ⟨reached.charged_le charged, ?_, ?_, ?_, ?_⟩ <;> simp [Configuration.finish]
  | @fault i _ cause fetched charged faulted =>
    have sound := Request.request_sound (Program.lt_size_of_get? fetched) i
    have capacity_le (overflow : cause = .stackOverflow) :
        stackCapacity ≤ job.budget.maxStackDepth := by
      rw [overflow] at faulted
      exact faulted.capacity_le sound
    refine ⟨reached.charged_le charged, ?_, ?_, ?_, ?_⟩ <;>
      simp +contextual [Configuration.finish, capacity_le]

/-- Every job stays in its sandbox: in each state the run passes through, and in the
trace it ends with. -/
theorem run_stays_in_sandbox (job : Job) (clock : Clock) :
    (∀ c, Reached job clock c → Sandboxed job c) ∧
    (∃ last, Reached job clock last ∧
      last.tick job (clock last.meter.executed) = .done (job.run clock)) ∧
    Respects job.budget (job.run clock) := by
  obtain ⟨last, reached, ends⟩ := exists_last job clock
  refine ⟨?_, ⟨last, reached, Configuration.tick_eq_done_iff.mpr ends⟩, ends.respects reached⟩
  intro c reached
  exact reached.sandboxed

end GlyphMachine
