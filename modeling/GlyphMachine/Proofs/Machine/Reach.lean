import GlyphMachine.Machine.Run
import GlyphMachine.Proofs.Machine.Request

/-!
# Reached configurations

`Reached job clock c`: the run of the job passes through `c`. The rules of a tick
are stated once, as `Configuration.tick_eq_go_iff` for one that goes on and
`EndsWith` for one that ends the run. `Reached.run_eq` and `Reached.exists_end` tie
reached configurations to the trace of the job, so a fact about traces is an
invariant of reached configurations and a look at the last tick.
-/

namespace GlyphMachine

/-- `Reached job clock c`: the run of the job passes through `c`. -/
inductive Reached (job : Job) (clock : Clock) : Configuration → Prop
  | start : Reached job clock (.initial job)
  | step {c next : Configuration} : Reached job clock c →
    c.tick job (clock c.meter.executed) = .go next → Reached job clock next

/-! ## Ticks -/

/-- How a tick at `c` ends the run: the program is over, the meter refuses the
instruction, or the instruction is charged and ends it. -/
inductive EndsWith (job : Job) (elapsed : Nat) (c : Configuration) : Trace → Prop
  | finished : job.program.get? c.machine.pc = none → EndsWith job elapsed c (c.finish .halted)
  | refused {i : Instruction} {breach : Breach} :
    job.program.get? c.machine.pc = some i →
    c.meter.charge job.budget elapsed = .error breach →
    EndsWith job elapsed c (c.finish (.stopped breach))
  | halt {i : Instruction} {meter : Meter} :
    job.program.get? c.machine.pc = some i → c.meter.charge job.budget elapsed = .ok meter →
    Request.Outcome job.budget c.machine (c.machine.request job.program.size i) .halt →
    EndsWith job elapsed c (Configuration.finish ⟨meter, c.machine⟩ .halted)
  | breach {i : Instruction} {meter : Meter} {breach : Breach} :
    job.program.get? c.machine.pc = some i → c.meter.charge job.budget elapsed = .ok meter →
    Request.Outcome job.budget c.machine (c.machine.request job.program.size i)
      (.breach breach) →
    EndsWith job elapsed c (Configuration.finish ⟨meter, c.machine⟩ (.stopped breach))
  | fault {i : Instruction} {meter : Meter} {cause : FaultCause} :
    job.program.get? c.machine.pc = some i → c.meter.charge job.budget elapsed = .ok meter →
    Request.Outcome job.budget c.machine (c.machine.request job.program.size i)
      (.fault cause) →
    EndsWith job elapsed c (Configuration.finish ⟨meter, c.machine⟩ (.faulted
      ⟨cause, c.machine.pc, i.opcode, job.program.span? c.machine.pc⟩))

theorem Program.get?_eq_getElem?_instructions (p : Program) (address : Nat) :
    p.get? address = p.instructions[address]? := by
  simp [Program.get?, Program.instructions]

theorem Program.lt_size_of_get? {p : Program} {address : Nat} {i : Instruction}
    (fetched : p.get? address = some i) : address < p.size := by
  obtain ⟨located, found, -⟩ := Option.map_eq_some_iff.mp fetched
  obtain ⟨inside, -⟩ := Array.getElem?_eq_some_iff.mp found
  exact inside

namespace Meter

variable {budget : Budget} {elapsed : Nat} {m m' : Meter}

theorem charge_eq_ok_iff : m.charge budget elapsed = .ok m' ↔
    m.allowance = m'.allowance + 1 ∧ m'.executed = m.executed + 1 ∧
      elapsed < budget.timeLimit := by
  rcases m with ⟨executed, _ | allowance⟩ <;> rcases m' with ⟨executed', allowance'⟩
  · simp [charge]
  · by_cases late : budget.timeLimit ≤ elapsed
    · simp [charge, late, Nat.not_lt.mpr late]
    · simp [charge, late, Nat.not_le.mp late]
      omega

theorem charge_eq_error_iff {breach : Breach} : m.charge budget elapsed = .error breach ↔
    m.allowance = 0 ∧ breach = .instructionLimit budget.maxInstructions ∨
    m.allowance ≠ 0 ∧ budget.timeLimit ≤ elapsed ∧ breach = .timeLimit budget.timeLimit := by
  rcases m with ⟨executed, _ | allowance⟩
  · simp [charge, eq_comm]
  · by_cases late : budget.timeLimit ≤ elapsed
    · simp [charge, late, eq_comm]
    · simp [charge, late]

end Meter

namespace Configuration

variable {job : Job} {elapsed : Nat} {c next : Configuration} {trace : Trace}

theorem tick_eq_go_iff : c.tick job elapsed = .go next ↔
    ∃ i, job.program.get? c.machine.pc = some i ∧
      c.meter.charge job.budget elapsed = .ok next.meter ∧
      Request.Outcome job.budget c.machine (c.machine.request job.program.size i)
        (.next next.machine) := by
  rcases next with ⟨meter, machine⟩
  simp only [← Request.exec_eq_iff]
  unfold tick
  rcases fetched : job.program.get? c.machine.pc with _ | i
  · simp
  rcases charged : c.meter.charge job.budget elapsed with breach | charged
  · simp
  rcases effect : c.machine.exec job.program.size job.budget i with m | _ | cause | breach <;>
    simp [effect]

theorem tick_eq_done_iff : c.tick job elapsed = .done trace ↔ EndsWith job elapsed c trace := by
  constructor
  · intro ended
    unfold tick at ended
    rcases fetched : job.program.get? c.machine.pc with _ | i
    · rw [fetched] at ended
      cases ended
      exact .finished fetched
    rcases charged : c.meter.charge job.budget elapsed with breach | meter
    · simp only [fetched, charged] at ended
      cases ended
      exact .refused fetched charged
    simp only [fetched, charged] at ended
    rcases effect : c.machine.exec job.program.size job.budget i with m | _ | cause | breach
    · simp [effect] at ended
    · simp only [effect] at ended
      cases ended
      exact .halt fetched charged (Request.exec_eq_iff.mp effect)
    · simp only [effect] at ended
      cases ended
      exact .fault fetched charged (Request.exec_eq_iff.mp effect)
    · simp only [effect] at ended
      cases ended
      exact .breach fetched charged (Request.exec_eq_iff.mp effect)
  · intro ends
    unfold tick
    cases ends with
    | finished fetched => simp [fetched]
    | refused fetched charged => simp [fetched, charged]
    | halt fetched charged outcome | breach fetched charged outcome
    | fault fetched charged outcome =>
      simp [fetched, charged, Request.exec_eq_iff.mpr outcome]

/-- A run goes on with the next configuration. -/
theorem run_of_go {clock : Clock} (goes : c.tick job (clock c.meter.executed) = .go next) :
    c.run job clock = next.run job clock := by
  rw [run]
  split
  · rename_i trace ended
    rw [goes] at ended
    cases ended
  · rename_i other goes'
    rw [goes] at goes'
    cases goes'
    rfl

theorem run_of_done {clock : Clock} (ended : c.tick job (clock c.meter.executed) = .done trace) :
    c.run job clock = trace := by
  rw [run]
  split
  · rename_i other ended'
    rw [ended] at ended'
    cases ended'
    rfl
  · rename_i other goes
    rw [ended] at goes
    cases goes

end Configuration

/-! ## The last tick -/

namespace EndsWith

variable {job : Job} {elapsed : Nat} {c : Configuration} {trace : Trace}

theorem output_eq (ends : EndsWith job elapsed c trace) :
    trace.output = c.machine.output.lines := by
  cases ends <;> rfl

/-- The last tick charges one instruction or none, and none unless there is one. -/
theorem executed_cases (ends : EndsWith job elapsed c trace) :
    trace.executed = c.meter.executed ∨ trace.executed = c.meter.executed + 1 ∧
      ∃ i, job.program.get? c.machine.pc = some i := by
  cases ends with
  | finished | refused => exact .inl rfl
  | halt fetched charged | breach fetched charged | fault fetched charged =>
    obtain ⟨-, executed, -⟩ := Meter.charge_eq_ok_iff.mp charged
    exact .inr ⟨executed, _, fetched⟩

end EndsWith

/-! ## Runs -/

section Runs

variable {job : Job} {clock : Clock} {c : Configuration}

/-- The trace of the job is what is left to run from any reached configuration. -/
theorem Reached.run_eq (reached : Reached job clock c) : c.run job clock = job.run clock := by
  induction reached with
  | start => rfl
  | step _ goes ih => rw [← ih, Configuration.run_of_go goes]

/-- What was executed and what is still allowed make up the budget. -/
theorem Reached.executed_add_allowance (reached : Reached job clock c) :
    c.meter.executed + c.meter.allowance = job.budget.maxInstructions := by
  induction reached with
  | start => exact Nat.zero_add _
  | step _ goes ih =>
    obtain ⟨i, -, charged, -⟩ := Configuration.tick_eq_go_iff.mp goes
    obtain ⟨allowance, executed, -⟩ := Meter.charge_eq_ok_iff.mp charged
    omega

/-- A tick prints one line or none. -/
theorem Configuration.lines_of_tick {elapsed : Nat} {next : Configuration}
    (goes : c.tick job elapsed = .go next) :
    next.machine.output.lines = c.machine.output.lines ∨
      ∃ line, next.machine.output.lines = c.machine.output.lines ++ [line] := by
  obtain ⟨i, fetched, -, outcome⟩ := Configuration.tick_eq_go_iff.mp goes
  have sound := Request.request_sound (Program.lt_size_of_get? fetched) i
  rcases outcome.output_cases sound with same | ⟨w, printed, -⟩
  · exact .inl (by rw [same])
  · exact .inr ⟨toString w.toInt, by rw [printed, Output.lines_print]⟩

/-- Every reached configuration leads to the end of the run. -/
theorem Reached.exists_end (reached : Reached job clock c) :
    ∃ last, Reached job clock last ∧ c.meter.executed ≤ last.meter.executed ∧
      c.machine.output.lines <+: last.machine.output.lines ∧
      EndsWith job (clock last.meter.executed) last (job.run clock) := by
  -- Every tick uses up some of the allowance, which therefore bounds what is to come.
  induction allowed : c.meter.allowance using Nat.strongRecOn generalizing c with
  | ind n ih =>
    subst allowed
    rcases ticked : c.tick job (clock c.meter.executed) with next | trace
    · have fewer := Configuration.allowance_of_tick ticked
      obtain ⟨i, -, charged, -⟩ := Configuration.tick_eq_go_iff.mp ticked
      obtain ⟨-, executed, -⟩ := Meter.charge_eq_ok_iff.mp charged
      obtain ⟨last, reachedLast, later, printed, ends⟩ :=
        ih next.meter.allowance (by omega) (reached.step ticked) rfl
      refine ⟨last, reachedLast, by omega, List.IsPrefix.trans ?_ printed, ends⟩
      rcases Configuration.lines_of_tick ticked with same | ⟨line, longer⟩
      · exact same ▸ List.prefix_rfl
      · exact longer ▸ List.prefix_append _ _
    · have ends := Configuration.tick_eq_done_iff.mp ticked
      rw [← Configuration.run_of_done ticked, reached.run_eq] at ends
      exact ⟨c, reached, Nat.le_refl _, List.prefix_rfl, ends⟩

/-- Every run has a last tick, which gives the trace of the job. -/
theorem exists_last (job : Job) (clock : Clock) :
    ∃ last, Reached job clock last ∧
      EndsWith job (clock last.meter.executed) last (job.run clock) := by
  have started : Reached job clock (.initial job) := .start
  obtain ⟨last, reached, -, -, ends⟩ := started.exists_end
  exact ⟨last, reached, ends⟩

/-- The trace of a job keeps all that was printed. -/
theorem Reached.lines_isPrefix (reached : Reached job clock c) :
    c.machine.output.lines <+: (job.run clock).output := by
  obtain ⟨last, -, -, printed, ends⟩ := reached.exists_end
  rw [ends.output_eq]
  exact printed

theorem Reached.executed_le (reached : Reached job clock c) :
    c.meter.executed ≤ (job.run clock).executed := by
  obtain ⟨last, -, later, -, ends⟩ := reached.exists_end
  rcases ends.executed_cases with same | ⟨charged, -⟩ <;> omega

end Runs

end GlyphMachine
