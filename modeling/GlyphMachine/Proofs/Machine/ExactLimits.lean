import GlyphMachine.Proofs.Machine.Rebudget
import Mathlib.Order.Lattice.Nat

/-!
# Exact limits

A run that ends on its own account uses some number of instructions, some bytes of
output and some depth of stack. A budget of exactly that much is enough, and one that
is short by any amount in one of the three stops the run with that breach, at the
point where the amount is used up.
-/

namespace GlyphMachine

/-- The depths of the stack in the course of a run. -/
def reachedDepths (job : Job) (clock : Clock) : Set Nat :=
  { depth | ∃ c, Reached job clock c ∧ c.machine.stack.depth = depth }

theorem exists_isGreatest_reachedDepths (job : Job) (clock : Clock) :
    ∃ depth, IsGreatest (reachedDepths job clock) depth := by
  have nonempty : (reachedDepths job clock).Nonempty := ⟨_, _, .start, rfl⟩
  have bounded : BddAbove (reachedDepths job clock) := by
    refine ⟨stackCapacity, ?_⟩
    rintro depth ⟨c, reached, rfl⟩
    exact reached.sandboxed.depth_le.trans (Nat.min_le_right _ _)
  exact ⟨sSup (reachedDepths job clock), Nat.sSup_mem nonempty bounded,
    fun depth among => le_csSup bounded among⟩

theorem printedBytes_le_of_isPrefix {lines more : List String} (shorter : lines <+: more) :
    printedBytes lines ≤ printedBytes more := by
  obtain ⟨rest, rfl⟩ := shorter
  rw [printedBytes_append]
  omega

/-! ## Crossings -/

section Crossings

variable {job : Job} {clock : Clock} {other : Budget} {trace : Trace} {a b : Configuration}

/-- A run leaves another budget at a ceiling that is lower there, and the trace says
which. -/
theorem Crossing.trace_cases (crossing : Crossing job clock other trace a b) :
    other.maxInstructions < job.budget.maxInstructions ∧
      a.meter.executed = other.maxInstructions ∧
      trace = ⟨a.machine.output.lines, .stopped (.instructionLimit other.maxInstructions),
        other.maxInstructions⟩ ∨
    other.maxStackDepth < job.budget.maxStackDepth ∧
      trace.status = .stopped (.stackLimit other.maxStackDepth) ∨
    other.maxOutputBytes < job.budget.maxOutputBytes ∧
      other.maxOutputBytes < b.machine.output.bytes ∧
      trace.status = .stopped (.outputLimit other.maxOutputBytes) ∧
      trace.output = a.machine.output.lines := by
  obtain ⟨i, -, charged, -⟩ := Configuration.tick_eq_go_iff.mp crossing.goes
  obtain ⟨-, executed, -⟩ := Meter.charge_eq_ok_iff.mp charged
  have sandboxed := (crossing.reached.step crossing.goes).sandboxed
  obtain ⟨breach, n, exceeds, rfl⟩ := crossing.stopped
  cases exceeds with
  | instructions spent =>
    have fits := crossing.fits.executed_le
    have allowed := sandboxed.executed_le
    have exhausted : a.meter.executed = other.maxInstructions := by omega
    exact .inl ⟨by omega, exhausted, by rw [exhausted]⟩
  | stack _ deep =>
    have allowed := sandboxed.depth_le
    exact .inr (.inl ⟨by omega, rfl⟩)
  | output _ long =>
    have allowed := sandboxed.bytes_le
    exact .inr (.inr ⟨by omega, long, rfl, rfl⟩)

/-- The lines printed up to a crossing at the output limit are as many of all lines as
fit. -/
theorem Crossing.prefix_iff (crossing : Crossing job clock other trace a b)
    (long : other.maxOutputBytes < b.machine.output.bytes) {lines : List String}
    (among : lines <+: (job.run clock).output) :
    printedBytes lines ≤ other.maxOutputBytes ↔ lines <+: a.machine.output.lines := by
  have reached := crossing.reached.step crossing.goes
  have of_fewer : ¬ b.machine.output.lines <+: lines → lines <+: a.machine.output.lines := by
    intro fewer
    rcases List.prefix_or_prefix_of_prefix among reached.lines_isPrefix with shorter | longer
    · rcases Configuration.lines_of_tick crossing.goes with same | ⟨line, printed⟩
      · rwa [same] at shorter
      · rcases List.prefix_concat_iff.mp (printed ▸ shorter) with all | before
        · exact absurd (by rw [printed, all]) fewer
        · exact before
    · exact absurd longer fewer
  constructor
  · intro cheap
    apply of_fewer
    intro longer
    have costly := printedBytes_le_of_isPrefix longer
    rw [← reached.sandboxed.bytes_eq] at costly
    omega
  · intro before
    have cheap := printedBytes_le_of_isPrefix before
    rw [← crossing.reached.sandboxed.bytes_eq] at cheap
    exact cheap.trans crossing.fits.bytes_le

end Crossings

/-! ## Lowered limits -/

section Lowered

variable {program : Program} {budget : Budget} {clock clock' : Clock}

/-- One instruction short, or more: the run stops in front of the first instruction
that is not allowed. -/
theorem run_of_fewer_instructions {n : Nat}
    (fewer : n < (Job.run ⟨program, budget⟩ clock).executed)
    (inTime : (Job.run ⟨program, { budget with maxInstructions := n }⟩ clock').InTime) :
    ∃ c, Reached ⟨program, budget⟩ clock c ∧ c.meter.executed = n ∧
      Job.run ⟨program, { budget with maxInstructions := n }⟩ clock' =
        ⟨c.machine.output.lines, .stopped (.instructionLimit n), n⟩ := by
  obtain ⟨last, reached, ends⟩ := exists_last ⟨program, budget⟩ clock
  rcases reached.follow inTime with ⟨fits, follows⟩ | ⟨a, b, crossing⟩
  · -- The instruction that is missing is the one that ends the run.
    have allowed : last.meter.executed ≤ n := fits.executed_le
    rcases ends.executed_cases with same | ⟨charged, i, fetched⟩
    · omega
    have exhausted : last.meter.executed = n := by omega
    refine ⟨last, reached, exhausted, ?_⟩
    have spent : (last.under { budget with maxInstructions := n }).meter.allowance = 0 := by
      simp only [Configuration.under]
      omega
    have refused : EndsWith ⟨program, { budget with maxInstructions := n }⟩
        (clock' last.meter.executed) (last.under { budget with maxInstructions := n }) _ :=
      .refused fetched (Meter.charge_eq_error_iff.mpr (.inl ⟨spent, rfl⟩))
    rw [← follows.run_eq]
    subst exhausted
    exact Configuration.run_of_done (Configuration.tick_eq_done_iff.mpr refused)
  · rcases crossing.trace_cases with ⟨-, exhausted, eq⟩ | ⟨lower, -⟩ | ⟨lower, -⟩
    · exact ⟨a, crossing.reached, exhausted, eq⟩
    · exact absurd lower (Nat.lt_irrefl _)
    · exact absurd lower (Nat.lt_irrefl _)

/-- One byte short, or more: the run stops with as many of its lines as fit. -/
theorem run_of_fewer_bytes {bytes : Nat}
    (fewer : bytes < printedBytes (Job.run ⟨program, budget⟩ clock).output)
    (inTime : (Job.run ⟨program, { budget with maxOutputBytes := bytes }⟩ clock').InTime) :
    (Job.run ⟨program, { budget with maxOutputBytes := bytes }⟩ clock').status =
      .stopped (.outputLimit bytes) ∧
    (Job.run ⟨program, { budget with maxOutputBytes := bytes }⟩ clock').output <+:
      (Job.run ⟨program, budget⟩ clock).output ∧
    ∀ lines, lines <+: (Job.run ⟨program, budget⟩ clock).output →
      (printedBytes lines ≤ bytes ↔ lines <+:
        (Job.run ⟨program, { budget with maxOutputBytes := bytes }⟩ clock').output) := by
  obtain ⟨last, reached, ends⟩ := exists_last ⟨program, budget⟩ clock
  rw [ends.output_eq, ← reached.sandboxed.bytes_eq] at fewer
  have beyond : ¬ Fits { budget with maxOutputBytes := bytes } last :=
    fun fits => Nat.not_lt.mpr fits.bytes_le fewer
  obtain ⟨a, b, crossing⟩ := reached.exists_crossing inTime beyond
  rcases crossing.trace_cases with ⟨lower, -⟩ | ⟨lower, -⟩ | ⟨-, long, status, output⟩
  · exact absurd lower (Nat.lt_irrefl _)
  · exact absurd lower (Nat.lt_irrefl _)
  · rw [output]
    refine ⟨status, crossing.reached.lines_isPrefix, ?_⟩
    intro lines among
    exact crossing.prefix_iff long among

/-- One slot short, or more: the run stops at the first push that needs it. -/
theorem run_of_fewer_slots {depth slots : Nat}
    (reachable : depth ∈ reachedDepths ⟨program, budget⟩ clock) (fewer : slots < depth)
    (inTime : (Job.run ⟨program, { budget with maxStackDepth := slots }⟩ clock').InTime) :
    (Job.run ⟨program, { budget with maxStackDepth := slots }⟩ clock').status =
      .stopped (.stackLimit slots) := by
  obtain ⟨c, reached, rfl⟩ := reachable
  have beyond : ¬ Fits { budget with maxStackDepth := slots } c :=
    fun fits => Nat.not_lt.mpr fits.depth_le fewer
  obtain ⟨a, b, crossing⟩ := reached.exists_crossing inTime beyond
  rcases crossing.trace_cases with ⟨lower, -⟩ | ⟨-, status⟩ | ⟨lower, -⟩
  · exact absurd lower (Nat.lt_irrefl _)
  · exact status
  · exact absurd lower (Nat.lt_irrefl _)

/-- What a run uses is enough for it. -/
theorem run_of_exact_limits {depth : Nat}
    (greatest : IsGreatest (reachedDepths ⟨program, budget⟩ clock) depth)
    (concluded : (Job.run ⟨program, budget⟩ clock).Concluded) {tight : Budget}
    (instructions : tight.maxInstructions = (Job.run ⟨program, budget⟩ clock).executed)
    (bytes : tight.maxOutputBytes = printedBytes (Job.run ⟨program, budget⟩ clock).output)
    (slots : tight.maxStackDepth = depth) (inTime : (Job.run ⟨program, tight⟩ clock').InTime) :
    Job.run ⟨program, tight⟩ clock' = Job.run ⟨program, budget⟩ clock := by
  refine run_eq_of_fits inTime ?_ concluded instructions.ge
  intro c reached
  refine ⟨?_, ?_, ?_⟩
  · rw [instructions]
    exact reached.executed_le
  · rw [slots]
    exact greatest.2 ⟨c, reached, rfl⟩
  · rw [bytes, reached.sandboxed.bytes_eq]
    exact printedBytes_le_of_isPrefix reached.lines_isPrefix

end Lowered

/-- Every limit is exact: a run that ends on its own account ends alike with what it
has used, and with less of any one it is stopped where that is used up. -/
theorem limits_are_exact (program : Program) (budget : Budget) (clock : Clock)
    (concluded : (Job.run ⟨program, budget⟩ clock).Concluded) :
    (∀ n < (Job.run ⟨program, budget⟩ clock).executed, ∀ clock',
      (Job.run ⟨program, { budget with maxInstructions := n }⟩ clock').InTime →
      ∃ c, Reached ⟨program, budget⟩ clock c ∧ c.meter.executed = n ∧
        Job.run ⟨program, { budget with maxInstructions := n }⟩ clock' =
          ⟨c.machine.output.lines, .stopped (.instructionLimit n), n⟩) ∧
    (∀ bytes < printedBytes (Job.run ⟨program, budget⟩ clock).output, ∀ clock',
      (Job.run ⟨program, { budget with maxOutputBytes := bytes }⟩ clock').InTime →
      (Job.run ⟨program, { budget with maxOutputBytes := bytes }⟩ clock').status =
        .stopped (.outputLimit bytes) ∧
      (Job.run ⟨program, { budget with maxOutputBytes := bytes }⟩ clock').output <+:
        (Job.run ⟨program, budget⟩ clock).output ∧
      ∀ lines, lines <+: (Job.run ⟨program, budget⟩ clock).output →
        (printedBytes lines ≤ bytes ↔ lines <+:
          (Job.run ⟨program, { budget with maxOutputBytes := bytes }⟩ clock').output)) ∧
    ∃ depth, IsGreatest (reachedDepths ⟨program, budget⟩ clock) depth ∧
      (∀ slots < depth, ∀ clock',
        (Job.run ⟨program, { budget with maxStackDepth := slots }⟩ clock').InTime →
        (Job.run ⟨program, { budget with maxStackDepth := slots }⟩ clock').status =
          .stopped (.stackLimit slots)) ∧
      ∀ tight : Budget, tight.maxInstructions = (Job.run ⟨program, budget⟩ clock).executed →
        tight.maxOutputBytes = printedBytes (Job.run ⟨program, budget⟩ clock).output →
        tight.maxStackDepth = depth → ∀ clock', (Job.run ⟨program, tight⟩ clock').InTime →
        Job.run ⟨program, tight⟩ clock' = Job.run ⟨program, budget⟩ clock := by
  obtain ⟨depth, greatest⟩ := exists_isGreatest_reachedDepths ⟨program, budget⟩ clock
  refine ⟨?_, ?_, depth, greatest, ?_, ?_⟩
  · intro n fewer clock' inTime
    exact run_of_fewer_instructions fewer inTime
  · intro bytes fewer clock' inTime
    exact run_of_fewer_bytes fewer inTime
  · intro slots fewer clock' inTime
    exact run_of_fewer_slots greatest.1 fewer inTime
  · intro tight instructions bytes slots clock' inTime
    exact run_of_exact_limits greatest concluded instructions bytes slots inTime

/-- Counts down from two. -/
def countdown : Program where
  code := #[.push 2, .dup, .print, .push 1, .binary .sub, .dup, .jumpIf 1].map fun i =>
    ⟨i, ⟨0, 0, 1, 1⟩⟩
  labels := []

/-- The countdown takes thirteen instructions and four bytes: one instruction less and
it does not come to its end, one byte less and it does not come to its second line. -/
theorem limits_are_exact_countdown :
    (Job.run ⟨countdown, ⟨20, 1, 9, 9⟩⟩ .stopped).Concluded ∧
    (∃ lines, Job.run ⟨countdown, ⟨12, 1, 9, 9⟩⟩ .stopped =
      ⟨lines, .stopped (.instructionLimit 12), 12⟩) ∧
    (Job.run ⟨countdown, ⟨20, 1, 9, 3⟩⟩ .stopped).status = .stopped (.outputLimit 3) := by
  have concluded : (Job.run ⟨countdown, ⟨20, 1, 9, 9⟩⟩ .stopped).Concluded :=
    .inl (by decide +kernel)
  have early : ∀ n, Clock.stopped n < 1 := fun _ => Nat.one_pos
  obtain ⟨instructions, bytes, -⟩ := limits_are_exact countdown ⟨20, 1, 9, 9⟩ .stopped concluded
  obtain ⟨c, -, -, cut⟩ := instructions 12 (by decide +kernel) .stopped (inTime_of_clock early)
  obtain ⟨status, -⟩ := bytes 3 (by decide +kernel) .stopped (inTime_of_clock early)
  exact ⟨concluded, ⟨c.machine.output.lines, cut⟩, status⟩

end GlyphMachine
