import GlyphMachine.Engine
import GlyphMachine.Proofs.Machine.Rebudget

/-!
# Raising a budget

A run that its budget does not stop stays the same under any larger one, and a run
that is stopped is only continued: it prints what it has printed, and more may
follow. A verdict that does not blame the budget is therefore final.
-/

namespace GlyphMachine

/-- A run in time executes every instruction it comes to and is allowed. -/
theorem Reached.lt_executed {job : Job} {clock : Clock} {c : Configuration} {i : Instruction}
    (inTime : (job.run clock).InTime) (reached : Reached job clock c)
    (fetched : job.program.get? c.machine.pc = some i)
    (allowed : c.meter.executed < job.budget.maxInstructions) :
    c.meter.executed < (job.run clock).executed := by
  rcases ticked : c.tick job (clock c.meter.executed) with next | trace
  · obtain ⟨-, -, charged, -⟩ := Configuration.tick_eq_go_iff.mp ticked
    obtain ⟨-, executed, -⟩ := Meter.charge_eq_ok_iff.mp charged
    have later := (reached.step ticked).executed_le
    omega
  · have ends := Configuration.tick_eq_done_iff.mp ticked
    rw [← reached.run_eq, Configuration.run_of_done ticked]
    cases ends with
    | finished none => simp [none] at fetched
    | refused _ refused =>
      have metered := reached.executed_add_allowance
      have early := reached.early inTime fetched allowed
      rcases Meter.charge_eq_error_iff.mp refused with ⟨spent, -⟩ | ⟨-, late, -⟩ <;> omega
    | halt _ charged | breach _ charged | fault _ charged =>
      obtain ⟨-, executed, -⟩ := Meter.charge_eq_ok_iff.mp charged
      simp only [Configuration.finish]
      omega

section Raised

variable {program : Program} {budget other : Budget} {clock clock' : Clock} {c : Configuration}
  (instructions : budget.maxInstructions ≤ other.maxInstructions)
  (stack : budget.maxStackDepth ≤ other.maxStackDepth)
  (output : budget.maxOutputBytes ≤ other.maxOutputBytes)

include instructions stack output

theorem Reached.fits_of_le (reached : Reached ⟨program, budget⟩ clock c) : Fits other c where
  executed_le := Nat.le_trans reached.sandboxed.executed_le instructions
  depth_le := Nat.le_trans reached.sandboxed.depth_le (Nat.le_trans (Nat.min_le_left _ _) stack)
  bytes_le := Nat.le_trans reached.sandboxed.bytes_le output

/-- The run under a larger budget passes through the end of the run under the
smaller one. -/
theorem exists_end_under (inTime : (Job.run ⟨program, other⟩ clock').InTime) :
    ∃ last, Reached ⟨program, budget⟩ clock last ∧
      EndsWith ⟨program, budget⟩ (clock last.meter.executed) last
        (Job.run ⟨program, budget⟩ clock) ∧
      Reached ⟨program, other⟩ clock' (last.under other) := by
  obtain ⟨last, reached, ends⟩ := exists_last ⟨program, budget⟩ clock
  have within c (reached : Reached ⟨program, budget⟩ clock c) : Fits other c :=
    reached.fits_of_le instructions stack output
  exact ⟨last, reached, ends, reached.under inTime within⟩

theorem run_output_isPrefix (inTime : (Job.run ⟨program, other⟩ clock').InTime) :
    (Job.run ⟨program, budget⟩ clock).output <+: (Job.run ⟨program, other⟩ clock').output := by
  obtain ⟨last, -, ends, follows⟩ := exists_end_under instructions stack output inTime
  rw [ends.output_eq]
  exact follows.lines_isPrefix

theorem run_executed_le (inTime : (Job.run ⟨program, other⟩ clock').InTime) :
    (Job.run ⟨program, budget⟩ clock).executed ≤ (Job.run ⟨program, other⟩ clock').executed := by
  obtain ⟨last, reached, ends, follows⟩ := exists_end_under instructions stack output inTime
  have respected := (ends.respects reached).executed_le
  rcases ends.executed_cases with same | ⟨charged, i, fetched⟩
  · rw [same]
    exact follows.executed_le
  · rw [charged] at respected ⊢
    have later := follows.lt_executed inTime fetched (Nat.lt_of_lt_of_le respected instructions)
    exact later

theorem run_eq_of_concluded (inTime : (Job.run ⟨program, other⟩ clock').InTime)
    (concluded : (Job.run ⟨program, budget⟩ clock).Concluded) :
    Job.run ⟨program, other⟩ clock' = Job.run ⟨program, budget⟩ clock := by
  obtain ⟨last, reached, ends, -⟩ := exists_end_under instructions stack output inTime
  have respected := (ends.respects reached).executed_le
  refine run_eq_of_fits inTime ?_ concluded (Nat.le_trans respected instructions)
  intro c reached
  exact reached.fits_of_le instructions stack output

end Raised

/-- Only the verdict on a run that was stopped blames the budget. -/
theorem Expectation.concluded_of_judge {expectation : Expectation} {t : Trace}
    (final : (expectation.judge t).passed ∨
      ∃ reason, (expectation.judge t).reason = some reason ∧ reason.failureClass ≠ .budget) :
    t.Concluded := by
  rcases t with ⟨output, _ | fault | breach, executed⟩
  · exact .inl rfl
  · exact .inr ⟨fault, rfl⟩
  · rcases final with passed | ⟨reason, ⟨⟩, other⟩
    · cases passed
    · exact absurd rfl other

theorem runSource_inTime {e : Engine} {source : String} {t : Trace}
    (early : ∀ n, e.clock n < e.budget.timeLimit) (ran : e.runSource source = .ok t) :
    t.InTime := by
  unfold Engine.runSource at ran
  rcases parsed : Program.parse source with errors | program
  · rw [parsed] at ran
    cases ran
  · rw [parsed] at ran
    cases ran
    exact inTime_of_clock early

/-- Raising the ceilings of a budget only continues a run, and changes nothing about
one that ended on its own account. -/
theorem raised_budget_extends_run (budget other : Budget)
    (instructions : budget.maxInstructions ≤ other.maxInstructions)
    (stack : budget.maxStackDepth ≤ other.maxStackDepth)
    (output : budget.maxOutputBytes ≤ other.maxOutputBytes) (clock clock' : Clock) :
    (∀ program, (Job.run ⟨program, other⟩ clock').InTime →
      (Job.run ⟨program, budget⟩ clock).output <+: (Job.run ⟨program, other⟩ clock').output ∧
      (Job.run ⟨program, budget⟩ clock).executed ≤ (Job.run ⟨program, other⟩ clock').executed ∧
      ((Job.run ⟨program, budget⟩ clock).Concluded →
        Job.run ⟨program, other⟩ clock' = Job.run ⟨program, budget⟩ clock)) ∧
    ∀ source expectation,
      (∀ t, Engine.runSource ⟨other, clock'⟩ source = .ok t → t.InTime) →
      ((Engine.validateStep ⟨budget, clock⟩ source expectation).passed ∨
        ∃ reason, (Engine.validateStep ⟨budget, clock⟩ source expectation).reason = some reason ∧
          reason.failureClass ≠ .budget) →
      Engine.validateStep ⟨other, clock'⟩ source expectation =
        Engine.validateStep ⟨budget, clock⟩ source expectation := by
  refine ⟨?_, ?_⟩
  · intro program inTime
    exact ⟨run_output_isPrefix instructions stack output inTime,
      run_executed_le instructions stack output inTime,
      run_eq_of_concluded instructions stack output inTime⟩
  · intro source expectation inTime final
    unfold Engine.validateStep Engine.runSource at *
    rcases parsed : Program.parse source with errors | program
    · rfl
    · simp only [parsed, Except.map] at inTime final ⊢
      have concluded := Expectation.concluded_of_judge final
      have same := run_eq_of_concluded instructions stack output (inTime _ rfl) concluded
      rw [Engine.run, Engine.run, same]

/-- A submission that passes with exactly what it needs keeps its verdict. -/
theorem raised_budget_extends_submission :
    (Engine.validateStep ⟨⟨2, 1, 1, 2⟩, .stopped⟩ "📥 7 🖨" (.lines ["7"])).passed ∧
    Engine.validateStep ⟨⟨9, 1, 9, 9⟩, .stopped⟩ "📥 7 🖨" (.lines ["7"]) =
      Engine.validateStep ⟨⟨2, 1, 1, 2⟩, .stopped⟩ "📥 7 🖨" (.lines ["7"]) := by
  have passed : (Engine.validateStep ⟨⟨2, 1, 1, 2⟩, .stopped⟩ "📥 7 🖨" (.lines ["7"])).passed := by
    decide +kernel
  obtain ⟨-, verdicts⟩ := raised_budget_extends_run ⟨2, 1, 1, 2⟩ ⟨9, 1, 9, 9⟩ (by decide)
    (by decide) (by decide) .stopped .stopped
  refine ⟨passed, verdicts "📥 7 🖨" (.lines ["7"]) ?_ (.inl passed)⟩
  intro t ran
  exact runSource_inTime (fun _ => Nat.one_pos) ran

end GlyphMachine
