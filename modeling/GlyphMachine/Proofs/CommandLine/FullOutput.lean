import GlyphMachine.Proofs.CommandLine.Agreement

/-!
# Outputs that become full

An output takes what fits, however the bytes are cut into writes (`Sink.write_append`).
Carrying out actions that leave the files alone is therefore one write of all their
bytes (`Plan.performAll_of_spareFiles`), and an invocation on an output with little room
differs from one on an output that is never full in the bytes beyond the room only, and in
that it fails for the lack of it (`RunReport.CutAt`).
-/

namespace GlyphMachine

/-! ## Writing in pieces -/

namespace Sink

@[simp] theorem write_nil (s : Sink) : s.write [] = (s, true) := by
  obtain ⟨_ | room, written⟩ := s
  · simp [write]
  · simp [write]

/-- Bytes can be written in two pieces, of which the second is written if the first was
written whole. -/
theorem write_append (s : Sink) (first second : Text.Bytes) :
    s.write (first ++ second) =
      if (s.write first).2 then (s.write first).1.write second else s.write first := by
  obtain ⟨_ | room, written⟩ := s
  · simp [write]
  · by_cases fits : first.length ≤ room
    · have front : first.take room = first := List.take_of_length_le fits
      have sizes : first.length + second.length ≤ room ↔ second.length ≤ room - first.length := by
        omega
      simp [write, fits, front, List.take_append, sizes, Nat.sub_sub]
    · have nothing : room - first.length = 0 := by omega
      have nothing' : room - (first.length + second.length) = 0 := by omega
      have tooLong : ¬ first.length + second.length ≤ room := by omega
      simp [write, fits, List.take_append, nothing, nothing', tooLong]

end Sink

/-! ## Plans as one write -/

/-- The failure of an action for which the standard output has no room. -/
def Failure.outputFull : Failure :=
  .write "<stdout>" (.other "full")

/-- Success if all bytes were written, and failure for lack of room if not. -/
def writeResult (complete : Bool) : Except Failure Unit :=
  if complete then .ok () else .error .outputFull

/-- An action that leaves the files alone does nothing but write its bytes. -/
theorem Action.perform_of_sparesFiles (s : Surroundings) {action : Action}
    (spares : action.SparesFiles) :
    ∃ log, action.perform s =
      (⟨s.workspace, (s.sink.write action.bytes).1, log⟩,
        writeResult (s.sink.write action.bytes).2) := by
  cases action with
  | write text => exact ⟨s.log, rfl⟩
  | append path text => exact spares.elim
  | log record => exact ⟨s.log ++ [record], by simp [perform, bytes, writeResult]⟩

namespace Plan

/-- Actions that leave the files alone write their bytes one after the other, as far as
they fit. -/
theorem performAll_of_spareFiles (s : Surroundings) {actions : List Action}
    (spare : ∀ a ∈ actions, a.SparesFiles) :
    ∃ log, performAll s actions =
      (⟨s.workspace, (s.sink.write (actions.flatMap Action.bytes)).1, log⟩,
        writeResult (s.sink.write (actions.flatMap Action.bytes)).2) := by
  induction actions generalizing s with
  | nil => exact ⟨s.log, by simp [performAll, writeResult]⟩
  | cons action actions ih =>
    obtain ⟨spares, spareRest⟩ := List.forall_mem_cons.mp spare
    obtain ⟨log, first⟩ := action.perform_of_sparesFiles s spares
    rw [List.flatMap_cons, Sink.write_append, performAll, first]
    cases complete : (s.sink.write action.bytes).2 with
    | true => exact ih ⟨s.workspace, (s.sink.write action.bytes).1, log⟩ spareRest
    | false => exact ⟨log, by simp [writeResult, complete]⟩

/-- A plan that leaves the files alone ends as laid down if all that it writes fits. -/
theorem perform_of_spareFiles (s : Surroundings) {p : Plan}
    (spare : ∀ a ∈ p.actions, a.SparesFiles) :
    ∃ log, p.perform s =
      (⟨s.workspace, (s.sink.write (p.actions.flatMap Action.bytes)).1, log⟩,
        if (s.sink.write (p.actions.flatMap Action.bytes)).2 then p.ending
        else .error .outputFull) := by
  obtain ⟨log, all⟩ := performAll_of_spareFiles s spare
  refine ⟨log, ?_⟩
  rw [perform, all]
  cases (s.sink.write (p.actions.flatMap Action.bytes)).2 <;> rfl

/-- The actions of a plan without dumps to files leave the files alone. -/
theorem spareFiles_ofSource {o : Options} (e : Engine) (source : String)
    (noFiles : o.DumpsToOutput) :
    ∀ a ∈ (ofSource o e.run source).actions, a.SparesFiles := by
  rcases parsed : Program.parse source with errors | program
  · exact (ofSource_refused e noFiles parsed).1.spareFiles
  · exact (ofSource_accepted e noFiles parsed).1.spareFiles

end Plan

/-! ## Room for some bytes -/

/-- The run is as the whole one up to the given number of bytes, and fails if that wrote
more. -/
structure RunReport.CutAt (room : Nat) (whole cut : RunReport) : Prop where
  written_eq : cut.written = whole.written.take (min room whole.written.length)
  result_of_fits : whole.written.length ≤ room → cut.result = whole.result
  result_of_full : room < whole.written.length →
    (∃ error, cut.result = .error (.write "<stdout>" error)) ∧
      (ProcessResult.ofReport cut).exitCode = 3

/-- What one write of all bytes makes of a run. -/
theorem RunReport.cutAt_of_write (room : Nat) (bytes : Text.Bytes) (log log' : List Record)
    (ending : Except Failure Outcome) :
    CutAt room ⟨bytes, log, ending⟩ ⟨bytes.take room, log',
      if bytes.length ≤ room then ending else .error .outputFull⟩ where
  written_eq := List.take_eq_take_min
  result_of_fits fits := if_pos fits
  result_of_full full := by
    have failed := Nat.not_le_of_lt full
    simp only [ProcessResult.ofReport, if_neg failed]
    exact ⟨⟨_, rfl⟩, rfl⟩

/-- A plan that leaves the files alone, carried out on an output with some room and on one
that is never full. -/
theorem Plan.cutAt_perform (workspace : Workspace) (room : Nat) {p : Plan}
    (spare : ∀ a ∈ p.actions, a.SparesFiles) :
    RunReport.CutAt room (.ofPerformed (p.perform ⟨workspace, {}, []⟩))
      (.ofPerformed (p.perform ⟨workspace, ⟨some room, []⟩, []⟩)) := by
  obtain ⟨log, whole⟩ := perform_of_spareFiles ⟨workspace, {}, []⟩ spare
  obtain ⟨log', cut⟩ := perform_of_spareFiles ⟨workspace, ⟨some room, []⟩, []⟩ spare
  rw [whole, cut]
  have written := RunReport.cutAt_of_write room (p.actions.flatMap Action.bytes) log log' p.ending
  simpa only [RunReport.ofPerformed, Sink.write, List.nil_append, decide_eq_true_eq, if_true]
    using written

namespace Invocation

/-- An invocation that dumps to no file, on an output with room for so many bytes and then
no more, writes as many of the bytes that it would write on an output that is never full. If
these are all, it ends in the same way; if not, it fails to write, however it would have ended.
So does its plan under any clock. -/
theorem full_output_keeps_what_fits (i : Invocation) (room : Nat)
    (noFiles : i.options.DumpsToOutput) :
    RunReport.CutAt room (i.run {}).2 (i.run ⟨some room, []⟩).2 ∧
      ∀ clock source,
        let engine : Engine := ⟨i.options.budget, clock⟩
        let plan := Plan.ofSource i.options engine.run source
        RunReport.CutAt room (.ofPerformed (plan.perform ⟨i.workspace, {}, []⟩))
          (.ofPerformed (plan.perform ⟨i.workspace, ⟨some room, []⟩, []⟩)) := by
  have planned (e : Engine) (source : String) :=
    Plan.cutAt_perform i.workspace room (Plan.spareFiles_ofSource e source noFiles)
  refine ⟨?_, fun clock source => planned _ source⟩
  have unwritten (result : Except Failure Outcome) :=
    RunReport.cutAt_of_write room [] [] [] result
  cases given : i.options.origin? with
  | none => simpa [run, given] using unwritten (.error noTerminal)
  | some origin =>
    cases yields : i.source origin with
    | error failure => simpa [run, given, yields] using unwritten (.error failure)
    | ok source =>
      rw [run_of_source _ given yields, run_of_source _ given yields]
      exact planned i.engine source

/-- The dump of two tokens does not fit, so that the jump to a label that is defined nowhere
is not reported. -/
theorem full_output_keeps_part_of_dump :
    let i : Invocation :=
      { options := { tokensDump := some .output, inline := some "🦘 x" }
        workspace := .empty
        stdin := "" }
    (i.run {}).2.written = Text.encode "1:1\tOpcode(🦘 jump)\n1:3\tLabel(x)\n\n" ∧
      (ProcessResult.ofReport (i.run {}).2).exitCode = 2 ∧
      (i.run ⟨some 5, []⟩).2.written = Text.encode "1:1\tO" ∧
      (ProcessResult.ofReport (i.run ⟨some 5, []⟩).2).exitCode = 3 := by
  intro i
  have written : (i.run {}).2.written =
      Text.encode "1:1\tOpcode(🦘 jump)\n1:3\tLabel(x)\n\n" := by
    decide +kernel
  have noFiles : i.options.DumpsToOutput := ⟨by simp [i], by simp [i]⟩
  obtain ⟨cut, -⟩ := full_output_keeps_what_fits i 5 noFiles
  refine ⟨written, by decide +kernel, ?_, ?_⟩
  · rw [cut.written_eq, written]
    decide +kernel
  · refine (cut.result_of_full ?_).2
    rw [written]
    decide +kernel

end Invocation

end GlyphMachine
