import GlyphMachine.Plan.Perform

/-!
Invocations: options together with the files and the standard input they work on. An invocation can
be run again, but what it has read from the standard input or the arguments is used up.
-/

namespace GlyphMachine

/-- The options of an invocation and what it finds around it. -/
structure Invocation where
  options : Options
  workspace : Workspace
  /-- what can be read from the standard input -/
  stdin : String

/-- What one run of an invocation did. -/
structure RunReport where
  /-- bytes on the standard output -/
  written : Text.Bytes
  log : List Record
  result : Except Failure Outcome

namespace Invocation

/-- The engine of an invocation. -/
def engine (i : Invocation) : Engine :=
  { budget := i.options.budget }

/-- The source text, if it can be read. -/
def source (i : Invocation) : Origin → Except Failure String
  | .inline source => .ok source
  | .standardInput => .ok i.stdin
  | .file path => (i.workspace.read path).mapError (.read path)

/-- The invocation after its source was read: the standard input is at its end, and a source in the
arguments is used up. -/
def consume (i : Invocation) : Origin → Invocation
  | .inline _ => { i with options := i.options.consume }
  | .standardInput => { i with stdin := "" }
  | .file _ => i

/-- Why an interactive session fails where the standard output is no terminal. -/
def noTerminal : Failure :=
  .write "<terminal>" .notTerminal

/-- One run with its output into a sink, away from a terminal. -/
def run (i : Invocation) (sink : Sink) : Invocation × RunReport :=
  match i.options.origin? with
  | none => (i, ⟨sink.written, [], .error noTerminal⟩)
  | some origin =>
    let next := i.consume origin
    match i.source origin with
    | .error failure => (next, ⟨sink.written, [], .error failure⟩)
    | .ok source =>
      let plan := Plan.ofSource i.options i.engine.run source
      let (s, result) := plan.perform ⟨i.workspace, sink, []⟩
      ({ next with workspace := s.workspace }, ⟨s.sink.written, s.log, result⟩)

/-- A number of runs, one after the other, each with an output of its own. -/
def runs (i : Invocation) (sink : Sink) : Nat → Invocation × List RunReport
  | 0 => (i, [])
  | n + 1 =>
    let (next, report) := i.run sink
    let (last, reports) := next.runs sink n
    (last, report :: reports)

end Invocation

end GlyphMachine
