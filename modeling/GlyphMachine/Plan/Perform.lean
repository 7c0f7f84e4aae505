import GlyphMachine.Plan

/-!
Carrying a plan out on a workspace and an output. It stops at the first action that fails, and the
output keeps what it had taken by then.
-/

namespace GlyphMachine

/-- An output that may be full after a number of bytes. -/
structure Sink where
  room : Option Nat := none
  written : Text.Bytes := []
deriving DecidableEq

namespace Sink

/-- The output after writing bytes, of which it takes as many as fit, and whether all of them
did. -/
def write (s : Sink) (bytes : Text.Bytes) : Sink × Bool :=
  match s.room with
  | none => ({ s with written := s.written ++ bytes }, true)
  | some room =>
    (⟨some (room - bytes.length), s.written ++ bytes.take room⟩, bytes.length ≤ room)

end Sink

/-- What the actions of a plan work on. -/
structure Surroundings where
  workspace : Workspace
  sink : Sink
  /-- log records, first to last -/
  log : List Record := []

namespace Action

/-- Carries out one action. -/
def perform (s : Surroundings) : Action → Surroundings × Except Failure Unit
  | write text =>
    let (sink, complete) := s.sink.write (Text.encode text)
    ({ s with sink := sink },
      if complete then .ok () else .error (.write "<stdout>" (.other "full")))
  | append path text =>
    match s.workspace.append path text with
    | .ok workspace => ({ s with workspace := workspace }, .ok ())
    | .error error => (s, .error (.write path error))
  | log record => ({ s with log := s.log ++ [record] }, .ok ())

end Action

namespace Plan

/-- Carries out actions up to the first that fails. -/
def performAll (s : Surroundings) : List Action → Surroundings × Except Failure Unit
  | [] => (s, .ok ())
  | action :: actions =>
    match action.perform s with
    | (s, .ok ()) => performAll s actions
    | (s, .error failure) => (s, .error failure)

/-- Carries out a plan. -/
def perform (s : Surroundings) (p : Plan) : Surroundings × Except Failure Outcome :=
  match performAll s p.actions with
  | (s, .ok ()) => (s, p.ending)
  | (s, .error failure) => (s, .error failure)

end Plan

end GlyphMachine
