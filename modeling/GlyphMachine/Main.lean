import GlyphMachine.CommandLine.Process

/-!
The command: reads the arguments, the standard input and the files that an invocation asks for, and
carries its plan out on the real ones.
-/

namespace GlyphMachine.Command

open GlyphMachine

/-- The cause of a failed operation of the system. -/
def fileError : IO.Error → FileError
  | .noFileOrDirectory .. => .notFound
  | .inappropriateType _ 21 _ => .isDirectory
  | .inappropriateType .. => .notDirectory
  | error => .other (toString error)

/-- The text of a file. -/
def readText (path : String) : IO (Except FileError String) := do
  try
    let bytes ← IO.FS.readBinFile path
    return match String.fromUTF8? bytes with
      | some text => .ok text
      | none => .error .invalidText
  catch error => return .error (fileError error)

/-- The source text of an invocation. -/
def readSource : Origin → IO (Except Failure String)
  | .inline source => return .ok source
  | .standardInput => do
    let bytes ← (← IO.getStdin).readBinToEnd
    return match String.fromUTF8? bytes with
      | some text => .ok text
      | none => .error (.read "<stdin>" .invalidText)
  | .file path => return (← readText path).mapError (.read path)

/-- Runs a program against the wall clock, which starts at the first fetch. -/
partial def runTimed (job : Job) : IO Trace := do
  let start ← IO.monoNanosNow
  let rec go (c : Configuration) : IO Trace := do
    let now ← if c.meter.executed = 0 then pure start else IO.monoNanosNow
    match c.tick job ((now - start) / 1000) with
    | .done trace => return trace
    | .go next => go next
  go (.initial job)

/-- Whether a record is shown at a verbosity. -/
def isShown (verbosity : Nat) (record : Record) : Bool :=
  match record.level with
  | .debug => 1 ≤ verbosity
  | .trace | .span => 2 ≤ verbosity

/-- Carries out one action. -/
def perform (verbosity : Nat) : Action → IO (Except Failure Unit)
  | .write text => do
    try
      let out ← IO.getStdout
      out.putStr text
      out.flush
      return .ok ()
    catch error => return .error (.write "<stdout>" (fileError error))
  | .append path text => do
    try
      let handle ← IO.FS.Handle.mk path .append
      handle.putStr text
      return .ok ()
    catch error => return .error (.write path (fileError error))
  | .log record => do
    if isShown verbosity record then IO.eprintln record.text
    return .ok ()

/-- Carries out actions up to the first that fails. -/
def performAll (verbosity : Nat) : List Action → IO (Except Failure Unit)
  | [] => return .ok ()
  | action :: actions => do
    match ← perform verbosity action with
    | .ok () => performAll verbosity actions
    | .error failure => return .error failure

/-- A whole invocation with a source. -/
def invoke (options : Options) (origin : Origin) : IO (Except Failure Outcome) := do
  match ← readSource origin with
  | .error failure => return .error failure
  | .ok source =>
    let trace ← match Program.parse source with
      | .ok program =>
        if options.dryRun then pure none else some <$> runTimed ⟨program, options.budget⟩
      | .error _ => pure none
    let engine : Engine := { budget := options.budget }
    let plan := Plan.ofSource options (fun program => trace.getD (engine.run program)) source
    match ← performAll options.verbosity plan.actions with
    | .ok () => return plan.ending
    | .error failure => return .error failure

/-- An interactive session: every line of the standard input is typed and entered. -/
partial def converse (engine : Engine) : IO (Except Failure Unit) := do
  let out ← IO.getStdout
  out.putStr Console.greeting
  out.flush
  unless ← out.isTty do
    return .error Invocation.noTerminal
  out.putStr Console.prompt
  out.flush
  let stdin ← IO.getStdin
  let rec go (editor : Editor) : IO Unit := do
    let line ← stdin.getLine
    if line.isEmpty then return
    let typed := (line.toList.filter (· ≠ '\n')).foldl Editor.insert editor
    let response := Console.enter engine typed
    out.putStr response.screen
    IO.eprint response.errors
    out.flush
    go response.editor
  go .empty
  return .ok ()

/-- The exit code of an invocation, after its failure was shown. -/
def conclude : Except Failure Nat → IO UInt32
  | .ok code => return code.toUInt32
  | .error failure => do
    IO.eprint failure.report
    return failure.exitCode.toUInt32

/-- Calls the command with the given arguments. -/
def call (arguments : List String) : IO UInt32 := do
  match Options.ofArguments arguments with
  | .error stop =>
    let result := stop.result
    (← IO.getStdout).write ⟨result.stdout.toArray⟩
    IO.eprint result.stderr
    return result.exitCode.toUInt32
  | .ok options =>
    match options.origin? with
    | some origin => conclude ((← invoke options origin).map (·.exitCode))
    | none => conclude ((← converse { budget := options.budget }).map fun () => 0)

end GlyphMachine.Command

/-- Calls the command with the arguments of the process. -/
def main (arguments : List String) : IO UInt32 :=
  GlyphMachine.Command.call arguments
