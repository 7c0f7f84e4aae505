import GlyphMachine.Engine

/-!
Log records: what each activity of the engine leaves in the log. The records are read off the
results, so that the activities themselves need not know of the log.
-/

namespace GlyphMachine

/-- How closely one has to look to see a record. -/
inductive Level where
  | debug
  | trace
  /-- the start of a nested activity -/
  | span
deriving DecidableEq, Repr

/-- A log record. -/
inductive Record where
  | lexingFailed (errors : Nat)
  | parsingFailed (errors : Nat)
  | parsed (tokens instructions labels : Nat)
  | compiled (source : String) (instructions : Nat)
  | runStarted (instructions : Nat)
  | runFinished (status : Status) (executed : Nat)
  | budgetExceeded (breach : Breach) (executed outputLines : Nat)
  | submissionRejected (errors : Nat)
  | stepValidated (passed : Bool) (instructions : Nat)
deriving DecidableEq

namespace Record

def level : Record → Level
  | runStarted _ => .span
  | runFinished .. => .trace
  | _ => .debug

/-- The record without its level: a message and the fields that go with it. -/
def body : Record → String
  | lexingFailed errors => "lexing failed errors=" ++ toString errors
  | parsingFailed errors => "parsing failed errors=" ++ toString errors
  | parsed tokens instructions labels =>
    "program parsed tokens=" ++ toString tokens ++ " instructions=" ++ toString instructions
      ++ " labels=" ++ toString labels
  | compiled source instructions =>
    "compiled source=" ++ Text.quoted source ++ " instructions=" ++ toString instructions
  | runStarted instructions => "run_bounded instructions=" ++ toString instructions
  | runFinished status executed =>
    "run finished status=" ++ status.message ++ " executed=" ++ toString executed
  | budgetExceeded breach executed outputLines =>
    "budget exceeded limit=" ++ Text.quoted breach.name ++ " executed=" ++ toString executed
      ++ " output_lines=" ++ toString outputLines
  | submissionRejected errors =>
    "submission rejected before execution errors=" ++ toString errors
  | stepValidated passed instructions =>
    "step validated passed=" ++ toString passed ++ " instructions=" ++ toString instructions

/-- The record as one line. -/
def text (r : Record) : String :=
  let level := match r.level with
    | .debug => "DEBUG "
    | .trace => "TRACE "
    | .span => "SPAN "
  level ++ r.body

/-- The records of reading a source text. -/
def ofParse (source : String) : List Record :=
  match tokenize source with
  | .error errors => [lexingFailed errors.length]
  | .ok tokens =>
    match Program.ofTokens tokens with
    | .error errors => [parsingFailed errors.length]
    | .ok program => [parsed tokens.length program.size program.labels.length]

/-- The records of a run under a budget. -/
def ofRun (program : Program) (trace : Trace) : List Record :=
  let ending := match trace.status with
    | .stopped breach => budgetExceeded breach trace.executed trace.output.length
    | status => runFinished status trace.executed
  [runStarted program.size, ending]

/-- The records of running a source text. -/
def ofRunSource (e : Engine) (source : String) : List Record :=
  ofParse source ++
    match Program.parse source with
    | .error _ => []
    | .ok program => ofRun program (e.run program)

/-- The records of validating a submission. -/
def ofValidateStep (e : Engine) (source : String) (expectation : Expectation) : List Record :=
  ofRunSource e source ++
    match e.runSource source with
    | .error errors => [submissionRejected errors.count]
    | .ok trace => [stepValidated (expectation.judge trace).passed trace.executed]

end Record

end GlyphMachine
