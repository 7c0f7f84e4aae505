import GlyphMachine.Budget
import GlyphMachine.Expectation

/-!
Options of one invocation: where the source comes from, what to dump, the budget and what to check.
-/

namespace GlyphMachine

/-- Where a dump goes. -/
inductive Destination where
  /-- to the standard output -/
  | output
  /-- to the end of a file -/
  | file (path : String)
deriving DecidableEq, Repr

/-- Where the source text comes from. -/
inductive Origin where
  /-- it stands in the arguments -/
  | inline (source : String)
  | standardInput
  | file (path : String)
deriving DecidableEq, Repr

/-- The options given on a command line. -/
structure Options where
  tokensDump : Option Destination := none
  programDump : Option Destination := none
  inline : Option String := none
  stdin : Bool := false
  file : Option String := none
  /-- assemble the program without running it -/
  dryRun : Bool := false
  maxInstructions : Option Nat := none
  /-- in milliseconds -/
  timeLimit : Option Nat := none
  maxStackDepth : Option Nat := none
  maxOutputBytes : Option Nat := none
  expect : Option String := none
  expectContains : Option String := none
  verbosity : Nat := 0
deriving DecidableEq, Repr

namespace Options

/-- Where the source comes from; without one the invocation is interactive. -/
def origin? (o : Options) : Option Origin :=
  match o.inline, o.stdin, o.file with
  | some source, _, _ => some (.inline source)
  | none, true, _ => some .standardInput
  | none, false, some path => some (.file path)
  | none, false, none => none

/-- Whether the invocation has a source to work on. -/
def hasInput (o : Options) : Bool :=
  o.origin?.isSome

/-- The standard budget with the given ceilings in place of its own. -/
def budget (o : Options) : Budget where
  maxInstructions := o.maxInstructions.getD Budget.standard.maxInstructions
  timeLimit := (o.timeLimit.map (· * Budget.millisecond)).getD Budget.standard.timeLimit
  maxStackDepth := o.maxStackDepth.getD Budget.standard.maxStackDepth
  maxOutputBytes := o.maxOutputBytes.getD Budget.standard.maxOutputBytes

/-- What to check the run against. -/
def expectation? (o : Options) : Option Expectation :=
  match o.expect with
  | some text => some (.exact text)
  | none => o.expectContains.map .contains

/-- What log records call the source. -/
def sourceName (o : Options) : String :=
  o.file.getD "<inline>"

/-- The options after a run: a source given in the arguments is used up. -/
def consume (o : Options) : Options :=
  { o with inline := none }

end Options

end GlyphMachine
