import GlyphMachine.CommandLine.Options
import GlyphMachine.Text.Decimal

/-!
Arguments of the command line, read from left to right. A setting may come before its value; it is
entered only when the next thing is met, so what is wrong with it is found then, after an argument
that is not understood at all. Which options exclude or need each other is checked at the end.
-/

namespace GlyphMachine

/-- Why no options come of the arguments: something is wrong with them, or help or the version was
asked for. -/
inductive UsageStop where
  | unknownArgument
  /-- a setting without its value -/
  | missingValue
  /-- a flag with a value -/
  | unneededValue
  | invalidNumber
  | conflict
  | missingRequired
  | help
  | version
deriving DecidableEq, Repr

/-- Options that take no value. -/
inductive Flag where
  | stdin
  | dryRun
  | verbose
  | help
  | version
deriving DecidableEq, Repr

/-- Options that take a value, and the file name that stands by itself. -/
inductive Setting where
  | tokensDump
  | programDump
  | inline
  | maxInstructions
  | timeLimit
  | maxStackDepth
  | maxOutputBytes
  | expect
  | expectContains
  | file
deriving DecidableEq, Repr

/-- A named option. -/
inductive Switch where
  | flag (flag : Flag)
  | setting (setting : Setting)
deriving DecidableEq, Repr

namespace Switch

/-- The option of a long name. -/
def ofLong? : String → Option Switch
  | "tokens-output" => some (setting .tokensDump)
  | "program-output" => some (setting .programDump)
  | "inline" => some (setting .inline)
  | "stdin" => some (flag .stdin)
  | "dry-run" => some (flag .dryRun)
  | "max-instructions" => some (setting .maxInstructions)
  | "time-limit-ms" => some (setting .timeLimit)
  | "max-stack" => some (setting .maxStackDepth)
  | "max-output" => some (setting .maxOutputBytes)
  | "expect" => some (setting .expect)
  | "expect-contains" => some (setting .expectContains)
  | "verbose" => some (flag .verbose)
  | "help" => some (flag .help)
  | "version" => some (flag .version)
  | _ => none

/-- The option of a letter. -/
def ofLetter? : Char → Option Switch
  | 't' => some (setting .tokensDump)
  | 'p' => some (setting .programDump)
  | 'i' => some (setting .inline)
  | 's' => some (flag .stdin)
  | 'd' => some (flag .dryRun)
  | 'v' => some (flag .verbose)
  | 'h' => some (flag .help)
  | 'V' => some (flag .version)
  | _ => none

end Switch

namespace Options

/-- The greatest number an option takes, one less than two to the sixty-fourth. -/
def maxNumber : Nat := 18446744073709551615

/-- The greatest verbosity. -/
def maxVerbosity : Nat := 255

/-- A number that an option takes. -/
def number (text : String) : Except UsageStop Nat :=
  match Text.natural? text.toList with
  | some n => if n ≤ maxNumber then .ok n else .error .invalidNumber
  | none => .error .invalidNumber

/-- The value of a setting that needs one. -/
def required (value : Option String) : Except UsageStop String :=
  match value with
  | some text => .ok text
  | none => .error .missingValue

/-- A setting may be given once. -/
def once {α : Type} (former : Option α) : Except UsageStop Unit :=
  if former.isSome then .error .conflict else .ok ()

/-- The destination of a dump. -/
def destination : Option String → Destination
  | some path => .file path
  | none => .output

/-- One more flag. -/
def enterFlag (o : Options) : Flag → Except UsageStop Options
  | .stdin => if o.stdin then .error .conflict else .ok { o with stdin := true }
  | .dryRun => if o.dryRun then .error .conflict else .ok { o with dryRun := true }
  | .verbose => .ok { o with verbosity := min (o.verbosity + 1) maxVerbosity }
  | .help => .error .help
  | .version => .error .version

/-- One more setting. The value has to be there before the setting is found to be given twice, and
that before its number is read. -/
def enterSetting (o : Options) (setting : Setting) (value : Option String) :
    Except UsageStop Options :=
  match setting with
  | .tokensDump => do
    once o.tokensDump
    return { o with tokensDump := some (destination value) }
  | .programDump => do
    once o.programDump
    return { o with programDump := some (destination value) }
  | .inline => do
    let text ← required value
    once o.inline
    return { o with inline := some text }
  | .maxInstructions => do
    let text ← required value
    once o.maxInstructions
    return { o with maxInstructions := some (← number text) }
  | .timeLimit => do
    let text ← required value
    once o.timeLimit
    return { o with timeLimit := some (← number text) }
  | .maxStackDepth => do
    let text ← required value
    once o.maxStackDepth
    return { o with maxStackDepth := some (← number text) }
  | .maxOutputBytes => do
    let text ← required value
    once o.maxOutputBytes
    return { o with maxOutputBytes := some (← number text) }
  | .expect => do
    let text ← required value
    once o.expect
    return { o with expect := some text }
  | .expectContains => do
    let text ← required value
    once o.expectContains
    return { o with expectContains := some text }
  | .file => do
    let text ← required value
    once o.file
    return { o with file := some text }

/-- Number of sources given. -/
def sourceCount (o : Options) : Nat :=
  o.inline.toList.length + o.file.toList.length + if o.stdin then 1 else 0

/-- There is at most one source and one expectation, and dumps and expectations need a source. -/
def check (o : Options) : Except UsageStop Options :=
  if 1 < o.sourceCount then .error .conflict
  else if o.expect.isSome ∧ o.expectContains.isSome then .error .conflict
  else if o.sourceCount = 0 ∧ (o.tokensDump.isSome ∨ o.programDump.isSome
      ∨ o.expect.isSome ∨ o.expectContains.isSome) then .error .missingRequired
  else .ok o

end Options

/-- A setting that was met, and its value if that has come already. -/
structure PendingSetting where
  setting : Setting
  value : Option String
deriving DecidableEq, Repr

/-- What the arguments read so far amount to. -/
structure ArgumentReader where
  options : Options := {}
  pending : Option PendingSetting := none
  /-- the file name has been met -/
  fileMet : Bool := false
deriving DecidableEq, Repr

namespace ArgumentReader

/-- Enters the setting that was met last. -/
def flush (r : ArgumentReader) : Except UsageStop ArgumentReader :=
  match r.pending with
  | none => .ok r
  | some p => do
    let options ← r.options.enterSetting p.setting p.value
    return { r with options := options, pending := none }

/-- A flag. -/
def meetFlag (r : ArgumentReader) (flag : Flag) : Except UsageStop ArgumentReader := do
  let r ← r.flush
  return { r with options := ← r.options.enterFlag flag }

/-- A setting whose value may follow. -/
def meetSetting (r : ArgumentReader) (setting : Setting) :
    Except UsageStop ArgumentReader := do
  let r ← r.flush
  return { r with pending := some ⟨setting, none⟩ }

/-- A setting with its value attached. -/
def meetAttached (r : ArgumentReader) (setting : Setting) (value : String) :
    Except UsageStop ArgumentReader := do
  let r ← r.flush
  return { r with options := ← r.options.enterSetting setting (some value) }

/-- An argument that stands by itself: the file name, of which there is one. -/
def meetFile (r : ArgumentReader) (path : String) : Except UsageStop ArgumentReader :=
  if r.fileMet then .error .unknownArgument
  else do
    let r ← r.flush
    return { r with pending := some ⟨.file, some path⟩, fileMet := true }

/-- An argument that is no option: the value of the setting just met, or the file name. -/
def meetPlain (r : ArgumentReader) (text : String) : Except UsageStop ArgumentReader :=
  match r.pending with
  | some ⟨setting, none⟩ => .ok { r with pending := some ⟨setting, some text⟩ }
  | _ => r.meetFile text

/-- A long option: its name, and its value behind an equals sign. -/
def meetLong (r : ArgumentReader) (name : String) (value : Option String) :
    Except UsageStop ArgumentReader :=
  match Switch.ofLong? name, value with
  | none, _ => .error .unknownArgument
  | some (.flag _), some _ => .error .unneededValue
  | some (.flag flag), none => r.meetFlag flag
  | some (.setting setting), none => r.meetSetting setting
  | some (.setting setting), some value => r.meetAttached setting value

/-- Letters bundled behind one dash: flags, and at the end a setting, whose value may be attached
with or without an equals sign. -/
def meetLetters (r : ArgumentReader) : List Char → Except UsageStop ArgumentReader
  | [] => .ok r
  | c :: cs =>
    match Switch.ofLetter? c with
    | none => .error .unknownArgument
    | some (.flag flag) =>
      match r.meetFlag flag with
      | .error stop => .error stop
      | .ok r => r.meetLetters cs
    | some (.setting setting) =>
      match cs with
      | [] => r.meetSetting setting
      | '=' :: value => r.meetAttached setting (String.ofList value)
      | value => r.meetAttached setting (String.ofList value)

/-- Name and value of a long option. -/
def splitLong (cs : List Char) : String × Option String :=
  let name := cs.takeWhile (· ≠ '=')
  match cs.dropWhile (· ≠ '=') with
  | [] => (String.ofList name, none)
  | _ :: value => (String.ofList name, some (String.ofList value))

/-- One argument before any double dash. -/
def meet (r : ArgumentReader) (argument : String) : Except UsageStop ArgumentReader :=
  match argument.toList with
  | '-' :: '-' :: cs =>
    let (name, value) := splitLong cs
    r.meetLong name value
  | '-' :: c :: cs => r.meetLetters (c :: cs)
  | _ => r.meetPlain argument

/-- All arguments. After a double dash every argument stands by itself. -/
def readAll (r : ArgumentReader) : List String → Except UsageStop ArgumentReader
  | [] => r.flush
  | "--" :: rest => do
    let r ← rest.foldlM meetFile r
    r.flush
  | argument :: rest =>
    match r.meet argument with
    | .error stop => .error stop
    | .ok r => r.readAll rest

end ArgumentReader

namespace Options

/-- The options that the arguments give. -/
def ofArguments (arguments : List String) : Except UsageStop Options := do
  let r ← ArgumentReader.readAll {} arguments
  r.options.check

end Options

end GlyphMachine
