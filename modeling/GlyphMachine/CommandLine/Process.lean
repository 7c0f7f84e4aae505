import GlyphMachine.CommandLine.Arguments
import GlyphMachine.Console
import GlyphMachine.Invocation

/-!
Whole calls of the command: arguments in, texts on the standard streams and an exit code out.
-/

namespace GlyphMachine

/-- What a process leaves behind. -/
structure ProcessResult where
  stdout : Text.Bytes
  stderr : String
  exitCode : Nat

namespace UsageStop

/-- Name and version of the command. -/
def versionLine : String := "emojiasm 0.1.0\n"

/-- How the command is called. -/
def usageLines : String :=
  "Usage: emojiasm [OPTIONS] [FILE]\n\n"
    ++ "  [FILE]                       file to be run (none for an interactive session)\n"
    ++ "  -t, --tokens-output [PATH]   dump the tokens\n"
    ++ "  -p, --program-output [PATH]  dump the program listing\n"
    ++ "  -i, --inline SOURCE          read the program from the arguments\n"
    ++ "  -s, --stdin                  read the program from the standard input\n"
    ++ "  -d, --dry-run                only compile the program\n"
    ++ "      --max-instructions N     instruction ceiling for one run\n"
    ++ "      --time-limit-ms N        wall-clock ceiling for one run\n"
    ++ "      --max-stack N            stack depth ceiling for one run\n"
    ++ "      --max-output N           output ceiling for one run, in bytes\n"
    ++ "      --expect TEXT            check that the printed lines equal this text\n"
    ++ "      --expect-contains TEXT   check that the printed lines contain this text\n"
    ++ "  -v, --verbose                log more\n"
    ++ "  -h, --help                   print this help\n"
    ++ "  -V, --version                print the version\n"

/-- What is wrong with the arguments. -/
def message : UsageStop → String
  | unknownArgument => "unexpected argument found"
  | missingValue => "a value is required for an argument but none was supplied"
  | unneededValue => "an unexpected value was found for an argument"
  | invalidNumber => "invalid value for an argument: not a number in range"
  | conflict => "an argument cannot be used with another argument or more than once"
  | missingRequired => "a required argument was not provided"
  | help => "help was asked for"
  | version => "the version was asked for"

/-- Help and version go to the standard output and succeed, all else is an error. -/
def result : UsageStop → ProcessResult
  | help => ⟨Text.encode usageLines, "", 0⟩
  | version => ⟨Text.encode versionLine, "", 0⟩
  | stop => ⟨[], "error: " ++ stop.message ++ "\n\n" ++ usageLines, 2⟩

end UsageStop

namespace ProcessResult

/-- The result of a run: a failure is shown on the standard error. -/
def ofReport (report : RunReport) : ProcessResult :=
  match report.result with
  | .ok outcome => ⟨report.written, "", outcome.exitCode⟩
  | .error failure => ⟨report.written, failure.report, failure.exitCode⟩

/-- The result of calling the command away from a terminal, log records aside. An interactive
session greets before it finds out that there is no terminal. -/
def ofCall (arguments : List String) (workspace : Workspace) (stdin : String) : ProcessResult :=
  match Options.ofArguments arguments with
  | .error stop => stop.result
  | .ok options =>
    let (_, report) := Invocation.run ⟨options, workspace, stdin⟩ {}
    let result := ofReport report
    if options.hasInput then result
    else { result with stdout := Text.encode Console.greeting ++ result.stdout }

end ProcessResult

end GlyphMachine
