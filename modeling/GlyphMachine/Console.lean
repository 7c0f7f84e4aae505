import GlyphMachine.Editor
import GlyphMachine.Engine
import GlyphMachine.SyntaxErrors.Report

/-!
The console: an interactive session on a terminal, in which every submitted line is a program. It
is given as what each event does to the editor and what it writes.
-/

namespace GlyphMachine

/-- A key. The enter key is the character line feed. -/
inductive Key where
  | char (c : Char)
  | control (c : Char)
  | backspace
  | left
  | right
  | up
  | down
  | home
  | toEnd
  /-- any other key -/
  | other
deriving DecidableEq, Repr

/-- An event of the terminal. -/
inductive Event where
  | key (key : Key)
  /-- anything but a key -/
  | other
deriving DecidableEq, Repr

/-- What an event leads to. -/
structure Response where
  editor : Editor
  /-- text for the terminal -/
  screen : String := ""
  /-- text for the standard error -/
  errors : String := ""
  /-- the line that was run -/
  ran : Option String := none
  /-- the session is over -/
  finished : Bool := false

namespace Console

/-- What stands before the line being edited. -/
def prompt : String := "> "

/-- What the console says first. -/
def greeting : String :=
  "EmojiASM v" ++ toString languageVersion ++ " (" ++ toString Word.bits ++ "-bit words)\n"
    ++ "one program per line, ctrl-d to exit\n"

/-- Terminals count columns in sixteen bits. -/
def columnRange : Nat := 65536

/-- The escape sequence that moves the terminal's cursor to the left. -/
def moveLeft (columns : Nat) : String :=
  "\x1b[" ++ toString (columns % columnRange) ++ "D"

/-- Writes the line anew and puts the terminal's cursor where the editor's is. -/
def redraw (e : Editor) : String :=
  "\r\x1b[2K" ++ prompt ++ String.ofList e.line
    ++ if 0 < e.tailWidth then moveLeft e.tailWidth else ""

/-- Runs a line: printed lines for the terminal, errors and how the run ended for the standard
error. -/
def interpret (engine : Engine) (source : String) : String × String :=
  match engine.runSource source with
  | .error errors => ("", errors.report .red source)
  | .ok trace =>
    let ending := if trace.status.isHalted then "" else trace.status.message ++ "\n"
    (String.join (trace.output.map (· ++ "\n")), ending)

/-- The enter key: a blank line is discarded, any other is run. -/
def enter (engine : Engine) (e : Editor) : Response :=
  if e.isBlank then { editor := e.clear, screen := "\r\n" ++ prompt }
  else
    let source := String.ofList e.line
    let (screen, errors) := interpret engine source
    { editor := e.submit
      screen := "\r\n" ++ screen ++ "\r\n" ++ prompt
      errors := errors
      ran := some source }

/-- The editor after a key other than enter; there is none if the key means nothing to it. -/
def edit? (e : Editor) : Key → Option Editor
  | .char c => some (e.insert c)
  | .backspace => some e.backspace
  | .left => some e.left
  | .right => some e.right
  | .up => some e.up
  | .down => some e.down
  | .home | .control 'a' => some e.home
  | .toEnd | .control 'e' => some e.toEnd
  | .control _ | .other => none

/-- The response to an event. -/
def respond (engine : Engine) (e : Editor) : Event → Response
  | .other => { editor := e }
  | .key (.char '\n') => enter engine e
  | .key (.control 'c') | .key (.control 'd') =>
    { editor := e, screen := "\r\nExiting REPL\r\n", finished := true }
  | .key key =>
    match edit? e key with
    | some edited => { editor := edited, screen := redraw edited }
    | none => { editor := e }

/-- The responses to a sequence of events, up to the one that ends the session. -/
def responses (engine : Engine) (e : Editor) : List Event → List Response
  | [] => []
  | event :: events =>
    let response := respond engine e event
    response :: if response.finished then [] else responses engine response.editor events

/-- Everything written to the terminal in a session. -/
def screen (engine : Engine) (events : List Event) : String :=
  greeting ++ prompt ++ String.join ((responses engine .empty events).map (·.screen))

/-- Everything written to the standard error in a session. -/
def errors (engine : Engine) (events : List Event) : String :=
  String.join ((responses engine .empty events).map (·.errors))

end Console

end GlyphMachine
