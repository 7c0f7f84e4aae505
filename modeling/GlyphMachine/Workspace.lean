import GlyphMachine.Text.Utf8

/-!
A workspace: the files that an invocation can read and append to, and what can go wrong with them.
Paths are relative to the workspace. Of what lies outside only the directories on the way up are
known.
-/

namespace GlyphMachine

/-- What can go wrong with a file, a stream or the terminal. -/
inductive FileError where
  | notFound
  | notDirectory
  | isDirectory
  | notTerminal
  | nameTooLong
  | nulInName
  | invalidText
  /-- any other cause, in the words of the system -/
  | other (text : String)
deriving DecidableEq, Repr

namespace FileError

def message : FileError → String
  | notFound => "No such file or directory (os error 2)"
  | notDirectory => "Not a directory (os error 20)"
  | isDirectory => "Is a directory (os error 21)"
  | notTerminal => "Inappropriate ioctl for device (os error 25)"
  | nameTooLong => "File name too long (os error 36)"
  | nulInName => "file name contained an unexpected NUL byte"
  | invalidText => "stream did not contain valid UTF-8"
  | other text => text

end FileError

/-- The names on the way to an entry. -/
abbrev Route := List String

/-- An entry of a workspace. -/
inductive Entry where
  | file (bytes : Text.Bytes)
  | directory
deriving DecidableEq, Repr

/-- Where a path leads: into the workspace, or to a directory outside. -/
inductive Location where
  | inside (route : Route)
  | outside
deriving DecidableEq, Repr

/-- Entries by their routes. -/
structure Workspace where
  entries : List (Route × Entry)
deriving DecidableEq, Repr

namespace Workspace

/-- The workspace without entries. -/
def empty : Workspace := ⟨[]⟩

/-- The entry at a location. The workspace itself is a directory. -/
def find? (w : Workspace) : Location → Option Entry
  | .outside | .inside [] => some .directory
  | .inside route => w.entries.lookup route

/-- The workspace with an entry put at a route, in the place of a former one. -/
def put (w : Workspace) (route : Route) (entry : Entry) : Workspace :=
  if (w.entries.lookup route).isSome then
    ⟨w.entries.map fun (r, e) => if r = route then (r, entry) else (r, e)⟩
  else ⟨w.entries ++ [(route, entry)]⟩

/-- The greatest size of a name in bytes. -/
def maxNameSize : Nat := 255

/-- The greatest size of a path in bytes. -/
def maxPathSize : Nat := 4095

/-- A path must be fit to be looked up at all, wherever it leads. -/
def checkPath (path : String) : Except FileError Unit :=
  if path.toList.contains '\x00' then .error .nulInName
  else if path = "" then .error .notFound
  else if maxPathSize < path.utf8ByteSize then .error .nameTooLong
  else .ok ()

/-- A directory must be at the location for a path to go on from there. -/
def enter (w : Workspace) (location : Location) : Except FileError Unit :=
  match w.find? location with
  | some .directory => .ok ()
  | some (.file _) => .error .notDirectory
  | none => .error .notFound

/-- The location that one name leads to. What stands there need not exist. -/
def step (location : Location) (name : String) : Except FileError Location :=
  if name = "" ∨ name = "." then .ok location
  else if name = ".." then
    match location with
    | .inside (name :: route) => .ok (.inside (name :: route).dropLast)
    | .inside [] | .outside => .ok .outside
  else if maxNameSize < name.utf8ByteSize then .error .nameTooLong
  else
    match location with
    | .inside route => .ok (.inside (route ++ [name]))
    | .outside => .error .notFound

/-- The location that names lead to, one after the other. -/
def walk (w : Workspace) (location : Location) : List String → Except FileError Location
  | [] => .ok location
  | name :: names => do
    w.enter location
    w.walk (← step location name) names

/-- The names in a path. -/
def names (path : List Char) : List String :=
  (path.splitOn '/').map String.ofList

/-- The location of a path, from the top if it starts with a slash. -/
def locate (w : Workspace) : List Char → Except FileError Location
  | '/' :: rest => w.walk .outside (names rest)
  | path => w.walk (.inside []) (names path)

/-- A path without the slashes at its end. -/
def dropSlashes (path : List Char) : List Char :=
  (path.reverse.dropWhile (· = '/')).reverse

/-- A path without its last name. The slash before that name stays, so that the rest names a
directory. -/
def dropName (path : List Char) : List Char :=
  (path.reverse.dropWhile (· ≠ '/')).reverse

/-- The text of a file. -/
def read (w : Workspace) (path : String) : Except FileError String := do
  checkPath path
  match w.find? (← w.locate path.toList) with
  | none => throw .notFound
  | some .directory => throw .isDirectory
  | some (.file bytes) =>
    match Text.decode? bytes with
    | some text => return text
    | none => throw .invalidText

/-- The location of a file to write to. A path that ends in a slash can only name a directory: its
last name is not looked up, the directory that would hold it is. -/
def locateTarget (w : Workspace) (path : List Char) : Except FileError Location := do
  let bare := dropSlashes path
  if bare = path then w.locate path
  else
    let _ ← w.locate (dropName bare)
    throw .isDirectory

/-- The workspace with a text at the end of a file, which is created if it is missing. -/
def append (w : Workspace) (path : String) (text : String) : Except FileError Workspace := do
  checkPath path
  let location ← w.locateTarget path.toList
  match location, w.find? location with
  | .outside, _ | _, some .directory => throw .isDirectory
  | .inside route, some (.file bytes) =>
    return w.put route (.file (bytes ++ Text.encode text))
  | .inside route, none => return w.put route (.file (Text.encode text))

/-- The files that stand directly in the workspace. -/
def files (w : Workspace) : List (String × Text.Bytes) :=
  w.entries.filterMap fun
    | ([name], .file bytes) => some (name, bytes)
    | _ => none

end Workspace

end GlyphMachine
