import GlyphMachine.Text.Blank
import GlyphMachine.Text.Bytes
import GlyphMachine.Text.Width

/-!
The line editor: the line being edited, with its cursor, and the lines that were submitted. One
step of the cursor goes over a whole cluster.
-/

namespace GlyphMachine

/-- The state of the editor. -/
structure Editor where
  /-- the line up to the cursor -/
  before : List Char
  /-- the line from the cursor on -/
  after : List Char
  /-- submitted lines, first to last -/
  history : List (List Char)
  /-- which submitted line was recalled last -/
  recalled : Option Nat
deriving DecidableEq, Repr

namespace Editor

/-- An empty line and no history. -/
def empty : Editor := ⟨[], [], [], none⟩

/-- The line being edited. -/
def line (e : Editor) : List Char :=
  e.before ++ e.after

/-- Byte offset of the cursor in the line. -/
def cursor (e : Editor) : Nat :=
  Text.byteSize e.before

/-- The line with the cursor at its end. -/
def withLine (e : Editor) (line : List Char) : Editor :=
  { e with before := line, after := [] }

/-- The clusters that end at or before the given byte offset, as one text, and the clusters after
them. -/
def clustersUpTo (offset : Nat) : List Text.Cluster → List Char × List Text.Cluster
  | [] => ([], [])
  | g :: gs =>
    if Text.byteSize g ≤ offset then
      let (inside, rest) := clustersUpTo (offset - Text.byteSize g) gs
      (g ++ inside, rest)
    else ([], g :: gs)

/-- Moves a cursor that stands inside a cluster to the end of that cluster. -/
def snap (e : Editor) : Editor :=
  let (inside, rest) := clustersUpTo e.cursor (Text.clusters e.line)
  if Text.byteSize inside < e.cursor then
    match rest with
    | [] => e.withLine e.line
    | g :: gs => { e with before := inside ++ g, after := gs.flatten }
  else e

/-- Types a character. It may join the cluster before it. -/
def insert (e : Editor) (c : Char) : Editor :=
  { e with before := e.before ++ [c] }.snap

/-- The text before the cursor without its last cluster, and that cluster. -/
def splitLast (e : Editor) : List Char × List Char :=
  let gs := Text.clusters e.before
  (gs.dropLast.flatten, gs.getLast?.getD [])

/-- Removes the cluster before the cursor. -/
def backspace (e : Editor) : Editor :=
  { e with before := e.splitLast.1 }

/-- Moves over the cluster before the cursor. -/
def left (e : Editor) : Editor :=
  { e with before := e.splitLast.1, after := e.splitLast.2 ++ e.after }

/-- Moves over the cluster after the cursor. -/
def right (e : Editor) : Editor :=
  match Text.clusters e.after with
  | [] => e
  | g :: gs => { e with before := e.before ++ g, after := gs.flatten }

/-- Moves to the start of the line. -/
def home (e : Editor) : Editor :=
  { e with before := [], after := e.line }

/-- Moves to the end of the line. -/
def toEnd (e : Editor) : Editor :=
  e.withLine e.line

/-- Shows a submitted line. -/
def showPast (e : Editor) (index : Nat) : Editor :=
  { e with before := e.history.getD index [], after := [], recalled := some index }

/-- Recalls the line submitted before the one shown. -/
def up (e : Editor) : Editor :=
  match e.recalled with
  | some 0 => e
  | some (index + 1) => e.showPast index
  | none => if e.history.isEmpty then e else e.showPast (e.history.length - 1)

/-- Recalls the line submitted after the one shown, or an empty line after the last. -/
def down (e : Editor) : Editor :=
  match e.recalled with
  | none => e
  | some index =>
    if index + 1 < e.history.length then e.showPast (index + 1)
    else { e with before := [], after := [], recalled := none }

/-- Whether the line holds nothing but white space. -/
def isBlank (e : Editor) : Bool :=
  Text.allBlank e.line

/-- Empties the line. What was recalled last stays as it is. -/
def clear (e : Editor) : Editor :=
  { e with before := [], after := [] }

/-- Empties the line and adds it to the history. -/
def submit (e : Editor) : Editor where
  before := []
  after := []
  history := e.history ++ [e.line]
  recalled := none

@[simp] theorem line_withLine (e : Editor) (line : List Char) : (e.withLine line).line = line := by
  simp [withLine, Editor.line]

@[simp] theorem line_home (e : Editor) : e.home.line = e.line := by
  simp [home, line]

@[simp] theorem line_toEnd (e : Editor) : e.toEnd.line = e.line := by
  simp [toEnd]

/-- What stands before the cursor is its last cluster and what comes before that. -/
theorem splitLast_append (e : Editor) : e.splitLast.1 ++ e.splitLast.2 = e.before := by
  have whole := Text.flatten_clusters e.before
  simp only [splitLast]
  rcases last : (Text.clusters e.before).getLast? with _ | g
  · simp_all [List.getLast?_eq_none_iff]
  · obtain ⟨front, split⟩ := List.getLast?_eq_some_iff.mp last
    rw [split] at whole ⊢
    simpa using whole

@[simp] theorem line_left (e : Editor) : e.left.line = e.line := by
  simp [left, line, ← List.append_assoc, splitLast_append]

@[simp] theorem line_right (e : Editor) : e.right.line = e.line := by
  have whole := Text.flatten_clusters e.after
  unfold right
  split
  · rfl
  · rename_i g gs cut
    rw [cut] at whole
    simp [line, ← whole]

/-- Display columns between the cursor and the end of the line. -/
def tailWidth (e : Editor) : Nat :=
  Text.displayWidth e.after

end Editor

end GlyphMachine
