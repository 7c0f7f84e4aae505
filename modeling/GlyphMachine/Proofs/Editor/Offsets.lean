import GlyphMachine.Proofs.Editor.ClusterEdges

/-!
# The editor on byte offsets

`Editor` keeps the two sides of the cursor apart, so there is no cut that it could
miss. `OffsetEditor` is the same editor with its line as one text and the cursor as a
byte offset into it: it cuts the text before every key that needs a side, fails where
the offset is no place between two characters, and fails where a line of the history
is asked for that is not there. `states?_ofEditor` says that it never fails in a session,
and goes through the states that the console goes through.
-/

namespace GlyphMachine

open Text (Cluster clusters byteSize splitAtByte?)

/-- The editor with a byte offset for its cursor. -/
structure OffsetEditor where
  input : List Char
  cursor : Nat
  history : List (List Char)
  recalled : Option Nat
deriving DecidableEq

namespace OffsetEditor

/-- An empty line and no history. -/
def empty : OffsetEditor := ⟨[], 0, [], none⟩

/-- The line on both sides of the cursor, if the cursor is between two characters. -/
def sides? (o : OffsetEditor) : Option (List Char × List Char) :=
  splitAtByte? o.cursor o.input

/-- Where the clusters end that end at or before an offset, counted on from `position`. -/
def edgeBefore (offset : Nat) (position : Nat) : List Cluster → Nat
  | [] => position
  | g :: gs =>
    if offset < position + byteSize g then position
    else edgeBefore offset (position + byteSize g) gs

/-- Moves a cursor that stands inside a cluster to the end of that cluster. -/
def snap? (o : OffsetEditor) : Option OffsetEditor :=
  let edge := edgeBefore o.cursor 0 (clusters o.input)
  if edge < o.cursor ∧ o.sides?.isSome then do
    let (_, rest) ← splitAtByte? edge o.input
    return { o with cursor := edge + ((clusters rest).head?.map byteSize).getD 0 }
  else some o

def insert? (o : OffsetEditor) (c : Char) : Option OffsetEditor := do
  let (before, after) ← o.sides?
  { o with input := before ++ c :: after, cursor := o.cursor + c.utf8Size }.snap?

/-- Where the cluster before the cursor starts; nowhere if there is none. -/
def previous? (o : OffsetEditor) : Option (Option Nat) := do
  let (before, _) ← o.sides?
  match (clusters before).getLast? with
  | none => some none
  | some g => if byteSize g ≤ o.cursor then some (some (o.cursor - byteSize g)) else none

/-- The text with a stretch of it removed, if the stretch lies between characters. -/
def remove? (start stop : Nat) (text : List Char) : Option (List Char) :=
  if start ≤ stop then do
    let (before, _) ← splitAtByte? start text
    let (_, after) ← splitAtByte? stop text
    return before ++ after
  else none

def backspace? (o : OffsetEditor) : Option OffsetEditor := do
  match ← o.previous? with
  | none => return o
  | some previous =>
    return { o with input := ← remove? previous o.cursor o.input, cursor := previous }

def left? (o : OffsetEditor) : Option OffsetEditor := do
  match ← o.previous? with
  | none => return o
  | some previous => return { o with cursor := previous }

def right? (o : OffsetEditor) : Option OffsetEditor := do
  let (_, after) ← o.sides?
  match (clusters after).head? with
  | none => return o
  | some g => return { o with cursor := o.cursor + byteSize g }

/-- Shows a line of the history, if there is one of that index. -/
def showPast? (o : OffsetEditor) (index : Nat) : Option OffsetEditor := do
  let line ← o.history[index]?
  return { o with input := line, cursor := byteSize line, recalled := some index }

def up? (o : OffsetEditor) : Option OffsetEditor :=
  match o.recalled with
  | some 0 => some o
  | some (index + 1) => o.showPast? index
  | none => if o.history.isEmpty then some o else o.showPast? (o.history.length - 1)

def down? (o : OffsetEditor) : Option OffsetEditor :=
  match o.recalled with
  | none => some o
  | some index =>
    if index + 1 < o.history.length then o.showPast? (index + 1)
    else some { o with input := [], cursor := 0, recalled := none }

/-- Empties the line, and keeps it in the history unless it is blank. -/
def enter (o : OffsetEditor) : OffsetEditor :=
  if Text.allBlank o.input then { o with input := [], cursor := 0 }
  else ⟨[], 0, o.history ++ [o.input], none⟩

/-- The line is drawn anew, which needs the side after the cursor. -/
def drawn? (o : OffsetEditor) : Option OffsetEditor :=
  o.sides?.map fun _ => o

/-- The editor after a key other than enter; a key without a meaning changes nothing. -/
def press? (o : OffsetEditor) : Key → Option OffsetEditor
  | .char c => (o.insert? c).bind drawn?
  | .backspace => o.backspace?.bind drawn?
  | .left => o.left?.bind drawn?
  | .right => o.right?.bind drawn?
  | .up => o.up?.bind drawn?
  | .down => o.down?.bind drawn?
  | .home | .control 'a' => drawn? { o with cursor := 0 }
  | .toEnd | .control 'e' => drawn? { o with cursor := byteSize o.input }
  | .control _ | .other => some o

/-- The editor after an event. -/
def respond? (o : OffsetEditor) : Event → Option OffsetEditor
  | .other => some o
  | .key (.char '\n') => some o.enter
  | .key key => o.press? key

/-- The editors after each event of a session. -/
def states? (o : OffsetEditor) : List Event → Option (List OffsetEditor)
  | [] => some []
  | event :: events => do
    let next ← o.respond? event
    let later ← if Console.ends event then some [] else next.states? events
    return next :: later

/-- An editor with its cursor as an offset. -/
def ofEditor (e : Editor) : OffsetEditor :=
  ⟨e.line, e.cursor, e.history, e.recalled⟩

/-! ## Cuts that the keys make -/

@[simp] theorem sides?_ofEditor (e : Editor) : (ofEditor e).sides? = some (e.before, e.after) :=
  Text.splitAtByte?_append e.before e.after

theorem edgeBefore_eq (offset position : Nat) (gs : List Cluster) :
    edgeBefore (position + offset) position gs =
      position + byteSize (Editor.clustersUpTo offset gs).1 := by
  induction gs generalizing offset position with
  | nil => rfl
  | cons g gs ih =>
    rw [edgeBefore, Editor.clustersUpTo]
    by_cases fits : byteSize g ≤ offset
    · have later := ih (offset - byteSize g) (position + byteSize g)
      rw [show position + byteSize g + (offset - byteSize g) = position + offset by omega] at later
      rw [if_neg (by omega), if_pos fits, later, Text.byteSize_append]
      omega
    · rw [if_pos (by omega), if_neg fits, Text.byteSize_nil, Nat.add_zero]

theorem snap?_ofEditor (e : Editor) : (ofEditor e).snap? = some (ofEditor e.snap) := by
  obtain ⟨inside, cut, front, -, -⟩ := Editor.clustersUpTo_spec e.cursor (clusters e.line)
  have edge : edgeBefore e.cursor 0 (clusters e.line) = byteSize inside.flatten := by
    have found := edgeBefore_eq e.cursor 0 (clusters e.line)
    rw [Nat.zero_add, Nat.zero_add, front] at found
    exact found
  have same := e.line_snap
  simp only [snap?, sides?_ofEditor, Option.isSome_some, and_true]
  simp only [ofEditor, edge, same]
  by_cases behind : byteSize inside.flatten < e.cursor
  · -- The text behind the edge begins with the cluster that the cursor stands in.
    have whole := Text.flatten_clusters e.line
    rw [cut, List.flatten_append] at whole
    have found := Text.splitAtByte?_append inside.flatten
      (Editor.clustersUpTo e.cursor (clusters e.line)).2.flatten
    rw [whole] at found
    have rest := Text.clusters_flatten_suffix cut
    simp only [Editor.snap, front, if_pos behind, found, Option.bind_eq_bind, Option.bind_some,
      rest]
    rcases next : (Editor.clustersUpTo e.cursor (clusters e.line)).2 with _ | ⟨g, gs⟩
    · rw [next, List.flatten_nil, List.append_nil] at whole
      simp [whole, Editor.withLine, Editor.cursor]
    · simp [Editor.cursor]
  · simp only [Editor.snap, front, if_neg behind]

theorem insert?_ofEditor (e : Editor) (c : Char) :
    (ofEditor e).insert? c = some (ofEditor (e.insert c)) := by
  have typed : (⟨e.before ++ c :: e.after, e.cursor + c.utf8Size, e.history, e.recalled⟩ :
      OffsetEditor) = ofEditor { e with before := e.before ++ [c] } := by
    simp [ofEditor, Editor.line, Editor.cursor]
  simp only [insert?, sides?_ofEditor, Option.bind_eq_bind, Option.bind_some]
  exact (congrArg snap? typed).trans (snap?_ofEditor _)

/-- The cluster before the cursor begins where the text before it ends. -/
theorem previous?_ofEditor (e : Editor) :
    (e.before = [] ∧ e.splitLast = ([], []) ∧ (ofEditor e).previous? = some none) ∨
      (ofEditor e).previous? = some (some (byteSize e.splitLast.1)) := by
  simp only [previous?, sides?_ofEditor, Option.bind_eq_bind, Option.bind_some]
  rcases e.splitLast_cases with ⟨atStart, split⟩ | ⟨front, g, cut, split⟩
  · left
    simp [atStart, split]
  · right
    have whole := Text.flatten_clusters e.before
    rw [cut, List.flatten_append, List.flatten_singleton] at whole
    have size : e.cursor = byteSize front.flatten + byteSize g := by
      rw [Editor.cursor, ← whole, Text.byteSize_append]
    simp [cut, split, ofEditor, size]

/-- What backspace removes lies between the two cuts that it makes. -/
theorem remove?_splitLast (e : Editor) :
    remove? (byteSize e.splitLast.1) e.cursor e.line = some (e.splitLast.1 ++ e.after) := by
  have whole := e.splitLast_append
  have first := Text.splitAtByte?_append e.splitLast.1 (e.splitLast.2 ++ e.after)
  rw [← List.append_assoc, whole] at first
  have second := Text.splitAtByte?_append e.before e.after
  have ordered : byteSize e.splitLast.1 ≤ byteSize e.before := by
    rw [← whole, Text.byteSize_append]
    exact Nat.le_add_right _ _
  simp [remove?, Editor.line, Editor.cursor, ordered, first, second]

theorem backspace?_ofEditor (e : Editor) :
    (ofEditor e).backspace? = some (ofEditor e.backspace) := by
  rcases previous?_ofEditor e with ⟨atStart, split, previous⟩ | previous
  · simp only [backspace?, previous, Option.bind_eq_bind, Option.bind_some]
    simp [ofEditor, Editor.backspace, Editor.line, Editor.cursor, atStart, split]
  · have removed := remove?_splitLast e
    simp only [backspace?, previous, Option.bind_eq_bind, Option.bind_some]
    simp only [ofEditor, removed, Option.bind_some]
    rfl

theorem left?_ofEditor (e : Editor) : (ofEditor e).left? = some (ofEditor e.left) := by
  have same := e.line_left
  rcases previous?_ofEditor e with ⟨atStart, split, previous⟩ | previous
  · simp only [left?, previous, Option.bind_eq_bind, Option.bind_some]
    simp only [ofEditor, same]
    simp [Editor.left, Editor.cursor, atStart, split]
  · simp only [left?, previous, Option.bind_eq_bind, Option.bind_some]
    simp only [ofEditor, same]
    rfl

theorem right?_ofEditor (e : Editor) : (ofEditor e).right? = some (ofEditor e.right) := by
  have same := e.line_right
  simp only [right?, sides?_ofEditor, Option.bind_eq_bind, Option.bind_some]
  simp only [ofEditor, same]
  unfold Editor.right
  rcases clusters e.after with _ | ⟨g, gs⟩
  · rfl
  · simp [Editor.cursor]

end OffsetEditor

/-! ## Lines of the history -/

theorem Editor.history_up (e : Editor) : e.up.history = e.history := by
  unfold up
  split
  · rfl
  · rfl
  · split <;> rfl

theorem Editor.history_down (e : Editor) : e.down.history = e.history := by
  unfold down
  split
  · rfl
  · split <;> rfl

/-- No edit changes the history, and what was recalled last changes by going up or down
only. -/
theorem Console.edit?_record {e edited : Editor} {key : Key}
    (edits : edit? e key = some edited) :
    edited.history = e.history ∧
      (edited.recalled = e.recalled ∨ edited = e.up ∨ edited = e.down) := by
  unfold edit? at edits
  split at edits <;> simp only [Option.some.injEq, reduceCtorEq] at edits <;> subst edits
  case h_1 c =>
    obtain ⟨-, -, -, -, -, history, recalled⟩ :=
      Editor.snap_cases { e with before := e.before ++ [c] }
    exact ⟨history, .inl recalled⟩
  case h_4 =>
    unfold Editor.right
    split
    · exact ⟨rfl, .inl rfl⟩
    · exact ⟨rfl, .inl rfl⟩
  case h_5 => exact ⟨e.history_up, .inr (.inl rfl)⟩
  case h_6 => exact ⟨e.history_down, .inr (.inr rfl)⟩
  all_goals exact ⟨rfl, .inl rfl⟩

/-- What was recalled last is a line of the history. -/
def Editor.RecallsLine (e : Editor) : Prop :=
  ∀ index, e.recalled = some index → index < e.history.length

namespace Editor.RecallsLine

variable {e edited : Editor}

/-- The line shown last can still be shown if neither it nor the history has changed. -/
theorem of_same (recalls : e.RecallsLine) (history : edited.history = e.history)
    (recalled : edited.recalled = e.recalled) : edited.RecallsLine := by
  intro index isRecalled
  rw [history]
  exact recalls index (recalled ▸ isRecalled)

theorem showPast {index : Nat} (present : index < e.history.length) :
    (e.showPast index).RecallsLine := by
  intro shown isRecalled
  obtain rfl := Option.some.inj isRecalled
  exact present

theorem of_recalled_eq_none (nothing : e.recalled = none) : e.RecallsLine := by
  intro index isRecalled
  rw [nothing] at isRecalled
  cases isRecalled

theorem up (recalls : e.RecallsLine) : e.up.RecallsLine := by
  unfold Editor.up
  split
  · exact recalls
  · rename_i index recalled
    exact showPast (Nat.lt_of_succ_lt (recalls _ recalled))
  · split
    · exact recalls
    · rename_i filled
      have positive := List.length_pos_iff.mpr (mt List.isEmpty_iff.mpr filled)
      exact showPast (Nat.sub_one_lt_of_lt positive)

theorem down (recalls : e.RecallsLine) : e.down.RecallsLine := by
  unfold Editor.down
  split
  · exact recalls
  · split
    · rename_i present
      exact showPast present
    · exact of_recalled_eq_none rfl

theorem edit? (recalls : e.RecallsLine) {key : Key} (edits : Console.edit? e key = some edited) :
    edited.RecallsLine := by
  obtain ⟨history, recalled | rfl | rfl⟩ := Console.edit?_record edits
  · exact recalls.of_same history recalled
  · exact recalls.up
  · exact recalls.down

/-- Whatever happens, what was recalled last is a line of the history. -/
theorem respond (recalls : e.RecallsLine) (engine : Engine) (event : Event) :
    (Console.respond engine e event).editor.RecallsLine := by
  rcases Console.respond_cases engine e event with
    ⟨-, same, -⟩ | ⟨-, entered⟩ | ⟨key, edited, -, -, edits, given⟩
  · rw [same]
    exact recalls
  · rw [entered]
    rcases Console.enter_cases engine e with ⟨-, cleared, -⟩ | ⟨-, submitted, -⟩
    · rw [cleared]
      exact recalls.of_same rfl rfl
    · rw [submitted]
      exact of_recalled_eq_none rfl
  · rw [given]
    exact recalls.edit? edits

end Editor.RecallsLine

namespace OffsetEditor

theorem showPast?_ofEditor {e : Editor} {index : Nat} (present : index < e.history.length) :
    (ofEditor e).showPast? index = some (ofEditor (e.showPast index)) := by
  simp [showPast?, ofEditor, Editor.showPast, Editor.line, Editor.cursor, present]

theorem up?_ofEditor {e : Editor} (recalls : e.RecallsLine) :
    (ofEditor e).up? = some (ofEditor e.up) := by
  rcases e with ⟨before, after, history, _ | _ | index⟩
  · by_cases fresh : history.isEmpty
    · simp [up?, Editor.up, ofEditor, fresh]
    · have positive := List.length_pos_iff.mpr (mt List.isEmpty_iff.mpr fresh)
      have shown := showPast?_ofEditor (e := ⟨before, after, history, none⟩)
        (Nat.sub_one_lt_of_lt positive)
      simpa [up?, Editor.up, ofEditor, fresh] using shown
  · rfl
  · have present := recalls _ rfl
    exact showPast?_ofEditor (Nat.lt_of_succ_lt present)

theorem down?_ofEditor (e : Editor) : (ofEditor e).down? = some (ofEditor e.down) := by
  rcases e with ⟨before, after, history, _ | index⟩
  · rfl
  · by_cases present : index + 1 < history.length
    · have shown := showPast?_ofEditor (e := ⟨before, after, history, some index⟩) present
      simpa [down?, Editor.down, ofEditor, present] using shown
    · simp [down?, Editor.down, ofEditor, present, Editor.line, Editor.cursor]

/-! ## Sessions -/

@[simp] theorem drawn?_ofEditor (e : Editor) : (ofEditor e).drawn? = some (ofEditor e) := by
  rw [drawn?, sides?_ofEditor, Option.map_some]

theorem press?_ofEditor {e : Editor} (recalls : e.RecallsLine) (key : Key) :
    (ofEditor e).press? key = some (ofEditor ((Console.edit? e key).getD e)) := by
  have atStart : (⟨e.line, 0, e.history, e.recalled⟩ : OffsetEditor) = ofEditor e.home := by
    rw [ofEditor, Editor.line_home]
    rfl
  have atEnd : (⟨e.line, byteSize e.line, e.history, e.recalled⟩ : OffsetEditor) =
      ofEditor e.toEnd := by
    rw [ofEditor, Editor.line_toEnd]
    rfl
  unfold press? Console.edit?
  split
  case h_1 c => simp [insert?_ofEditor]
  case h_2 => simp [backspace?_ofEditor]
  case h_3 => simp [left?_ofEditor]
  case h_4 => simp [right?_ofEditor]
  case h_5 => simp [up?_ofEditor recalls]
  case h_6 => simp [down?_ofEditor]
  case h_7 | h_8 => exact (congrArg drawn? atStart).trans (drawn?_ofEditor _)
  case h_9 | h_10 => exact (congrArg drawn? atEnd).trans (drawn?_ofEditor _)
  case h_11 => simp [*]
  case h_12 => rfl

theorem enter_ofEditor (engine : Engine) (e : Editor) :
    (ofEditor e).enter = ofEditor (Console.enter engine e).editor := by
  have same : Text.allBlank (ofEditor e).input = e.isBlank := rfl
  rcases Console.enter_cases engine e with ⟨blank, cleared, -⟩ | ⟨filled, submitted, -⟩
  · rw [enter, same, if_pos blank, cleared]
    rfl
  · rw [enter, same, if_neg filled, submitted]
    rfl

theorem respond?_ofEditor (engine : Engine) {e : Editor} (recalls : e.RecallsLine)
    (event : Event) :
    (ofEditor e).respond? event = some (ofEditor (Console.respond engine e event).editor) := by
  unfold respond?
  split
  · rfl
  · exact congrArg some (enter_ofEditor engine e)
  · rename_i key noEnter
    have other : key ≠ .char '\n' := fun isEnter => noEnter (isEnter ▸ rfl)
    rw [press?_ofEditor recalls, Console.editor_respond_key engine e other]

/-- The editor on byte offsets never fails in a session, and goes through the same
states. -/
theorem states?_ofEditor (engine : Engine) {e : Editor} (recalls : e.RecallsLine)
    (events : List Event) :
    (ofEditor e).states? events =
      some ((Console.responses engine e events).map fun r => ofEditor r.editor) := by
  induction events generalizing e with
  | nil => rfl
  | cons event events ih =>
    have later := ih (recalls.respond engine event)
    rw [states?, respond?_ofEditor engine recalls, Console.responses,
      Console.finished_respond engine e event]
    by_cases last : Console.ends event
    · simp [last]
    · simp [last, later]

end OffsetEditor

end GlyphMachine
