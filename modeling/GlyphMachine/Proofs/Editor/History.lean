import GlyphMachine.Proofs.Editor.Offsets

/-!
# What a session keeps and what it runs

Only the enter key on a line that is not blank touches the history, and it adds the
line that it runs (`respond_record`). The history of a session is therefore the list of
lines that were run, whatever was recalled and edited in between
(`history_eq_of_responses`). Where nothing but characters are typed, the cursor never
leaves the end of the line, so these lines are the ones of the typed text
(`filterMap_ran_typing`).
-/

namespace GlyphMachine.Console

open Text (clusters byteSize splitAtByte?)

/-! ## One event -/

/-- The event enters a line that is to be run. -/
def Submits (e : Editor) (event : Event) : Prop :=
  event = .key (.char '\n') ∧ ¬ e.isBlank

/-- What is run is added to the history, and nothing else changes it. -/
theorem respond_record (engine : Engine) (e : Editor) (event : Event) :
    (Submits e event ∧ (respond engine e event).ran = some (String.ofList e.line) ∧
      (respond engine e event).editor.history = e.history ++ [e.line]) ∨
    (¬ Submits e event ∧ (respond engine e event).ran = none ∧
      (respond engine e event).editor.history = e.history) := by
  rcases respond_cases engine e event with
    ⟨ignored, same, nothing⟩ | ⟨isEnter, entered⟩ | ⟨key, edited, rfl, other, edits, given⟩
  · refine .inr ⟨?_, nothing, by rw [same]⟩
    intro submits
    have useless := ignored _ submits.1
    simp [edit?] at useless
  · rw [entered]
    rcases enter_cases engine e with ⟨blank, cleared, nothing⟩ | ⟨filled, submitted, ran⟩
    · exact .inr ⟨fun submits => submits.2 blank, nothing, by rw [cleared]; rfl⟩
    · exact .inl ⟨⟨isEnter, filled⟩, ran, by rw [submitted]; rfl⟩
  · rw [given]
    exact .inr ⟨fun submits => other (Event.key.inj submits.1), rfl, (edit?_record edits).1⟩

/-- A line that was run was given to the engine as it stands: what the engine had to say
is what the console shows. -/
theorem shown_of_ran {engine : Engine} {e : Editor} {event : Event} {source : String}
    (ran : (respond engine e event).ran = some source) :
    (respond engine e event).screen =
        "\r\n" ++ (interpret engine source).1 ++ "\r\n" ++ prompt ∧
      (respond engine e event).errors = (interpret engine source).2 := by
  rcases respond_record engine e event with ⟨⟨rfl, filled⟩, isRun, -⟩ | ⟨-, nothing, -⟩
  · obtain rfl := Option.some.inj (isRun.symm.trans ran)
    simp [respond, enter, filled]
  · rw [nothing] at ran
    cases ran

/-! ## Many events -/

/-- After every event of a session the history holds the lines that were run so far. -/
theorem history_eq_of_responses {engine : Engine} {e : Editor} {events : List Event}
    {earlier later : List Response} {r : Response}
    (given : responses engine e events = earlier ++ r :: later) :
    r.editor.history.map String.ofList =
      e.history.map String.ofList ++ (earlier ++ [r]).filterMap (·.ran) := by
  induction events generalizing e earlier with
  | nil => simp [responses] at given
  | cons event events ih =>
    have first : (respond engine e event).editor.history.map String.ofList =
        e.history.map String.ofList ++ [respond engine e event].filterMap (·.ran) := by
      rcases respond_record engine e event with ⟨-, ran, history⟩ | ⟨-, nothing, history⟩
      · simp [ran, history]
      · simp [nothing, history]
    rw [responses] at given
    cases earlier with
    | nil =>
      obtain ⟨rfl, -⟩ := List.cons.inj given
      exact first
    | cons r' earlier =>
      obtain ⟨rfl, rest⟩ := List.cons.inj given
      split at rest
      · simp at rest
      · rw [ih rest, first, List.append_assoc, ← List.filterMap_append]
        rfl

/-! ## Typing -/

/-- Snapping leaves a cursor at the end of the line where it is. -/
theorem snap_of_after_eq_nil {e : Editor} (atEnd : e.after = []) : e.snap = e := by
  obtain ⟨inside, cut, front, -, next⟩ := Editor.clustersUpTo_spec e.cursor (clusters e.line)
  have whole := Text.flatten_clusters e.line
  have size : e.cursor = byteSize e.line := by
    rw [Editor.cursor, Editor.line, atEnd, List.append_nil]
  -- No cluster ends beyond the end of the line, so all of them end before the cursor.
  have none : (Editor.clustersUpTo e.cursor (clusters e.line)).2 = [] := by
    rcases rest : (Editor.clustersUpTo e.cursor (clusters e.line)).2 with _ | ⟨g, gs⟩
    · rfl
    · have beyond := next g (by rw [rest]; rfl)
      rw [cut, rest, List.flatten_append, List.flatten_cons] at whole
      rw [size, ← whole, Text.byteSize_append, Text.byteSize_append] at beyond
      omega
  rw [none, List.append_nil] at cut
  rw [cut] at whole
  have settled : ¬ byteSize inside.flatten < e.cursor := by
    rw [size, whole]
    exact Nat.lt_irrefl _
  simp only [Editor.snap, front, if_neg settled]

/-- The events of typing a text, in which every line feed is the enter key. -/
def typing (text : List Char) : List Event :=
  text.map fun c => .key (.char c)

/-- The lines of a text that end in a line feed and are not blank. -/
def filledLines (text : List Char) : List (List Char) :=
  (text.splitOn '\n').dropLast.filter fun line => ¬ Text.allBlank line

theorem filledLines_of_unbroken {text : List Char} (unbroken : '\n' ∉ text) :
    filledLines text = [] := by
  rw [filledLines, List.splitOn_eq_singleton unbroken]
  rfl

theorem filledLines_append_cons {line : List Char} (unbroken : '\n' ∉ line) (text : List Char) :
    filledLines (line ++ '\n' :: text) =
      if Text.allBlank line then filledLines text else line :: filledLines text := by
  rw [filledLines, List.splitOn_append_cons_self_of_not_mem unbroken,
    List.dropLast_cons_of_ne_nil (List.splitOn_ne_nil _ _)]
  by_cases blank : Text.allBlank line
  · simp [blank, filledLines]
  · simp [blank, filledLines]

/-- A character typed at the end of the line is added there. -/
theorem respond_char_of_after_eq_nil (engine : Engine) {e : Editor} (atEnd : e.after = [])
    {c : Char} (plain : c ≠ '\n') :
    (respond engine e (.key (.char c))).ran = none ∧
      (respond engine e (.key (.char c))).editor = { e with before := e.before ++ [c] } := by
  have other : Key.char c ≠ .char '\n' := fun isEnter => plain (Key.char.inj isEnter)
  rcases respond_record engine e (.key (.char c)) with ⟨submits, -⟩ | ⟨-, nothing, -⟩
  · exact absurd (Event.key.inj submits.1) other
  · refine ⟨nothing, ?_⟩
    rw [editor_respond_key engine e other, edit?, Option.getD_some, Editor.insert]
    exact snap_of_after_eq_nil atEnd

/-- The enter key runs the line unless it is blank. -/
theorem ran_enter (engine : Engine) (e : Editor) :
    (respond engine e (.key (.char '\n'))).ran =
      if e.isBlank then none else some (String.ofList e.line) := by
  rcases respond_record engine e (.key (.char '\n')) with ⟨⟨-, filled⟩, ran, -⟩ | ⟨kept, nothing, -⟩
  · rw [ran, if_neg filled]
  · rw [nothing, if_pos (Decidable.of_not_not fun filled => kept ⟨rfl, filled⟩)]

/-- The enter key leaves an empty line. -/
theorem respond_enter_sides (engine : Engine) (e : Editor) :
    (respond engine e (.key (.char '\n'))).editor.before = [] ∧
      (respond engine e (.key (.char '\n'))).editor.after = [] := by
  have entered : respond engine e (.key (.char '\n')) = enter engine e := rfl
  rw [entered]
  rcases enter_cases engine e with ⟨-, cleared, -⟩ | ⟨-, submitted, -⟩
  · rw [cleared]
    exact ⟨rfl, rfl⟩
  · rw [submitted]
    exact ⟨rfl, rfl⟩

/-- Typing runs the lines of what stood before the cursor and what is typed. -/
theorem filterMap_ran_typing (engine : Engine) {e : Editor} (atEnd : e.after = [])
    (unbroken : '\n' ∉ e.before) (text : List Char) :
    (responses engine e (typing text)).filterMap (·.ran) =
      (filledLines (e.before ++ text)).map String.ofList := by
  induction text generalizing e with
  | nil =>
    rw [List.append_nil, filledLines_of_unbroken unbroken]
    rfl
  | cons c text ih =>
    have goesOn : (respond engine e (.key (.char c))).finished = false := by
      rw [finished_respond]
      rfl
    have split : responses engine e (typing (c :: text)) = respond engine e (.key (.char c)) ::
        responses engine (respond engine e (.key (.char c))).editor (typing text) := by
      rw [typing, List.map_cons, responses, goesOn]
      rfl
    rw [split, List.filterMap_cons]
    by_cases isEnter : c = '\n'
    · subst isEnter
      obtain ⟨front, back⟩ := respond_enter_sides engine e
      have later := ih back (by rw [front]; exact List.not_mem_nil)
      rw [front, List.nil_append] at later
      have line : e.line = e.before := by rw [Editor.line, atEnd, List.append_nil]
      have ran := ran_enter engine e
      rw [Editor.isBlank, line] at ran
      rw [later, filledLines_append_cons unbroken, ran]
      by_cases blank : Text.allBlank e.before
      · simp only [if_pos blank]
      · simp only [if_neg blank, List.map_cons]
    · obtain ⟨nothing, typed⟩ := respond_char_of_after_eq_nil engine atEnd isEnter
      have grown : '\n' ∉ e.before ++ [c] := by
        simp [unbroken, Ne.symm isEnter]
      have later := ih (e := { e with before := e.before ++ [c] }) atEnd grown
      rw [nothing, typed, later, List.append_assoc, List.singleton_append]

/-! ## Sessions -/

/-- No event makes the editor fail, and its history is what was run. On byte offsets the
editor goes through every session, its cursor between characters of the line and what
it recalls in the history; the history holds the lines that were run, none of them
blank, and changes by nothing but running one; and typing a text runs its lines. -/
theorem session_keeps_what_it_runs (engine : Engine) :
    (∀ events, OffsetEditor.empty.states? events =
        some ((responses engine .empty events).map fun r => .ofEditor r.editor)) ∧
    (∀ events, ∀ r ∈ responses engine .empty events,
      r.editor.cursor ≤ byteSize r.editor.line ∧
      splitAtByte? r.editor.cursor r.editor.line = some (r.editor.before, r.editor.after) ∧
      ∀ index, r.editor.recalled = some index → index < r.editor.history.length) ∧
    (∀ events earlier r later, responses engine .empty events = earlier ++ r :: later →
      r.editor.history.map String.ofList = (earlier ++ [r]).filterMap (·.ran)) ∧
    (∀ e event source, (respond engine e event).ran = some source →
      ¬ Text.allBlank source.toList ∧
      (respond engine e event).screen =
        "\r\n" ++ (interpret engine source).1 ++ "\r\n" ++ prompt ∧
      (respond engine e event).errors = (interpret engine source).2) ∧
    (∀ e event, (respond engine e event).editor.history ≠ e.history →
      event = .key (.char '\n') ∧ ¬ e.isBlank) ∧
    ∀ text, (responses engine .empty (typing text)).filterMap (·.ran) =
      (filledLines text).map String.ofList := by
  have start : Editor.empty.RecallsLine := .of_recalled_eq_none rfl
  refine ⟨?_, ?_, ?_, ?_, ?_, ?_⟩
  · intro events
    exact OffsetEditor.states?_ofEditor engine start events
  · intro events r among
    refine ⟨?_, Text.splitAtByte?_append _ _, ?_⟩
    · rw [Editor.line, Text.byteSize_append]
      exact Nat.le_add_right _ _
    · exact mem_responses_induction (fun e event _ recalls => recalls.respond engine event) start
        r among
  · intro events earlier r later given
    exact history_eq_of_responses given
  · intro e event source ran
    refine ⟨?_, shown_of_ran ran⟩
    rcases respond_record engine e event with ⟨submits, isRun, -⟩ | ⟨-, nothing, -⟩
    · obtain rfl := Option.some.inj (isRun.symm.trans ran)
      rw [String.toList_ofList]
      exact submits.2
    · rw [nothing] at ran
      cases ran
  · intro e event changed
    rcases respond_record engine e event with ⟨submits, -⟩ | ⟨-, -, same⟩
    · exact submits
    · exact absurd same changed
  · intro text
    exact filterMap_ran_typing engine rfl List.not_mem_nil text

end GlyphMachine.Console
