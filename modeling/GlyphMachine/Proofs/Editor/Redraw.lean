import GlyphMachine.Proofs.Editor.Recall
import GlyphMachine.Proofs.Language.Words
import GlyphMachine.Proofs.Text.Standalone

/-!
# The cursor on the terminal

Drawing the editor writes its line and moves the terminal's cursor back over what stands
behind the editor's. The number of columns is counted in sixteen bits, so the cursor gets
where it belongs exactly if that text is narrower than 65536 columns (`placesCursor_iff`).
A character takes two columns at most, and no line is longer than what was typed
(`HoldsAtMost.editorAfter`), so this can only fail once 32768 characters were typed; as many
wide ones make it fail.
-/

namespace GlyphMachine

open Text (Cluster clusters byteSize displayWidth splitAtByte? widthOf)

/-! ## Widths of texts -/

namespace Text

theorem Cluster.width_le (g : Cluster) : g.width ≤ 2 := by
  unfold Cluster.width
  split
  · omega
  · split <;> omega

/-- No text is wider than two columns for each of its characters. -/
theorem displayWidth_le (cs : List Char) : displayWidth cs ≤ 2 * cs.length := by
  unfold displayWidth
  fun_induction clusters cs with
  | case1 => exact Nat.zero_le _
  | case2 c cs cut ih =>
    have first := Cluster.width_le (c :: cut.1)
    have shorter : cut.2.length ≤ cs.length := continueCluster_length_le _ cs
    rw [widthOf, List.length_cons]
    omega

theorem widthOf_replicate (n : Nat) (g : Cluster) :
    widthOf (List.replicate n g) = n * g.width := by
  induction n with
  | zero => rw [List.replicate_zero, widthOf, Nat.zero_mul]
  | succ n ih => rw [List.replicate_succ, widthOf, ih, Nat.succ_mul, Nat.add_comm]

/-- A plain character repeated takes as many times its columns. -/
theorem displayWidth_replicate {c : Char} (plain : (BreakClass.of c).isPlain) (n : Nat) :
    displayWidth (List.replicate n c) = n * Cluster.width [c] := by
  have alone : ∀ g ∈ List.replicate n [c], Standalone g := by
    intro g among
    rw [List.eq_of_mem_replicate among]
    exact .char plain
  rw [displayWidth, ← List.flatten_replicate_singleton, clusters_flatten alone, widthOf_replicate]

end Text

namespace Console

/-! ## Drawing -/

/-- What moves the terminal's cursor back by a number of columns: nothing for none. -/
def backBy (columns : Nat) : String :=
  if columns = 0 then "" else "\x1b[" ++ toString columns ++ "D"

/-- Drawing the editor puts the terminal's cursor where the editor's is: the line is
written anew behind the prompt, and the cursor goes back by the width of the text from the
editor's cursor on. -/
def PlacesCursor (e : Editor) : Prop :=
  ∃ front tail, splitAtByte? e.cursor e.line = some (front, tail) ∧
    redraw e = "\r\x1b[2K" ++ prompt ++ String.ofList e.line ++ backBy (displayWidth tail)

theorem backBy_eq_iff (columns : Nat) :
    (if 0 < columns then moveLeft columns else "") = backBy columns ↔ columns < columnRange := by
  rcases Nat.eq_zero_or_pos columns with rfl | positive
  · simp [backBy, columnRange]
  · rw [backBy, if_pos positive, if_neg (Nat.ne_of_gt positive), moveLeft,
      String.append_left_inj, String.append_right_inj]
    -- Numerals tell their numbers, so the count that is written has to be the width itself.
    constructor
    · intro same
      rw [← Language.toString_inj same]
      exact Nat.mod_lt _ (by decide)
    · intro narrow
      rw [Nat.mod_eq_of_lt narrow]

theorem placesCursor_iff (e : Editor) :
    PlacesCursor e ↔ displayWidth e.after < columnRange := by
  have cut : splitAtByte? e.cursor e.line = some (e.before, e.after) :=
    Text.splitAtByte?_append _ _
  rw [← backBy_eq_iff]
  constructor
  · rintro ⟨front, tail, found, drawn⟩
    obtain ⟨rfl, rfl⟩ := Prod.mk.inj (Option.some.inj (cut.symm.trans found))
    exact (String.append_right_inj _).mp drawn
  · intro same
    exact ⟨e.before, e.after, cut, (String.append_right_inj _).mpr same⟩

/-! ## Lines and what was typed -/

theorem length_line_insert (e : Editor) (c : Char) :
    (e.insert c).line.length = e.line.length + 1 := by
  rw [Editor.insert, Editor.line_snap]
  simp only [Editor.line, List.length_append, List.length_singleton]
  omega

theorem length_line_backspace_le (e : Editor) : e.backspace.line.length ≤ e.line.length := by
  have whole := congrArg List.length e.splitLast_append
  simp only [Editor.backspace, Editor.line, List.length_append] at whole ⊢
  omega

/-- Typing makes the line longer by one character. Every other edit leaves it as long as it
was, makes it shorter or recalls a line. -/
theorem edit?_length {e edited : Editor} {key : Key} (edits : edit? e key = some edited) :
    (∃ c, key = .char c) ∧ edited.line.length = e.line.length + 1 ∨
      edited.line.length ≤ e.line.length ∨ edited = e.up ∨ edited = e.down := by
  unfold edit? at edits
  split at edits <;> simp only [Option.some.injEq, reduceCtorEq] at edits <;> subst edits
  case h_1 c => exact .inl ⟨⟨c, rfl⟩, length_line_insert e c⟩
  case h_2 => exact .inr (.inl (length_line_backspace_le e))
  case h_5 => exact .inr (.inr (.inl rfl))
  case h_6 => exact .inr (.inr (.inr rfl))
  all_goals exact .inr (.inl (by simp))

/-- The event types a character into the line. -/
def types : Event → Bool
  | .key (.char c) => c ≠ '\n'
  | _ => false

/-- No line of the editor, shown or submitted, has more characters than the number. -/
structure HoldsAtMost (n : Nat) (e : Editor) : Prop where
  line : e.line.length ≤ n
  history : ∀ line ∈ e.history, line.length ≤ n

namespace HoldsAtMost

variable {n : Nat} {e edited : Editor}

theorem mono {m : Nat} (holds : HoldsAtMost n e) (more : n ≤ m) : HoldsAtMost m e :=
  ⟨holds.line.trans more, fun line among => (holds.history line among).trans more⟩

theorem showPast (holds : HoldsAtMost n e) (index : Nat) : HoldsAtMost n (e.showPast index) := by
  refine ⟨?_, holds.history⟩
  rw [Editor.showPast, Editor.line, List.append_nil]
  rcases Nat.lt_or_ge index e.history.length with inside | outside
  · rw [List.getD_eq_getElem _ _ inside]
    exact holds.history _ (List.getElem_mem inside)
  · rw [List.getD_eq_default _ _ outside]
    exact Nat.zero_le n

theorem up (holds : HoldsAtMost n e) : HoldsAtMost n e.up := by
  unfold Editor.up
  split
  · exact holds
  · exact holds.showPast _
  · split
    · exact holds
    · exact holds.showPast _

theorem down (holds : HoldsAtMost n e) : HoldsAtMost n e.down := by
  unfold Editor.down
  split
  · exact holds
  · split
    · exact holds.showPast _
    · exact ⟨Nat.zero_le n, holds.history⟩

theorem edit? (holds : HoldsAtMost n e) {key : Key} (other : key ≠ .char '\n')
    (edits : Console.edit? e key = some edited) :
    HoldsAtMost (n + if types (.key key) then 1 else 0) edited := by
  have history := (edit?_record edits).1
  have more : n ≤ n + if types (.key key) then 1 else 0 := Nat.le_add_right _ _
  rcases edit?_length edits with ⟨⟨c, rfl⟩, longer⟩ | short | rfl | rfl
  · -- The enter key is left out, so a key that is a character types it.
    have typed : types (.key (.char c)) := by
      simpa [types] using other
    have grown := (holds.mono more).history
    rw [if_pos typed] at grown ⊢
    exact ⟨longer.trans_le (Nat.succ_le_succ holds.line), history ▸ grown⟩
  · have same : HoldsAtMost n edited := ⟨short.trans holds.line, history ▸ holds.history⟩
    exact same.mono more
  · exact holds.up.mono more
  · exact holds.down.mono more

theorem enter (holds : HoldsAtMost n e) (engine : Engine) :
    HoldsAtMost n (Console.enter engine e).editor := by
  rcases enter_cases engine e with ⟨-, cleared, -⟩ | ⟨-, submitted, -⟩
  · rw [cleared]
    exact ⟨Nat.zero_le n, holds.history⟩
  · rw [submitted]
    refine ⟨Nat.zero_le n, List.forall_mem_append.mpr ⟨holds.history, ?_⟩⟩
    intro line among
    rw [List.mem_singleton.mp among]
    exact holds.line

theorem respond (holds : HoldsAtMost n e) (engine : Engine) (event : Event) :
    HoldsAtMost (n + if types event then 1 else 0) (Console.respond engine e event).editor := by
  rcases respond_cases engine e event with
    ⟨-, same, -⟩ | ⟨-, entered⟩ | ⟨key, edited, rfl, other, edits, given⟩
  · rw [same]
    exact holds.mono (Nat.le_add_right _ _)
  · rw [entered]
    exact (holds.enter engine).mono (Nat.le_add_right _ _)
  · rw [given]
    exact holds.edit? other edits

/-- The lines of a session have no more characters than were typed in it. -/
theorem editorAfter (holds : HoldsAtMost n e) (engine : Engine) (events : List Event) :
    HoldsAtMost (n + events.countP types) (Console.editorAfter engine e events) := by
  induction events generalizing n e with
  | nil => exact holds
  | cons event events ih =>
    have first := holds.respond engine event
    rw [editorAfter_cons, List.countP_cons, Nat.add_comm (events.countP types), ← Nat.add_assoc]
    by_cases isOver : ends event
    · -- What comes behind the end of the session is counted, but typed into no line.
      rw [if_pos isOver]
      exact first.mono (Nat.le_add_right _ _)
    · rw [if_neg isOver]
      exact ih first

end HoldsAtMost

/-! ## Sessions -/

/-- Typing at the end of the line writes the text there. -/
theorem editorAfter_typing (engine : Engine) {e : Editor} (atEnd : e.after = [])
    {text : List Char} (unbroken : '\n' ∉ text) :
    editorAfter engine e (typing text) = { e with before := e.before ++ text } := by
  induction text generalizing e with
  | nil => simp [typing, editorAfter, responses]
  | cons c text ih =>
    obtain ⟨plain, later⟩ := List.ne_and_not_mem_of_not_mem_cons unbroken
    have typed := (respond_char_of_after_eq_nil engine atEnd (Ne.symm plain)).2
    have goesOn : ends (.key (.char c)) = false := rfl
    have front : typing (c :: text) = .key (.char c) :: typing text := rfl
    have rest := ih (e := { e with before := e.before ++ [c] }) atEnd later
    rw [front, editorAfter_cons_of_goesOn goesOn, typed, rest, List.append_assoc,
      List.singleton_append]

/-- A text typed and the cursor brought to its start. -/
theorem editorAfter_typing_home (engine : Engine) {text : List Char} (unbroken : '\n' ∉ text) :
    editorAfter engine .empty (typing text ++ [.key .home]) = ⟨[], text, [], none⟩ := by
  have goesOn : ∀ event ∈ typing text, ends event = false := by
    intro event among
    obtain ⟨c, -, rfl⟩ := List.mem_map.mp among
    rfl
  rw [editorAfter_append goesOn, editorAfter_typing engine rfl unbroken,
    editorAfter_cons_of_goesOn rfl, editor_respond_key engine _ (by decide)]
  simp [editorAfter, responses, edit?, Editor.home, Editor.empty, Editor.line]

/-- Every edit is drawn, and drawing puts the terminal's cursor where the editor's is
exactly if the text behind it is narrower than 65536 columns. So it does in every session in
which fewer than 32768 characters are typed. -/
theorem cursor_is_put_back_iff (engine : Engine) :
    (∀ e key edited, key ≠ .char '\n' → edit? e key = some edited →
      (respond engine e (.key key)).editor = edited ∧
        (respond engine e (.key key)).screen = redraw edited) ∧
    (∀ e, PlacesCursor e ↔ displayWidth e.after < 65536) ∧
    ∀ events, events.countP types < 32768 →
      PlacesCursor (editorAfter engine .empty events) := by
  refine ⟨?_, placesCursor_iff, ?_⟩
  · intro e key edited other edits
    rcases respond_cases engine e (.key key) with
      ⟨ignored, -⟩ | ⟨isEnter, -⟩ | ⟨_, given, ⟨⟩, -, edits', drawn⟩
    · rw [ignored key rfl] at edits
      cases edits
    · exact absurd (Event.key.inj isEnter) other
    · obtain rfl := Option.some.inj (edits'.symm.trans edits)
      rw [drawn]
      exact ⟨rfl, rfl⟩
  · intro events few
    have start : HoldsAtMost 0 Editor.empty := ⟨Nat.le_refl 0, fun _ among => by cases among⟩
    have short := (start.editorAfter engine events).line
    have wide := Text.displayWidth_le (editorAfter engine .empty events).after
    rw [placesCursor_iff, columnRange]
    rw [Editor.line, List.length_append] at short
    omega

/-- A line of 32768 wide characters, with the cursor brought to its start: there is one
column more than sixteen bits can count, and the terminal's cursor does not get there. -/
theorem cursor_stays_behind_wide_line :
    displayWidth (List.replicate 32768 'é') = 65536 ∧
    redraw (editorAfter { budget := .standard } .empty
        (typing (List.replicate 32768 'é') ++ [.key .home])) =
      "\r\x1b[2K" ++ prompt ++ String.ofList (List.replicate 32768 'é') ++ "\x1b[0D" ∧
    ¬ PlacesCursor (editorAfter { budget := .standard } .empty
        (typing (List.replicate 32768 'é') ++ [.key .home])) := by
  have unbroken : '\n' ∉ List.replicate 32768 'é' := fun among =>
    absurd (List.eq_of_mem_replicate among) (by decide)
  have plain : (Text.BreakClass.of 'é').isPlain := by decide +kernel
  have width : displayWidth (List.replicate 32768 'é') = 65536 :=
    Text.displayWidth_replicate plain 32768
  rw [editorAfter_typing_home _ unbroken, placesCursor_iff]
  generalize List.replicate 32768 'é' = text at width
  refine ⟨width, ?_, ?_⟩
  · rw [redraw, Editor.tailWidth, width]
    rfl
  · rw [width]
    decide

end Console

end GlyphMachine
