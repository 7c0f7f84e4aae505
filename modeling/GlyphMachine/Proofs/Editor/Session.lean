import GlyphMachine.Console

/-!
# Sessions of the console

A session is a list of responses, each to the editor that the one before left
behind. `respond_cases` says once what an event can do; `mem_responses_induction`
carries a property of the editor from event to event.
-/

namespace GlyphMachine.Console

/-! ## One event -/

/-- An event is ignored by the editor, enters the line, or edits it. -/
theorem respond_cases (engine : Engine) (e : Editor) (event : Event) :
    ((∀ key, event = .key key → edit? e key = none) ∧ (respond engine e event).editor = e ∧
      (respond engine e event).ran = none) ∨
    (event = .key (.char '\n') ∧ respond engine e event = enter engine e) ∨
    ∃ key edited, event = .key key ∧ key ≠ .char '\n' ∧ edit? e key = some edited ∧
      respond engine e event = { editor := edited, screen := redraw edited } := by
  unfold respond
  split
  · exact .inl ⟨by simp, rfl, rfl⟩
  · exact .inr (.inl ⟨rfl, rfl⟩)
  · exact .inl ⟨by simp [edit?], rfl, rfl⟩
  · exact .inl ⟨by simp [edit?], rfl, rfl⟩
  · rename_i key noEnter _ _
    split
    · rename_i edited edits
      exact .inr (.inr ⟨key, edited, rfl, fun isEnter => noEnter (isEnter ▸ rfl), edits, rfl⟩)
    · rename_i useless
      exact .inl ⟨by simpa using useless, rfl, rfl⟩

/-- A key other than enter does to the editor what it means to it, if anything. -/
theorem editor_respond_key (engine : Engine) (e : Editor) {key : Key} (other : key ≠ .char '\n') :
    (respond engine e (.key key)).editor = (edit? e key).getD e := by
  rcases respond_cases engine e (.key key) with
    ⟨ignored, same, -⟩ | ⟨isEnter, -⟩ | ⟨_, edited, ⟨⟩, -, edits, given⟩
  · rw [same, ignored key rfl, Option.getD_none]
  · exact absurd (Event.key.inj isEnter) other
  · rw [given, edits, Option.getD_some]

/-- The enter key discards a blank line and runs any other. -/
theorem enter_cases (engine : Engine) (e : Editor) :
    (e.isBlank ∧ (enter engine e).editor = e.clear ∧ (enter engine e).ran = none) ∨
    (¬ e.isBlank ∧ (enter engine e).editor = e.submit ∧
      (enter engine e).ran = some (String.ofList e.line)) := by
  unfold enter
  split
  · rename_i blank
    exact .inl ⟨blank, rfl, rfl⟩
  · rename_i filled
    exact .inr ⟨filled, rfl, rfl⟩

/-- The two keys that end a session. -/
def ends : Event → Bool
  | .key (.control c) => c = 'c' ∨ c = 'd'
  | _ => false

theorem finished_respond (engine : Engine) (e : Editor) (event : Event) :
    (respond engine e event).finished = ends event := by
  unfold respond
  split
  · rfl
  · unfold enter
    split <;> rfl
  · rfl
  · rfl
  · rename_i key _ notC notD
    have goesOn : ends (.key key) = false := by
      cases key <;> simp_all [ends]
    split <;> exact goesOn.symm

/-! ## Many events -/

/-- What every event keeps of the editor holds after each event of a session. -/
theorem mem_responses_induction {P : Editor → Prop} {engine : Engine} {events : List Event}
    (step : ∀ e, ∀ event ∈ events, P e → P (respond engine e event).editor) {e : Editor}
    (start : P e) : ∀ r ∈ responses engine e events, P r.editor := by
  induction events generalizing e with
  | nil => simp [responses]
  | cons event events ih =>
    have first := step e event List.mem_cons_self start
    rw [responses]
    refine List.forall_mem_cons.mpr ⟨first, ?_⟩
    split
    · simp
    · exact ih (fun e later among => step e later (List.mem_cons_of_mem _ among)) first

end GlyphMachine.Console
