import GlyphMachine.Proofs.Editor.History
import Mathlib.Data.List.GetD
import Mathlib.Logic.Function.Iterate

/-!
# Recalling submitted lines

What the editor shows has a position in its history: that of the line recalled last, or
the place behind the last line, where there is an empty line. Going up and down moves by one
position and stops at the ends (`up_eq_showAt`, `down_eq_showAt`), so presses add up
(`iterate_up`, `iterate_down`). After the enter key the recall starts behind the last line
exactly if nothing is recalled any more. That is so if the line was run; a blank line is
discarded and leaves what was recalled as it is (`recall_starts_afresh_iff`).
-/

namespace GlyphMachine

namespace Editor

/-! ## Positions in the history -/

/-- The position of what was recalled last; nothing recalled is behind all lines. -/
def position (e : Editor) : Nat :=
  e.recalled.getD e.history.length

/-- The editor with what is at a position: a line of the history, or an empty line behind
them. -/
def showAt (e : Editor) (position : Nat) : Editor where
  before := e.history.getD position []
  after := []
  history := e.history
  recalled := if position < e.history.length then some position else none

variable {e : Editor}

@[simp] theorem history_showAt (e : Editor) (n : Nat) : (e.showAt n).history = e.history := rfl

@[simp] theorem showAt_showAt (e : Editor) (n m : Nat) : (e.showAt n).showAt m = e.showAt m := rfl

theorem showAt_of_lt {n : Nat} (inside : n < e.history.length) : e.showAt n = e.showPast n := by
  simp [showAt, showPast, inside]

theorem showAt_length (e : Editor) :
    e.showAt e.history.length = { e with before := [], after := [], recalled := none } := by
  simp [showAt]

theorem position_showAt {n : Nat} (inside : n ≤ e.history.length) : (e.showAt n).position = n := by
  by_cases less : n < e.history.length
  · simp [position, showAt, less]
  · simp [position, showAt, Nat.le_antisymm inside (Nat.le_of_not_lt less)]

theorem RecallsLine.showAt (e : Editor) (n : Nat) : (e.showAt n).RecallsLine := by
  intro index isRecalled
  simp only [Editor.showAt] at isRecalled
  split at isRecalled
  · rename_i inside
    obtain rfl := Option.some.inj isRecalled
    exact inside
  · cases isRecalled

theorem RecallsLine.position_le (recalls : e.RecallsLine) : e.position ≤ e.history.length := by
  rcases recalled : e.recalled with _ | index
  · simp [position, recalled]
  · have inside := recalls index recalled
    simp [position, recalled, Nat.le_of_lt inside]

/-- Going up shows what is one position before, unless there is nothing. -/
theorem up_eq_showAt (recalls : e.RecallsLine) :
    e.up = if e.position = 0 then e else e.showAt (e.position - 1) := by
  rcases recalled : e.recalled with _ | _ | index
  · have place : e.position = e.history.length := by simp [position, recalled]
    rw [up, recalled, place]
    simp only [List.isEmpty_iff, List.length_eq_zero_iff]
    by_cases fresh : e.history = []
    · rw [if_pos fresh, if_pos fresh]
    · have positive := List.length_pos_iff.mpr fresh
      rw [if_neg fresh, if_neg fresh, showAt_of_lt (Nat.sub_one_lt_of_lt positive)]
  · simp [up, position, recalled]
  · have inside : index < e.history.length := Nat.lt_of_succ_lt (recalls _ recalled)
    simp [up, position, recalled, showAt_of_lt inside]

/-- Going down shows what is one position behind, unless there is nothing. -/
theorem down_eq_showAt (recalls : e.RecallsLine) :
    e.down = if e.position = e.history.length then e else e.showAt (e.position + 1) := by
  rcases recalled : e.recalled with _ | index
  · simp [down, position, recalled]
  · have inside := recalls index recalled
    have place : e.position = index := by simp [position, recalled]
    rw [down, recalled, place, if_neg (Nat.ne_of_lt inside)]
    by_cases last : index + 1 < e.history.length
    · simp only [if_pos last, showAt_of_lt last]
    · have behind : index + 1 = e.history.length := by omega
      simp only [if_neg last]
      rw [behind, showAt_length]

/-- Going up a number of times, from a position with something before it. -/
theorem iterate_up (recalls : e.RecallsLine) (farther : e.position ≠ 0) (k : Nat) :
    up^[k + 1] e = e.showAt (e.position - (k + 1)) := by
  have bound := recalls.position_le
  induction k with
  | zero => simp [up_eq_showAt recalls, farther]
  | succ k ih =>
    have place : (e.showAt (e.position - (k + 1))).position = e.position - (k + 1) :=
      position_showAt (by omega)
    rw [Function.iterate_succ_apply', ih, up_eq_showAt (.showAt e _), place, showAt_showAt]
    by_cases first : e.position - (k + 1) = 0
    · rw [if_pos first]
      congr 1
      omega
    · rw [if_neg first]
      congr 1

/-- Going down a number of times. -/
theorem iterate_down {n : Nat} (inside : n ≤ e.history.length) (j : Nat) :
    down^[j] (e.showAt n) = e.showAt (min (n + j) e.history.length) := by
  induction j with
  | zero => simp [inside]
  | succ j ih =>
    have place : (e.showAt (min (n + j) e.history.length)).position =
        min (n + j) e.history.length := position_showAt (by omega)
    rw [Function.iterate_succ_apply', ih, down_eq_showAt (.showAt e _), place, history_showAt,
      showAt_showAt]
    split
    · congr 1
      omega
    · congr 1
      omega

/-! ## Lines by their age -/

/-- The editor shows the line with the cursor at its end. -/
def Shows (e : Editor) (line : List Char) : Prop :=
  e.line = line ∧ e.cursor = Text.byteSize line

theorem shows_showAt (e : Editor) (n : Nat) : (e.showAt n).Shows (e.history.getD n []) :=
  ⟨List.append_nil _, rfl⟩

/-- What can be recalled, latest first: an empty line, then the submitted lines. -/
def past (e : Editor) : List (List Char) :=
  [] :: e.history.reverse

theorem getElem?_past (e : Editor) {age : Nat} (old : age ≤ e.history.length) :
    e.past[age]? = some (e.history.getD (e.history.length - age) []) := by
  cases age with
  | zero => simp [past]
  | succ age =>
    have inside : e.history.length - (age + 1) < e.history.length := by omega
    rw [past, List.getElem?_cons_succ, List.getElem?_reverse (by omega),
      List.getD_eq_getElem _ _ inside, List.getElem?_eq_getElem (by omega)]
    congr 2
    omega

end Editor

namespace Console

/-! ## Sessions and their editors -/

/-- The editor after the events of a session. -/
def editorAfter (engine : Engine) (e : Editor) (events : List Event) : Editor :=
  ((responses engine e events).getLast?.map (·.editor)).getD e

section Sessions

variable {engine : Engine} {e : Editor} {event : Event} {events : List Event}

theorem editorAfter_cons :
    editorAfter engine e (event :: events) =
      if ends event then (respond engine e event).editor
      else editorAfter engine (respond engine e event).editor events := by
  rw [editorAfter, editorAfter, responses, finished_respond, List.getLast?_cons]
  by_cases isOver : ends event
  · simp only [if_pos isOver]
    rfl
  · simp only [if_neg isOver]
    cases (responses engine (respond engine e event).editor events).getLast? <;> rfl

theorem editorAfter_cons_of_goesOn (goesOn : ends event = false) :
    editorAfter engine e (event :: events) =
      editorAfter engine (respond engine e event).editor events := by
  rw [editorAfter_cons, goesOn]
  rfl

theorem editorAfter_append (goesOn : ∀ event ∈ events, ends event = false) (more : List Event) :
    editorAfter engine e (events ++ more) =
      editorAfter engine (editorAfter engine e events) more := by
  induction events generalizing e with
  | nil => rfl
  | cons event events ih =>
    obtain ⟨first, later⟩ := List.forall_mem_cons.mp goesOn
    rw [List.cons_append, editorAfter_cons_of_goesOn first, editorAfter_cons_of_goesOn first,
      ih later]

/-- A key pressed a number of times does so many times what it does. -/
theorem editorAfter_replicate {key : Key} {edit : Editor → Editor} (other : key ≠ .char '\n')
    (goesOn : ends (.key key) = false) (means : ∀ e, edit? e key = some (edit e)) (k : Nat) :
    editorAfter engine e (List.replicate k (.key key)) = edit^[k] e := by
  induction k generalizing e with
  | zero => rfl
  | succ k ih =>
    rw [List.replicate_succ, editorAfter_cons_of_goesOn goesOn, editor_respond_key engine e other,
      means, Option.getD_some, ih, Function.iterate_succ_apply]

/-- What every event keeps of the editor holds after a session. -/
theorem editorAfter_induction {P : Editor → Prop}
    (step : ∀ e event, P e → P (respond engine e event).editor) (start : P e) :
    P (editorAfter engine e events) := by
  rcases last : (responses engine e events).getLast? with _ | r
  · simpa [editorAfter, last] using start
  · have among := List.mem_of_getLast? last
    have kept := mem_responses_induction (fun e event _ holds => step e event holds) start r among
    simpa [editorAfter, last] using kept

/-- The history after a session holds the lines that it ran. -/
theorem history_editorAfter :
    (editorAfter engine e events).history.map String.ofList =
      e.history.map String.ofList ++ (responses engine e events).filterMap (·.ran) := by
  rcases last : (responses engine e events).getLast? with _ | r
  · rw [editorAfter, last, List.getLast?_eq_none_iff.mp last]
    simp
  · obtain ⟨earlier, given⟩ := List.getLast?_eq_some_iff.mp last
    rw [editorAfter, last, Option.map_some, Option.getD_some, history_eq_of_responses given, given]

end Sessions

/-! ## Recall after the enter key -/

/-- The key to recall an earlier line, pressed a number of times. -/
def ups (k : Nat) : List Event :=
  List.replicate k (.key .up)

/-- The key to recall a later line, pressed a number of times. -/
def downs (j : Nat) : List Event :=
  List.replicate j (.key .down)

/-- Recall goes up line by line from the line submitted last and stays at the oldest, and
comes down the same way to an empty line. -/
structure RecallsAfresh (engine : Engine) (e : Editor) : Prop where
  walk : ∀ k j, 1 ≤ k → k ≤ e.history.length → j ≤ k →
    ∃ line ∈ e.past[k - j]?, (editorAfter engine e (ups k ++ downs j)).Shows line
  oldest : ∀ k, e.history.length < k →
    ∃ line ∈ e.history.head?, (editorAfter engine e (ups k)).Shows line

section Recall

variable {engine : Engine} {e : Editor}

/-- Going up and then down from where something is before the position. -/
theorem editorAfter_walk (recalls : e.RecallsLine) (farther : e.position ≠ 0) {k : Nat}
    (pressed : 1 ≤ k) (j : Nat) :
    editorAfter engine e (ups k ++ downs j) =
      e.showAt (min (e.position - k + j) e.history.length) := by
  obtain ⟨k, rfl⟩ := Nat.exists_eq_add_of_le' pressed
  have goesOn : ∀ event ∈ ups (k + 1), ends event = false := by
    intro event among
    rw [List.eq_of_mem_replicate among]
    rfl
  have bound := recalls.position_le
  rw [editorAfter_append goesOn, ups, downs, editorAfter_replicate (by decide) rfl fun _ => rfl,
    editorAfter_replicate (by decide) rfl fun _ => rfl, Editor.iterate_up recalls farther,
    Editor.iterate_down (by omega)]

/-- With nothing recalled, recall starts behind the line submitted last. -/
theorem recallsAfresh_of_recalled_eq_none (nothing : e.recalled = none)
    (submitted : e.history ≠ []) : RecallsAfresh engine e := by
  have recalls : e.RecallsLine := .of_recalled_eq_none nothing
  have place : e.position = e.history.length := by simp [Editor.position, nothing]
  have positive := List.length_pos_iff.mpr submitted
  have walked {k : Nat} (pressed : 1 ≤ k) (j : Nat) :
      editorAfter engine e (ups k ++ downs j) =
        e.showAt (min (e.position - k + j) e.history.length) :=
    editorAfter_walk recalls (by omega) pressed j
  refine ⟨?_, ?_⟩
  · intro k j pressed few back
    refine ⟨_, e.getElem?_past (by omega), ?_⟩
    have same : min (e.position - k + j) e.history.length = e.history.length - (k - j) := by omega
    rw [walked pressed, same]
    exact e.shows_showAt _
  · intro k many
    have first : e.history.head? = some (e.history.getD 0 []) := by
      rw [List.head?_eq_getElem?, List.getElem?_eq_getElem positive,
        List.getD_eq_getElem _ _ positive]
    have same : min (e.position - k + 0) e.history.length = 0 := by omega
    have up := walked (by omega : 1 ≤ k) 0
    rw [same, show downs 0 = [] from rfl, List.append_nil] at up
    refine ⟨_, first, ?_⟩
    rw [up]
    exact e.shows_showAt 0

/-- The history holds no blank line. -/
def KeepsFilled (e : Editor) : Prop :=
  ∀ line ∈ e.history, ¬ Text.allBlank line

theorem KeepsFilled.respond (filled : KeepsFilled e) (event : Event) :
    KeepsFilled (respond engine e event).editor := by
  rcases respond_record engine e event with ⟨⟨-, solid⟩, -, history⟩ | ⟨-, -, history⟩
  · intro line among
    rw [history] at among
    rcases List.mem_append.mp among with earlier | last
    · exact filled line earlier
    · rw [List.mem_singleton.mp last]
      exact solid
  · rw [KeepsFilled, history]
    exact filled

theorem KeepsFilled.ne_nil (filled : KeepsFilled e) {n : Nat} (inside : n < e.history.length) :
    e.history.getD n [] ≠ [] := by
  intro empty
  have among : e.history.getD n [] ∈ e.history := by
    rw [List.getD_eq_getElem _ _ inside]
    exact List.getElem_mem inside
  rw [empty] at among
  exact filled [] among rfl

/-- Where a line is still recalled and an empty line is shown, recall does not start
afresh. -/
theorem not_recallsAfresh (recalls : e.RecallsLine) (filled : KeepsFilled e)
    (empty : e.line = []) {index : Nat} (recalled : e.recalled = some index) :
    ¬ RecallsAfresh engine e := by
  intro afresh
  have inside := recalls index recalled
  have place : e.position = index := by simp [Editor.position, recalled]
  cases index with
  | zero =>
    -- Nothing is before the oldest line, so going up shows the empty line still.
    have pressed : editorAfter engine e (ups 1 ++ downs 0) = e.up := editorAfter_cons_of_goesOn rfl
    have stays : e.up = e := (Editor.up_eq_showAt recalls).trans (if_pos place)
    obtain ⟨line, last, shown, -⟩ := afresh.walk 1 0 (by omega) inside (by omega)
    rw [pressed, stays, empty] at shown
    have isLast := Option.some.inj ((e.getElem?_past inside).symm.trans last)
    exact filled.ne_nil (Nat.sub_one_lt_of_lt inside) (isLast.trans shown.symm)
  | succ index =>
    -- Going up and down again comes back to the line that is still recalled.
    have back : editorAfter engine e (ups 1 ++ downs 1) = e.showAt (index + 1) := by
      rw [editorAfter_walk recalls (by omega) (by omega), place]
      congr 1
      omega
    obtain ⟨line, first, shown, -⟩ := afresh.walk 1 1 (by omega) (by omega) (by omega)
    obtain rfl : [] = line := Option.some.inj first
    rw [back, (e.shows_showAt _).1] at shown
    exact filled.ne_nil inside shown

/-- The enter key brings an empty line. A line that was run is no longer recalled, a blank
one is discarded with what was recalled left as it is. -/
theorem editorAfter_enter (engine : Engine) (e : Editor) :
    (editorAfter engine e [.key (.char '\n')]).line = [] ∧
      (editorAfter engine e [.key (.char '\n')]).recalled =
        if e.isBlank then e.recalled else none := by
  have entered : editorAfter engine e [.key (.char '\n')] = (enter engine e).editor :=
    editorAfter_cons_of_goesOn rfl
  rw [entered]
  rcases enter_cases engine e with ⟨blank, cleared, -⟩ | ⟨filled, submitted, -⟩
  · rw [cleared, if_pos blank]
    exact ⟨rfl, rfl⟩
  · rw [submitted, if_neg filled]
    exact ⟨rfl, rfl⟩

end Recall

/-- After the enter key recall starts afresh, at the line submitted last, exactly if the key
ran a line or nothing had been recalled. Otherwise, where a recalled line was blanked and
entered, recall goes on from that line. The lines to recall are those that the session
ran. -/
theorem recall_starts_afresh_iff (engine : Engine) {events : List Event}
    (goesOn : ∀ event ∈ events, ends event = false)
    (submitted : (editorAfter engine .empty (events ++ [.key (.char '\n')])).history ≠ []) :
    (editorAfter engine .empty (events ++ [.key (.char '\n')])).history.map String.ofList =
        (responses engine .empty (events ++ [.key (.char '\n')])).filterMap (·.ran) ∧
      (RecallsAfresh engine (editorAfter engine .empty (events ++ [.key (.char '\n')])) ↔
        ¬ (editorAfter engine .empty events).isBlank ∨
          (editorAfter engine .empty events).recalled = none) := by
  refine ⟨history_editorAfter, ?_⟩
  have start : Editor.empty.RecallsLine := .of_recalled_eq_none rfl
  have recalls : (editorAfter engine .empty (events ++ [.key (.char '\n')])).RecallsLine :=
    editorAfter_induction (fun e event recalls => recalls.respond engine event) start
  have filled : KeepsFilled (editorAfter engine .empty (events ++ [.key (.char '\n')])) :=
    editorAfter_induction (fun e event filled => filled.respond event)
      (fun _ among => absurd among List.not_mem_nil)
  rw [editorAfter_append goesOn] at submitted recalls filled ⊢
  obtain ⟨empty, kept⟩ := editorAfter_enter engine (editorAfter engine .empty events)
  have settled : (editorAfter engine (editorAfter engine .empty events)
      [.key (.char '\n')]).recalled = none ↔ ¬ (editorAfter engine .empty events).isBlank ∨
        (editorAfter engine .empty events).recalled = none := by
    rw [kept]
    split <;> simp_all
  rw [← settled]
  refine ⟨?_, fun nothing => recallsAfresh_of_recalled_eq_none nothing submitted⟩
  intro afresh
  rcases recalled : (editorAfter engine (editorAfter engine .empty events)
      [.key (.char '\n')]).recalled with _ | index
  · rfl
  · exact absurd afresh (not_recallsAfresh recalls filled empty recalled)

/-- The last of two lines is recalled, edited and run: recall starts behind three lines. -/
theorem recall_starts_afresh_after_edit :
    RecallsAfresh { budget := .standard } (editorAfter { budget := .standard } .empty
      (typing "📥1\n⏹\n".toList ++ [.key .up, .key (.char ' ')] ++ [.key (.char '\n')])) := by
  have goesOn : ∀ event ∈ typing "📥1\n⏹\n".toList ++ [.key .up, .key (.char ' ')],
      ends event = false := by
    decide
  refine ((recall_starts_afresh_iff _ goesOn ?_).2).mpr (.inl ?_)
  · decide +kernel
  · decide +kernel

/-- The last of two lines is recalled, wiped out and entered: the next key up shows the
first line, not the last. -/
theorem recall_goes_on_after_wiped_line :
    editorAfter { budget := .standard } .empty
        (typing "📥1\n⏹\n".toList ++ [.key .up, .key .backspace, .key (.char '\n')]) =
      ⟨[], [], ["📥1".toList, "⏹".toList], some 1⟩ ∧
    ¬ RecallsAfresh { budget := .standard } (editorAfter { budget := .standard } .empty
        (typing "📥1\n⏹\n".toList ++ [.key .up, .key .backspace, .key (.char '\n')])) := by
  have entered : editorAfter { budget := .standard } .empty
      (typing "📥1\n⏹\n".toList ++ [.key .up, .key .backspace, .key (.char '\n')]) =
        ⟨[], [], ["📥1".toList, "⏹".toList], some 1⟩ := by
    decide +kernel
  refine ⟨entered, ?_⟩
  rw [entered]
  intro afresh
  obtain ⟨line, last, shown, -⟩ := afresh.walk 1 0 (by decide) (by decide) (by decide)
  have first : "📥1".toList = line := shown
  have second : "⏹".toList = line := Option.some.inj last
  exact absurd (first.trans second.symm) (by decide)

end Console

end GlyphMachine
