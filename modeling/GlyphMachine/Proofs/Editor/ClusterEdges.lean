import GlyphMachine.Proofs.Editor.Session
import GlyphMachine.Proofs.Text.ClusterCuts

/-!
# Cursors at the edges of clusters

`Editor.AtEdge` says that the cursor stands between two clusters of the line. Moving
keeps it there, and typing, home, end and enter put it there from wherever it was
(`snap` is what typing needs for that). Backspace has no such step: what it removes
may have kept two clusters apart, and then the cursor stands inside the one that they
become. `only_backspace_leaves_an_edge` says that nothing else does, so that a session
keeps to the edges exactly if each of its backspaces cuts between clusters
(`BackspacesCut`).
-/

namespace GlyphMachine

open Text (Cluster clusters byteSize CutsClusters AtClusterEdge)

namespace Editor

/-- The cursor stands at the start or the end of a cluster of the line. -/
def AtEdge (e : Editor) : Prop :=
  AtClusterEdge e.line e.cursor

/-! ## Edges, seen from the two sides of the cursor -/

section Sides

variable {e : Editor}

theorem atEdge_iff : e.AtEdge ↔ CutsClusters e.before e.after :=
  Text.cutsClusters_iff_offset.symm

/-- The line has the clusters of its two sides. -/
theorem AtEdge.clusters_line (edge : e.AtEdge) :
    clusters e.line = clusters e.before ++ clusters e.after :=
  atEdge_iff.mp edge

instance (e : Editor) : Decidable e.AtEdge :=
  decidable_of_iff _ atEdge_iff.symm

theorem atEdge_of_before_eq_nil (atStart : e.before = []) : e.AtEdge := by
  rw [atEdge_iff, atStart]
  exact Text.cutsClusters_nil_left e.after

theorem atEdge_of_after_eq_nil (atEnd : e.after = []) : e.AtEdge := by
  rw [atEdge_iff, atEnd]
  exact Text.cutsClusters_nil_right e.before

/-- Some clusters of the line end at the cursor. -/
theorem atEdge_of_clusters {gs hs : List Cluster} (cut : clusters e.line = gs ++ hs)
    (front : e.before = gs.flatten) : e.AtEdge :=
  ⟨gs, hs, cut, congrArg byteSize front⟩

end Sides

/-! ## Moving by one cluster -/

/-- What stands before the cursor falls into its last cluster and the clusters before
that. -/
theorem splitLast_cases (e : Editor) :
    (e.before = [] ∧ e.splitLast = ([], [])) ∨
      ∃ front g, clusters e.before = front ++ [g] ∧ e.splitLast = (front.flatten, g) := by
  unfold splitLast
  rcases last : (clusters e.before).getLast? with _ | g
  · left
    have empty := List.getLast?_eq_none_iff.mp last
    have whole := Text.flatten_clusters e.before
    rw [empty] at whole
    simp [← whole]
  · right
    obtain ⟨front, split⟩ := List.getLast?_eq_some_iff.mp last
    exact ⟨front, g, split, by simp [split]⟩

theorem AtEdge.left {e : Editor} (edge : e.AtEdge) : e.left.AtEdge := by
  rcases e.splitLast_cases with ⟨-, split⟩ | ⟨front, g, cut, split⟩
  · apply atEdge_of_before_eq_nil
    rw [Editor.left, split]
  · have whole := edge.clusters_line
    rw [← line_left, cut, List.append_assoc] at whole
    apply atEdge_of_clusters whole
    rw [Editor.left, split]

theorem AtEdge.right {e : Editor} (edge : e.AtEdge) : e.right.AtEdge := by
  have same := e.line_right
  unfold Editor.right at same ⊢
  split at same
  · exact edge
  · rename_i g gs cut
    have whole := edge.clusters_line
    rw [← same, cut, List.append_cons] at whole
    apply atEdge_of_clusters whole
    rw [List.flatten_append, Text.flatten_clusters, List.flatten_singleton]

/-! ## Snapping to an edge -/

/-- The clusters up to an offset are the first ones, and the next one would go beyond
the offset. -/
theorem clustersUpTo_spec (offset : Nat) (gs : List Cluster) :
    ∃ inside, gs = inside ++ (clustersUpTo offset gs).2 ∧
      (clustersUpTo offset gs).1 = inside.flatten ∧ byteSize inside.flatten ≤ offset ∧
      ∀ g ∈ (clustersUpTo offset gs).2.head?, offset < byteSize inside.flatten + byteSize g := by
  induction gs generalizing offset with
  | nil => exact ⟨[], rfl, rfl, Nat.zero_le _, by simp [clustersUpTo]⟩
  | cons g gs ih =>
    rw [clustersUpTo]
    split
    · rename_i fits
      obtain ⟨inside, cut, front, size, next⟩ := ih (offset - byteSize g)
      refine ⟨g :: inside, congrArg (g :: ·) cut, congrArg (g ++ ·) front, ?_, ?_⟩
      · rw [List.flatten_cons, Text.byteSize_append]
        omega
      · intro h isNext
        have beyond := next h isNext
        rw [List.flatten_cons, Text.byteSize_append]
        omega
    · rename_i beyond
      refine ⟨[], rfl, rfl, Nat.zero_le _, ?_⟩
      intro h isNext
      obtain rfl := Option.mem_some_iff.mp isNext
      rw [List.flatten_nil, Text.byteSize_nil]
      omega

/-- Snapping moves the cursor at most, and only to the end of a cluster. -/
theorem snap_cases (e : Editor) :
    ∃ gs hs, clusters e.line = gs ++ hs ∧ e.snap.before = gs.flatten ∧
      e.snap.after = hs.flatten ∧ e.snap.history = e.history ∧ e.snap.recalled = e.recalled := by
  obtain ⟨inside, cut, front, size, -⟩ := clustersUpTo_spec e.cursor (clusters e.line)
  have whole := Text.flatten_clusters e.line
  simp only [snap]
  split
  · split
    · refine ⟨clusters e.line, [], by rw [List.append_nil], ?_, rfl, rfl, rfl⟩
      rw [whole]
      rfl
    · rename_i g gs next
      rw [next, List.append_cons] at cut
      refine ⟨inside ++ [g], gs, cut, ?_, rfl, rfl, rfl⟩
      rw [List.flatten_append, List.flatten_singleton, front]
  · -- The cursor stands where the clusters inside end, as it stands no further.
    rename_i settled
    rw [front] at settled
    rw [cut, List.flatten_append] at whole
    have same := Text.eq_of_byteSize_eq whole (Nat.le_antisymm size (Nat.le_of_not_lt settled))
    refine ⟨inside, (clustersUpTo e.cursor (clusters e.line)).2, cut, same.symm, ?_, rfl, rfl⟩
    rw [same] at whole
    exact (List.append_cancel_left whole).symm

@[simp] theorem line_snap (e : Editor) : e.snap.line = e.line := by
  obtain ⟨gs, hs, cut, front, back, -⟩ := e.snap_cases
  rw [line, front, back, ← List.flatten_append, ← cut, Text.flatten_clusters]

theorem atEdge_snap (e : Editor) : e.snap.AtEdge := by
  obtain ⟨gs, hs, cut, front, -⟩ := e.snap_cases
  exact atEdge_of_clusters (e.line_snap.symm ▸ cut) front

/-! ## Recalling lines -/

/-- Recalling leaves the editor as it is, or shows a line with the cursor at its end. -/
theorem AtEdge.up {e : Editor} (edge : e.AtEdge) : e.up.AtEdge := by
  unfold Editor.up
  split
  · exact edge
  · exact atEdge_of_after_eq_nil rfl
  · split
    · exact edge
    · exact atEdge_of_after_eq_nil rfl

theorem AtEdge.down {e : Editor} (edge : e.AtEdge) : e.down.AtEdge := by
  unfold Editor.down
  split
  · exact edge
  · split <;> exact atEdge_of_after_eq_nil rfl

end Editor

namespace Console

/-! ## Events -/

/-- The events that put the cursor at an edge wherever it was: typed characters, enter
among them, and the keys for the two ends of the line. -/
def places : Event → Bool
  | .key (.char _) | .key .home | .key .toEnd => true
  | .key (.control c) => c = 'a' ∨ c = 'e'
  | _ => false

theorem atEdge_enter (engine : Engine) (e : Editor) : (enter engine e).editor.AtEdge := by
  rcases enter_cases engine e with ⟨-, cleared, -⟩ | ⟨-, submitted, -⟩
  · rw [cleared]
    exact Editor.atEdge_of_before_eq_nil rfl
  · rw [submitted]
    exact Editor.atEdge_of_before_eq_nil rfl

section Keys

variable {engine : Engine} {e edited : Editor} {key : Key} {event : Event}

theorem atEdge_edit?_of_places (placing : places (.key key)) (edits : edit? e key = some edited) :
    edited.AtEdge := by
  unfold edit? at edits
  split at edits
  case h_1 c =>
    obtain rfl := Option.some.inj edits
    exact Editor.atEdge_snap _
  case h_7 | h_8 =>
    obtain rfl := Option.some.inj edits
    exact Editor.atEdge_of_before_eq_nil rfl
  case h_9 | h_10 =>
    obtain rfl := Option.some.inj edits
    exact Editor.atEdge_of_after_eq_nil rfl
  case h_11 | h_12 => cases edits
  all_goals cases placing

theorem atEdge_edit?_of_atEdge (edge : e.AtEdge) (other : key ≠ .backspace)
    (edits : edit? e key = some edited) : edited.AtEdge := by
  by_cases placing : places (.key key)
  · exact atEdge_edit?_of_places placing edits
  unfold edit? at edits
  split at edits <;> simp only [Option.some.injEq, reduceCtorEq] at edits
  case h_2 => exact absurd rfl other
  case h_3 => exact edits ▸ edge.left
  case h_4 => exact edits ▸ edge.right
  case h_5 => exact edits ▸ edge.up
  case h_6 => exact edits ▸ edge.down
  all_goals exact absurd rfl placing

/-- No placing key is ignored. -/
theorem edit?_ne_none_of_places (placing : places event) (e : Editor) :
    ∃ key, event = .key key ∧ edit? e key ≠ none := by
  cases event with
  | other => cases placing
  | key key =>
    refine ⟨key, rfl, ?_⟩
    cases key with
    | char | home | toEnd => exact Option.some_ne_none _
    | control c =>
      have letter : c = 'a' ∨ c = 'e' := of_decide_eq_true placing
      rcases letter with rfl | rfl
      · exact Option.some_ne_none _
      · exact Option.some_ne_none _
    | _ => cases placing

/-- A placing event puts the cursor at an edge wherever it was before. -/
theorem atEdge_respond_of_places (placing : places event) :
    (respond engine e event).editor.AtEdge := by
  rcases respond_cases engine e event with
    ⟨ignored, -⟩ | ⟨-, entered⟩ | ⟨key, edited, rfl, -, edits, given⟩
  · obtain ⟨key, rfl, useful⟩ := edit?_ne_none_of_places placing e
    exact absurd (ignored key rfl) useful
  · rw [entered]
    exact atEdge_enter engine e
  · rw [given]
    exact atEdge_edit?_of_places placing edits

/-- An event other than backspace keeps the cursor at an edge. -/
theorem atEdge_respond_of_atEdge (edge : e.AtEdge) (other : event ≠ .key .backspace) :
    (respond engine e event).editor.AtEdge := by
  rcases respond_cases engine e event with
    ⟨-, same, -⟩ | ⟨-, entered⟩ | ⟨key, edited, rfl, -, edits, given⟩
  · rw [same]
    exact edge
  · rw [entered]
    exact atEdge_enter engine e
  · rw [given]
    exact atEdge_edit?_of_atEdge edge (fun isBackspace => other (isBackspace ▸ rfl)) edits

/-- An event takes the cursor from an edge to an edge unless it is a backspace, and that
does if what remains before the cursor has no cluster in common with what is behind it. -/
theorem atEdge_respond_iff (edge : e.AtEdge) :
    (respond engine e event).editor.AtEdge ↔
      (event = .key .backspace → CutsClusters e.splitLast.1 e.after) := by
  by_cases isBackspace : event = .key .backspace
  · subst isBackspace
    have removes : (respond engine e (.key .backspace)).editor = e.backspace :=
      editor_respond_key engine e (by decide)
    rw [removes, forall_prop_of_true rfl]
    exact Editor.atEdge_iff
  · exact iff_of_true (atEdge_respond_of_atEdge edge isBackspace)
      fun isOne => absurd isOne isBackspace

end Keys

/-! ## Sessions -/

/-- Every backspace of the session removes a cluster between two texts that have their
clusters apart. -/
def BackspacesCut (engine : Engine) (e : Editor) : List Event → Prop
  | [] => True
  | event :: events =>
    let response := respond engine e event
    (event = .key .backspace → CutsClusters e.splitLast.1 e.after) ∧
      (response.finished ∨ BackspacesCut engine response.editor events)

instance decidableBackspacesCut (engine : Engine) (e : Editor) :
    ∀ events, Decidable (BackspacesCut engine e events)
  | [] => inferInstanceAs (Decidable True)
  | event :: events =>
    have := decidableBackspacesCut engine (respond engine e event).editor events
    inferInstanceAs (Decidable (_ ∧ _))

/-- From an edge, a session keeps to the edges exactly if all its backspaces do. -/
theorem atEdge_responses_iff {engine : Engine} {events : List Event} {e : Editor}
    (edge : e.AtEdge) :
    (∀ r ∈ responses engine e events, r.editor.AtEdge) ↔ BackspacesCut engine e events := by
  induction events generalizing e with
  | nil => simp [responses, BackspacesCut]
  | cons event events ih =>
    rw [responses, List.forall_mem_cons, BackspacesCut, atEdge_respond_iff edge]
    refine and_congr_right fun cut => ?_
    have atEdge : (respond engine e event).editor.AtEdge := (atEdge_respond_iff edge).mpr cut
    split
    · rename_i finished
      simp [finished]
    · rename_i goesOn
      rw [or_iff_right goesOn]
      exact ih atEdge

/-- Backspace removes a letter together with the mark on it. -/
example :
    let events : List Event :=
      [.key (.char 'e'), .key (.char '\u0301'), .key (.char 'x'), .key .left, .key .backspace]
    BackspacesCut { budget := .standard } .empty events ∧
      ∀ r ∈ responses { budget := .standard } .empty events, r.editor.AtEdge := by
  decide +kernel

/-- The cursor stands at an edge after every event of a session without backspace, from
the empty line or from any editor whose next event is a placing one; backspace itself
moves it off an edge only where it brings two clusters together that both remain in the
line; and so a session that starts at an edge, as on the empty line, keeps to the edges
exactly if no backspace in it does that. -/
theorem only_backspace_leaves_an_edge (engine : Engine) :
    (∀ events, Event.key .backspace ∉ events →
      ∀ r ∈ responses engine .empty events, r.editor.AtEdge) ∧
    (∀ e event events, places event → Event.key .backspace ∉ events →
      ∀ r ∈ responses engine e (event :: events), r.editor.AtEdge) ∧
    (∀ e : Editor, e.backspace.AtEdge ↔ CutsClusters e.splitLast.1 e.after) ∧
    ∀ e : Editor, e.AtEdge → ∀ events,
      ((∀ r ∈ responses engine e events, r.editor.AtEdge) ↔ BackspacesCut engine e events) := by
  have kept {events : List Event} (absent : Event.key .backspace ∉ events) :
      ∀ e, ∀ event ∈ events, e.AtEdge → (respond engine e event).editor.AtEdge := by
    intro e event among edge
    exact atEdge_respond_of_atEdge edge fun isBackspace => absent (isBackspace ▸ among)
  refine ⟨?_, ?_, ?_, ?_⟩
  · intro events absent
    exact mem_responses_induction (kept absent) (Editor.atEdge_of_before_eq_nil rfl)
  · intro e event events placing absent
    have placed : (respond engine e event).editor.AtEdge := atEdge_respond_of_places placing
    rw [responses]
    refine List.forall_mem_cons.mpr ⟨placed, ?_⟩
    split
    · simp
    · exact mem_responses_induction (kept absent) placed
  · intro e
    exact Editor.atEdge_iff
  · intro e edge events
    exact atEdge_responses_iff edge

/-- A sign that attaches to the letter after it was kept from it by a tab. Once that is
removed, the cursor stands between the two, inside the cluster they make. -/
theorem backspace_leaves_cursor_inside_cluster :
    ∃ r ∈ responses { budget := .standard } .empty
      [.key (.char '\u0600'), .key (.char '\t'), .key (.char 'a'), .key .left, .key .backspace],
      ¬ r.editor.AtEdge := by
  decide +kernel

end Console

end GlyphMachine
