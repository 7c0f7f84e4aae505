import GlyphMachine.Proofs.Text.ClusterCuts
import GlyphMachine.Proofs.Text.SavedText
import Mathlib.Data.List.DropRight

/-!
# Lines between line breaks

A line of a text can be found by counting line feeds, as `lines` does, or from one of
its clusters, by going to the line breaks on either side. `LineCut` is the cut that the
second way makes, and `LineCut.getElem?_lines` finds its line among the `lines`, whole:
a carriage return that these drop at the end of a line is part of the line break's own
cluster.
-/

namespace GlyphMachine.Text

/-! ## Lines by their line feeds -/

/-- What can stand behind the text of a line: the end, a line feed, or a line feed behind
a carriage return. -/
inductive LineEnd (line : List Char) : List Char → Prop
  | finish (nonempty : line ≠ []) : LineEnd line []
  | feed (unreturned : line.getLast? ≠ some '\r') (rest : List Char) : LineEnd line ('\n' :: rest)
  | returned (rest : List Char) : LineEnd line ('\r' :: '\n' :: rest)

section Counting

variable {above line below : List Char}

/-- The line behind a line feed is the first one of the text there. -/
theorem getElem?_linesFrom_lineFeed (start : Nat) (read before rest : List Char) :
    (linesFrom start read (before ++ '\n' :: rest))[before.count '\n' + 1]? =
      (linesFrom (start + byteSize read + byteSize before + 1) [] rest)[0]? := by
  induction before generalizing start read with
  | nil =>
    rw [List.nil_append, linesFrom, if_pos rfl, List.getElem?_cons_succ]
    rfl
  | cons c before ih =>
    rw [List.cons_append, linesFrom]
    split
    case isTrue lineFeed =>
      subst lineFeed
      rw [List.count_cons_self, List.getElem?_cons_succ, ih, byteSize_cons, byteSize_nil,
        show '\n'.utf8Size = 1 from rfl]
      congr 2
      omega
    case isFalse other =>
      rw [List.count_cons_of_ne other, ih, byteSize_cons, byteSize_cons]
      congr 2
      omega

theorem dropReturn_reverse (unreturned : line.getLast? ≠ some '\r') :
    dropReturn line.reverse = line := by
  rw [dropReturn, List.reverse_reverse]
  intro rest reversed
  apply unreturned
  rw [← List.head?_reverse, reversed]
  rfl

/-- The first line goes up to its end. -/
theorem LineEnd.getElem?_linesFrom (ends : LineEnd line below) (unbroken : '\n' ∉ line)
    (start : Nat) : (linesFrom start [] (line ++ below))[0]? = some ⟨start, line⟩ := by
  rw [linesFrom_append unbroken, List.append_nil]
  cases ends with
  | finish nonempty => simp [linesFrom, nonempty]
  | feed unreturned rest =>
    rw [linesFrom, if_pos rfl, dropReturn_reverse unreturned]
    rfl
  | returned rest =>
    rw [linesFrom, if_neg (by decide), linesFrom, if_pos rfl, dropReturn, List.reverse_reverse]
    rfl

/-- A line that begins the text or stands behind a line feed is numbered by the line feeds
before it. -/
theorem LineEnd.getElem?_lines (ends : LineEnd line below) (unbroken : '\n' ∉ line)
    (begins : above = [] ∨ ∃ front, above = front ++ ['\n']) :
    (lines (above ++ (line ++ below)))[above.count '\n']? = some ⟨byteSize above, line⟩ := by
  rcases begins with rfl | ⟨front, rfl⟩
  · exact ends.getElem?_linesFrom unbroken 0
  · have behind := getElem?_linesFrom_lineFeed 0 [] front (line ++ below)
    rw [ends.getElem?_linesFrom unbroken] at behind
    rw [List.append_assoc, List.singleton_append, List.count_append, lines, byteSize_append]
    rw [byteSize_nil, Nat.zero_add, Nat.add_zero] at behind
    exact behind

end Counting

/-! ## Lines by their clusters -/

/-- The clusters of a text, cut at the line breaks on either side of one of its lines. -/
structure LineCut (text : List Char) (above line below : List Cluster) : Prop where
  clusters_eq : clusters text = above ++ line ++ below
  above_breaks : ∀ g ∈ above.getLast?, '\n' ∈ g
  unbroken : ∀ g ∈ line, '\n' ∉ g
  below_breaks : ∀ g ∈ below.head?, '\n' ∈ g

section Cutting

variable {text : List Char} {above line below before covered after : List Cluster}

/-- Clusters in the middle of a text are the clusters of the text that they make up. -/
theorem clusters_flatten_infix (cut : clusters text = before ++ covered ++ after) :
    clusters covered.flatten = covered := by
  rw [List.append_assoc] at cut
  have behind := clusters_flatten_suffix cut
  exact clusters_flatten_prefix behind

/-- A carriage return and a line feed in a row are no two clusters. -/
theorem clusters_ne_return_feed (text : List Char) (earlier later : List Cluster) :
    clusters text ≠ earlier ++ ['\r'] :: ['\n'] :: later := by
  intro apart
  have behind := clusters_flatten_suffix apart
  rw [List.flatten_cons, List.flatten_cons, List.singleton_append, List.singleton_append,
    clusters_crlf_lineFeed] at behind
  cases (List.cons.inj behind).1

/-- Around clusters that break no line there is a line. -/
theorem exists_lineCut (cut : clusters text = before ++ covered ++ after)
    (unbroken : ∀ g ∈ covered, '\n' ∉ g) :
    ∃ above head tail below, before = above ++ head ∧ after = tail ++ below ∧
      LineCut text above (head ++ covered ++ tail) below := by
  refine ⟨before.rdropWhile ('\n' ∉ ·), before.rtakeWhile ('\n' ∉ ·), after.takeWhile ('\n' ∉ ·),
    after.dropWhile ('\n' ∉ ·), List.rdropWhile_append_rtakeWhile.symm,
    List.takeWhile_append_dropWhile.symm, ?_, ?_, ?_, ?_⟩
  · rw [List.append_assoc, List.append_assoc, List.append_assoc, List.takeWhile_append_dropWhile,
      ← List.append_assoc, List.rdropWhile_append_rtakeWhile, ← List.append_assoc]
    exact cut
  · intro g last
    obtain ⟨nonempty, rfl⟩ := List.mem_getLast?_eq_getLast last
    simpa using List.rdropWhile_last_not ('\n' ∉ ·) before nonempty
  · intro g among
    rcases List.mem_append.mp among with front | behind
    · rcases List.mem_append.mp front with inHead | inside
      · simpa using List.mem_rtakeWhile_imp inHead
      · exact unbroken g inside
    · simpa using List.mem_takeWhile_imp behind
  · intro g first
    have stops := List.head?_dropWhile_not ('\n' ∉ ·) after
    rw [first] at stops
    simpa using stops

namespace LineCut

theorem mem_clusters (cut : LineCut text above line below) {g : Cluster}
    (among : g ∈ above ++ line ++ below) : g ∈ clusters text :=
  cut.clusters_eq ▸ among

/-- The line begins the text, or it stands behind a line feed. -/
theorem begins (cut : LineCut text above line below) :
    above.flatten = [] ∨ ∃ front, above.flatten = front ++ ['\n'] := by
  rcases List.eq_nil_or_concat' above with rfl | ⟨front, g, rfl⟩
  · exact .inl rfl
  · have lineFeed : '\n' ∈ g := cut.above_breaks g (by simp)
    have among : g ∈ clusters text := cut.mem_clusters (by simp)
    right
    rcases eq_of_lineFeed_mem among lineFeed with rfl | rfl
    · exact ⟨front.flatten, by simp⟩
    · exact ⟨front.flatten ++ ['\r'], by simp⟩

/-- No carriage return ends the line before a line feed that is a cluster by itself. -/
theorem unreturned {later : List Cluster} (cut : LineCut text above line (['\n'] :: later)) :
    line.flatten.getLast? ≠ some '\r' := by
  intro returned
  rcases List.eq_nil_or_concat' line with rfl | ⟨front, g, rfl⟩
  · cases returned
  · have among : g ∈ clusters text := cut.mem_clusters (by simp)
    have filled : g ≠ [] := (mem_clusters_cases among).1
    have last : '\r' ∈ g := by
      rw [List.flatten_concat, List.getLast?_append_of_ne_nil _ filled] at returned
      exact List.mem_of_getLast? returned
    rcases eq_of_carriageReturn_mem among last with rfl | rfl
    · apply clusters_ne_return_feed text (above ++ front) later
      rw [cut.clusters_eq]
      simp
    · exact cut.unbroken ['\r', '\n'] (by simp) (by simp)

/-- The line goes up to the end of the text or to a line break. -/
theorem lineEnd (cut : LineCut text above line below) (nonempty : line ≠ []) :
    LineEnd line.flatten below.flatten := by
  cases below with
  | nil =>
    apply LineEnd.finish
    obtain ⟨g, rest, rfl⟩ := List.exists_cons_of_ne_nil nonempty
    have among : g ∈ clusters text := cut.mem_clusters (by simp)
    simp [(mem_clusters_cases among).1]
  | cons g later =>
    have lineFeed : '\n' ∈ g := cut.below_breaks g rfl
    have among : g ∈ clusters text := cut.mem_clusters (by simp)
    rcases eq_of_lineFeed_mem among lineFeed with rfl | rfl
    · exact .feed cut.unreturned _
    · exact .returned _

/-- The line between its line breaks is the line numbered by the line feeds before it. -/
theorem getElem?_lines (cut : LineCut text above line below) (nonempty : line ≠ []) :
    (lines text)[above.flatten.count '\n']? = some ⟨byteSize above.flatten, line.flatten⟩ := by
  have whole : text = above.flatten ++ (line.flatten ++ below.flatten) := by
    rw [← List.flatten_append, ← List.flatten_append, ← List.append_assoc, ← cut.clusters_eq,
      flatten_clusters]
  have unbroken : '\n' ∉ line.flatten := by
    intro lineFeed
    obtain ⟨g, inside, inCluster⟩ := List.mem_flatten.mp lineFeed
    exact cut.unbroken g inside inCluster
  rw [whole]
  exact (cut.lineEnd nonempty).getElem?_lines unbroken cut.begins

end LineCut

end Cutting

end GlyphMachine.Text
