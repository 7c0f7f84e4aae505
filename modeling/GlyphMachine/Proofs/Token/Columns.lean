import GlyphMachine.Proofs.Text.ClusterCuts
import GlyphMachine.Proofs.Token.Positions
import Mathlib.Data.List.DropRight

/-!
# Lines and columns of lexemes

The cursor counts its column up cluster by cluster and starts again at every line
break. `Place.over_column` gives the count at once: it is the number of clusters
behind the last line break. `Span.Locates` collects what a span says of its place in a
source, and `lexemes_stand_where_they_say` holds every lexeme to it, together with the
text that the lexeme names.
-/

namespace GlyphMachine

open Text (Cluster byteSize clusters)

/-- The clusters behind the last line break, which are those of the present line. -/
def sinceLineBreak (gs : List Cluster) : List Cluster :=
  gs.rtakeWhile fun g => '\n' ∉ g

/-- From the start of a line on, the column is one more than the clusters behind the
last line break. -/
theorem Place.over_column {p : Place} (first : p.column = 1) (gs : List Cluster) :
    (p.over gs).column = 1 + (sinceLineBreak gs).length := by
  -- The cluster that is read last decides whether the count goes on or starts again.
  induction gs using List.reverseRecOn with
  | nil => exact first
  | append_singleton gs g ih =>
    have last : p.over (gs ++ [g]) = (p.over gs).past g := Place.over_append p gs [g]
    rw [last, sinceLineBreak, Place.past]
    by_cases lineFeed : '\n' ∈ g
    · rw [if_pos (Language.isLineEnd_iff.mpr lineFeed),
        List.rtakeWhile_concat_neg _ _ _ (by simpa using lineFeed)]
      rfl
    · rw [if_neg (Language.isLineEnd_iff.not.mpr lineFeed),
        List.rtakeWhile_concat_pos _ _ _ (by simpa using lineFeed), List.length_append]
      dsimp only
      rw [ih, sinceLineBreak, Nat.add_assoc]
      rfl

/-- The span is the place of the clusters `covered`, which stand in the source between
`before` and `after`, behind the byte order mark if there is one. -/
structure Span.Locates (s : Span) (source : String) (before covered after : List Cluster) :
    Prop where
  clusters_eq : clusters source.toList = leadingMark source ++ before ++ covered ++ after
  cut_eq : s.cut? source.toList =
    some ((leadingMark source ++ before).flatten, covered.flatten, after.flatten)
  start_atEdge : Text.AtClusterEdge source.toList s.start
  stop_atEdge : Text.AtClusterEdge source.toList s.stop
  start_lt_stop : s.start < s.stop
  line_eq : s.line = 1 + (leadingMark source ++ before).flatten.count '\n'
  column_eq : s.column = 1 + (sinceLineBreak before).length
  unbroken : '\n' ∉ covered.flatten

/-- A lexeme has its place where it stands. -/
theorem Stands.exists_locates {source : String} {before covered : List Cluster} {l : Lexeme}
    (stands : Stands (.ofSource source) before covered l) :
    ∃ after, (Lexeme.span l).Locates source before covered after := by
  obtain ⟨after, whole, covers⟩ := stands.covers
  obtain ⟨⟨start, stop, toStart, -, span_eq⟩, -, -, -⟩ := stands
  have onFirst : (Cursor.ofSource source).place.column = 1 := by
    rw [(ofSource_spec source).2]
  have column_eq : (Lexeme.span l).column = 1 + (sinceLineBreak before).length := by
    rw [span_eq, Place.spanTo, toStart.place_eq]
    exact Place.over_column onFirst before
  refine ⟨after, whole, covers.cut?_eq, ?_, ?_, covers.start_lt_stop, covers.line_eq, column_eq,
    covers.unbroken⟩
  · refine ⟨leadingMark source ++ before, covered ++ after, ?_, covers.start_eq⟩
    rw [whole, List.append_assoc]
  · refine ⟨leadingMark source ++ before ++ covered, after, whole, ?_⟩
    rw [covers.stop_eq, ← Text.byteSize_append, ← List.flatten_append]

/-- Every lexeme stands where its span says: between two clusters of the source, on the
line and in the column that are counted there, and on one line. What it covers is the
glyph, the number or the text that the lexeme names. -/
theorem lexemes_stand_where_they_say (source : String) :
    ∀ l ∈ (Lexer.ofSource source).lexemes, ∃ before covered after,
      (Lexeme.span l).Locates source before covered after ∧ l.Names covered.flatten := by
  intro l given
  have reading : Reading (.ofSource source) (Lexer.ofSource source).lexemes :=
    reading_iff_lexemes.mpr rfl
  obtain ⟨before, covered, stands⟩ := reading.stands (.refl _) l given
  obtain ⟨after, locates⟩ := stands.exists_locates
  exact ⟨before, covered, after, locates, stands.names⟩

/-- An unknown glyph behind a byte order mark, a line break of two characters and a
blank stands in the second column of the second line. -/
theorem lexemes_stand_where_they_say_second_line :
    .error ⟨.unknownGlyph "🍕", ⟨12, 16, 2, 2⟩⟩ ∈ (Lexer.ofSource "\uFEFF📥 5\r\n 🍕").lexemes ∧
      ∃ before covered after,
        Span.Locates ⟨12, 16, 2, 2⟩ "\uFEFF📥 5\r\n 🍕" before covered after ∧
        Lexeme.Names (.error ⟨.unknownGlyph "🍕", ⟨12, 16, 2, 2⟩⟩) covered.flatten := by
  have given : .error ⟨.unknownGlyph "🍕", ⟨12, 16, 2, 2⟩⟩ ∈
      (Lexer.ofSource "\uFEFF📥 5\r\n 🍕").lexemes := by
    decide +kernel
  exact ⟨given, lexemes_stand_where_they_say _ _ given⟩

end GlyphMachine
