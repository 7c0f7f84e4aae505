import GlyphMachine.Proofs.SyntaxErrors.Snippets
import GlyphMachine.Proofs.Text.LineCuts

/-!
# Carets under the offending text

A snippet measures the text before a span and the text under it by cutting these out of
their line and into clusters again. `Span.LiesOn` says where a span lies in terms of the
clusters of the whole source, and `Span.LiesOn.snippet_eq` that the pieces, taken by
themselves, fall into the same clusters, so that the carets stand exactly under those of
the span. Every lexeme of a source lies so on its line (`Stands.exists_liesOn`).
-/

namespace GlyphMachine

open Text (Cluster byteSize clusters displayWidth LineCut)

/-! ## Widths of clusters of a text -/

/-- A byte order mark takes no column, a cluster of ASCII one and any other two. -/
theorem width_cases (g : Cluster) :
    g = ['\uFEFF'] ∧ g.width = 0 ∨ (∀ c ∈ g, c.toNat < 0x80) ∧ g.width = 1 ∨
      g ≠ ['\uFEFF'] ∧ (∃ c ∈ g, 0x80 ≤ c.toNat) ∧ g.width = 2 := by
  unfold Cluster.width
  split
  case isTrue mark => exact .inl ⟨mark, rfl⟩
  case isFalse other =>
    split
    case isTrue ascii => exact .inr (.inl ⟨by simpa using ascii, rfl⟩)
    case isFalse wide => exact .inr (.inr ⟨other, by simpa using wide, rfl⟩)

theorem widthOf_eq_sum (gs : List Cluster) : Text.widthOf gs = (gs.map Cluster.width).sum := by
  induction gs with
  | nil => rfl
  | cons g gs ih => rw [Text.widthOf, ih, List.map_cons, List.sum_cons]

/-! ## Spans on their lines -/

/-- The span is the place of the clusters `covered`. They stand on the line that they
make up with `head` and `tail`, between the line breaks at the end of `above` and at the
front of `below`. -/
structure Span.LiesOn (s : Span) (source : String) (above head covered tail below : List Cluster) :
    Prop where
  line_cut : LineCut source.toList above (head ++ covered ++ tail) below
  nonempty : covered ≠ []
  line_eq : s.line = above.flatten.count '\n' + 1
  start_eq : s.start = byteSize (above ++ head).flatten
  stop_eq : s.stop = byteSize (above ++ head ++ covered).flatten

namespace Span.LiesOn

variable {s : Span} {source : String} {above head covered tail below : List Cluster}

/-- The line falls into the clusters that it has in the source. -/
theorem clusters_line (lies : s.LiesOn source above head covered tail below) :
    clusters (head ++ covered ++ tail).flatten = head ++ covered ++ tail :=
  Text.clusters_flatten_infix lies.line_cut.clusters_eq

/-- What stands before the span on its line falls into the clusters that it has in the source. -/
theorem clusters_head (lies : s.LiesOn source above head covered tail below) :
    clusters head.flatten = head := by
  have line := lies.clusters_line
  rw [List.append_assoc] at line
  exact Text.clusters_flatten_prefix line

/-- What the span covers falls into the clusters that it has in the source. -/
theorem clusters_covered (lies : s.LiesOn source above head covered tail below) :
    clusters covered.flatten = covered :=
  Text.clusters_flatten_infix lies.clusters_line

/-- The snippet shows the line, and its carets stand under the clusters of the span. -/
theorem snippet_eq (lies : s.LiesOn source above head covered tail below) :
    Snippet.of source s = .ok (some
      { line := s.line
        column := s.column
        offset := (head.map Cluster.width).sum
        width := max 1 (covered.map Cluster.width).sum
        sourceLine := (head ++ covered ++ tail).flatten }) := by
  have found := lies.line_cut.getElem?_lines (by simp [lies.nonempty])
  have line_cut : (head ++ covered ++ tail).flatten =
      head.flatten ++ covered.flatten ++ tail.flatten := by
    rw [List.flatten_append, List.flatten_append]
  have start_eq : s.start = byteSize above.flatten + byteSize head.flatten := by
    rw [lies.start_eq, List.flatten_append, Text.byteSize_append]
  have stop_eq : s.stop = byteSize above.flatten + byteSize (head.flatten ++ covered.flatten) := by
    rw [lies.stop_eq, List.append_assoc, List.flatten_append, List.flatten_append,
      Text.byteSize_append]
  rw [Snippet.of, lies.line_eq]
  simp only [found]
  rw [onLine_eq_ok line_cut start_eq stop_eq, displayWidth, displayWidth, lies.clusters_head,
    lies.clusters_covered, widthOf_eq_sum, widthOf_eq_sum, Nat.max_comm, lies.line_eq]

end Span.LiesOn

/-- A lexeme lies on its line. -/
theorem Stands.exists_liesOn {source : String} {before covered : List Cluster} {l : Lexeme}
    (stands : Stands (.ofSource source) before covered l) :
    ∃ above head tail below, (Lexeme.span l).LiesOn source above head covered tail below := by
  obtain ⟨after, whole, covers⟩ := stands.covers
  have unbroken : ∀ g ∈ covered, '\n' ∉ g := by
    intro g inside lineFeed
    exact covers.unbroken (List.mem_flatten.mpr ⟨g, inside, lineFeed⟩)
  obtain ⟨above, head, tail, below, front, -, cut⟩ := Text.exists_lineCut whole unbroken
  have sameLine : head.flatten.count '\n' = 0 := by
    apply List.count_eq_zero.mpr
    intro lineFeed
    obtain ⟨g, inside, inCluster⟩ := List.mem_flatten.mp lineFeed
    exact cut.unbroken g (by simp [inside]) inCluster
  refine ⟨above, head, tail, below, cut, stands.nonempty, ?_, ?_, ?_⟩
  · rw [covers.line_eq, front, List.flatten_append, List.count_append, sameLine, Nat.add_comm]
  · rw [covers.start_eq, front]
  · rw [covers.stop_eq, front, ← Text.byteSize_append, ← List.flatten_append]

/-- The carets of an issue stand under the text that it is about, and under no other. The
snippet shows the line of the source around the span, without its line break. Its offset
sums up the columns of the clusters of the source between the start of that line and the
span, and its width those of the clusters in the span; cutting the line into pieces
changes none of these clusters. -/
theorem carets_mark_the_issue {source : String} {e : SyntaxErrors}
    (failed : Program.parse source = .error e) {i : Located SyntaxIssue} (among : i ∈ e.issues) :
    ∃ above head covered tail below, i.span.LiesOn source above head covered tail below ∧
      Snippet.of source i.span = .ok (some
        { line := i.span.line
          column := i.span.column
          offset := (head.map Cluster.width).sum
          width := max 1 (covered.map Cluster.width).sum
          sourceLine := (head ++ covered ++ tail).flatten }) ∧
      (∀ g : Cluster, g = ['\uFEFF'] ∧ g.width = 0 ∨
        (∀ c ∈ g, c.toNat < 0x80) ∧ g.width = 1 ∨
        g ≠ ['\uFEFF'] ∧ (∃ c ∈ g, 0x80 ≤ c.toNat) ∧ g.width = 2) ∧
      clusters head.flatten = head ∧ clusters covered.flatten = covered ∧
      clusters (head ++ covered ++ tail).flatten = head ++ covered ++ tail := by
  obtain ⟨l, given, span_eq⟩ := exists_lexeme_of_parse_error failed among
  obtain ⟨before, covered, stands⟩ := (reading_ofSource source).stands (.refl _) l given
  obtain ⟨above, head, tail, below, lies⟩ := stands.exists_liesOn
  rw [span_eq] at lies
  exact ⟨above, head, covered, tail, below, lies, lies.snippet_eq, width_cases,
    lies.clusters_head, lies.clusters_covered, lies.clusters_line⟩

/-- An unknown glyph behind a jump, its label and a flag, on the second line of a marked
text: two columns each for the jump and the flag, one for the blank and the label. -/
theorem carets_mark_the_issue_behind_flag :
    ∃ e, Program.parse "\uFEFF🖨\r\n🦘 x🇩🇪🍕\r\n" = .error e ∧
      ⟨.lexical (.unknownGlyph "🍕"), ⟨23, 27, 2, 5⟩⟩ ∈ e.issues ∧
      Snippet.of "\uFEFF🖨\r\n🦘 x🇩🇪🍕\r\n" ⟨23, 27, 2, 5⟩ =
        .ok (some ⟨2, 5, 6, 2, "🦘 x🇩🇪🍕".toList⟩) ∧
      ∃ above head covered tail below, Span.LiesOn ⟨23, 27, 2, 5⟩ "\uFEFF🖨\r\n🦘 x🇩🇪🍕\r\n"
        above head covered tail below ∧ (head.map Cluster.width).sum = 6 := by
  have tokenized : tokenize "\uFEFF🖨\r\n🦘 x🇩🇪🍕\r\n" = .error
      [⟨.unknownGlyph "🇩🇪", ⟨15, 23, 2, 4⟩⟩, ⟨.unknownGlyph "🍕", ⟨23, 27, 2, 5⟩⟩] := by
    decide +kernel
  have failed : Program.parse "\uFEFF🖨\r\n🦘 x🇩🇪🍕\r\n" = .error (.ofLexErrors
      [⟨.unknownGlyph "🇩🇪", ⟨15, 23, 2, 4⟩⟩, ⟨.unknownGlyph "🍕", ⟨23, 27, 2, 5⟩⟩]) := by
    simp only [Program.parse, tokenized]
  have among : ⟨.lexical (.unknownGlyph "🍕"), ⟨23, 27, 2, 5⟩⟩ ∈ (SyntaxErrors.ofLexErrors
      [⟨.unknownGlyph "🇩🇪", ⟨15, 23, 2, 4⟩⟩, ⟨.unknownGlyph "🍕", ⟨23, 27, 2, 5⟩⟩]).issues := by
    apply mem_ofIssues_iff.mpr
    simp [Located.map]
  have shown : Snippet.of "\uFEFF🖨\r\n🦘 x🇩🇪🍕\r\n" ⟨23, 27, 2, 5⟩ =
      .ok (some ⟨2, 5, 6, 2, "🦘 x🇩🇪🍕".toList⟩) := by
    decide +kernel
  obtain ⟨above, head, covered, tail, below, lies, snippet, -⟩ :=
    carets_mark_the_issue failed among
  have same := Option.some.inj (Except.ok.inj (snippet.symm.trans shown))
  have offset := congrArg Snippet.offset same
  exact ⟨_, failed, among, shown, above, head, covered, tail, below, lies, offset⟩

end GlyphMachine
