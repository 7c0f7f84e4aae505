import GlyphMachine.Proofs.Program.Matching
import GlyphMachine.Proofs.SyntaxErrors.Snippets
import GlyphMachine.Proofs.Text.SavedText

/-!
# Programs and errors of saved texts

A source text and the text that an editor saves of it, with a byte order mark in front
and lines that end in two characters, hold the same program or the same errors. The
lexer reads both in parallel (`saved_parallel`), so that each lexeme of the one has its
counterpart in the other, and the two cover the same piece of text (`Span.SavedAs`). All
else follows from that: the order of the errors (`SavedSpan.start_le_iff`), the line and
column of everything, and the snippets (`SavedSpan.exists_snippets`).
-/

namespace GlyphMachine

open Text (Cluster byteSize crlf mark clusters byteOrderMark displayWidth)

/-- The source text as an editor saves it. -/
def savedSource (marked : Bool) (source : String) : String :=
  String.ofList (Text.saved marked source.toList)

theorem toList_savedSource (marked : Bool) (source : String) :
    (savedSource marked source).toList = mark marked ++ crlf source.toList :=
  String.toList_ofList

/-! ## Reading both in parallel -/

/-- Every line before the place has made the saved text one byte longer. -/
structure Place.SavedAs (marked : Bool) (p q : Place) : Prop where
  line_eq : q.line = p.line
  column_eq : q.column = p.column
  offset_eq : q.offset + 1 = p.offset + p.line + byteSize (mark marked)

/-- A cluster and what becomes of it. -/
structure ClusterSaved (g h : Cluster) : Prop where
  saved_eq : h = crlf g
  lineBreak : g = ['\n'] ∨ '\n' ∉ g

theorem Place.SavedAs.past {marked : Bool} {p q : Place} (m : p.SavedAs marked q)
    {g h : Cluster} (saved : ClusterSaved g h) : (p.past g).SavedAs marked (q.past h) := by
  obtain ⟨line_eq, column_eq, offset_eq⟩ := m
  obtain ⟨rfl, rfl | unbroken⟩ := saved
  · have here : p.past ['\n'] = ⟨p.offset + 1, p.line + 1, 1⟩ := rfl
    have there : q.past (crlf ['\n']) = ⟨q.offset + 2, q.line + 1, 1⟩ := rfl
    rw [here, there]
    exact ⟨by rw [line_eq], rfl, by dsimp only; omega⟩
  · have inLine : ¬ isLineEnd g := by simpa [isLineEnd] using unbroken
    rw [Text.crlf_eq_self unbroken, Place.past, Place.past, if_neg inLine, if_neg inLine]
    exact ⟨line_eq, by rw [column_eq], by dsimp only; omega⟩

theorem saved_parallel (marked : Bool) : Parallel (Place.SavedAs marked) ClusterSaved where
  past together saved := together.past saved
  clusters saved := by
    obtain ⟨rfl, rfl | unbroken⟩ := saved
    · exact .lineBreak
    · rw [Text.crlf_eq_self unbroken]
      exact .same _

theorem ofSource_savedSource (marked : Bool) {source : String}
    (unmarked : source.toList.head? ≠ some byteOrderMark) :
    Cursor.ofSource (savedSource marked source) =
      ⟨⟨byteSize (mark marked), 1, 1⟩, clusters (crlf source.toList)⟩ := by
  have text := toList_savedSource marked source
  cases marked with
  | false =>
    have unmarked' : (savedSource false source).toList.head? ≠ some byteOrderMark := by
      rw [text]
      rcases shape : source.toList with _ | ⟨c, cs⟩
      · nofun
      · by_cases lineFeed : c = '\n'
        · subst lineFeed
          nofun
        · rw [shape] at unmarked
          rw [Text.crlf_cons_of_ne lineFeed]
          exact unmarked
    rw [ofSource_of_unmarked unmarked', text]
    rfl
  | true => exact ofSource_of_marked text

variable {source : String} {marked : Bool}

/-- The cursors at the start of both texts match. -/
theorem ofSource_matches (free : '\r' ∉ source.toList)
    (unmarked : source.toList.head? ≠ some byteOrderMark) (marked : Bool) :
    (Cursor.ofSource source).Matches (Place.SavedAs marked) ClusterSaved
      (.ofSource (savedSource marked source)) := by
  rw [ofSource_of_unmarked unmarked, ofSource_savedSource marked unmarked, Text.clusters_crlf free]
  refine ⟨⟨rfl, rfl, by dsimp only; omega⟩, ?_⟩
  rw [List.forall₂_map_right_iff, List.forall₂_same]
  intro g among
  refine ⟨rfl, ?_⟩
  by_cases lineFeed : '\n' ∈ g
  · rcases Text.eq_of_lineFeed_mem among lineFeed with isFeed | isBreak
    · exact .inl isFeed
    · refine absurd ?_ free
      rw [← Text.flatten_clusters source.toList]
      exact List.mem_flatten.mpr ⟨g, among, by rw [isBreak]; exact List.mem_cons_self⟩
  · exact .inr lineFeed

/-! ## Spans of the same text -/

/-- The two spans cover the same text, in the source and in what is saved of it. -/
structure Span.SavedAs (marked : Bool) (source : String) (s t : Span)
    (before text after : List Char) : Prop where
  covers : s.Covers source.toList before text after
  saved : t.Covers (savedSource marked source).toList (mark marked ++ crlf before) text
    (crlf after)
  column_eq : t.column = s.column

/-- There is a text that the two spans cover. -/
def SavedSpan (marked : Bool) (source : String) (s t : Span) : Prop :=
  ∃ before text after, s.SavedAs marked source t before text after

theorem count_before (marked : Bool) (before : List Char) :
    (mark marked ++ crlf before).count '\n' = before.count '\n' := by
  have none : (mark marked).count '\n' = 0 :=
    List.count_eq_zero.mpr (Text.not_mem_mark (by decide) marked)
  rw [List.count_append, none, Text.count_crlf, Nat.zero_add]

/-- Spans of one size at matching places cover the same text. -/
theorem SpanMatches.savedSpan {s t : Span} (m : SpanMatches (Place.SavedAs marked) s t)
    (covered : ∃ before text after, s.Covers source.toList before text after) :
    SavedSpan marked source s t := by
  obtain ⟨p, q, size, ⟨line_eq, column_eq, offset_eq⟩, rfl, rfl⟩ := m
  obtain ⟨before, text, after, covers⟩ := covered
  have start_eq : p.offset = byteSize before := covers.start_eq
  have stop_eq : p.offset + size = byteSize before + byteSize text := covers.stop_eq
  have count_eq : p.line = 1 + before.count '\n' := covers.line_eq
  have size_eq : byteSize (mark marked ++ crlf before) = q.offset := by
    rw [Text.byteSize_append, Text.byteSize_crlf]
    omega
  refine ⟨before, text, after, covers, ⟨?_, ?_, ?_, ?_, covers.nonempty, covers.unbroken,
    covers.unreturned⟩, column_eq⟩
  · rw [toList_savedSource, covers.source_eq, Text.crlf_append, Text.crlf_append,
      Text.crlf_eq_self covers.unbroken]
    simp only [List.append_assoc]
  · exact size_eq.symm
  · rw [size_eq]
    show q.offset + size = q.offset + byteSize text
    omega
  · rw [count_before]
    exact line_eq.trans count_eq

namespace SavedSpan

variable {s t s' t' : Span}

theorem line_eq (m : SavedSpan marked source s t) : t.line = s.line := by
  obtain ⟨before, text, after, covers, saved, -⟩ := m
  rw [saved.line_eq, covers.line_eq, count_before]

theorem column_eq (m : SavedSpan marked source s t) : t.column = s.column := by
  obtain ⟨before, text, after, -, -, column_eq⟩ := m
  exact column_eq

/-- What begins first in the one text begins first in the other. -/
theorem start_le_iff (m : SavedSpan marked source s t) (m' : SavedSpan marked source s' t') :
    t.start ≤ t'.start ↔ s.start ≤ s'.start := by
  obtain ⟨before, text, after, covers, saved, -⟩ := m
  obtain ⟨before', text', after', covers', saved', -⟩ := m'
  have same : before ++ (text ++ after) = before' ++ (text' ++ after') := by
    rw [← List.append_assoc, ← List.append_assoc, ← covers.source_eq, ← covers'.source_eq]
  rw [covers.start_eq, covers'.start_eq, saved.start_eq, saved'.start_eq, Text.byteSize_append,
    Text.byteSize_append, Nat.add_le_add_iff_left, Text.byteSize_crlf_le_iff same]

/-- Both spans have a snippet. The two differ in the byte order mark, which takes no
columns, if they show the first line. -/
theorem exists_snippets (free : '\r' ∉ source.toList) (m : SavedSpan marked source s t) :
    ∃ shown shown', Snippet.of source s = .ok (some shown) ∧
      Snippet.of (savedSource marked source) t = .ok (some shown') ∧
      shown'.offset = shown.offset ∧ shown'.width = shown.width ∧
      shown'.sourceLine = (if s.line = 1 then mark marked else []) ++ shown.sourceLine := by
  have line_eq := m.line_eq
  obtain ⟨before, text, after, covers, saved, -⟩ := m
  obtain ⟨shown, l, head, tail, found, shows⟩ := covers.exists_snippet
  obtain ⟨l', found', text_eq, size_eq⟩ := Text.exists_line_saved free shows.line_found marked
  have numbered : s.line = before.count '\n' + 1 := by rw [covers.line_eq, Nat.add_comm]
  have first : s.line - 1 = 0 ↔ s.line = 1 := by omega
  simp only [first] at text_eq size_eq
  have width_eq : displayWidth ((if s.line = 1 then mark marked else []) ++ head) =
      displayWidth head := by
    split
    · exact Text.displayWidth_mark marked head
    · rfl
  generalize (if s.line = 1 then mark marked else []) = front at text_eq size_eq width_eq ⊢
  have start_eq : t.start = l'.start + byteSize (front ++ head) := by
    have start_eq := covers.start_eq
    have offset_eq := shows.start_eq
    rw [saved.start_eq, Text.byteSize_append, Text.byteSize_append, Text.byteSize_crlf]
    omega
  have stop_eq : t.stop = l'.start + byteSize (front ++ head ++ text) := by
    rw [saved.stop_eq, ← saved.start_eq, start_eq, Text.byteSize_append (front ++ head),
      Nat.add_assoc]
  have line_cut : l'.text = front ++ head ++ text ++ tail := by
    rw [text_eq, shows.line_cut]
    simp only [List.append_assoc]
  have given : Snippet.of (savedSource marked source) t = .ok (some
      ⟨t.line, t.column, displayWidth (front ++ head), max (displayWidth text) 1, l'.text⟩) := by
    rw [numbered, Nat.add_sub_cancel] at found'
    rw [Snippet.of, line_eq, numbered, savedSource, String.toList_ofList]
    simp only [found', onLine_eq_ok line_cut start_eq stop_eq, line_eq, numbered]
  refine ⟨shown, _, found, given, ?_, ?_, ?_⟩
  · rw [shows.snippet_eq]
    exact width_eq
  · rw [shows.snippet_eq]
  · rw [shows.snippet_eq]
    exact text_eq

end SavedSpan

/-! ## Programs and errors -/

/-- Sorting keeps lists matched whose orders agree. -/
theorem forall₂_mergeSort {α β : Type} {R : α → β → Prop} {r : α → α → Bool}
    {r' : β → β → Bool} (agree : ∀ a b a' b', R a b → R a' b' → r a a' = r' b b')
    {as : List α} {bs : List β} (h : List.Forall₂ R as bs) :
    List.Forall₂ R (as.mergeSort r) (bs.mergeSort r') := by
  -- Both lists are sorted as one list of pairs.
  obtain ⟨length_eq, related⟩ := List.forall₂_iff_zip.mp h
  have lefts : (as.zip bs).map Prod.fst = as := List.map_fst_zip length_eq.le
  have rights : (as.zip bs).map Prod.snd = bs := List.map_snd_zip length_eq.ge
  have left : ((as.zip bs).mergeSort fun z z' => r z.1 z'.1).map Prod.fst = as.mergeSort r :=
    calc
      _ = ((as.zip bs).map Prod.fst).mergeSort r := List.map_mergeSort fun _ _ _ _ => rfl
      _ = as.mergeSort r := by rw [lefts]
  have right : ((as.zip bs).mergeSort fun z z' => r z.1 z'.1).map Prod.snd = bs.mergeSort r' :=
    calc
      _ = ((as.zip bs).map Prod.snd).mergeSort r' := List.map_mergeSort fun _ among _ among' =>
        agree _ _ _ _ (related among) (related among')
      _ = bs.mergeSort r' := by rw [rights]
  rw [← left, ← right, List.forall₂_map_left_iff, List.forall₂_map_right_iff, List.forall₂_same]
  intro z among
  exact related (List.mem_mergeSort.mp among)

theorem ofIssues_matches {issues issues' : List (Located SyntaxIssue)}
    (m : List.Forall₂ (Located.Matches (SavedSpan marked source)) issues issues') :
    List.Forall₂ (Located.Matches (SavedSpan marked source))
      (SyntaxErrors.ofIssues issues).issues (SyntaxErrors.ofIssues issues').issues := by
  apply forall₂_mergeSort ?_ m
  intro i j i' j' same same'
  rw [decide_eq_decide]
  exact (same.span.start_le_iff same'.span).symm

/-- Every lexeme of the source has its counterpart in the saved text. -/
theorem lexemes_matches (free : '\r' ∉ source.toList)
    (unmarked : source.toList.head? ≠ some byteOrderMark) (marked : Bool) :
    List.Forall₂ (ResultMatches (SavedSpan marked source)) (Lexer.ofSource source).lexemes
      (Lexer.ofSource (savedSource marked source)).lexemes := by
  have reading : Reading (.ofSource source) (Lexer.ofSource source).lexemes :=
    reading_iff_lexemes.mpr rfl
  obtain ⟨ls', reading', matched⟩ := reading.exists_matches (saved_parallel marked)
    (ofSource_matches free unmarked marked)
  rw [show (Lexer.ofSource (savedSource marked source)).lexemes = ls' from reading'.lexemes_eq]
  have covered : ∀ l ∈ (Lexer.ofSource source).lexemes, ∃ before text after,
      (Lexeme.span l).Covers source.toList before text after := by
    intro l given
    obtain ⟨before, text, after, covers, -⟩ := exists_covers_of_mem_lexemes given
    exact ⟨before, text, after, covers⟩
  refine ((List.forall₂_and_left _ _).mpr ⟨covered, matched⟩).imp ?_
  intro l l' given
  obtain ⟨covers, same⟩ := given
  cases same with
  | ok same => exact .ok ⟨same.item_eq, same.span.savedSpan covers⟩
  | error same => exact .error ⟨same.item_eq, same.span.savedSpan covers⟩

theorem map_matches {α β : Type} {S : Span → Span → Prop} (f : α → β)
    {xs ys : List (Located α)} (m : List.Forall₂ (Located.Matches S) xs ys) :
    List.Forall₂ (Located.Matches S) (xs.map (·.map f)) (ys.map (·.map f)) := by
  rw [List.forall₂_map_left_iff, List.forall₂_map_right_iff]
  exact m.imp fun _ _ same => ⟨congrArg f same.item_eq, same.span⟩

/-- Both texts hold the same program, or the same errors in the same order. -/
theorem parse_matches (free : '\r' ∉ source.toList)
    (unmarked : source.toList.head? ≠ some byteOrderMark) (marked : Bool) :
    ExceptMatches
      (fun e e' => List.Forall₂ (Located.Matches (SavedSpan marked source)) e.issues e'.issues)
      (Program.Matches (SavedSpan marked source))
      (Program.parse source) (Program.parse (savedSource marked source)) := by
  have tokenized : ExceptMatches (List.Forall₂ (Located.Matches (SavedSpan marked source)))
      (List.Forall₂ (Located.Matches (SavedSpan marked source)))
      (tokenize source) (tokenize (savedSource marked source)) :=
    gather_matches (lexemes_matches free unmarked marked)
  unfold Program.parse
  generalize tokenize source = r at tokenized ⊢
  generalize tokenize (savedSource marked source) = r' at tokenized ⊢
  cases tokenized with
  | error errors => exact .error (ofIssues_matches (map_matches _ errors))
  | @ok tokens tokens' same =>
    have assembled := Program.ofTokens_matches (fun _ _ => SavedSpan.line_eq) same
    dsimp only
    generalize Program.ofTokens tokens = r at assembled ⊢
    generalize Program.ofTokens tokens' = r' at assembled ⊢
    cases assembled with
    | error errors => exact .error (ofIssues_matches (map_matches _ errors))
    | ok program => exact .ok program

/-- The same issue at the same line and column, with the same marker under the same source
line, up to the byte order mark in the first one. -/
structure SyntaxIssue.SameOnScreen (marked : Bool) (source : String)
    (i j : Located SyntaxIssue) : Prop where
  item_eq : j.item = i.item
  line_eq : j.span.line = i.span.line
  column_eq : j.span.column = i.span.column
  snippets : ∃ shown shown', Snippet.of source i.span = .ok (some shown) ∧
    Snippet.of (savedSource marked source) j.span = .ok (some shown') ∧
    shown'.offset = shown.offset ∧ shown'.width = shown.width ∧
    shown'.sourceLine = (if i.span.line = 1 then mark marked else []) ++ shown.sourceLine

theorem Located.Matches.sameOnScreen (free : '\r' ∉ source.toList) {i j : Located SyntaxIssue}
    (m : i.Matches (SavedSpan marked source) j) :
    SyntaxIssue.SameOnScreen marked source i j :=
  ⟨m.item_eq, m.span.line_eq, m.span.column_eq, m.span.exists_snippets free⟩

/-- A byte order mark and line breaks of two characters change neither a program nor what
is said of its errors. -/
theorem saving_keeps_program_and_errors (source : String) (marked : Bool)
    (free : '\r' ∉ source.toList) (unmarked : source.toList.head? ≠ some byteOrderMark) :
    ExceptMatches
      (fun e e' => List.Forall₂ (SyntaxIssue.SameOnScreen marked source) e.issues e'.issues)
      Program.SameOnScreen
      (Program.parse source) (Program.parse (savedSource marked source)) := by
  apply (parse_matches free unmarked marked).imp
  · intro e e' issues
    exact issues.imp fun _ _ same => same.sameOnScreen free
  · intro p q same
    exact same.sameOnScreen fun _ _ spans => ⟨spans.line_eq, spans.column_eq⟩

/-- An unknown glyph on the first line and one on the second, in a text that is saved with
a byte order mark. -/
theorem saving_keeps_two_unknown_glyphs :
    ∃ e e', Program.parse "🍕\n 🍟" = .error e ∧ e.issues.length = 2 ∧
      Program.parse "\uFEFF🍕\r\n 🍟" = .error e' ∧
      List.Forall₂ (SyntaxIssue.SameOnScreen true "🍕\n 🍟") e.issues e'.issues := by
  have text : savedSource true "🍕\n 🍟" = "\uFEFF🍕\r\n 🍟" := by decide +kernel
  have same := saving_keeps_program_and_errors "🍕\n 🍟" true (by decide) (by decide +kernel)
  have tokenized : tokenize "🍕\n 🍟" = .error [⟨.unknownGlyph "🍕", ⟨0, 4, 1, 1⟩⟩,
      ⟨.unknownGlyph "🍟", ⟨6, 10, 2, 2⟩⟩] := by
    decide +kernel
  have failed : Program.parse "🍕\n 🍟" = .error (.ofLexErrors
      [⟨.unknownGlyph "🍕", ⟨0, 4, 1, 1⟩⟩, ⟨.unknownGlyph "🍟", ⟨6, 10, 2, 2⟩⟩]) := by
    simp only [Program.parse, tokenized]
  rw [text, failed] at same
  generalize Program.parse "\uFEFF🍕\r\n 🍟" = r at same ⊢
  cases same with
  | error issues => exact ⟨_, _, failed, List.length_mergeSort _, rfl, issues⟩

end GlyphMachine
