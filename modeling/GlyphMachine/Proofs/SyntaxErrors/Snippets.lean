import GlyphMachine.Proofs.Language.Acceptance
import GlyphMachine.Proofs.Program.Patching
import GlyphMachine.Proofs.Token.Positions
import GlyphMachine.SyntaxErrors.Report

/-!
# Snippets of syntax errors

A span that covers some text of a source always has a snippet
(`Span.Covers.exists_snippet`): the line that it counts is there, it begins and
ends between characters of that line, and what it marks is the text. Every issue of a
source has such a span (`exists_covers_of_parse_error`), be it lexical or from the
assembly. So the report on a source is one `entry` after the other, each of a heading,
the source line, a row of carets and a message.
-/

namespace GlyphMachine

open Text (displayWidth byteSize)

/-! ## Snippets of covered text -/

/-- The snippet shows the span: the line that the span counts, cut between
characters into what is before the span, under it and behind it. -/
structure Snippet.Shows (s : Snippet) (source : String) (span : Span) (l : Text.Line)
    (head text tail : List Char) : Prop where
  line_pos : 0 < span.line
  line_found : (Text.lines source.toList)[span.line - 1]? = some l
  line_cut : l.text = head ++ text ++ tail
  start_eq : span.start = l.start + byteSize head
  stop_eq : span.stop = l.start + byteSize (head ++ text)
  snippet_eq : s = ⟨span.line, span.column, displayWidth head, max (displayWidth text) 1, l.text⟩

section Covered

variable {span : Span}

/-- A span whose text stands on the line has a snippet there. -/
theorem onLine_eq_ok {l : Text.Line} {head text tail : List Char}
    (line_cut : l.text = head ++ text ++ tail) (start_eq : span.start = l.start + byteSize head)
    (stop_eq : span.stop = l.start + byteSize (head ++ text)) :
    Snippet.onLine l span = .ok (some
      ⟨span.line, span.column, displayWidth head, max (displayWidth text) 1, l.text⟩) := by
  have line_size : byteSize l.text = byteSize head + byteSize text + byteSize tail := by
    rw [line_cut, Text.byteSize_append, Text.byteSize_append]
  rw [Text.byteSize_append] at stop_eq
  have inside : ¬ (span.start < l.start ∨ l.stop < span.start) := by
    rw [Text.Line.stop]
    omega
  have front : span.start - l.start = byteSize head := by omega
  have covered : max (min span.stop l.stop) span.start - span.start = byteSize text := by
    rw [Text.Line.stop]
    omega
  have first := Text.splitAtByte?_append head (text ++ tail)
  have second := Text.splitAtByte?_append text tail
  rw [← List.append_assoc, ← line_cut] at first
  simp only [Snippet.onLine, if_neg inside, front, covered, first, second]

/-- A span that covers text of the source has a snippet, which shows it. -/
theorem Span.Covers.exists_snippet {source : String} {before text after : List Char}
    (covers : span.Covers source.toList before text after) :
    ∃ s l head tail, Snippet.of source span = .ok (some s) ∧
      s.Shows source span l head text tail := by
  obtain ⟨l, head, tail, found, line_cut, offset⟩ :=
    Text.exists_line covers.nonempty covers.unbroken covers.unreturned before after
  rw [← covers.source_eq] at found
  have line_eq : span.line = before.count '\n' + 1 := by rw [covers.line_eq, Nat.add_comm]
  have start_eq : span.start = l.start + byteSize head := by rw [covers.start_eq, offset]
  have stop_eq : span.stop = l.start + byteSize (head ++ text) := by
    rw [covers.stop_eq, Text.byteSize_append, ← offset, Nat.add_assoc]
  refine ⟨_, l, head, tail, ?_, ?_, ?_, line_cut, start_eq, stop_eq, rfl⟩
  · rw [Snippet.of, line_eq]
    simp only [found, onLine_eq_ok line_cut start_eq stop_eq, line_eq]
  · omega
  · rw [line_eq, Nat.add_sub_cancel, found]

end Covered

/-! ## The places of issues -/

section Places

variable {source : String} {e : SyntaxErrors}

theorem mem_ofIssues_iff {issues : List (Located SyntaxIssue)} {i : Located SyntaxIssue} :
    i ∈ (SyntaxErrors.ofIssues issues).issues ↔ i ∈ issues :=
  List.mem_mergeSort

theorem failures_of_gather {ε α : Type} {rs : List (Except ε α)} {es : List ε}
    (failed : gather rs = .error es) : failures rs = es := by
  unfold gather at failed
  split at failed
  · cases failed
  · exact Except.error.inj failed

/-- Every issue of a source stands at something that the lexer has given out. -/
theorem exists_lexeme_of_parse_error (failed : Program.parse source = .error e)
    {i : Located SyntaxIssue} (among : i ∈ e.issues) :
    ∃ l ∈ (Lexer.ofSource source).lexemes, Lexeme.span l = i.span := by
  unfold Program.parse at failed
  split at failed
  · rename_i errors tokenized
    obtain rfl := Except.error.inj failed
    obtain ⟨error, reported, rfl⟩ := List.mem_map.mp (mem_ofIssues_iff.mp among)
    rw [← failures_of_gather tokenized] at reported
    exact ⟨.error error, mem_failures_iff.mp reported, rfl⟩
  · rename_i tokens tokenized
    split at failed
    · rename_i errors assembled
      obtain rfl := Except.error.inj failed
      obtain ⟨error, reported, rfl⟩ := List.mem_map.mp (mem_ofIssues_iff.mp among)
      obtain ⟨token, inTokens, span_eq⟩ := token_of_mem_errors assembled error reported
      exact ⟨.ok token, mem_lexemes_of_tokenize tokenized inTokens, span_eq⟩
    · cases failed

/-- Every issue of a source covers some text of it. -/
theorem exists_covers_of_parse_error (failed : Program.parse source = .error e)
    {i : Located SyntaxIssue} (among : i ∈ e.issues) :
    ∃ before text after, i.span.Covers source.toList before text after := by
  obtain ⟨l, given, span_eq⟩ := exists_lexeme_of_parse_error failed among
  obtain ⟨before, text, after, covers, -⟩ := exists_covers_of_mem_lexemes given
  exact ⟨before, text, after, span_eq ▸ covers⟩

end Places

/-! ## Reports -/

namespace SyntaxErrors

/-- The heading of an issue tells its line and column. A terminal shows it in red. -/
def heading (colouring : Colouring) (span : Span) : String :=
  let place := "SYNTAX ERROR: line " ++ toString span.line ++ ", column " ++ toString span.column
  match colouring with
  | .plain => place
  | .red => "\x1b[38;5;1m" ++ place ++ "\x1b[39m"

/-- What is reported of an issue with its snippet, a line each: the heading, the source line,
the carets under the columns of the issue, and the message. -/
def entry (colouring : Colouring) (i : Located SyntaxIssue) (s : Snippet) : String :=
  heading colouring i.span ++ "\n"
    ++ String.ofList s.sourceLine ++ "\n"
    ++ String.ofList (List.replicate s.offset ' ' ++ List.replicate s.width '^') ++ "\n"
    ++ i.item.message ++ "\n"

theorem reportIssue_eq_entry {source : String} {i : Located SyntaxIssue} {s : Snippet}
    (shown : Snippet.of source i.span = .ok (some s)) (colouring : Colouring) :
    reportIssue colouring source i = entry colouring i s := by
  have painted : colouring.paint
      ("SYNTAX ERROR: line " ++ toString i.span.line ++ ", column " ++ toString i.span.column) =
        heading colouring i.span := by
    cases colouring with
    | plain => rfl
    | red => rfl
  simp only [reportIssue, shown, painted, Snippet.text, entry, ← String.append_assoc]

/-- The snippet of an issue was found and shows the text that the issue is about, with
at least one caret under it. -/
def Shown (source : String) (i : Located SyntaxIssue) (s : Snippet) : Prop :=
  Snippet.of source i.span = .ok (some s) ∧ 0 < s.width ∧
    ∃ l head text tail, s.Shows source i.span l head text tail

/-- All issues have snippets, so none is reported without its line. -/
theorem exists_shown {source : String} {issues : List (Located SyntaxIssue)}
    (covered : ∀ i ∈ issues, ∃ before text after,
      i.span.Covers source.toList before text after) :
    ∃ snippets, List.Forall₂ (Shown source) issues snippets ∧
      ∀ colouring, issues.map (reportIssue colouring source) =
        List.zipWith (entry colouring) issues snippets := by
  induction issues with
  | nil => exact ⟨[], .nil, fun _ => rfl⟩
  | cons i issues ih =>
    obtain ⟨first, later⟩ := List.forall_mem_cons.mp covered
    obtain ⟨snippets, shown, reported⟩ := ih later
    obtain ⟨before, text, after, covers⟩ := first
    obtain ⟨s, l, head, tail, found, shows⟩ := covers.exists_snippet
    have width_pos : 0 < s.width := by
      rw [shows.snippet_eq]
      exact Nat.le_max_right _ 1
    refine ⟨s :: snippets, .cons ⟨found, width_pos, l, head, text, tail, shows⟩ shown, ?_⟩
    intro colouring
    rw [List.map_cons, List.zipWith_cons_cons, reported, reportIssue_eq_entry found]

end SyntaxErrors

/-! ## The front end on any source -/

/-- No source makes the front end fail in its own work. Everything the lexer gives out
is cut from the source between characters; no jump is patched outside the code or in
place of another instruction, and every instruction keeps its span; and every issue
is reported with its source line and a row of carets, whose text is written out. -/
theorem front_end_is_safe (source : String) :
    (∀ l ∈ (Lexer.ofSource source).lexemes, ∃ before text after,
      (Lexeme.span l).cut? source.toList = some (before, text, after) ∧ l.Names text) ∧
    (∀ tokens, tokenize source = .ok tokens →
      (Emission.ofTokens tokens).Sound ∧ ∀ p, Program.parse source = .ok p →
        (Emission.ofTokens tokens).patched? (Emission.addressIn (Assembly.ofTokens tokens)) =
            some p.instructions ∧
          (Emission.ofTokens tokens).spans = p.code.toList.map (·.span)) ∧
    ∀ e, Program.parse source = .error e →
      ∃ snippets, List.Forall₂ (SyntaxErrors.Shown source) e.issues snippets ∧
        ∀ colouring, e.report colouring source =
          String.join (List.zipWith (SyntaxErrors.entry colouring) e.issues snippets) := by
  refine ⟨?_, ?_, ?_⟩
  · intro l given
    obtain ⟨before, text, after, covers, names⟩ := exists_covers_of_mem_lexemes given
    exact ⟨before, text, after, covers.cut?_eq, names⟩
  · intro tokens tokenized
    refine ⟨Emission.sound_ofTokens tokens, ?_⟩
    intro p parsed
    obtain ⟨tokens', tokenized', assembled⟩ := Language.parse_eq_ok_iff.mp parsed
    obtain rfl : tokens = tokens' := Except.ok.inj (tokenized.symm.trans tokenized')
    exact Emission.patched?_of_program assembled
  · intro e failed
    have covered := fun i among => exists_covers_of_parse_error failed (i := i) among
    obtain ⟨snippets, shown, reported⟩ := SyntaxErrors.exists_shown covered
    refine ⟨snippets, shown, ?_⟩
    intro colouring
    rw [SyntaxErrors.report, reported]

/-- An unknown glyph behind a glyph of two columns, and a jump to nothing on the line below,
where the first line ends in a carriage return and a line feed. -/
theorem front_end_is_safe_two_issues :
    ∃ e, Program.parse "📥 7 🍕\r\n  🦘" = .error e ∧
      e.report .plain "📥 7 🍕\r\n  🦘" =
        "SYNTAX ERROR: line 1, column 5\n" ++
        "📥 7 🍕\n" ++
        "     ^^\n" ++
        "unknown glyph `🍕`\n" ++
        "SYNTAX ERROR: line 2, column 3\n" ++
        "  🦘\n" ++
        "  ^^\n" ++
        "🦘 needs a label or an instruction index after it\n" := by
  have tokenized : tokenize "📥 7 🍕\r\n  🦘" = .error
      [⟨.unknownGlyph "🍕", ⟨7, 11, 1, 5⟩⟩,
        ⟨.missingOperand (.op .jump) .target, ⟨15, 19, 2, 3⟩⟩] := by
    decide +kernel
  have sorted : SyntaxErrors.ofLexErrors
      [⟨.unknownGlyph "🍕", ⟨7, 11, 1, 5⟩⟩,
        ⟨.missingOperand (.op .jump) .target, ⟨15, 19, 2, 3⟩⟩] =
      ⟨[⟨.lexical (.unknownGlyph "🍕"), ⟨7, 11, 1, 5⟩⟩,
        ⟨.lexical (.missingOperand (.op .jump) .target), ⟨15, 19, 2, 3⟩⟩]⟩ := by
    simp [SyntaxErrors.ofLexErrors, SyntaxErrors.ofIssues, Located.map, List.mergeSort]
  have failed : Program.parse "📥 7 🍕\r\n  🦘" =
      .error ⟨[⟨.lexical (.unknownGlyph "🍕"), ⟨7, 11, 1, 5⟩⟩,
        ⟨.lexical (.missingOperand (.op .jump) .target), ⟨15, 19, 2, 3⟩⟩]⟩ := by
    simp only [Program.parse, tokenized, sorted]
  have first : Snippet.of "📥 7 🍕\r\n  🦘" ⟨7, 11, 1, 5⟩ =
      .ok (some ⟨1, 5, 5, 2, "📥 7 🍕".toList⟩) := by
    decide +kernel
  have second : Snippet.of "📥 7 🍕\r\n  🦘" ⟨15, 19, 2, 3⟩ =
      .ok (some ⟨2, 3, 2, 2, "  🦘".toList⟩) := by
    decide +kernel
  obtain ⟨-, -, reported⟩ := front_end_is_safe "📥 7 🍕\r\n  🦘"
  obtain ⟨snippets, shown, report⟩ := reported _ failed
  refine ⟨_, failed, ?_⟩
  rw [report]
  -- The snippets are those found above, so that the entries can be evaluated.
  obtain _ | ⟨⟨found, -⟩, _ | ⟨⟨found', -⟩, ⟨⟩⟩⟩ := shown
  obtain rfl := Option.some.inj (Except.ok.inj (first.symm.trans found))
  obtain rfl := Option.some.inj (Except.ok.inj (second.symm.trans found'))
  decide +kernel

end GlyphMachine
