import GlyphMachine.Expectation
import GlyphMachine.Proofs.Language.Words
import GlyphMachine.Proofs.Machine.Sandbox
import Mathlib.Data.List.DropRight

/-!
# Lines and their joined text

An expectation looks at the printed lines one by one or at the text they make up. The
text keeps all there is to know of lines that are `Solid`, since neither the joining nor
the trimming of its end loses anything then (`trimmed_intercalate`, `intercalate_inj`).
Every line that a run prints is solid (`solid_of_mem_output`), so on the trace of a run
the expectations ask for the same.
-/

namespace GlyphMachine

namespace Text

/-! ## Joined texts -/

/-- A line with something in it and no white space. -/
structure Solid (line : List Char) : Prop where
  nonempty : line ≠ []
  dense : ∀ c ∈ line, ¬ isBlank c

theorem Solid.lineFeed_not_mem {line : List Char} (solid : Solid line) : '\n' ∉ line := by
  intro lineFeed
  exact solid.dense '\n' lineFeed (by decide)

theorem occursIn_iff {needle cs : List Char} : occursIn needle cs ↔ needle <:+: cs := by
  induction cs with
  | nil => simp [occursIn]
  | cons c cs ih =>
    rw [occursIn, Bool.or_eq_true, List.isPrefixOf_iff_prefix, ih, List.infix_cons_iff]

section Joined

variable {ls ms : List (List Char)}

/-- The joined text ends as its last line does. -/
theorem exists_intercalate_concat (ls : List (List Char)) (last : List Char) :
    ∃ front, ['\n'].intercalate (ls ++ [last]) = front ++ last := by
  induction ls with
  | nil => exact ⟨[], List.intercalate_singleton⟩
  | cons line ls ih =>
    obtain ⟨front, joined⟩ := ih
    refine ⟨line ++ ['\n'] ++ front, ?_⟩
    rw [List.cons_append, List.intercalate_cons_of_ne_nil (List.concat_ne_nil _ _), joined,
      ← List.append_assoc]

/-- There is no white space at the end of solid lines. -/
theorem rdropWhile_intercalate (solid : ∀ line ∈ ls, Solid line) :
    (['\n'].intercalate ls).rdropWhile isBlank = ['\n'].intercalate ls := by
  rcases List.eq_nil_or_concat' ls with rfl | ⟨before, last, rfl⟩
  · rfl
  · have ends := solid last (List.mem_append_right _ (List.mem_singleton_self last))
    obtain ⟨front, joined⟩ := exists_intercalate_concat before last
    rw [joined]
    apply List.rdropWhile_eq_self_iff.mpr
    intro filled
    rw [List.getLast_append_of_ne_nil filled ends.nonempty]
    exact ends.dense _ (List.getLast_mem ends.nonempty)

/-- Some solid lines make up some text. -/
theorem eq_nil_of_intercalate_eq_nil (solid : ∀ line ∈ ls, Solid line)
    (empty : ['\n'].intercalate ls = []) : ls = [] := by
  by_contra filled
  have found := List.splitOn_intercalate '\n'
    (fun line among => (solid line among).lineFeed_not_mem) filled
  rw [empty] at found
  have blank : [] ∈ ls := by
    rw [← found]
    exact List.mem_singleton_self []
  exact (solid [] blank).nonempty rfl

/-- Solid lines are found again in the text they are joined to. -/
theorem intercalate_inj (solid : ∀ line ∈ ls, Solid line) (solid' : ∀ line ∈ ms, Solid line)
    (same : ['\n'].intercalate ls = ['\n'].intercalate ms) : ls = ms := by
  by_cases empty : ls = []
  · subst empty
    rw [List.intercalate_nil] at same
    exact (eq_nil_of_intercalate_eq_nil solid' same.symm).symm
  by_cases empty' : ms = []
  · subst empty'
    rw [List.intercalate_nil] at same
    exact eq_nil_of_intercalate_eq_nil solid same
  calc
    ls = List.splitOn '\n' (['\n'].intercalate ls) :=
      (List.splitOn_intercalate '\n' (fun line among => (solid line among).lineFeed_not_mem)
        empty).symm
    _ = List.splitOn '\n' (['\n'].intercalate ms) := by rw [same]
    _ = ms :=
      List.splitOn_intercalate '\n' (fun line among => (solid' line among).lineFeed_not_mem) empty'

end Joined

end Text

/-! ## Printed lines -/

/-- A numeral is a solid line. -/
theorem solid_toString (i : Int) : Text.Solid (toString i).toList := by
  obtain ⟨nonempty, chars⟩ := Language.isWord_of_numeral (Language.numeral_toString i)
  exact ⟨nonempty, fun c among => Language.not_isBlank_of_wordChar (chars c among)⟩

/-- All that a run prints is solid. -/
theorem solid_of_mem_output {job : Job} {clock : Clock} {line : String}
    (printed : line ∈ (job.run clock).output) : Text.Solid line.toList := by
  obtain ⟨last, reached, ends⟩ := exists_last job clock
  rw [ends.output_eq] at printed
  obtain ⟨w, rfl⟩ := reached.sandboxed.numerals line printed
  exact solid_toString w.toInt

/-! ## Trimmed texts -/

/-- The text without the white space at its end. -/
def trimmed (text : String) : String :=
  String.ofList (text.toList.rdropWhile Text.isBlank)

/-- What is left of a text stands in it. -/
theorem trimmed_infix (text : String) : (trimmed text).toList <:+: text.toList := by
  rw [trimmed, String.toList_ofList]
  exact (List.rdropWhile_prefix Text.isBlank text.toList).isInfix

section Lines

variable {ls ms : List String}

theorem solid_of_mem_map (solid : ∀ line ∈ ls, Text.Solid line.toList) :
    ∀ line ∈ ls.map String.toList, Text.Solid line := by
  intro line among
  obtain ⟨one, inLines, rfl⟩ := List.mem_map.mp among
  exact solid one inLines

theorem trimmed_intercalate (solid : ∀ line ∈ ls, Text.Solid line.toList) :
    trimmed ("\n".intercalate ls) = "\n".intercalate ls := by
  rw [← String.toList_inj, trimmed, String.toList_ofList, String.toList_intercalate]
  exact Text.rdropWhile_intercalate (solid_of_mem_map solid)

theorem intercalate_inj (solid : ∀ line ∈ ls, Text.Solid line.toList)
    (solid' : ∀ line ∈ ms, Text.Solid line.toList)
    (same : "\n".intercalate ls = "\n".intercalate ms) : ls = ms := by
  rw [← String.toList_inj, String.toList_intercalate, String.toList_intercalate] at same
  have chars := Text.intercalate_inj (solid_of_mem_map solid) (solid_of_mem_map solid') same
  exact List.map_injective_iff.mpr (fun _ _ => String.toList_injective) chars

end Lines

/-! ## Verdicts -/

namespace Expectation

variable {t : Trace}

theorem passed_iff {e : Expectation} :
    (e.judge t).passed ↔ t.status = .halted ∧ e.objection? t = none := by
  rcases t with ⟨output, status, executed⟩
  cases status <;> simp [judge, Verdict.passed]

theorem exact_objection?_eq_none_iff {x : String} :
    (exact x).objection? t = none ↔ trimmed t.text = trimmed x := by
  have same : Text.trimEnd t.text.toList = Text.trimEnd x.toList ↔ trimmed t.text = trimmed x :=
    String.ofList_inj.symm
  simp [objection?, same]

theorem contains_objection?_eq_none_iff {x : String} :
    (contains x).objection? t = none ↔ x.toList <:+: t.text.toList := by
  simp [objection?, Text.occursIn_iff]

theorem lines_objection?_eq_none_iff {expected : List String} :
    (lines expected).objection? t = none ↔ t.output = expected := by
  simp [objection?]

/-- On a run that halted, the lines are asked for by the text they are joined to. -/
theorem exact_of_lines {expected : List String} (passed : ((lines expected).judge t).passed) :
    ((exact ("\n".intercalate expected)).judge t).passed := by
  rw [passed_iff, lines_objection?_eq_none_iff] at passed
  obtain ⟨halted, rfl⟩ := passed
  rw [passed_iff, exact_objection?_eq_none_iff]
  exact ⟨halted, rfl⟩

/-- A text that is asked for exactly stands in the output, white space at its end aside. -/
theorem contains_of_exact {x : String} (passed : ((exact x).judge t).passed) :
    ((contains (trimmed x)).judge t).passed := by
  rw [passed_iff, exact_objection?_eq_none_iff] at passed
  obtain ⟨halted, same⟩ := passed
  rw [passed_iff, contains_objection?_eq_none_iff, ← same]
  exact ⟨halted, trimmed_infix _⟩

section Runs

variable {job : Job} {clock : Clock}

theorem trimmed_text_run : trimmed (job.run clock).text = (job.run clock).text :=
  trimmed_intercalate fun _ => solid_of_mem_output

/-- A run prints no white space at the end, so nothing of its text is left out of account. -/
theorem exact_run_iff (halted : (job.run clock).status = .halted) {x : String} :
    ((exact x).judge (job.run clock)).passed ↔
      trimmed x = "\n".intercalate (job.run clock).output := by
  rw [passed_iff, exact_objection?_eq_none_iff, trimmed_text_run]
  exact ⟨fun passed => passed.2.symm, fun same => ⟨halted, same.symm⟩⟩

/-- Lines without white space are asked for one by one or as one text. -/
theorem lines_run_iff (halted : (job.run clock).status = .halted) {expected : List String}
    (solid : ∀ line ∈ expected, Text.Solid line.toList) :
    ((lines expected).judge (job.run clock)).passed ↔
      ((exact ("\n".intercalate expected)).judge (job.run clock)).passed := by
  refine ⟨exact_of_lines, ?_⟩
  intro passed
  rw [exact_run_iff halted, trimmed_intercalate solid] at passed
  rw [passed_iff, lines_objection?_eq_none_iff]
  exact ⟨halted, (intercalate_inj solid (fun _ => solid_of_mem_output) passed).symm⟩

end Runs

end Expectation

/-- The expectations about the output are consistent. Lines that pass pass as one text, and
a text that passes is contained in the output. On the trace of a run, a text passes
exactly if it is the output but for white space at its end, and lines without white space
pass one by one exactly if they pass as one text. Only a run that halted passes. -/
theorem output_expectations_are_consistent :
    (∀ t : Trace, t.status = .halted →
      (∀ expected, ((Expectation.lines expected).judge t).passed →
        ((Expectation.exact ("\n".intercalate expected)).judge t).passed) ∧
      ∀ x, ((Expectation.exact x).judge t).passed →
        ((Expectation.contains (trimmed x)).judge t).passed) ∧
    (∀ (job : Job) (clock : Clock), (job.run clock).status = .halted →
      (∀ x, ((Expectation.exact x).judge (job.run clock)).passed ↔
        trimmed x = "\n".intercalate (job.run clock).output) ∧
      ∀ expected : List String, (∀ line ∈ expected, Text.Solid line.toList) →
        (((Expectation.lines expected).judge (job.run clock)).passed ↔
          ((Expectation.exact ("\n".intercalate expected)).judge (job.run clock)).passed)) ∧
    ∀ t : Trace, t.status ≠ .halted → ∀ e : Expectation, ¬ (e.judge t).passed := by
  refine ⟨?_, ?_, ?_⟩
  · intro t _
    exact ⟨fun _ => Expectation.exact_of_lines, fun _ => Expectation.contains_of_exact⟩
  · intro job clock halted
    exact ⟨fun _ => Expectation.exact_run_iff halted,
      fun _ => Expectation.lines_run_iff halted⟩
  · intro t other e passed
    exact other (Expectation.passed_iff.mp passed).1

/-- The text asked for ends in a line break, which the output does not have. -/
theorem output_expectations_are_consistent_line_break :
    let program : Program :=
      ⟨#[⟨.push 1, ⟨0, 4, 1, 1⟩⟩, ⟨.print, ⟨7, 14, 1, 5⟩⟩,
        ⟨.push 2, ⟨15, 19, 2, 1⟩⟩, ⟨.print, ⟨22, 29, 2, 5⟩⟩], []⟩
    let trace := Job.run ⟨program, .standard⟩ .stopped
    ((Expectation.exact "1\n2\n").judge trace).passed ∧
      ((Expectation.contains "1\n2").judge trace).passed ∧
      ((Expectation.lines ["1", "2"]).judge trace).passed := by
  intro program trace
  have halted : trace.status = .halted := by decide +kernel
  have left : trimmed "1\n2\n" = "1\n2" := by decide +kernel
  have printed : "\n".intercalate trace.output = "1\n2" := by decide +kernel
  have solid : ∀ line ∈ ["1", "2"], Text.Solid line.toList :=
    List.forall_mem_cons.mpr ⟨solid_toString 1, List.forall_mem_singleton.mpr (solid_toString 2)⟩
  obtain ⟨always, onRuns, -⟩ := output_expectations_are_consistent
  obtain ⟨exactly, oneByOne⟩ := onRuns _ _ halted
  have passed := (exactly "1\n2\n").mpr (left.trans printed.symm)
  refine ⟨passed, left ▸ (always trace halted).2 _ passed, (oneByOne _ solid).mpr ?_⟩
  exact (exactly _).mpr (by decide +kernel)

end GlyphMachine
