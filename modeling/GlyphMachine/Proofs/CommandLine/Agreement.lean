import GlyphMachine.CommandLine.Process
import Mathlib.Control.Monad.Basic

/-!
# The command line agrees with the engine

An invocation lays down a plan, which tokenizes, assembles, runs and judges step by step,
and carries it out. Where no part of it goes to a file, its actions write lines to the
standard output (`Plan.Writes`), and on an output that is never full all of them succeed
(`Plan.Writes.perform`). The lines of each part, from the dumps to the verdict, are found
along the definition of the plan; together with its ending they are what the engine says of
the same source (`Plan.agreesWith_ofSource`), for any clock.
-/

namespace GlyphMachine

namespace Text

/-- Lines as bytes, with a line break after each. -/
def lineBytes (lines : List String) : Bytes :=
  lines.flatMap fun line => encode (line ++ "\n")

theorem encode_append (s t : String) : encode (s ++ t) = encode s ++ encode t := by
  simp [encode]

theorem encode_join (texts : List String) : encode (String.join texts) = texts.flatMap encode := by
  induction texts with
  | nil => rfl
  | cons text texts ih => rw [String.join_cons, encode_append, ih, List.flatMap_cons]

/-- A text of whole lines that is itself written as a line has an empty one behind it. -/
theorem encode_join_lines (lines : List String) :
    encode (String.join (lines.map (· ++ "\n")) ++ "\n") = lineBytes (lines ++ [""]) := by
  rw [encode_append, encode_join, List.flatMap_map, lineBytes, List.flatMap_append]
  rfl

end Text

/-! ## Plans that write lines -/

namespace Action

/-- What an action writes to the standard output. -/
def bytes : Action → Text.Bytes
  | write text => Text.encode text
  | append .. | log _ => []

/-- The action leaves all files alone. -/
def SparesFiles : Action → Prop
  | append .. => False
  | write _ | log _ => True

/-- On an output that is never full, an action that leaves the files alone succeeds. -/
theorem perform_of_unbounded {s : Surroundings} {action : Action}
    (unbounded : s.sink.room = none) (spares : action.SparesFiles) :
    ∃ log, action.perform s =
      (⟨s.workspace, ⟨none, s.sink.written ++ action.bytes⟩, log⟩, .ok ()) := by
  obtain ⟨workspace, ⟨room, written⟩, log⟩ := s
  obtain rfl : room = none := unbounded
  cases action with
  | write text => exact ⟨log, by simp [perform, Sink.write, bytes]⟩
  | append path text => exact spares.elim
  | log record => exact ⟨log ++ [record], by simp [perform, bytes]⟩

end Action

namespace Plan

/-- On an output that is never full, actions that leave the files alone all succeed, and
the output keeps what each of them writes. -/
theorem performAll_of_unbounded {s : Surroundings} {actions : List Action}
    (unbounded : s.sink.room = none) (spare : ∀ a ∈ actions, a.SparesFiles) :
    ∃ log, performAll s actions =
      (⟨s.workspace, ⟨none, s.sink.written ++ actions.flatMap Action.bytes⟩, log⟩,
        .ok ()) := by
  induction actions generalizing s with
  | nil =>
    obtain ⟨workspace, ⟨room, written⟩, log⟩ := s
    obtain rfl : room = none := unbounded
    exact ⟨log, by simp [performAll]⟩
  | cons action actions ih =>
    obtain ⟨spares, spareRest⟩ := List.forall_mem_cons.mp spare
    obtain ⟨log, first⟩ := action.perform_of_unbounded unbounded spares
    obtain ⟨log', rest⟩ :=
      ih (s := ⟨s.workspace, ⟨none, s.sink.written ++ action.bytes⟩, log⟩) rfl spareRest
    refine ⟨log', ?_⟩
    simp only [performAll, first, rest, List.flatMap_cons, List.append_assoc]

/-- The actions write these lines to the standard output and nothing to any file. -/
structure Writes (actions : List Action) (lines : List String) : Prop where
  spareFiles : ∀ a ∈ actions, a.SparesFiles
  bytes_eq : actions.flatMap Action.bytes = Text.lineBytes lines

namespace Writes

theorem nil : Writes [] [] :=
  ⟨by simp, rfl⟩

theorem append {first rest : List Action} {lines more : List String}
    (w : Writes first lines) (w' : Writes rest more) :
    Writes (first ++ rest) (lines ++ more) where
  spareFiles a mem := (List.mem_append.mp mem).elim (w.spareFiles a) (w'.spareFiles a)
  bytes_eq := by
    rw [List.flatMap_append, w.bytes_eq, w'.bytes_eq]
    exact List.flatMap_append.symm

theorem logs (records : List Record) : Writes (records.map .log) [] where
  spareFiles a mem := by
    obtain ⟨record, -, rfl⟩ := List.mem_map.mp mem
    trivial
  bytes_eq := by
    rw [List.flatMap_map]
    exact List.flatMap_eq_nil_iff.mpr fun _ _ => rfl

theorem lines (lines : List String) : Writes (lines.map writeLine) lines where
  spareFiles a mem := by
    obtain ⟨line, -, rfl⟩ := List.mem_map.mp mem
    trivial
  bytes_eq := List.flatMap_map ..

/-- Carrying out a plan that writes lines on an output that is never full. -/
theorem perform {s : Surroundings} {p : Plan} {lines : List String}
    (w : Writes p.actions lines) (unbounded : s.sink.room = none) :
    ∃ log, p.perform s =
      (⟨s.workspace, ⟨none, s.sink.written ++ Text.lineBytes lines⟩, log⟩, p.ending) := by
  obtain ⟨log, all⟩ := performAll_of_unbounded unbounded w.spareFiles
  exact ⟨log, by simp only [Plan.perform, all, w.bytes_eq]⟩

end Writes

/-! ## The lines of a plan -/

/-- What a dump of some lines puts on the standard output: the lines and an empty one. -/
def dumped (destination : Option Destination) (lines : List String) : List String :=
  if destination = some .output then lines ++ [""] else []

theorem writes_dump {destination : Option Destination} (lines : List String)
    (noFile : ∀ path, destination ≠ some (.file path)) :
    Writes (dump destination (String.join (lines.map (· ++ "\n")))) (dumped destination lines) := by
  match destination with
  | none => exact .nil
  | some .output =>
    have asOne := Writes.lines [String.join (lines.map (· ++ "\n"))]
    refine ⟨asOne.spareFiles, asOne.bytes_eq.trans ?_⟩
    rw [Text.lineBytes, List.flatMap_singleton, Text.encode_join_lines]
    rfl
  | some (.file path) => exact absurd rfl (noFile path)

/-- The line that tells how a run ended. There is none if it halted. -/
def statusLines : Status → List String
  | .halted => []
  | .faulted fault => ["runtime error: " ++ fault.message]
  | .stopped breach => ["stopped: " ++ breach.message]

theorem writes_display (trace : Trace) :
    Writes (display trace) (trace.output ++ statusLines trace.status) := by
  obtain ⟨output, status, executed⟩ := trace
  refine .append (.lines output) ?_
  cases status with
  | halted => exact .nil
  | faulted fault => exact .lines ["runtime error: " ++ fault.message]
  | stopped breach => exact .lines ["stopped: " ++ breach.message]

/-- The line that tells a verdict, by the reason there is against passing. -/
def verdictLines : Option FailureReason → List String
  | none => ["PASSED"]
  | some reason => ["FAILED: " ++ reason.message]

theorem writes_verdict (verdict : Verdict) :
    Writes [writeLine (verdictLine verdict)] (verdictLines verdict.reason) := by
  obtain ⟨observed, reason⟩ := verdict
  cases reason with
  | none => exact .lines ["PASSED"]
  | some reason => exact .lines ["FAILED: " ++ reason.message]

end Plan

/-- No dump goes to a file. -/
structure Options.DumpsToOutput (o : Options) : Prop where
  tokens : ∀ path, o.tokensDump ≠ some (.file path)
  program : ∀ path, o.programDump ≠ some (.file path)

theorem Engine.validateStep_of_parse {e : Engine} {source : String} {program : Program}
    (parsed : Program.parse source = .ok program) (x : Expectation) :
    e.validateStep source x = x.judge (e.run program) := by
  simp [validateStep, runSource, parsed, Except.map]

namespace Plan

/-- The lines for a program: its listing if that is asked for and, unless the run is dry,
what it printed, how it ended and the verdict of the engine if there is something to check. -/
def programLines (o : Options) (e : Engine) (source : String) (program : Program) :
    List String :=
  dumped o.programDump (Program.listingLines program.labels 0 program.instructions) ++
    if o.dryRun then [] else
      (e.run program).output ++ statusLines (e.run program).status ++
        match o.expectation? with
        | none => []
        | some x => verdictLines (e.validateStep source x).reason

/-- How an invocation ends that has a program. -/
def programOutcome (o : Options) (e : Engine) (source : String) (program : Program) : Outcome :=
  if o.dryRun then .compiled program else
    match o.expectation? with
    | none => .ran (e.run program)
    | some x => .checked (e.validateStep source x)

theorem ofProgram_spec {o : Options} (e : Engine) {source : String} {program : Program}
    (noFiles : o.DumpsToOutput) (parsed : Program.parse source = .ok program) :
    Writes (ofProgram o e.run program).actions (programLines o e source program) ∧
      (ofProgram o e.run program).ending = .ok (programOutcome o e source program) := by
  have compile : Writes
      (.log (.compiled o.sourceName program.size) :: dump o.programDump program.listing)
      (dumped o.programDump (Program.listingLines program.labels 0 program.instructions)) :=
    .append (.logs [.compiled o.sourceName program.size]) (writes_dump _ noFiles.program)
  unfold ofProgram programLines programOutcome
  cases dry : o.dryRun with
  | true => exact ⟨by simpa using compile, rfl⟩
  | false =>
    have shown := (compile.append (.logs (Record.ofRun program (e.run program)))).append
      (writes_display (e.run program))
    cases expected : o.expectation? with
    | none => exact ⟨by simpa using shown, rfl⟩
    | some x =>
      have judged := e.validateStep_of_parse parsed x
      have told := shown.append (writes_verdict (x.judge (e.run program)))
      exact ⟨by simpa [judged] using told, by simp [judged]⟩

/-- The line on a token in a dump: the place of the token, and what it is. -/
def tokenLine (t : Located Token) : String :=
  toString t.span.line ++ ":" ++ toString t.span.column ++ "\t" ++ t.item.text

/-- The token dump of a source text, if it is asked for and the text can be tokenized. -/
def tokenLines (o : Options) (source : String) : List String :=
  match tokenize source with
  | .error _ => []
  | .ok tokens => dumped o.tokensDump (tokens.map tokenLine)

theorem writes_tokens {o : Options} (noFiles : o.DumpsToOutput) (tokens : List (Located Token)) :
    Writes (dump o.tokensDump (Token.dump tokens)) (dumped o.tokensDump (tokens.map tokenLine)) := by
  have joined : Token.dump tokens = String.join ((tokens.map tokenLine).map (· ++ "\n")) := by
    rw [List.map_map]
    rfl
  rw [joined]
  exact writes_dump _ noFiles.tokens

/-- A source text with syntax errors is refused after its tokens were dumped. -/
theorem ofSource_refused {o : Options} (e : Engine) {source : String} {errors : SyntaxErrors}
    (noFiles : o.DumpsToOutput) (refused : Program.parse source = .error errors) :
    Writes (ofSource o e.run source).actions (tokenLines o source) ∧
      (ofSource o e.run source).ending = .error (.badSource source errors) := by
  unfold Program.parse at refused
  unfold ofSource tokenLines
  cases tokenized : tokenize source with
  | error lexErrors =>
    simp only [tokenized, Except.error.injEq] at refused
    subst refused
    exact ⟨.nil, rfl⟩
  | ok tokens =>
    cases assembled : Program.ofTokens tokens with
    | error assemblyErrors =>
      simp only [tokenized, assembled, Except.error.injEq] at refused
      exact ⟨by simpa [assembled] using writes_tokens noFiles tokens,
        by simp [assembled, refused]⟩
    | ok program => simp [tokenized, assembled] at refused

/-- A source text without syntax errors is dumped, and its program taken on. -/
theorem ofSource_accepted {o : Options} (e : Engine) {source : String} {program : Program}
    (noFiles : o.DumpsToOutput) (parsed : Program.parse source = .ok program) :
    Writes (ofSource o e.run source).actions
        (tokenLines o source ++ programLines o e source program) ∧
      (ofSource o e.run source).ending = .ok (programOutcome o e source program) := by
  obtain ⟨writes, ending⟩ := ofProgram_spec e noFiles parsed
  unfold Program.parse at parsed
  unfold ofSource tokenLines
  cases tokenized : tokenize source with
  | error lexErrors => simp [tokenized] at parsed
  | ok tokens =>
    cases assembled : Program.ofTokens tokens with
    | error assemblyErrors => simp [tokenized, assembled] at parsed
    | ok assembledProgram =>
      simp only [tokenized, assembled, Except.ok.injEq] at parsed
      subst parsed
      exact ⟨by simpa [assembled] using (writes_tokens noFiles tokens).append writes,
        by simpa [assembled] using ending⟩

end Plan

/-! ## Agreement -/

/-- An invocation with this program is a success: it was only to be compiled, or it halted
with nothing to check, or it passed its check. -/
def Options.Succeeds (o : Options) (e : Engine) (source : String) (program : Program) : Prop :=
  o.dryRun ∨ (o.expectation? = none ∧ (e.run program).status = .halted) ∨
    ∃ x ∈ o.expectation?, (e.validateStep source x).reason = none

instance (o : Options) (e : Engine) (source : String) (program : Program) :
    Decidable (o.Succeeds e source program) :=
  inferInstanceAs (Decidable (_ ∨ _ ∧ _ ∨ _))

theorem Options.exitCode_programOutcome (o : Options) (e : Engine) (source : String)
    (program : Program) :
    let code := (Plan.programOutcome o e source program).exitCode
    (code = 0 ↔ o.Succeeds e source program) ∧ (code = 0 ∨ code = 1) := by
  unfold Plan.programOutcome Options.Succeeds
  cases dry : o.dryRun with
  | true => simp [Outcome.exitCode]
  | false =>
    cases expected : o.expectation? with
    | none =>
      cases ended : (e.run program).status <;> simp [Outcome.exitCode, ended, Status.isHalted]
    | some x =>
      cases judged : (e.validateStep source x).reason <;>
        simp [Outcome.exitCode, Verdict.passed, judged]

/-- What a run did is what the engine says of the source text, on an output that held some
bytes before. -/
structure RunReport.AgreesWith (report : RunReport) (o : Options) (e : Engine)
    (source : String) (before : Text.Bytes) : Prop where
  refused : ∀ errors, Program.parse source = .error errors →
    report.result = .error (.badSource source errors) ∧
      (ProcessResult.ofReport report).exitCode = 2 ∧
      report.written = before ++ Text.lineBytes (Plan.tokenLines o source)
  accepted : ∀ program, Program.parse source = .ok program →
    report.result = .ok (Plan.programOutcome o e source program) ∧
      ((ProcessResult.ofReport report).exitCode = 0 ↔ o.Succeeds e source program) ∧
      ((ProcessResult.ofReport report).exitCode = 0 ∨
        (ProcessResult.ofReport report).exitCode = 1) ∧
      report.written = before ++
        Text.lineBytes (Plan.tokenLines o source ++ Plan.programLines o e source program)

/-- The report on a plan that was carried out. -/
def RunReport.ofPerformed (performed : Surroundings × Except Failure Outcome) : RunReport :=
  ⟨performed.1.sink.written, performed.1.log, performed.2⟩

theorem Plan.agreesWith_ofSource {o : Options} (e : Engine) (source : String)
    {s : Surroundings} (noFiles : o.DumpsToOutput) (unbounded : s.sink.room = none) :
    (RunReport.ofPerformed ((Plan.ofSource o e.run source).perform s)).AgreesWith o e source
      s.sink.written where
  refused errors isRefused := by
    obtain ⟨writes, ending⟩ := Plan.ofSource_refused e noFiles isRefused
    obtain ⟨log, performed⟩ := writes.perform unbounded
    rw [performed, ending]
    exact ⟨rfl, rfl, rfl⟩
  accepted program parsed := by
    obtain ⟨writes, ending⟩ := Plan.ofSource_accepted e noFiles parsed
    obtain ⟨log, performed⟩ := writes.perform unbounded
    obtain ⟨zero, zeroOrOne⟩ := o.exitCode_programOutcome e source program
    rw [performed, ending]
    exact ⟨rfl, zero, zeroOrOne, rfl⟩

namespace Invocation

theorem run_of_source {i : Invocation} {origin : Origin} {source : String} (sink : Sink)
    (given : i.options.origin? = some origin) (yields : i.source origin = .ok source) :
    (i.run sink).2 = .ofPerformed
      ((Plan.ofSource i.options i.engine.run source).perform ⟨i.workspace, sink, []⟩) := by
  simp only [run, given, yields]
  rfl

/-- An invocation that is run on an output that is never full, and dumps to no file, agrees
with its engine on the source text that it reads. So does its plan under any clock. -/
theorem run_agrees_with_engine (i : Invocation) (sink : Sink) {origin : Origin}
    {source : String} (given : i.options.origin? = some origin)
    (yields : i.source origin = .ok source) (noFiles : i.options.DumpsToOutput)
    (unbounded : sink.room = none) :
    (i.run sink).2.AgreesWith i.options i.engine source sink.written ∧
      ∀ clock,
        let engine : Engine := ⟨i.options.budget, clock⟩
        (RunReport.ofPerformed ((Plan.ofSource i.options engine.run source).perform
          ⟨i.workspace, sink, []⟩)).AgreesWith i.options engine source sink.written := by
  refine ⟨?_, fun clock => Plan.agreesWith_ofSource _ source noFiles unbounded⟩
  rw [run_of_source sink given yields]
  exact Plan.agreesWith_ofSource i.engine source noFiles unbounded

/-- A program that prints the line expected, one that prints another line, one that faults
after its first line, and one that is refused once its tokens were dumped. -/
theorem run_agrees_with_engine_four_endings :
    let report (o : Options) : RunReport := (run ⟨o, .empty, ""⟩ {}).2
    let exitCode (o : Options) : Nat := (ProcessResult.ofReport (report o)).exitCode
    let passing : Options :=
      { programDump := some .output, inline := some "📥 42\n🖨️", expect := some "42" }
    let failing : Options := { inline := some "📥 41\n🖨️", expect := some "42" }
    let faulting : Options := { inline := some "📥 7 🖨️\n➗" }
    let refused : Options := { tokensDump := some .output, inline := some "🦘 x" }
    ((report passing).written =
        Text.lineBytes ["0000    📥 42", "0001    🖨️", "", "42", "PASSED"] ∧
      exitCode passing = 0) ∧
    ((report failing).written =
        Text.lineBytes ["41", "FAILED: expected \"42\" but your program printed \"41\""] ∧
      exitCode failing = 1) ∧
    ((report faulting).written =
        Text.lineBytes ["7", "runtime error: stack underflow, 2 value(s) needed " ++
          "but the stack holds 0 at ➗ (instruction 2, line 2, column 1)"] ∧
      exitCode faulting = 1) ∧
    (∃ errors, Program.parse "🦘 x" = .error errors ∧
        (report refused).result = .error (.badSource "🦘 x" errors)) ∧
      (report refused).written =
        Text.lineBytes ["1:1\tOpcode(🦘 jump)", "1:3\tLabel(x)", ""] ∧
      exitCode refused = 2 := by
  intro report exitCode passing failing faulting refused
  have agrees {o : Options} {source : String} (given : o.origin? = some (.inline source))
      (noFiles : o.DumpsToOutput) : (report o).AgreesWith o { budget := o.budget } source [] :=
    (run_agrees_with_engine ⟨o, .empty, ""⟩ {} given rfl noFiles rfl).1
  refine ⟨?_, ?_, ?_, ?_⟩
  · have parsed : Program.parse "📥 42\n🖨️" =
        .ok ⟨#[⟨.push 42, ⟨0, 4, 1, 1⟩⟩, ⟨.print, ⟨8, 15, 2, 1⟩⟩], []⟩ := by
      decide +kernel
    have noFiles : passing.DumpsToOutput := ⟨by simp [passing], by simp [passing]⟩
    obtain ⟨-, zero, -, written⟩ := (agrees rfl noFiles).accepted _ parsed
    exact ⟨written.trans (by decide +kernel), zero.mpr (by decide +kernel)⟩
  · have parsed : Program.parse "📥 41\n🖨️" =
        .ok ⟨#[⟨.push 41, ⟨0, 4, 1, 1⟩⟩, ⟨.print, ⟨8, 15, 2, 1⟩⟩], []⟩ := by
      decide +kernel
    have noFiles : failing.DumpsToOutput := ⟨by simp [failing], by simp [failing]⟩
    obtain ⟨-, zero, zeroOrOne, written⟩ := (agrees rfl noFiles).accepted _ parsed
    refine ⟨written.trans (by decide +kernel), zeroOrOne.resolve_left ?_⟩
    exact mt zero.mp (by decide +kernel)
  · have parsed : Program.parse "📥 7 🖨️\n➗" =
        .ok ⟨#[⟨.push 7, ⟨0, 4, 1, 1⟩⟩, ⟨.print, ⟨7, 14, 1, 5⟩⟩,
          ⟨.binary .div, ⟨15, 18, 2, 1⟩⟩], []⟩ := by
      decide +kernel
    have noFiles : faulting.DumpsToOutput := ⟨by simp [faulting], by simp [faulting]⟩
    obtain ⟨-, zero, zeroOrOne, written⟩ := (agrees rfl noFiles).accepted _ parsed
    refine ⟨written.trans (by decide +kernel), zeroOrOne.resolve_left ?_⟩
    exact mt zero.mp (by decide +kernel)
  · have tokenized : tokenize "🦘 x" =
        .ok [⟨.opcode .jump, ⟨0, 4, 1, 1⟩⟩, ⟨.label "x", ⟨5, 6, 1, 3⟩⟩] := by
      decide +kernel
    have assembled : Program.ofTokens
        [⟨.opcode .jump, ⟨0, 4, 1, 1⟩⟩, ⟨.label "x", ⟨5, 6, 1, 3⟩⟩] =
          .error [⟨.unresolvedLabel "x", ⟨5, 6, 1, 3⟩⟩] := by
      decide +kernel
    have failed : Program.parse "🦘 x" =
        .error (.ofAssemblyErrors [⟨.unresolvedLabel "x", ⟨5, 6, 1, 3⟩⟩]) := by
      simp only [Program.parse, tokenized, assembled]
    have noFiles : refused.DumpsToOutput := ⟨by simp [refused], by simp [refused]⟩
    obtain ⟨result, two, written⟩ := (agrees rfl noFiles).refused _ failed
    exact ⟨⟨_, failed, result⟩, written.trans (by decide +kernel), two⟩

end Invocation

end GlyphMachine
