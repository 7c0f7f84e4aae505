import GlyphMachine.Engine
import GlyphMachine.Proofs.Language.Acceptance
import GlyphMachine.Proofs.Machine.Reach
import GlyphMachine.Proofs.Program.Origins
import GlyphMachine.Proofs.Token.Positions

/-!
# Faults and their places

`Fault.RaisedBy` ties a fault to the instruction at its address, and
`exists_raisedBy` finds that instruction for every run that ends in a fault. The
instruction stands at the place of a glyph of the source (`exists_glyph_of_get?`), by way
of the token it was assembled from and the lexeme the token was read as; so a fault
always points at a glyph that the source holds.
-/

namespace GlyphMachine

/-! ## The instruction that faults -/

/-- The fault was raised by this instruction of the job. -/
structure Fault.RaisedBy (fault : Fault) (job : Job) (i : Instruction) : Prop where
  fetched : job.program.get? fault.pc = some i
  opcode_eq : fault.opcode = i.opcode
  span_eq : fault.span = job.program.span? fault.pc
  outcome : ∃ m : Machine, Request.Outcome job.budget m (m.request job.program.size i)
    (.fault fault.cause)

/-- A run that ends in a fault ends at the instruction that raised it. -/
theorem exists_raisedBy {job : Job} {clock : Clock} {fault : Fault}
    (faulted : (job.run clock).status = .faulted fault) : ∃ i, fault.RaisedBy job i := by
  obtain ⟨last, -, ends⟩ := exists_last job clock
  generalize job.run clock = trace at faulted ends
  cases ends with
  | finished | refused | halt | breach => cases faulted
  | @fault i meter cause fetched charged outcome =>
    obtain rfl := Status.faulted.inj faulted
    exact ⟨i, fetched, rfl, rfl, last.machine, outcome⟩

section InvalidTargets

variable {size limit target : Nat} {m : Machine} {i : Instruction}

theorem jumpRequest_eq_invalidJumpTarget {stack : Stack} {address : Nat}
    (asked : m.jumpRequest size stack address = .fault (.invalidJumpTarget target limit)) :
    address = target ∧ size = limit ∧ size < target := by
  unfold Machine.jumpRequest at asked
  split at asked
  · rename_i outside
    cases asked
    exact ⟨rfl, rfl, outside⟩
  · cases asked

/-- Only a jump asks for an invalid target, and for the one it is given. -/
theorem request_eq_invalidJumpTarget
    (asked : m.request size i = .fault (.invalidJumpTarget target limit)) :
    (i = .jump target ∨ i = .jumpIf target) ∧ size = limit ∧ size < target := by
  cases i with
  | push | halt => cases asked
  | jump address =>
    obtain ⟨rfl, outside⟩ := jumpRequest_eq_invalidJumpTarget asked
    exact ⟨.inl rfl, outside⟩
  | jumpIf address =>
    simp only [Machine.request] at asked
    split at asked
    · split at asked
      · cases asked
      · obtain ⟨rfl, outside⟩ := jumpRequest_eq_invalidJumpTarget asked
        exact ⟨.inr rfl, outside⟩
    · cases asked
  | print | dup | swap | drop =>
    simp only [Machine.request] at asked
    split at asked <;> cases asked
  | binary op =>
    simp only [Machine.request] at asked
    split at asked
    · split at asked <;> cases asked
    · cases asked

/-- A fault about a jump target was raised by a jump to that target, which lies
beyond the end of the program. -/
theorem Fault.RaisedBy.jump_of_invalidJumpTarget {fault : Fault} {job : Job}
    (raised : fault.RaisedBy job i) (cause_eq : fault.cause = .invalidJumpTarget target limit) :
    (i = .jump target ∨ i = .jumpIf target) ∧ job.program.size = limit ∧
      job.program.size < target := by
  obtain ⟨m, outcome⟩ := raised.outcome
  rw [cause_eq] at outcome
  generalize asked : m.request job.program.size i = r at outcome
  cases outcome with
  | fault => exact request_eq_invalidJumpTarget asked

end InvalidTargets

/-! ## The place of an instruction -/

theorem runSource_eq_ok_iff {e : Engine} {source : String} {trace : Trace} :
    e.runSource source = .ok trace ↔ ∃ p, Program.parse source = .ok p ∧ e.run p = trace :=
  Language.map_eq_ok_iff

/-- An opcode is read from its glyph. -/
theorem ofCluster?_of_names {o : Opcode} {span : Span} {text : List Char}
    (names : Lexeme.Names (.ok ⟨.opcode o, span⟩) text) :
    Glyph.ofCluster? text = some (.op o) := by
  generalize given : (Except.ok ⟨.opcode o, span⟩ : Lexeme) = l at names
  cases names with
  | @glyph glyph _ _ spelled =>
    cases glyph with
    | labelDef => cases given
    | op o' =>
      cases given
      exact spelled
  | literal | label | unknownGlyph | missingOperand | invalidLiteral | invalidLabel => cases given

/-- An instruction of a source stands at a glyph of its opcode. -/
theorem exists_glyph_of_get? {source : String} {p : Program}
    (parsed : Program.parse source = .ok p) {address : Nat} {i : Instruction}
    (fetched : p.get? address = some i) :
    ∃ s before glyph after, p.span? address = some s ∧
      s.Covers source.toList before glyph after ∧
      Glyph.ofCluster? glyph = some (.op i.opcode) := by
  obtain ⟨tokens, tokenized, assembled⟩ := Language.parse_eq_ok_iff.mp parsed
  obtain ⟨located, found, rfl⟩ := Option.map_eq_some_iff.mp fetched
  have token := token_of_mem_code assembled located (Array.mem_of_getElem? found)
  have lexeme := mem_lexemes_of_tokenize tokenized token
  obtain ⟨before, glyph, after, covers, names⟩ := exists_covers_of_mem_lexemes lexeme
  refine ⟨located.span, before, glyph, after, ?_, covers, ofCluster?_of_names names⟩
  rw [Program.span?, found]
  rfl

/-! ## Faults in a source -/

/-- A fault names an address of the program, the opcode there and the place of its
glyph: the bytes it covers spell the opcode, on the line that it gives. -/
theorem fault_points_at_its_glyph (e : Engine) {source : String} {p : Program} {trace : Trace}
    {fault : Fault} (parsed : Program.parse source = .ok p)
    (ran : e.runSource source = .ok trace) (faulted : trace.status = .faulted fault) :
    fault.pc < p.size ∧
    (∃ i, p.get? fault.pc = some i ∧ fault.opcode = i.opcode) ∧
    ∃ s before glyph after, fault.span = some s ∧ s.start < s.stop ∧
      s.cut? source.toList = some (before, glyph, after) ∧
      Glyph.ofCluster? glyph = some (.op fault.opcode) ∧
      s.line = 1 + before.count '\n' := by
  obtain ⟨p', parsed', rfl⟩ := runSource_eq_ok_iff.mp ran
  obtain rfl : p = p' := Except.ok.inj (parsed.symm.trans parsed')
  obtain ⟨i, raised⟩ := exists_raisedBy faulted
  obtain ⟨s, before, glyph, after, span_eq, covers, spelled⟩ :=
    exists_glyph_of_get? parsed raised.fetched
  refine ⟨Program.lt_size_of_get? raised.fetched, ⟨i, raised.fetched, raised.opcode_eq⟩,
    s, before, glyph, after, ?_, covers.start_lt_stop, covers.cut?_eq, ?_, covers.line_eq⟩
  · rw [raised.span_eq]
    exact span_eq
  · rw [raised.opcode_eq]
    exact spelled

/-- A division by zero on the third line, behind a line break of two bytes and a
comment, is reported at the division sign. -/
theorem fault_points_at_third_line :
    ∃ trace fault s before glyph after,
      Engine.runSource ⟨.standard, .stopped⟩ "📥 7\r\n📥 0 ; zero\n  ➗" = .ok trace ∧
      trace.status = .faulted fault ∧ fault.span = some s ∧
      s.cut? "📥 7\r\n📥 0 ; zero\n  ➗".toList = some (before, glyph, after) ∧
      Glyph.ofCluster? glyph = some (.op (.binary .div)) ∧
      s.line = 3 ∧ before.count '\n' = 2 := by
  have parsed : Program.parse "📥 7\r\n📥 0 ; zero\n  ➗" = .ok ⟨#[⟨.push 7, ⟨0, 4, 1, 1⟩⟩,
      ⟨.push 0, ⟨8, 12, 2, 1⟩⟩, ⟨.binary .div, ⟨24, 27, 3, 3⟩⟩], []⟩ := by
    decide +kernel
  have ran : Engine.runSource ⟨.standard, .stopped⟩ "📥 7\r\n📥 0 ; zero\n  ➗" =
      .ok ⟨[], .faulted ⟨.divideByZero, 2, .binary .div, some ⟨24, 27, 3, 3⟩⟩, 3⟩ := by
    decide +kernel
  obtain ⟨-, -, s, before, glyph, after, span_eq, -, cut, spelled, line_eq⟩ :=
    fault_points_at_its_glyph ⟨.standard, .stopped⟩ parsed ran rfl
  cases span_eq
  exact ⟨_, _, _, before, glyph, after, ran, rfl, rfl, cut, spelled, rfl,
    (Nat.add_left_cancel line_eq).symm⟩

end GlyphMachine
