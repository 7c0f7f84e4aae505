import GlyphMachine.Proofs.Program.Origins

/-!
# Complaints

What an assembly reports, said of its clauses. A clause is complained of by itself or
because of the definitions before it (`Clause.complaint?`), and a jump because no
clause at all defines its label (`unresolved`). `Assembly.Records` says that an assembly
has kept the drafts, the errors and the definitions of the clauses it was given;
`Records.add` takes one more clause in and `records_ofTokens` all clauses of a token
list. The finished assembly then gives out the whole list of `complaints`, or, if that
is empty, the program.
-/

namespace GlyphMachine

/-! ## What there is to complain of -/

namespace Clause

/-- The instruction that the clause makes, at the place of its glyph. -/
def draft? : Clause → Option (Located Draft)
  | emit draft span => some ⟨draft, span⟩
  | define .. | report .. => none

/-- The line on which the clause defines the name. -/
def definesAt? (name : String) : Clause → Option Nat
  | define defined span => if defined = name then some span.line else none
  | emit .. | report .. => none

end Clause

/-- The line of the first definition of a name. -/
def firstLine? (cs : List Clause) (name : String) : Option Nat :=
  cs.findSome? (Clause.definesAt? name)

/-- What is wrong with a clause behind the earlier ones. -/
def Clause.complaint? (earlier : List Clause) : Clause → Option (Located AssemblyError)
  | emit .. => none
  | report cause span => some ⟨.malformed cause, span⟩
  | define name span => (firstLine? earlier name).map fun line => ⟨.duplicateLabel name line, span⟩

/-- What is wrong with some clauses behind the earlier ones, in their order. -/
def complaintsBehind (earlier : List Clause) : List Clause → List (Located AssemblyError)
  | [] => []
  | clause :: cs => (clause.complaint? earlier).toList ++ complaintsBehind (earlier ++ [clause]) cs

/-- The labels that jumps ask for, in their order. -/
def references (cs : List Clause) : List (Located String) :=
  (cs.filterMap Clause.draft?).filterMap (·.item.label?)

/-- The jumps to labels that are defined nowhere, in their order. -/
def unresolved (cs : List Clause) : List (Located AssemblyError) :=
  ((references cs).filter fun label => firstLine? cs label.item = none).map
    (Located.map .unresolvedLabel)

/-- All that is wrong with the clauses. -/
def complaints (cs : List Clause) : List (Located AssemblyError) :=
  complaintsBehind [] cs ++ unresolved cs

theorem firstLine?_concat (cs : List Clause) (clause : Clause) (name : String) :
    firstLine? (cs ++ [clause]) name = (firstLine? cs name).or (clause.definesAt? name) := by
  rw [firstLine?, List.findSome?_append, List.findSome?_singleton]
  rfl

theorem complaintsBehind_concat (earlier cs : List Clause) (clause : Clause) :
    complaintsBehind earlier (cs ++ [clause]) =
      complaintsBehind earlier cs ++ (clause.complaint? (earlier ++ cs)).toList := by
  induction cs generalizing earlier with
  | nil =>
    rw [List.append_nil]
    exact List.append_nil _
  | cons first cs ih =>
    rw [List.cons_append, complaintsBehind, complaintsBehind, ih, List.append_assoc,
      List.append_assoc, List.singleton_append]

theorem exists_of_mem_complaintsBehind {earlier cs : List Clause} {e : Located AssemblyError}
    (among : e ∈ complaintsBehind earlier cs) :
    ∃ clause ∈ cs, ∃ before, clause.complaint? before = some e := by
  induction cs generalizing earlier with
  | nil => cases among
  | cons clause cs ih =>
    rw [complaintsBehind, List.mem_append, Option.mem_toList] at among
    rcases among with here | later
    · exact ⟨clause, List.mem_cons_self, earlier, here⟩
    · obtain ⟨other, inside, before, complains⟩ := ih later
      exact ⟨other, List.mem_cons_of_mem _ inside, before, complains⟩

/-- What is complained of is a report, a second definition or a jump to nowhere. -/
theorem complaint_cases {cs : List Clause} {e : Located AssemblyError}
    (among : e ∈ complaints cs) :
    (∃ cause, .report cause e.span ∈ cs ∧ e.item = .malformed cause) ∨
      (∃ name line, e.item = .duplicateLabel name line) ∨
      ∃ name, e.item = .unresolvedLabel name := by
  rcases List.mem_append.mp among with inside | lost
  · obtain ⟨clause, listed, before, complains⟩ := exists_of_mem_complaintsBehind inside
    cases clause with
    | emit => cases complains
    | report cause span =>
      cases complains
      exact .inl ⟨cause, listed, rfl⟩
    | define name span =>
      obtain ⟨line, -, rfl⟩ := Option.map_eq_some_iff.mp complains
      exact .inr (.inl ⟨name, line, rfl⟩)
  · obtain ⟨label, -, rfl⟩ := List.mem_map.mp lost
    exact .inr (.inr ⟨label.item, rfl⟩)

/-! ## What an assembly keeps -/

namespace Assembly

/-- A clause adds the instruction that it makes. -/
theorem add_drafts (a : Assembly) (clause : Clause) :
    (a.add clause).drafts.toList = a.drafts.toList ++ clause.draft?.toList := by
  cases clause with
  | emit => exact Array.toList_push
  | report => exact (List.append_nil _).symm
  | define name span =>
    simp only [add, define]
    split <;> exact (List.append_nil _).symm

/-- A clause adds its definition, unless the name has one already. -/
theorem add_find?_line (a : Assembly) (clause : Clause) (name : String) :
    ((a.add clause).find? name).map (·.line) =
      ((a.find? name).map (·.line)).or (clause.definesAt? name) := by
  cases clause with
  | emit | report => exact Option.or_none.symm
  | define defined span =>
    rw [add, define, Clause.definesAt?]
    by_cases same : defined = name
    · subst same
      rcases found : a.find? defined with _ | first
      · simp [find?]
      · change (a.find? defined).map (·.line) = _
        rw [found]
        rfl
    · rw [if_neg same, Option.or_none]
      split
      · rfl
      · simp [find?, same]

/-- The assembly has kept the instructions, the complaints and the first definitions of
the clauses. -/
structure Records (cs : List Clause) (a : Assembly) : Prop where
  drafts_eq : a.drafts.toList = cs.filterMap Clause.draft?
  errors_eq : a.errors.toList = complaintsBehind [] cs
  lines_eq : ∀ name, (a.find? name).map (·.line) = firstLine? cs name

end Assembly

namespace Assembly.Records

variable {cs : List Clause} {a : Assembly}

theorem empty : Assembly.empty.Records [] :=
  ⟨rfl, rfl, fun _ => rfl⟩

/-- A clause adds what there is to complain of it. -/
theorem add_errors (records : a.Records cs) (clause : Clause) :
    (a.add clause).errors.toList = a.errors.toList ++ (clause.complaint? cs).toList := by
  cases clause with
  | emit => exact (List.append_nil _).symm
  | report => exact Array.toList_push
  | define name span =>
    rw [Clause.complaint?, ← records.lines_eq, Assembly.add, Assembly.define]
    rcases a.find? name with _ | first
    · exact (List.append_nil _).symm
    · exact Array.toList_push

/-- One more clause is kept with the others. -/
theorem add (records : a.Records cs) (clause : Clause) :
    (a.add clause).Records (cs ++ [clause]) where
  drafts_eq := by
    rw [add_drafts, records.drafts_eq, List.filterMap_append]
    cases clause <;> rfl
  errors_eq := by
    rw [records.add_errors, records.errors_eq, complaintsBehind_concat, List.nil_append]
  lines_eq := by
    intro name
    rw [add_find?_line, records.lines_eq, firstLine?_concat]

theorem foldl (records : a.Records cs) (more : List Clause) :
    (more.foldl Assembly.add a).Records (cs ++ more) := by
  induction more generalizing cs a with
  | nil =>
    rw [List.append_nil]
    exact records
  | cons clause more ih =>
    rw [List.append_cons]
    exact ih (records.add clause)

/-- A label has no address if it is defined nowhere, and one if it is. -/
theorem addressOf_cases (records : a.Records cs) (label : Located String) :
    firstLine? cs label.item = none ∧ a.addressOf label = .error (label.map .unresolvedLabel) ∨
      firstLine? cs label.item ≠ none ∧ ∃ address, a.addressOf label = .ok address := by
  unfold Assembly.addressOf
  rcases found : a.find? label.item with _ | first
  · refine .inl ⟨?_, rfl⟩
    rw [← records.lines_eq, found]
    rfl
  · refine .inr ⟨?_, first.address, rfl⟩
    rw [← records.lines_eq, found]
    exact Option.some_ne_none _

/-- The drafts that do not resolve are the jumps to labels that are defined nowhere. -/
theorem failures_resolve (records : a.Records cs) (drafts : List (Located Draft)) :
    failures (drafts.map a.resolve) =
      ((drafts.filterMap (·.item.label?)).filter fun label => firstLine? cs label.item = none).map
        (Located.map .unresolvedLabel) := by
  induction drafts with
  | nil => rfl
  | cons draft drafts ih =>
    unfold failures at ih ⊢
    rcases draft with ⟨_ | label | label, span⟩
    · exact ih
    all_goals
      rw [List.map_cons, Assembly.resolve]
      rcases records.addressOf_cases label with ⟨missing, failed⟩ | ⟨defined, address, found⟩
      · simp [failed, missing, Except.map, Draft.label?, ih]
      · simp [found, defined, Except.map, Draft.label?, ih]

end Assembly.Records

/-- The assembly of some tokens keeps their clauses. -/
theorem records_ofTokens (tokens : List (Located Token)) :
    (Assembly.ofTokens tokens).Records (clauses tokens) := by
  rw [Assembly.ofTokens_eq_foldl]
  exact Assembly.Records.empty.foldl (clauses tokens)

/-! ## What the assembly gives out -/

/-- An assembly is refused with its errors and the drafts that do not resolve. -/
theorem finish_eq_error_iff {a : Assembly} {errors : List (Located AssemblyError)} :
    a.finish = .error errors ↔
      errors = a.errors.toList ++ failures (a.drafts.toList.map a.resolve) ∧ errors ≠ [] := by
  rw [Assembly.finish]
  generalize a.errors.toList ++ failures (a.drafts.toList.map a.resolve) = all
  cases all with
  | nil =>
    simp only [reduceCtorEq, false_iff]
    rintro ⟨rfl, some⟩
    exact some rfl
  | cons first later =>
    simp only [Except.error.injEq]
    constructor
    · rintro rfl
      exact ⟨rfl, List.cons_ne_nil _ _⟩
    · rintro ⟨rfl, -⟩
      rfl

/-- Tokens are refused with all that there is to complain of. -/
theorem ofTokens_eq_error_iff {tokens : List (Located Token)}
    {errors : List (Located AssemblyError)} :
    Program.ofTokens tokens = .error errors ↔
      errors = complaints (clauses tokens) ∧ errors ≠ [] := by
  have records := records_ofTokens tokens
  rw [Program.ofTokens, finish_eq_error_iff, records.failures_resolve, records.drafts_eq,
    records.errors_eq]
  rfl

/-- Resolved instructions stand where their drafts stand. -/
theorem spans_of_resolved {a : Assembly} {drafts : List (Located Draft)}
    {code : List (Located Instruction)} (resolved : drafts.map a.resolve = code.map .ok) :
    code.map (·.span) = drafts.map (·.span) := by
  induction drafts generalizing code with
  | nil =>
    rw [List.map_eq_nil_iff.mp resolved.symm]
    rfl
  | cons draft drafts ih =>
    obtain ⟨i, later, rfl, first, rest⟩ := List.map_eq_cons_iff.mp resolved.symm
    rw [List.map_cons, List.map_cons, (resolve_eq_ok first.symm).1, ih rest.symm]

/-- Tokens spell a program exactly if there is nothing to complain of. The program then
has the instructions of the clauses, each at its glyph and with the address of its label,
and the labels with the number of instructions before them. If there is something to
complain of, it is all reported, in order and nothing else. -/
theorem ofTokens_gives_program_or_complaints (tokens : List (Located Token)) :
    match Program.ofTokens tokens with
    | .ok p => complaints (clauses tokens) = [] ∧
      p.code.toList.map (·.span) = ((clauses tokens).filterMap Clause.draft?).map (·.span) ∧
      ∃ items, (clauses tokens).map Language.clauseItem? = items.map some ∧
        Language.Assembles items p.instructions p.labels
    | .error errors => errors = complaints (clauses tokens) ∧ errors ≠ [] := by
  rcases assembled : Program.ofTokens tokens with errors | p
  · exact ofTokens_eq_error_iff.mp assembled
  · refine ⟨?_, ?_, Language.assembles_of_ofTokens assembled⟩
    · by_contra some
      have refused := ofTokens_eq_error_iff.mpr ⟨rfl, some⟩
      rw [assembled] at refused
      cases refused
    · obtain ⟨-, resolved, -⟩ := Language.finish_eq_ok_iff.mp assembled
      rw [spans_of_resolved resolved, (records_ofTokens tokens).drafts_eq]

/-- A push without its number, a jump to a negative number, a number that nothing takes, a
second definition and a jump to nowhere. No lexer gives out the first. -/
example (a b c d e f g h i j : Span) :
    complaints (clauses [⟨.opcode .push, a⟩, ⟨.opcode .jump, b⟩, ⟨.literal (-1), c⟩,
      ⟨.literal 5, d⟩, ⟨.labelDef, e⟩, ⟨.label "x", f⟩, ⟨.labelDef, g⟩, ⟨.label "x", h⟩,
      ⟨.opcode .jumpIf, i⟩, ⟨.label "y", j⟩]) =
    [⟨.malformed (.expectsNumber .push), a⟩, ⟨.malformed (.negativeTarget (-1)), c⟩,
      ⟨.malformed (.strayNumber 5), d⟩, ⟨.duplicateLabel "x" f.line, h⟩,
      ⟨.unresolvedLabel "y", j⟩] := by
  cbv

end GlyphMachine
