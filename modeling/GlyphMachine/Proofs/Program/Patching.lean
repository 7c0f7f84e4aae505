import GlyphMachine.Proofs.Program.Origins

/-!
# Patching

The assembly keeps the label of a jump until it knows the address. Another way to
get there is to emit the jump at once with an address of zero, to note where it
stands, and to write the address into the code in the end. `Emission` does this,
with the places of the instructions in a list of their own, and every write can
fail: `Emission.patch?` refuses an address outside the code and an instruction that is
no jump. `Emission.Follows` ties the emission to the drafts of an assembly, clause by
clause; so no write fails (`Emission.sound_ofTokens`), and the patched code is that of
the program (`Emission.patched?_of_program`).
-/

namespace GlyphMachine

/-- The instruction of a draft while its label is not known. -/
def Draft.placeholder : Draft → Instruction
  | ready instruction => instruction
  | jumpTo _ => .jump 0
  | jumpIfTo _ => .jumpIf 0

/-- The instruction of a draft with the address of its label, or zero if the label has
none. -/
def Draft.patched (find? : String → Option Nat) : Draft → Instruction
  | ready instruction => instruction
  | jumpTo label => .jump ((find? label.item).getD 0)
  | jumpIfTo label => .jumpIf ((find? label.item).getD 0)

/-- The instruction with another target, if it is a jump. -/
def Instruction.retarget? (target : Nat) : Instruction → Option Instruction
  | jump _ => some (.jump target)
  | jumpIf _ => some (.jumpIf target)
  | _ => none

/-- Code that is emitted before the labels are known. -/
structure Emission where
  instructions : List Instruction
  spans : List Span
  /-- the jumps to patch: their addresses, and the labels they wait for -/
  references : List (Nat × Located String)

namespace Emission

/-- Nothing emitted yet. -/
def empty : Emission := ⟨[], [], []⟩

/-- What a clause adds to the code. -/
def add (e : Emission) : Clause → Emission
  | .emit draft span => {
      instructions := e.instructions ++ [draft.placeholder]
      spans := e.spans ++ [span]
      references := e.references ++
        (draft.label?.map fun label => (e.instructions.length, label)).toList }
  | .define .. | .report .. => e

/-- The code of some tokens, before patching. -/
def ofTokens (tokens : List (Located Token)) : Emission :=
  (clauses tokens).foldl add empty

/-- Writes the address of a label into the jump that waits for it. A label without
address is left alone; anything but a jump at the place to patch is a failure. -/
def patch? (find? : String → Option Nat) (code : List Instruction)
    (reference : Nat × Located String) : Option (List Instruction) :=
  match find? reference.2.item with
  | none => some code
  | some target => do
    let i ← code[reference.1]?
    let j ← i.retarget? target
    return code.set reference.1 j

/-- The code with every jump patched. -/
def patched? (e : Emission) (find? : String → Option Nat) : Option (List Instruction) :=
  e.references.foldlM (patch? find?) e.instructions

/-! ## Patches in longer code -/

section Patches

variable {find? : String → Option Nat} {code patched : List Instruction}

theorem patch?_append {reference : Nat × Located String}
    (done : patch? find? code reference = some patched) (more : List Instruction) :
    patch? find? (code ++ more) reference = some (patched ++ more) := by
  unfold patch? at done ⊢
  split at done
  · cases done
    rfl
  · simp only [Option.bind_eq_bind, Option.bind_eq_some_iff] at done ⊢
    obtain ⟨i, found, j, retargeted, ⟨⟩⟩ := done
    obtain ⟨inside, -⟩ := List.getElem?_eq_some_iff.mp found
    refine ⟨i, ?_, j, retargeted, ?_⟩
    · rw [List.getElem?_append_left inside, found]
    · rw [List.set_append_left _ _ inside]
      rfl

/-- Patches do not notice instructions behind the code they are for. -/
theorem foldlM_patch?_append {references : List (Nat × Located String)}
    (done : references.foldlM (patch? find?) code = some patched) (more : List Instruction) :
    references.foldlM (patch? find?) (code ++ more) = some (patched ++ more) := by
  induction references generalizing code with
  | nil =>
    cases done
    rfl
  | cons reference references ih =>
    rw [List.foldlM_cons, Option.bind_eq_bind, Option.bind_eq_some_iff] at done ⊢
    obtain ⟨next, first, rest⟩ := done
    exact ⟨next ++ more, patch?_append first more, ih rest⟩

/-- The patch of the draft that was emitted last. -/
theorem patch?_last (find? : String → Option Nat) (draft : Draft) {label : Located String}
    (asks : draft.label? = some label) (code : List Instruction) :
    patch? find? (code ++ [draft.placeholder]) (code.length, label) =
      some (code ++ [draft.patched find?]) := by
  unfold patch?
  cases draft with
  | ready => cases asks
  | jumpTo | jumpIfTo =>
    cases asks
    split
    · rename_i missing
      simp [Draft.placeholder, Draft.patched, missing]
    · rename_i target known
      simp [Draft.placeholder, Draft.patched, known, Instruction.retarget?]

end Patches

/-! ## Emissions and drafts -/

/-- The emission is what the drafts amount to: their placeholders and places, with a
reference for every label, so that patching gives the drafts with their labels
replaced. -/
structure Follows (e : Emission) (drafts : List (Located Draft)) : Prop where
  instructions_eq : e.instructions = drafts.map fun d => d.item.placeholder
  spans_eq : e.spans = drafts.map (·.span)
  references : ∀ address label, (address, label) ∈ e.references →
    ∃ d, drafts[address]? = some d ∧ d.item.label? = some label
  patched : ∀ find?, e.patched? find? = some (drafts.map fun d => d.item.patched find?)

namespace Follows

variable {e : Emission} {drafts : List (Located Draft)}

theorem empty : Emission.empty.Follows [] := by
  refine ⟨rfl, rfl, ?_, fun _ => rfl⟩
  intro address label among
  cases among

theorem length_eq (follows : e.Follows drafts) : e.instructions.length = drafts.length := by
  rw [follows.instructions_eq, List.length_map]

theorem emit (follows : e.Follows drafts) (draft : Draft) (span : Span) :
    (e.add (.emit draft span)).Follows (drafts ++ [⟨draft, span⟩]) := by
  refine ⟨?_, ?_, ?_, ?_⟩
  · simp [add, follows.instructions_eq]
  · simp [add, follows.spans_eq]
  · intro address label among
    rcases List.mem_append.mp among with earlier | latest
    · obtain ⟨d, found, asks⟩ := follows.references address label earlier
      obtain ⟨inside, -⟩ := List.getElem?_eq_some_iff.mp found
      exact ⟨d, by rw [List.getElem?_append_left inside, found], asks⟩
    · rw [Option.mem_toList, Option.map_eq_some_iff] at latest
      obtain ⟨label, asks, ⟨⟩⟩ := latest
      refine ⟨⟨draft, span⟩, ?_, asks⟩
      rw [follows.length_eq, List.getElem?_concat_length]
  · intro find?
    -- The earlier patches first; they leave the new placeholder at the end as it is.
    have earlier := foldlM_patch?_append (follows.patched find?) [draft.placeholder]
    have length : e.instructions.length = (drafts.map fun d => d.item.patched find?).length := by
      rw [follows.length_eq, List.length_map]
    simp only [patched?, add, List.foldlM_append, earlier, List.map_append, List.map_cons,
      List.map_nil]
    rcases asks : draft.label? with _ | label
    · cases draft with
      | ready => rfl
      | jumpTo | jumpIfTo => cases asks
    · have latest := patch?_last find? draft asks (drafts.map fun d => d.item.patched find?)
      rw [← length] at latest
      simp [latest]

/-- One more clause in the emission and in the assembly. -/
theorem add {a : Assembly} (follows : e.Follows a.drafts.toList) (clause : Clause) :
    (e.add clause).Follows (a.add clause).drafts.toList := by
  cases clause with
  | emit draft span =>
    rw [Assembly.add, Assembly.emit, Array.toList_push]
    exact follows.emit draft span
  | report cause span => exact follows
  | define name span =>
    have same : (a.add (.define name span)).drafts = a.drafts := by
      simp only [Assembly.add, Assembly.define]
      split <;> rfl
    rw [same]
    exact follows

end Follows

/-- The emission of some tokens follows the drafts of their assembly. -/
theorem follows_ofTokens (tokens : List (Located Token)) :
    (ofTokens tokens).Follows (Assembly.ofTokens tokens).drafts.toList := by
  rw [Assembly.ofTokens_eq_foldl, ofTokens]
  have start : empty.Follows Assembly.empty.drafts.toList := .empty
  generalize empty = e at start ⊢
  generalize Assembly.empty = a at start ⊢
  induction clauses tokens generalizing e a with
  | nil => exact start
  | cons clause cs ih => exact ih _ _ (start.add clause)

/-! ## Patched programs -/

/-- The address of a label among those that the assembly has found defined. -/
def addressIn (a : Assembly) (name : String) : Option Nat :=
  (a.find? name).map (·.address)

/-- A draft that resolves is patched in the same way. -/
theorem patched_of_resolve {a : Assembly} {draft : Located Draft} {i : Located Instruction}
    (resolved : a.resolve draft = .ok i) : draft.item.patched (addressIn a) = i.item := by
  have known : ∀ {label : Located String} {target : Nat},
      a.addressOf label = .ok target → addressIn a label.item = some target := by
    intro label target addressed
    unfold Assembly.addressOf at addressed
    split at addressed
    · rename_i definition found
      cases addressed
      rw [addressIn, found]
      rfl
    · cases addressed
  rcases draft with ⟨_ | label | label, span⟩
  · cases resolved
    rfl
  · obtain ⟨target, addressed, rfl⟩ := Language.map_eq_ok_iff.mp resolved
    rw [Draft.patched, known addressed]
    rfl
  · obtain ⟨target, addressed, rfl⟩ := Language.map_eq_ok_iff.mp resolved
    rw [Draft.patched, known addressed]
    rfl

/-- Drafts that all resolve, with the code they resolve to. -/
theorem map_patched_of_resolved {a : Assembly} {drafts : List (Located Draft)}
    {code : List (Located Instruction)} (resolved : drafts.map a.resolve = code.map .ok) :
    code.map (·.item) = (drafts.map fun d => d.item.patched (addressIn a)) ∧
      code.map (·.span) = drafts.map (·.span) := by
  induction drafts generalizing code with
  | nil =>
    obtain rfl : code = [] := List.map_eq_nil_iff.mp resolved.symm
    exact ⟨rfl, rfl⟩
  | cons draft drafts ih =>
    cases code with
    | nil => cases resolved
    | cons i code =>
      obtain ⟨first, later⟩ := List.cons.inj resolved
      obtain ⟨items, spans⟩ := ih later
      simp only [List.map_cons, items, spans, patched_of_resolve first,
        (resolve_eq_ok first).1, and_self]

/-- Nothing goes astray in the emission: it has a place for every instruction, what
waits for a label is a jump, and no patch fails, wherever the labels stand. -/
structure Sound (e : Emission) : Prop where
  spans_length : e.spans.length = e.instructions.length
  references_jump : ∀ address label, (address, label) ∈ e.references →
    ∃ i, e.instructions[address]? = some i ∧ (i.opcode = .jump ∨ i.opcode = .jumpIf)
  patches : ∀ find?, ∃ code, e.patched? find? = some code ∧
    code.length = e.instructions.length

theorem Follows.sound {e : Emission} {drafts : List (Located Draft)} (follows : e.Follows drafts) :
    e.Sound where
  spans_length := by rw [follows.spans_eq, List.length_map, follows.length_eq]
  references_jump := by
    intro address label among
    obtain ⟨d, found, asks⟩ := follows.references address label among
    refine ⟨d.item.placeholder, ?_, ?_⟩
    · rw [follows.instructions_eq, List.getElem?_map, found]
      rfl
    · rcases d with ⟨_ | _ | _, span⟩
      · cases asks
      · exact .inl rfl
      · exact .inr rfl
  patches := by
    intro find?
    refine ⟨_, follows.patched find?, ?_⟩
    rw [List.length_map, follows.length_eq]

theorem sound_ofTokens (tokens : List (Located Token)) : (ofTokens tokens).Sound :=
  (follows_ofTokens tokens).sound

/-- Patching gives the code of the program, and its places are those of the emission. -/
theorem patched?_of_program {tokens : List (Located Token)} {p : Program}
    (assembled : Program.ofTokens tokens = .ok p) :
    (ofTokens tokens).patched? (addressIn (Assembly.ofTokens tokens)) = some p.instructions ∧
      (ofTokens tokens).spans = p.code.toList.map (·.span) := by
  have follows := follows_ofTokens tokens
  obtain ⟨-, resolved, -⟩ := Language.finish_eq_ok_iff.mp assembled
  obtain ⟨items, spans⟩ := map_patched_of_resolved resolved
  refine ⟨?_, follows.spans_eq.trans spans.symm⟩
  rw [follows.patched, ← items]
  rfl

end Emission

end GlyphMachine
