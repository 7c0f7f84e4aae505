import GlyphMachine.Proofs.Language.Assembly

/-!
# Origins of instructions and errors

Nothing in the result of an assembly is made up: every instruction stands at the
place of a token of its own opcode, and every error at the place of some token.
`Clause.MadeOf` says so of one clause and `Assembly.MadeOf` of all that was taken in
so far, with `Assembly.MadeOf.add` for one clause and `madeOf_ofTokens` for a whole
list of tokens. Replacing labels by addresses moves nothing.
-/

namespace GlyphMachine

namespace Draft

/-- The opcode of the instruction that is drafted. -/
def opcode : Draft → Opcode
  | ready instruction => instruction.opcode
  | jumpTo _ => .jump
  | jumpIfTo _ => .jumpIf

/-- The label that the drafted jump still waits for. -/
def label? : Draft → Option (Located String)
  | ready _ => none
  | jumpTo label | jumpIfTo label => some label

end Draft

/-! ## Clauses -/

/-- The clause is made of tokens of the list: an instruction stands at its opcode and
keeps the place of the label it asks for, a definition stands at its name, and a
report at some token. -/
def Clause.MadeOf (tokens : List (Located Token)) : Clause → Prop
  | .emit draft span => ⟨.opcode draft.opcode, span⟩ ∈ tokens ∧
    ∀ label, draft.label? = some label → ⟨.label label.item, label.span⟩ ∈ tokens
  | .define name span => ⟨.label name, span⟩ ∈ tokens
  | .report _ span => ∃ token ∈ tokens, token.span = span

/-- The token that makes the demand. -/
def Demand.token : Demand → Token
  | value => .opcode .push
  | jump => .opcode .jump
  | jumpIf => .opcode .jumpIf
  | name => .labelDef

section Clauses

variable {tokens more : List (Located Token)} {token operand : Located Token} {demand : Demand}
  {clause : Clause}

theorem Clause.MadeOf.mono (madeOf : clause.MadeOf tokens) (within : tokens ⊆ more) :
    clause.MadeOf more := by
  cases clause with
  | emit draft span => exact ⟨within madeOf.1, fun label asks => within (madeOf.2 label asks)⟩
  | define name span => exact within madeOf
  | report cause span =>
    obtain ⟨token, among, same⟩ := madeOf
    exact ⟨token, within among, same⟩

/-- An instruction that asks for no label stands at its opcode. -/
theorem madeOf_ready {i : Instruction} {span : Span} (among : ⟨.opcode i.opcode, span⟩ ∈ tokens) :
    (Clause.emit (.ready i) span).MadeOf tokens := by
  refine ⟨among, ?_⟩
  intro label asks
  cases asks

theorem madeOf_of_opening_inl (alone : opening token = .inl clause) :
    clause.MadeOf [token] := by
  rcases token with ⟨item, span⟩
  unfold opening at alone
  split at alone <;> cases alone <;> subst_vars
  case h_1 | h_2 => exact ⟨_, List.mem_singleton_self _, rfl⟩
  all_goals exact madeOf_ready (List.mem_singleton_self _)

theorem item_of_opening_inr (waits : opening token = .inr demand) :
    token.item = demand.token := by
  unfold opening at waits
  split at waits <;> cases waits <;> assumption

theorem madeOf_numericJump {jump : Nat → Instruction} {span : Span} {target : Located Word}
    {o : Opcode} (isJump : ∀ n, (jump n).opcode = o) :
    (numericJump jump span target).MadeOf
      [⟨.opcode o, span⟩, ⟨.literal target.item, target.span⟩] := by
  unfold numericJump
  split
  · exact ⟨_, List.mem_cons_of_mem _ (List.mem_singleton_self _), rfl⟩
  · apply madeOf_ready
    rw [isJump]
    exact List.mem_cons_self

theorem madeOf_of_completion (waits : opening token = .inr demand)
    (completes : completion demand token.span operand = some clause) :
    clause.MadeOf [token, operand] := by
  have first := item_of_opening_inr waits
  rcases token with ⟨item, span⟩
  rcases operand with ⟨next, place⟩
  obtain rfl : item = demand.token := first
  -- The demand and the operand fit in six ways; a jump takes numbers and labels.
  unfold completion at completes
  split at completes
  case h_1 value same =>
    obtain rfl : next = .literal value := same
    obtain rfl := Option.some.inj completes
    exact madeOf_ready List.mem_cons_self
  case h_2 value same | h_4 value same =>
    obtain rfl : next = .literal value := same
    obtain rfl := Option.some.inj completes
    exact madeOf_numericJump fun _ => rfl
  case h_3 name same | h_5 name same =>
    obtain rfl : next = .label name := same
    obtain rfl := Option.some.inj completes
    refine ⟨List.mem_cons_self, ?_⟩
    rintro label ⟨⟩
    exact List.mem_cons_of_mem _ (List.mem_singleton_self _)
  case h_6 name same =>
    obtain rfl : next = .label name := same
    obtain rfl := Option.some.inj completes
    exact List.mem_cons_of_mem _ (List.mem_singleton_self _)
  case h_7 => cases completes

/-- Every clause is made of the tokens it was cut from. -/
theorem madeOf_of_mem_clauses (tokens : List (Located Token)) :
    ∀ clause ∈ clauses tokens, clause.MadeOf tokens := by
  fun_induction clauses tokens with
  | case1 => simp
  | case2 token rest clause alone ih =>
    refine List.forall_mem_cons.mpr ⟨?_, fun later among => ?_⟩
    · exact (madeOf_of_opening_inl alone).mono (by simp)
    · exact (ih later among).mono (by simp)
  | case3 token demand waits =>
    intro clause among
    obtain rfl := List.mem_singleton.mp among
    exact ⟨token, List.mem_singleton_self _, rfl⟩
  | case4 token demand waits operand later clause completes ih =>
    refine List.forall_mem_cons.mpr ⟨?_, fun next among => ?_⟩
    · exact (madeOf_of_completion waits completes).mono (by simp)
    · exact (ih next among).mono fun _ inside => List.mem_cons_of_mem _ (List.mem_cons_of_mem _ inside)
  | case5 token demand waits operand later misfit ih =>
    refine List.forall_mem_cons.mpr ⟨?_, fun next among => ?_⟩
    · exact ⟨token, List.mem_cons_self, rfl⟩
    · exact (ih next among).mono fun _ inside => List.mem_cons_of_mem _ inside

end Clauses

/-! ## Assemblies -/

/-- Everything that the assembly holds is made of tokens of the list. -/
structure Assembly.MadeOf (tokens : List (Located Token)) (a : Assembly) : Prop where
  drafts : ∀ draft ∈ a.drafts, (Clause.emit draft.item draft.span).MadeOf tokens
  errors : ∀ error ∈ a.errors, ∃ token ∈ tokens, token.span = error.span

section Assemblies

variable {tokens : List (Located Token)} {a : Assembly}

theorem Assembly.MadeOf.report (madeOf : a.MadeOf tokens) {error : AssemblyError} {span : Span}
    (place : ∃ token ∈ tokens, token.span = span) : (a.report error span).MadeOf tokens where
  drafts := madeOf.drafts
  errors := by
    intro e among
    rcases Array.mem_push.mp among with earlier | rfl
    · exact madeOf.errors e earlier
    · exact place

theorem Assembly.MadeOf.add (madeOf : a.MadeOf tokens) {clause : Clause}
    (fits : clause.MadeOf tokens) : (a.add clause).MadeOf tokens := by
  cases clause with
  | emit draft span =>
    refine ⟨?_, madeOf.errors⟩
    intro d among
    rcases Array.mem_push.mp among with earlier | rfl
    · exact madeOf.drafts d earlier
    · exact fits
  | report cause span => exact madeOf.report fits
  | define name span =>
    simp only [Assembly.add, Assembly.define]
    split
    · exact madeOf.report ⟨_, fits, rfl⟩
    · exact ⟨madeOf.drafts, madeOf.errors⟩

/-- The assembly of some tokens is made of them. -/
theorem madeOf_ofTokens (tokens : List (Located Token)) :
    (Assembly.ofTokens tokens).MadeOf tokens := by
  rw [Assembly.ofTokens_eq_foldl]
  have start : Assembly.empty.MadeOf tokens := by
    constructor <;> simp [Assembly.empty]
  have fits := madeOf_of_mem_clauses tokens
  generalize clauses tokens = cs at fits ⊢
  generalize Assembly.empty = a at start ⊢
  induction cs generalizing a with
  | nil => exact start
  | cons clause cs ih =>
    obtain ⟨first, later⟩ := List.forall_mem_cons.mp fits
    exact ih later _ (start.add first)

end Assemblies

/-! ## Programs -/

section Programs

variable {tokens : List (Located Token)}

/-- Resolving a draft changes neither its place nor its opcode. -/
theorem resolve_eq_ok {a : Assembly} {draft : Located Draft} {i : Located Instruction}
    (resolved : a.resolve draft = .ok i) :
    i.span = draft.span ∧ i.item.opcode = draft.item.opcode := by
  rcases draft with ⟨_ | label | label, span⟩
  · cases resolved
    exact ⟨rfl, rfl⟩
  · obtain ⟨target, -, rfl⟩ := Language.map_eq_ok_iff.mp resolved
    exact ⟨rfl, rfl⟩
  · obtain ⟨target, -, rfl⟩ := Language.map_eq_ok_iff.mp resolved
    exact ⟨rfl, rfl⟩

/-- A draft that does not resolve is reported at its label. -/
theorem resolve_eq_error {a : Assembly} {draft : Located Draft} {error : Located AssemblyError}
    (unresolved : a.resolve draft = .error error) :
    ∃ label, draft.item.label? = some label ∧ error = ⟨.unresolvedLabel label.item, label.span⟩ := by
  have missing : ∀ {label : Located String} {f : Nat → Located Instruction},
      (a.addressOf label).map f = .error error →
        error = ⟨.unresolvedLabel label.item, label.span⟩ := by
    intro label f failed
    unfold Assembly.addressOf at failed
    split at failed
    · cases failed
    · cases failed
      rfl
  rcases draft with ⟨_ | label | label, span⟩
  · cases unresolved
  · exact ⟨label, rfl, missing unresolved⟩
  · exact ⟨label, rfl, missing unresolved⟩

/-- Every instruction of a program stands at a token of its opcode. -/
theorem token_of_mem_code {p : Program} (assembled : Program.ofTokens tokens = .ok p) :
    ∀ i ∈ p.code, ⟨.opcode i.item.opcode, i.span⟩ ∈ tokens := by
  intro i among
  obtain ⟨-, resolved, -⟩ := Language.finish_eq_ok_iff.mp assembled
  have listed : Except.ok i ∈ p.code.toList.map (Except.ok (ε := Located AssemblyError)) :=
    List.mem_map_of_mem (Array.mem_toList_iff.mpr among)
  rw [← resolved] at listed
  obtain ⟨draft, inDrafts, isInstruction⟩ := List.mem_map.mp listed
  obtain ⟨span_eq, opcode_eq⟩ := resolve_eq_ok isInstruction
  rw [span_eq, opcode_eq]
  exact ((madeOf_ofTokens tokens).drafts draft (Array.mem_toList_iff.mp inDrafts)).1

/-- Every error of an assembly stands at a token. -/
theorem token_of_mem_errors {errors : List (Located AssemblyError)}
    (failed : Program.ofTokens tokens = .error errors) :
    ∀ error ∈ errors, ∃ token ∈ tokens, token.span = error.span := by
  intro error among
  have madeOf := madeOf_ofTokens tokens
  simp only [Program.ofTokens, Assembly.finish] at failed
  split at failed
  · cases failed
  · obtain rfl := Except.error.inj failed
    rcases List.mem_append.mp among with reported | unresolved
    · exact madeOf.errors error (Array.mem_toList_iff.mp reported)
    · obtain ⟨draft, inDrafts, fails⟩ := List.mem_map.mp (mem_failures_iff.mp unresolved)
      obtain ⟨label, asks, rfl⟩ := resolve_eq_error fails
      have asked := (madeOf.drafts draft (Array.mem_toList_iff.mp inDrafts)).2 label asks
      exact ⟨_, asked, rfl⟩

end Programs

end GlyphMachine
