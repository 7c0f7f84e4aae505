import GlyphMachine.Proofs.Language.Acceptance
import GlyphMachine.Proofs.Program.Complaints
import GlyphMachine.Proofs.Token.Positions

/-!
# Operands

The lexer and the assembly agree on what a glyph takes: in the tokens of a source every
glyph that asks for an operand has it right behind it (`OperandsFollow`). For any tokens
of this kind the assembly never gives a glyph up (`Assembly.NeverGivesUp`), so nothing
is left for it to report but words without a glyph, negative targets, and labels that
are defined twice or nowhere (`AssemblyError.LeftOver`).
-/

namespace GlyphMachine

/-- The operands that meet a demand. -/
def Demand.Takes : Demand → Token → Prop
  | value, t => ∃ v, t = .literal v
  | jump, t | jumpIf, t => (∃ v, t = .literal v) ∨ ∃ name, t = .label name
  | name, t => ∃ name, t = .label name

/-- Every glyph that asks for an operand is directly followed by one that it takes. -/
def OperandsFollow (ts : List Token) : Prop :=
  ∀ before (demand : Demand) after, ts = before ++ demand.token :: after →
    ∃ operand later, after = operand :: later ∧ demand.Takes operand

/-! ## Glyphs and operands in clauses -/

section Demands

variable {token operand : Located Token} {demand : Demand} {span : Span}

theorem opening_eq_inr_iff : opening token = .inr demand ↔ token.item = demand.token := by
  constructor
  · exact item_of_opening_inr
  · intro asks
    rw [opening, asks]
    cases demand <;> rfl

theorem completion_isSome_iff :
    (completion demand span operand).isSome ↔ demand.Takes operand.item := by
  rcases operand with ⟨item, place⟩
  cases demand <;> cases item <;> simp [completion, Demand.Takes]

theorem Demand.token_inj {other : Demand} : demand.token = other.token ↔ demand = other := by
  cases demand <;> cases other <;> simp [token]

/-- An operand asks for nothing itself. -/
theorem Demand.Takes.ne_token {t : Token} (takes : demand.Takes t) (other : Demand) :
    t ≠ other.token := by
  rintro rfl
  cases demand <;> cases other <;> simp [Takes, token] at takes

end Demands

/-! ## Tokens of a source -/

section Following

variable {t : Token} {ts : List Token}

theorem OperandsFollow.tail (follow : OperandsFollow (t :: ts)) : OperandsFollow ts := by
  intro before demand after cut
  apply follow (t :: before) demand after
  rw [cut, List.cons_append]

/-- A token that asks for nothing can come before others. -/
theorem OperandsFollow.cons (follow : OperandsFollow ts)
    (idle : ∀ demand : Demand, t ≠ demand.token) : OperandsFollow (t :: ts) := by
  intro before demand after cut
  rcases before with _ | ⟨first, before⟩
  · exact absurd (List.cons.inj cut).1 (idle demand)
  · exact follow before demand after (List.cons.inj cut).2

/-- A glyph can come before the operand that it takes. -/
theorem OperandsFollow.cons_operand {operand : Token} {demand : Demand}
    (follow : OperandsFollow ts) (takes : demand.Takes operand) :
    OperandsFollow (demand.token :: operand :: ts) := by
  intro before other after cut
  rcases before with _ | ⟨first, before⟩
  · obtain ⟨same, rfl⟩ := List.cons.inj cut
    rw [← Demand.token_inj.mp same]
    exact ⟨operand, ts, rfl, takes⟩
  · exact follow.cons takes.ne_token before other after (List.cons.inj cut).2

/-- The tokens of pieces have their operands behind them. -/
theorem operandsFollow_of_tokensOf {ps : List Language.Piece} (tokensOf : Language.TokensOf ps ts) :
    OperandsFollow ts := by
  induction tokensOf with
  | nil =>
    intro before demand after cut
    exact absurd cut.symm (by simp)
  | @stray w t ps ts operandOf _ ih =>
    have takes : Demand.jump.Takes t := by
      cases operandOf with
      | index => exact .inl ⟨_, rfl⟩
      | target => exact .inr ⟨_, rfl⟩
    exact ih.cons takes.ne_token
  | @plain glyph ps ts arity _ ih =>
    apply ih.cons
    intro demand asks
    rcases glyph with o | _
    · cases demand <;> cases asks <;> cases arity
    · cases arity
  | @operand glyph w t ps ts arity operandOf _ ih =>
    obtain ⟨demand, clause, waits, completes, -⟩ :=
      Language.clause_of_operandOf operandOf ⟨0, 0, 0, 0⟩ ⟨0, 0, 0, 0⟩
    have asks : Token.ofGlyph glyph = demand.token := opening_eq_inr_iff.mp waits
    have takes : demand.Takes t := completion_isSome_iff.mp (Option.isSome_of_eq_some completes)
    rw [asks]
    exact ih.cons_operand takes

end Following

/-! ## Assembly of tokens with their operands -/

/-- From this assembly on, every token that comes while a glyph waits is the operand of
that glyph, and no glyph waits at the end. -/
def Assembly.NeverGivesUp : Assembly → List (Located Token) → Prop
  | a, [] => a.due = none
  | a, token :: rest =>
    (∀ demand, a.due = some demand → ({ a with due := none }.complete? demand token).isSome) ∧
      (a.read token).NeverGivesUp rest

/-- The errors that concern no missing operand. -/
inductive AssemblyError.LeftOver : AssemblyError → Prop
  | strayNumber (value : Word) : LeftOver (.malformed (.strayNumber value))
  | strayLabel (name : String) : LeftOver (.malformed (.strayLabel name))
  | negativeTarget (value : Word) : LeftOver (.malformed (.negativeTarget value))
  | duplicateLabel (name : String) (line : Nat) : LeftOver (.duplicateLabel name line)
  | unresolvedLabel (name : String) : LeftOver (.unresolvedLabel name)

section Assembled

variable {tokens : List (Located Token)}

/-- A glyph with its operand behind it is not left alone. -/
theorem OperandsFollow.exists_completion {token : Located Token} {rest : List (Located Token)}
    {demand : Demand} (follow : OperandsFollow ((token :: rest).map (·.item)))
    (waits : opening token = .inr demand) :
    ∃ operand later, rest = operand :: later ∧
      (completion demand token.span operand).isSome := by
  have asks := opening_eq_inr_iff.mp waits
  obtain ⟨item, items, behind, takes⟩ := follow [] demand (rest.map (·.item)) (by simp [asks])
  obtain ⟨operand, later, rfl, rfl, -⟩ := List.map_eq_cons_iff.mp behind
  exact ⟨operand, later, rfl, completion_isSome_iff.mpr takes⟩

/-- Tokens with their operands leave no glyph waiting in vain. -/
theorem OperandsFollow.neverGivesUp (follow : OperandsFollow (tokens.map (·.item)))
    {a : Assembly} (idle : a.due = none) : a.NeverGivesUp tokens := by
  -- Between two clauses no glyph waits; the cuts that leave a glyph alone do not happen.
  fun_induction clauses tokens generalizing a with
  | case1 => exact idle
  | case2 token rest clause alone ih =>
    refine ⟨by simp [idle], ?_⟩
    rw [Assembly.read_of_opening_inl idle alone]
    exact ih follow.tail (by rw [Assembly.add_due, idle])
  | case3 token demand waits =>
    obtain ⟨operand, later, cut, -⟩ := follow.exists_completion waits
    cases cut
  | case4 token demand waits operand later clause completes ih =>
    have settled := Assembly.settle_await idle demand token.span
    refine ⟨by simp [idle], ?_⟩
    rw [Assembly.read_of_opening_inr idle waits]
    refine ⟨?_, ?_⟩
    · rintro _ ⟨⟩
      rw [settled, Assembly.complete?_eq, completes]
      rfl
    · rw [Assembly.read_await_of_completion idle completes]
      exact ih follow.tail.tail (by rw [Assembly.add_due, idle])
  | case5 token demand waits operand later misfit =>
    obtain ⟨_, _, ⟨⟩, fits⟩ := follow.exists_completion waits
    rw [misfit] at fits
    cases fits

theorem leftOver_of_opening {token : Located Token} {cause : Malformation} {span : Span}
    (alone : opening token = .inl (.report cause span)) :
    AssemblyError.LeftOver (.malformed cause) := by
  unfold opening at alone
  split at alone <;> cases alone
  · exact .strayNumber _
  · exact .strayLabel _

theorem leftOver_of_numericJump {jump : Nat → Instruction} {span place : Span}
    {target : Located Word} {cause : Malformation}
    (reported : numericJump jump span target = .report cause place) :
    AssemblyError.LeftOver (.malformed cause) := by
  unfold numericJump at reported
  split at reported <;> cases reported
  exact .negativeTarget _

theorem leftOver_of_completion {demand : Demand} {span place : Span} {operand : Located Token}
    {cause : Malformation} (completes : completion demand span operand = some (.report cause place)) :
    AssemblyError.LeftOver (.malformed cause) := by
  unfold completion at completes
  split at completes
  case h_2 | h_4 => exact leftOver_of_numericJump (Option.some.inj completes)
  all_goals cases completes

/-- What is reported of tokens with their operands concerns none of them. -/
theorem OperandsFollow.leftOver_of_report (follow : OperandsFollow (tokens.map (·.item)))
    {cause : Malformation} {span : Span} (reported : .report cause span ∈ clauses tokens) :
    AssemblyError.LeftOver (.malformed cause) := by
  fun_induction clauses tokens with
  | case1 => cases reported
  | case2 token rest clause alone ih =>
    rcases List.mem_cons.mp reported with rfl | later
    · exact leftOver_of_opening alone
    · exact ih follow.tail later
  | case3 token demand waits =>
    obtain ⟨operand, later, cut, -⟩ := follow.exists_completion waits
    cases cut
  | case4 token demand waits operand later clause completes ih =>
    rcases List.mem_cons.mp reported with rfl | behind
    · exact leftOver_of_completion completes
    · exact ih follow.tail.tail behind
  | case5 token demand waits operand later misfit =>
    obtain ⟨_, _, ⟨⟩, fits⟩ := follow.exists_completion waits
    rw [misfit] at fits
    cases fits

/-- Tokens with their operands are refused for other reasons only. -/
theorem OperandsFollow.leftOver_of_error (follow : OperandsFollow (tokens.map (·.item)))
    {errors : List (Located AssemblyError)} (refused : Program.ofTokens tokens = .error errors) :
    ∀ e ∈ errors, e.item.LeftOver := by
  intro e among
  rw [(ofTokens_eq_error_iff.mp refused).1] at among
  rcases complaint_cases among with
    ⟨cause, reported, isCause⟩ | ⟨name, line, isDuplicate⟩ | ⟨name, isLost⟩
  · rw [isCause]
    exact follow.leftOver_of_report reported
  · rw [isDuplicate]
    exact .duplicateLabel name line
  · rw [isLost]
    exact .unresolvedLabel name

end Assembled

/-! ## Sources -/

theorem operandsFollow_of_tokenize {source : String} {tokens : List (Located Token)}
    (tokenized : tokenize source = .ok tokens) : OperandsFollow (tokens.map (·.item)) := by
  obtain ⟨ps, -, tokensOf⟩ := Language.tokenize_eq_ok_iff.mp ⟨tokens, tokenized, rfl⟩
  exact operandsFollow_of_tokensOf tokensOf

/-- The labels of a source are names. -/
theorem identifier_of_mem_tokens {source : String} {tokens : List (Located Token)}
    (tokenized : tokenize source = .ok tokens) {name : String} {span : Span}
    (among : ⟨.label name, span⟩ ∈ tokens) : Language.Identifier name.toList := by
  have given := mem_lexemes_of_tokenize tokenized among
  obtain ⟨before, text, after, -, names⟩ := exists_covers_of_mem_lexemes given
  generalize isLabel : (.ok ⟨.label name, span⟩ : Lexeme) = l at names
  cases names with
  | @glyph g => cases g <;> cases isLabel
  | label identifier =>
    cases isLabel
    rw [String.toList_ofList]
    exact identifier
  | _ => cases isLabel

/-- The lexer and the assembly agree on operands. In the tokens of a source every glyph
that asks for an operand is followed by one, and every label is a name. The assembly
therefore gives no glyph up and has nothing but left-over errors to report; an opcode
that asks for nothing is an instruction by itself. -/
theorem operands_of_tokenized_source {source : String} {tokens : List (Located Token)}
    (tokenized : tokenize source = .ok tokens) :
    OperandsFollow (tokens.map (·.item)) ∧
    (∀ name span, ⟨.label name, span⟩ ∈ tokens → Language.Identifier name.toList) ∧
    (∀ errors, Program.ofTokens tokens = .error errors → ∀ e ∈ errors, e.item.LeftOver) ∧
    Assembly.empty.NeverGivesUp tokens ∧
    ∀ o : Opcode, o.arity ≠ .integer → o.arity ≠ .target → (Instruction.nullary? o).isSome := by
  have follow := operandsFollow_of_tokenize tokenized
  refine ⟨follow, fun _ _ => identifier_of_mem_tokens tokenized,
    fun _ => follow.leftOver_of_error, follow.neverGivesUp rfl, ?_⟩
  intro o noNumber noTarget
  cases o with
  | push => exact absurd rfl noNumber
  | jump | jumpIf => exact absurd rfl noTarget
  | _ => rfl

/-- A label, a number and a target that stand behind comments and on lines of their own
still follow their glyphs; the target is negative. -/
theorem operands_of_tokenized_source_apart :
    ∃ tokens, tokenize "🏷 ; top\n a 📥\n-3\n🤔 -1" = .ok tokens ∧
      tokens.map (·.item) = [.labelDef, .label "a", .opcode .push, .literal (-3),
        .opcode .jumpIf, .literal (-1)] ∧
      OperandsFollow (tokens.map (·.item)) ∧ Assembly.empty.NeverGivesUp tokens ∧
      ∀ errors, Program.ofTokens tokens = .error errors → ∀ e ∈ errors, e.item.LeftOver := by
  have tokenized : tokenize "🏷 ; top\n a 📥\n-3\n🤔 -1" =
      .ok [⟨.labelDef, ⟨0, 4, 1, 1⟩⟩, ⟨.label "a", ⟨12, 13, 2, 2⟩⟩,
        ⟨.opcode .push, ⟨14, 18, 2, 4⟩⟩, ⟨.literal (-3), ⟨19, 21, 3, 1⟩⟩,
        ⟨.opcode .jumpIf, ⟨22, 26, 4, 1⟩⟩, ⟨.literal (-1), ⟨27, 29, 4, 3⟩⟩] := by
    decide +kernel
  obtain ⟨follow, -, leftOver, patient, -⟩ := operands_of_tokenized_source tokenized
  exact ⟨_, tokenized, rfl, follow, patient, leftOver⟩

end GlyphMachine
