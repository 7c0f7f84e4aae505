import GlyphMachine.Program.Parse
import GlyphMachine.Proofs.Language.Assembly
import GlyphMachine.Proofs.Language.Tokens

/-!
# Acceptance

`Program.parse` accepts exactly the sources of the language and gives the program
they are written as. The lexer has settled which pieces a source falls into
(`tokenize_eq_ok_iff`), the assembly which items its clauses are
(`assembles_of_ofTokens`); what is left is that the clauses of the tokens of some
pieces are the items of these pieces.
-/

namespace GlyphMachine.Language

/-! ## Clauses of tokens -/

theorem clauses_of_opening_inl {token : Located Token} {clause : Clause}
    (alone : opening token = .inl clause) (rest : List (Located Token)) :
    clauses (token :: rest) = clause :: clauses rest := by
  rw [clauses]
  simp [alone]

theorem clauses_of_completion {token operand : Located Token} {demand : Demand} {clause : Clause}
    (waits : opening token = .inr demand)
    (completes : completion demand token.span operand = some clause)
    (rest : List (Located Token)) :
    clauses (token :: operand :: rest) = clause :: clauses rest := by
  rw [clauses]
  simp [waits, completes]

/-- The first of some clauses is the first item. -/
theorem cons_areItems_iff {clause : Clause} {cs : List Clause} {items : List Item} :
    (clause :: cs).map clauseItem? = items.map some ↔
      ∃ item later, items = item :: later ∧ clauseItem? clause = some item ∧
        cs.map clauseItem? = later.map some := by
  rw [List.map_cons, eq_comm, List.map_eq_cons_iff]
  constructor
  · intro cut
    obtain ⟨item, later, rfl, first, rest⟩ := cut
    exact ⟨item, later, rfl, first.symm, rest.symm⟩
  · intro cut
    obtain ⟨item, later, rfl, first, rest⟩ := cut
    exact ⟨item, later, rfl, first.symm, rest.symm⟩

/-- The clause of an opcode without operand is the item of its instruction. -/
theorem opening_of_nullary {o : Opcode} {i : Instruction}
    (nullary : Instruction.nullary? o = some i) (span : Span) :
    opening ⟨.opcode o, span⟩ = .inl (.emit (.ready i) span) ∧ draftItem (.ready i) = .plain i := by
  cases o <;> simp [Instruction.nullary?] at nullary <;> subst nullary <;> exact ⟨rfl, rfl⟩

/-! ## Targets -/

theorem Numeral.unique {w : List Char} {i j : Int} (first : Numeral w i) (second : Numeral w j) :
    i = j := by
  rw [← integer?_eq_some_iff] at first second
  rw [first] at second
  exact Option.some.inj second

theorem not_numeral_of_identifier {w : List Char} {i : Int} (name : Identifier w) :
    ¬ Numeral w i := by
  intro numeral
  have looks := looksNumeric_of_numeral numeral
  rw [looksNumeric_of_identifier name] at looks
  cases looks

theorem written_iff_of_identifier {w : List Char} {t : Target} (name : Identifier w) :
    t.Written w ↔ t = .label (String.ofList w) := by
  constructor
  · intro written
    cases written with
    | index numeral _ => exact (not_numeral_of_identifier name numeral).elim
    | label _ => rfl
  · rintro rfl
    exact .label name

/-- The number that a word in range stands for. -/
theorem toInt_ofInt_of_range {i : Int} (low : Word.least ≤ i) (high : i ≤ Word.greatest) :
    (Int64.ofInt i).toInt = i := by
  unfold Word.least at low
  unfold Word.greatest at high
  exact Int64.toInt_ofInt_of_le (by omega) (by omega)

theorem written_iff_of_ofText? {w : List Char} {v : Word} {t : Target}
    (value : Word.ofText? w = some v) :
    t.Written w ↔ ¬ v < 0 ∧ t = .index v.toInt.toNat := by
  obtain ⟨i, numeral, low, high, rfl⟩ := ofText?_eq_some_iff.mp value
  rw [Int64.lt_iff_toInt_lt, toInt_ofInt_of_range low high, Int64.toInt_zero]
  constructor
  · intro written
    cases written with
    | index other bound =>
      obtain rfl := numeral.unique other
      exact ⟨by omega, by rw [Int.toNat_natCast]⟩
    | label name => exact (not_numeral_of_identifier name numeral).elim
  · intro indexed
    obtain ⟨nonnegative, rfl⟩ := indexed
    have back : (i.toNat : Int) = i := Int.toNat_of_nonneg (by omega)
    exact .index (by rw [back]; exact numeral) (by rw [back]; exact high)

/-! ## Items of pieces -/

theorem items_plain_iff {o : Opcode} {i : Instruction} {ps : List Piece} {items : List Item}
    (nullary : Instruction.nullary? o = some i) :
    Items (.glyph (.op o) :: ps) items ↔ ∃ later, items = .plain i :: later ∧ Items ps later := by
  constructor
  · intro derived
    cases derived with
    | plain other tail =>
      obtain rfl := Option.some.inj (nullary.symm.trans other)
      exact ⟨_, rfl, tail⟩
    | push | jump | jumpIf => cases nullary
  · intro cut
    obtain ⟨later, rfl, tail⟩ := cut
    exact .plain nullary tail

theorem items_push_iff {w : List Char} {v : Word} {ps : List Piece} {items : List Item}
    (value : Word.ofText? w = some v) :
    Items (.glyph (.op .push) :: .word w :: ps) items ↔
      ∃ later, items = .push v :: later ∧ Items ps later := by
  obtain ⟨i, numeral, low, high, rfl⟩ := ofText?_eq_some_iff.mp value
  constructor
  · intro derived
    cases derived with
    | plain nullary => cases nullary
    | push other _ _ tail =>
      obtain rfl := numeral.unique other
      exact ⟨_, rfl, tail⟩
  · intro cut
    obtain ⟨later, rfl, tail⟩ := cut
    exact .push numeral low high tail

theorem items_jump_iff {w : List Char} {ps : List Piece} {items : List Item} :
    Items (.glyph (.op .jump) :: .word w :: ps) items ↔
      ∃ t later, t.Written w ∧ items = .jump t :: later ∧ Items ps later := by
  constructor
  · intro derived
    cases derived with
    | plain nullary => cases nullary
    | jump written tail => exact ⟨_, _, written, rfl, tail⟩
  · intro cut
    obtain ⟨t, later, written, rfl, tail⟩ := cut
    exact .jump written tail

theorem items_jumpIf_iff {w : List Char} {ps : List Piece} {items : List Item} :
    Items (.glyph (.op .jumpIf) :: .word w :: ps) items ↔
      ∃ t later, t.Written w ∧ items = .jumpIf t :: later ∧ Items ps later := by
  constructor
  · intro derived
    cases derived with
    | plain nullary => cases nullary
    | jumpIf written tail => exact ⟨_, _, written, rfl, tail⟩
  · intro cut
    obtain ⟨t, later, written, rfl, tail⟩ := cut
    exact .jumpIf written tail

theorem items_label_iff {w : List Char} {ps : List Piece} {items : List Item}
    (name : Identifier w) :
    Items (.glyph .labelDef :: .word w :: ps) items ↔
      ∃ later, items = .label (String.ofList w) :: later ∧ Items ps later := by
  constructor
  · intro derived
    cases derived with
    | label _ tail => exact ⟨_, rfl, tail⟩
  · intro cut
    obtain ⟨later, rfl, tail⟩ := cut
    exact .label name tail

/-- A jump to a number is an item exactly if its target is one. -/
theorem clauseItem?_numericJump {w : List Char} {v : Word} {item : Item} {span place : Span}
    (value : Word.ofText? w = some v) (jump : Nat → Instruction) (write : Target → Item)
    (ready : ∀ n, draftItem (.ready (jump n)) = write (.index n)) :
    clauseItem? (numericJump jump span ⟨v, place⟩) = some item ↔
      ∃ t : Target, t.Written w ∧ write t = item := by
  simp only [written_iff_of_ofText? value]
  unfold numericJump
  split
  · rename_i negative
    simp [clauseItem?, negative]
  · rename_i nonnegative
    simp [clauseItem?, ready, nonnegative]

/-- A glyph and its operand make one clause, and they are an item exactly if that
clause is one. -/
theorem clause_of_operandOf {glyph : Glyph} {w : List Char} {t : Token}
    (operandOf : OperandOf glyph.arity w t) (span place : Span) :
    ∃ demand clause, opening ⟨.ofGlyph glyph, span⟩ = .inr demand ∧
      completion demand span ⟨t, place⟩ = some clause ∧
      ∀ ps items, Items (.glyph glyph :: .word w :: ps) items ↔
        ∃ item later, items = item :: later ∧ clauseItem? clause = some item ∧
          Items ps later := by
  rcases glyph with o | _
  · cases o with
    | push =>
      change OperandOf .integer w t at operandOf
      cases operandOf with
      | number value =>
        refine ⟨.value, _, rfl, rfl, fun ps items => ?_⟩
        rw [items_push_iff value]
        simp [clauseItem?, draftItem]
    | jump =>
      change OperandOf .target w t at operandOf
      refine ⟨.jump, ?_⟩
      simp only [items_jump_iff]
      cases operandOf with
      | index value =>
        refine ⟨_, rfl, rfl, fun ps items => ?_⟩
        simp only [clauseItem?_numericJump value .jump .jump fun _ => rfl]
        grind
      | target name =>
        refine ⟨_, rfl, rfl, fun ps items => ?_⟩
        simp [written_iff_of_identifier name, clauseItem?, draftItem]
    | jumpIf =>
      change OperandOf .target w t at operandOf
      refine ⟨.jumpIf, ?_⟩
      simp only [items_jumpIf_iff]
      cases operandOf with
      | index value =>
        refine ⟨_, rfl, rfl, fun ps items => ?_⟩
        simp only [clauseItem?_numericJump value .jumpIf .jumpIf fun _ => rfl]
        grind
      | target name =>
        refine ⟨_, rfl, rfl, fun ps items => ?_⟩
        simp [written_iff_of_identifier name, clauseItem?, draftItem]
    | _ => cases operandOf
  · change OperandOf .name w t at operandOf
    cases operandOf with
    | name name =>
      refine ⟨.name, _, rfl, rfl, fun ps items => ?_⟩
      rw [items_label_iff name]
      simp [clauseItem?]

/-- The clauses of the tokens of some pieces are the items of these pieces. -/
theorem areItems_iff_items {ps : List Piece} {ts : List Token} (tokensOf : TokensOf ps ts) :
    ∀ (tokens : List (Located Token)) (items : List Item), tokens.map (·.item) = ts →
      ((clauses tokens).map clauseItem? = items.map some ↔ Items ps items) := by
  induction tokensOf with
  | nil =>
    intro tokens items same
    obtain rfl := List.map_eq_nil_iff.mp same
    rw [clauses, List.map_nil, eq_comm, List.map_eq_nil_iff]
    constructor
    · rintro rfl
      exact .nil
    · intro derived
      cases derived
      rfl
  | @stray w t ps ts operand _ ih =>
    intro tokens items same
    obtain ⟨token, rest, rfl, rfl, -⟩ := List.map_eq_cons_iff.mp same
    have reported : ∃ cause, opening token = .inl (.report cause token.span) := by
      rcases token with ⟨item, span⟩
      cases operand <;> exact ⟨_, rfl⟩
    obtain ⟨cause, alone⟩ := reported
    rw [clauses_of_opening_inl alone, cons_areItems_iff]
    constructor
    · intro cut
      obtain ⟨item, later, -, isItem, -⟩ := cut
      cases isItem
    · intro derived
      cases derived
  | @plain glyph ps ts arity _ ih =>
    intro tokens items same
    obtain ⟨⟨_, span⟩, rest, rfl, rfl, restSame⟩ := List.map_eq_cons_iff.mp same
    cases glyph with
    | labelDef => cases arity
    | op o =>
      have isNullary := (Instruction.nullary?_isSome_iff o).mpr arity
      obtain ⟨i, nullary⟩ := Option.isSome_iff_exists.mp isNullary
      obtain ⟨alone, isPlain⟩ := opening_of_nullary nullary span
      rw [Token.ofGlyph, clauses_of_opening_inl alone, cons_areItems_iff, items_plain_iff nullary]
      simp only [clauseItem?, isPlain, Option.some.injEq, ih rest _ restSame]
      grind
  | @operand glyph w t ps ts arity operandOf _ ih =>
    intro tokens items same
    obtain ⟨⟨_, span⟩, more, rfl, rfl, moreSame⟩ := List.map_eq_cons_iff.mp same
    obtain ⟨⟨_, place⟩, rest, rfl, rfl, restSame⟩ := List.map_eq_cons_iff.mp moreSame
    obtain ⟨demand, clause, waits, completes, isItem⟩ := clause_of_operandOf operandOf span place
    rw [clauses_of_completion waits completes, cons_areItems_iff, isItem]
    simp only [ih rest _ restSame]

/-- Pieces that are items have tokens. -/
theorem exists_tokensOf_of_items {ps : List Piece} {items : List Item} (derived : Items ps items) :
    ∃ ts, TokensOf ps ts := by
  have targeted : ∀ {w : List Char} {t : Target}, t.Written w →
      ∃ token, OperandOf .target w token := by
    intro w t written
    cases written with
    | @index n numeral bound =>
      have low : Word.least ≤ (n : Int) := by
        unfold Word.least
        omega
      exact ⟨_, .index (ofText?_eq_some_iff.mpr ⟨n, numeral, low, bound, rfl⟩)⟩
    | label name => exact ⟨_, .target name⟩
  induction derived with
  | nil => exact ⟨[], .nil⟩
  | @plain o i ps items nullary _ ih =>
    obtain ⟨ts, tail⟩ := ih
    have arity : o.arity = .none := by
      rw [← Instruction.nullary?_isSome_iff, nullary]
      rfl
    exact ⟨_, @TokensOf.plain (.op o) _ _ arity tail⟩
  | push numeral low high _ ih =>
    obtain ⟨ts, tail⟩ := ih
    have value := ofText?_eq_some_iff.mpr ⟨_, numeral, low, high, rfl⟩
    exact ⟨_, @TokensOf.operand (.op .push) _ _ _ _ (by decide) (.number value) tail⟩
  | jump written _ ih =>
    obtain ⟨ts, tail⟩ := ih
    obtain ⟨token, operandOf⟩ := targeted written
    exact ⟨_, @TokensOf.operand (.op .jump) _ _ _ _ (by decide) operandOf tail⟩
  | jumpIf written _ ih =>
    obtain ⟨ts, tail⟩ := ih
    obtain ⟨token, operandOf⟩ := targeted written
    exact ⟨_, @TokensOf.operand (.op .jumpIf) _ _ _ _ (by decide) operandOf tail⟩
  | label name _ ih =>
    obtain ⟨ts, tail⟩ := ih
    exact ⟨_, @TokensOf.operand .labelDef _ _ _ _ (by decide) (.name name) tail⟩

/-! ## Parsing -/

theorem parse_eq_ok_iff {source : String} {p : Program} :
    Program.parse source = .ok p ↔
      ∃ tokens, tokenize source = .ok tokens ∧ Program.ofTokens tokens = .ok p := by
  unfold Program.parse
  rcases tokenize source with errors | tokens
  · simp
  · dsimp only
    rcases assembled : Program.ofTokens tokens with errors | p
    · simp [assembled]
    · simp [assembled]

/-- A program that a source parses to is that of items the source is written as. -/
theorem exists_written_of_parse {source : String} {p : Program}
    (parsed : Program.parse source = .ok p) :
    ∃ items, Written source items ∧ Assembles items p.instructions p.labels := by
  obtain ⟨tokens, tokenized, assembled⟩ := parse_eq_ok_iff.mp parsed
  obtain ⟨ps, pieces, tokensOf⟩ := tokenize_eq_ok_iff.mp ⟨tokens, tokenized, rfl⟩
  obtain ⟨items, areItems, assembles⟩ := assembles_of_ofTokens assembled
  have derived := (areItems_iff_items tokensOf tokens items rfl).mp areItems
  exact ⟨items, ⟨ps, pieces, derived⟩, assembles⟩

/-- A source that is written as well-labelled items parses to their program. -/
theorem exists_parse_of_written {source : String} {items : List Item}
    (written : Written source items) (wellLabelled : WellLabelled items) :
    ∃ p, Program.parse source = .ok p ∧ Assembles items p.instructions p.labels := by
  obtain ⟨ps, pieces, derived⟩ := written
  obtain ⟨ts, tokensOf⟩ := exists_tokensOf_of_items derived
  obtain ⟨tokens, tokenized, same⟩ := tokenize_eq_ok_iff.mpr ⟨ps, pieces, tokensOf⟩
  have areItems := (areItems_iff_items tokensOf tokens items same).mpr derived
  obtain ⟨p, assembled, assembles⟩ := exists_ofTokens areItems wellLabelled
  exact ⟨p, parse_eq_ok_iff.mpr ⟨tokens, tokenized, assembled⟩, assembles⟩

/-- Items have one program. -/
theorem Assembles.unique {items : List Item} {code code' : List Instruction}
    {labels labels' : List (String × Nat)} (first : Assembles items code labels)
    (second : Assembles items code' labels') : code = code' ∧ labels = labels' := by
  refine ⟨first.code_eq.trans second.code_eq.symm, ?_⟩
  have perm := first.labels_perm.trans second.labels_perm.symm
  apply perm.eq_of_pairwise _ first.labels_ascend second.labels_ascend
  intro x y _ _ below above
  exact (String.lt_irrefl _ (String.lt_trans below above)).elim

/-- Parsing accepts exactly the sources that are written as items with distinct and
defined labels, and gives exactly the program of these items. -/
theorem parse_accepts_language (source : String) :
    ((∃ p, Program.parse source = .ok p) ↔
      ∃ items, Written source items ∧ WellLabelled items) ∧
    ∀ code labels,
      (∃ p, Program.parse source = .ok p ∧ p.instructions = code ∧ p.labels = labels) ↔
        ∃ items, Written source items ∧ Assembles items code labels := by
  constructor
  · constructor
    · intro accepted
      obtain ⟨p, parsed⟩ := accepted
      obtain ⟨items, written, assembles⟩ := exists_written_of_parse parsed
      exact ⟨items, written, assembles.wellLabelled⟩
    · intro wellFormed
      obtain ⟨items, written, wellLabelled⟩ := wellFormed
      obtain ⟨p, parsed, -⟩ := exists_parse_of_written written wellLabelled
      exact ⟨p, parsed⟩
  · intro code labels
    constructor
    · intro accepted
      obtain ⟨p, parsed, rfl, rfl⟩ := accepted
      exact exists_written_of_parse parsed
    · intro wellFormed
      obtain ⟨items, written, assembles⟩ := wellFormed
      obtain ⟨p, parsed, same⟩ := exists_parse_of_written written assembles.wellLabelled
      obtain ⟨codeEq, labelsEq⟩ := same.unique assembles
      exact ⟨p, parsed, codeEq, labelsEq⟩

end GlyphMachine.Language
