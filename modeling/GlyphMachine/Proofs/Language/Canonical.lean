import GlyphMachine.Proofs.Language.Acceptance
import GlyphMachine.Proofs.Token.Positions

/-!
# Canonical text

An instruction is written as its canonical glyph, then its operand as a plain
decimal number. An `Entry` is such an instruction in a text, with white space behind
it, and `placed` gives the instructions of entries together with the places where their
glyphs stand. One instruction is read back by `exists_reading_instruction`, whatever
follows it, and all entries of a text by `Entry.exists_reading`; the tokens that are
read there are assembled to the instructions (`ofTokens_of_clauses`).
-/

namespace GlyphMachine

open Text (Cluster)

/-! ## Instructions as clusters -/

namespace Operand

/-- The operand as a source writes it: an address is a plain number there. -/
def numeral : Operand → String
  | word w => w.text
  | address a => toString a

/-- The word that the numeral is read as. -/
def value : Operand → Word
  | word w => w
  | address a => .ofInt a

/-- The operand is a word, or an address that a word can hold. -/
def Fits : Operand → Prop
  | word _ => True
  | address a => a ≤ Word.greatest

/-- The numeral of an operand is read as its value. -/
theorem ofText?_numeral {operand : Operand} (fits : operand.Fits) :
    Word.ofText? operand.numeral.toList = some operand.value := by
  rw [Language.ofText?_eq_some_iff]
  cases operand with
  | word w =>
    have low : Word.least ≤ w.toInt := Int64.le_toInt w
    have high : w.toInt ≤ Word.greatest := Int64.toInt_le w
    exact ⟨w.toInt, Language.numeral_toString _, low, high, (Int64.ofInt_toInt w).symm⟩
  | address a =>
    have low : Word.least ≤ a := by
      unfold Word.least
      omega
    exact ⟨a, .bare (Language.digits_repr a), low, fits, rfl⟩

theorem numeral_isWord (operand : Operand) :
    operand.numeral.toList ≠ [] ∧ ∀ c ∈ operand.numeral.toList, Language.WordChar c := by
  cases operand with
  | word w => exact Language.isWord_of_numeral (Language.numeral_toString _)
  | address a => exact Language.isWord_of_numeral (.bare (Language.digits_repr a))

end Operand

namespace Instruction

/-- The instruction as a source writes it, with a gap before the operand. -/
def canonical (gap : String) (i : Instruction) : String :=
  match i.operand? with
  | some operand => i.opcode.glyph ++ gap ++ operand.numeral
  | none => i.opcode.glyph

/-- The glyph of the instruction. -/
def spelling (i : Instruction) : Cluster :=
  (Glyph.op i.opcode).spelling

/-- The clusters of the instruction. -/
def clusters (gap : List Char) (i : Instruction) : List Cluster :=
  i.spelling :: match i.operand? with
    | some operand => (gap ++ operand.numeral.toList).map fun c => [c]
    | none => []

theorem clusters_of_none {i : Instruction} (plain : i.operand? = none) (gap : List Char) :
    i.clusters gap = [i.spelling] := by
  rw [clusters, plain]

theorem clusters_of_some {i : Instruction} {operand : Operand} (takes : i.operand? = some operand)
    (gap : List Char) : i.clusters gap =
      i.spelling :: (gap.map (fun c => [c]) ++ operand.numeral.toList.map fun c => [c]) := by
  simp only [clusters, takes, List.map_append]

theorem arity_eq_none_iff {i : Instruction} :
    (Glyph.op i.opcode).arity = .none ↔ i.operand? = none := by
  cases i <;> simp [opcode, operand?, Glyph.arity, Opcode.arity]

/-- The operand can be written down, if there is one. -/
def Fits (i : Instruction) : Prop :=
  ∀ operand, i.operand? = some operand → operand.Fits

/-- A cluster of an instruction is its glyph, or a character of the gap or of a word. -/
theorem mem_clusters_cases {gap : List Char} {i : Instruction} {g : Cluster}
    (among : g ∈ i.clusters gap) :
    g = i.spelling ∨ ∃ c, g = [c] ∧ (c ∈ gap ∨ Language.WordChar c) := by
  rcases takes : i.operand? with _ | operand
  · rw [clusters_of_none takes] at among
    exact .inl (List.mem_singleton.mp among)
  · rw [clusters, takes] at among
    rcases List.mem_cons.mp among with first | behind
    · exact .inl first
    · obtain ⟨c, inside, rfl⟩ := List.mem_map.mp behind
      rcases List.mem_append.mp inside with inGap | inNumeral
      · exact .inr ⟨c, rfl, .inl inGap⟩
      · exact .inr ⟨c, rfl, .inr (operand.numeral_isWord.2 c inNumeral)⟩

theorem names_spelling (i : Instruction) : Language.Names i.spelling (.op i.opcode) :=
  Language.ofCluster?_eq_some_iff_names.mp (Glyph.ofCluster?_spelling _)

/-- The clusters make up the text. -/
theorem flatten_clusters (gap : String) (i : Instruction) :
    (i.clusters gap.toList).flatten = (i.canonical gap).toList := by
  unfold clusters canonical
  rcases i.operand? with _ | operand
  · simp [spelling, Opcode.glyph, Glyph.text]
  · simp [spelling, Opcode.glyph, Glyph.text, ← List.flatMap_def, List.flatMap_singleton']

/-- The tokens of an instruction. -/
def tokens (i : Instruction) (span operandSpan : Span) : List (Located Token) :=
  ⟨.opcode i.opcode, span⟩ ::
    (i.operand?.map fun operand => ⟨.literal operand.value, operandSpan⟩).toList

end Instruction

namespace Language

/-! ## Reading an instruction -/

/-- White space that stands alone: spaces and line feeds. -/
def IsGap (c : Char) : Prop :=
  c = ' ' ∨ c = '\n'

theorem IsGap.blank {c : Char} (isGap : IsGap c) : Blank [c] := by
  intro d among
  obtain rfl := List.mem_singleton.mp among
  rcases isGap with rfl | rfl <;> decide

theorem IsGap.not_wordChar {c : Char} (isGap : IsGap c) : ¬ WordChar c := by
  rw [← isWordChar_iff]
  rcases isGap with rfl | rfl <;> decide

section Reading

variable {gap : List Char} {i : Instruction} {p : Place} {rest : List Cluster} {ls : List Lexeme}

/-- A gap is skipped. -/
theorem skip_gap (gaps : ∀ c ∈ gap, IsGap c) (p : Place) (gs : List Cluster) :
    (⟨p, gap.map (fun c => [c]) ++ gs⟩ : Cursor).skip =
      (⟨p.over (gap.map fun c => [c]), gs⟩ : Cursor).skip := by
  induction gap generalizing p with
  | nil => rfl
  | cons c gap ih =>
    obtain ⟨first, later⟩ := List.forall_mem_cons.mp gaps
    rw [List.map_cons, List.cons_append, Place.over_cons, ← ih later, Cursor.skip, Cursor.skip,
      skipLayout_cons_of_blank p first.blank]

/-- The glyph of an instruction is neither skipped nor taken for a word. -/
theorem skip_spelling (i : Instruction) (p : Place) (gs : List Cluster) :
    (⟨p, i.spelling :: gs⟩ : Cursor).skip = ⟨p, i.spelling :: gs⟩ ∧
      (⟨p, i.spelling :: gs⟩ : Cursor).skip.word.1 = [] := by
  have names := i.names_spelling
  have skipped : (⟨p, i.spelling :: gs⟩ : Cursor).skip = ⟨p, i.spelling :: gs⟩ :=
    skipLayout_cons_of_not p (not_blank_of_names names) (ne_semicolon_of_names names)
  refine ⟨skipped, ?_⟩
  rw [skipped]
  exact takeWord_cons_of_none p (wordChar?_of_names names)

/-- Words are not skipped. -/
theorem skip_wordChar {c : Char} (wordChar : WordChar c) (p : Place) (gs : List Cluster) :
    (⟨p, [c] :: gs⟩ : Cursor).skip = ⟨p, [c] :: gs⟩ := by
  apply skipLayout_cons_of_not
  · intro blank
    exact not_isBlank_of_wordChar wordChar (blank c (List.mem_singleton_self c))
  · rintro ⟨rfl⟩
    exact absurd (isWordChar_iff.mpr wordChar) (by decide)

/-- A word is taken whole, up to the place behind it. -/
theorem word_eq {w : List Char} (chars : ∀ c ∈ w, WordChar c)
    (stopped : ¬ StartsWord rest) (p : Place) :
    (⟨p, w.map (fun c => [c]) ++ rest⟩ : Cursor).word =
      (w, ⟨p.over (w.map fun c => [c]), rest⟩) := by
  obtain ⟨q, taken⟩ := takeWord_append p chars stopped
  have advances := Cursor.advances_word (c := ⟨p, w.map (fun c => [c]) ++ rest⟩) taken
  obtain rfl : q = p.over (w.map fun c => [c]) := advances.place_eq
  exact taken

/-- The operand of an instruction is found behind the gap. -/
theorem skip_operand (gaps : ∀ c ∈ gap, IsGap c) (operand : Operand) (p : Place)
    (rest : List Cluster) :
    (⟨p, gap.map (fun c => [c]) ++ (operand.numeral.toList.map (fun c => [c]) ++ rest)⟩ :
        Cursor).skip =
      ⟨p.over (gap.map fun c => [c]), operand.numeral.toList.map (fun c => [c]) ++ rest⟩ := by
  obtain ⟨nonempty, chars⟩ := operand.numeral_isWord
  obtain ⟨c, cs, split⟩ := List.exists_cons_of_ne_nil nonempty
  rw [split] at chars
  rw [skip_gap gaps, split, List.map_cons, List.cons_append,
    skip_wordChar (chars c List.mem_cons_self)]

theorem numericJump_of_address (jump : Nat → Instruction) (span place : Span) {a : Nat}
    (bound : a ≤ Word.greatest) :
    numericJump jump span ⟨.ofInt a, place⟩ = .emit (.ready (jump a)) span := by
  have value : (Int64.ofInt a).toInt = a := by
    apply toInt_ofInt_of_range _ bound
    unfold Word.least
    omega
  have nonnegative : ¬ Int64.ofInt a < 0 := by
    rw [Int64.lt_iff_toInt_lt, value, Int64.toInt_zero]
    omega
  rw [numericJump, if_neg nonnegative, value, Int.toNat_natCast]

/-- The tokens of an instruction are assembled to it. -/
theorem clauses_tokens (fits : i.Fits) (span operandSpan : Span) (more : List (Located Token)) :
    clauses (i.tokens span operandSpan ++ more) = .emit (.ready i) span :: clauses more := by
  cases i with
  | print | halt | binary | dup | swap | drop =>
    simp [Instruction.tokens, clauses, opening, Instruction.opcode, Instruction.operand?]
  | push value =>
    simp [Instruction.tokens, clauses, opening, completion, Instruction.opcode,
      Instruction.operand?, Operand.value]
  | jump a | jumpIf a =>
    have bound : a ≤ Word.greatest := fits (.address a) rfl
    simp [Instruction.tokens, clauses, opening, completion, Instruction.opcode,
      Instruction.operand?, Operand.value, numericJump_of_address _ _ _ bound]

theorem operandOf_numeral {operand : Operand} (asks : i.operand? = some operand)
    (fits : operand.Fits) :
    OperandOf i.opcode.arity operand.numeral.toList (.literal operand.value) := by
  have value := Operand.ofText?_numeral fits
  cases i with
  | print | halt | binary | dup | swap | drop => cases asks
  | push => exact .number value
  | jump | jumpIf => exact .index value

/-- An instruction is read from its clusters, if no word goes on behind them. -/
theorem exists_reading_instruction (gaps : ∀ c ∈ gap, IsGap c) (fits : i.Fits)
    (stopped : ¬ StartsWord rest) (later : Reading ⟨p.over (i.clusters gap), rest⟩ ls) :
    ∃ operandSpan, Reading ⟨p, i.clusters gap ++ rest⟩
      ((i.tokens (p.spanTo (p.past i.spelling)) operandSpan).map .ok ++ ls) := by
  have named : Glyph.ofCluster? i.spelling = some (.op i.opcode) := Glyph.ofCluster?_spelling _
  rcases takes : i.operand? with _ | operand
  · rw [Instruction.clusters_of_none takes] at later ⊢
    obtain ⟨skipped, noWord⟩ := skip_spelling i p rest
    -- There is no operand, so any place will do for it.
    refine ⟨⟨0, 0, 0, 0⟩, ?_⟩
    rw [Instruction.tokens, takes]
    exact .plain skipped noWord named (Instruction.arity_eq_none_iff.mpr takes) later
  · have arity : (Glyph.op i.opcode).arity ≠ .none := by
      rw [ne_eq, Instruction.arity_eq_none_iff, takes]
      exact Option.some_ne_none operand
    obtain ⟨nonempty, chars⟩ := operand.numeral_isWord
    let start := (p.past i.spelling).over (gap.map fun c => [c])
    let operandSpan := start.spanTo (start.over (operand.numeral.toList.map fun c => [c]))
    have after := skip_operand gaps operand (p.past i.spelling) rest
    have taken := word_eq chars stopped start
    have read : Lexeme.operand (Glyph.op i.opcode).arity operand.numeral.toList operandSpan =
        .ok ⟨.literal operand.value, operandSpan⟩ :=
      (operand_eq_ok_iff arity).mpr ⟨operandOf_numeral takes (fits _ takes), rfl⟩
    rw [Instruction.clusters_of_some takes, Place.over_cons, Place.over_append] at later
    refine ⟨operandSpan, ?_⟩
    rw [Instruction.clusters_of_some takes, Instruction.tokens, takes, List.cons_append,
      List.append_assoc, Option.map_some, Option.toList_some, List.map_cons, List.map_cons,
      ← read]
    obtain ⟨skipped, noWord⟩ := skip_spelling i p
      (gap.map (fun c => [c]) ++ (operand.numeral.toList.map (fun c => [c]) ++ rest))
    exact .operand skipped noWord named arity after taken nonempty later

end Reading

/-! ## Reading a text -/

/-- An instruction of a text, with the white space behind it. -/
structure Entry where
  instruction : Instruction
  separator : List Char

namespace Entry

/-- The clusters of the entry. -/
def clusters (gap : List Char) (e : Entry) : List Cluster :=
  e.instruction.clusters gap ++ e.separator.map fun c => [c]

/-- The entry has an operand that can be written down, and gaps behind it. -/
structure Readable (e : Entry) : Prop where
  fits : e.instruction.Fits
  gaps : ∀ c ∈ e.separator, IsGap c

/-- The instructions of the entries, with the places of their glyphs. -/
def placed (gap : List Char) : Place → List Entry → List (Located Instruction)
  | _, [] => []
  | p, e :: entries =>
    ⟨e.instruction, p.spanTo (p.past e.instruction.spelling)⟩ ::
      placed gap (p.over (e.clusters gap)) entries

theorem map_item_placed (gap : List Char) (p : Place) (entries : List Entry) :
    (placed gap p entries).map (·.item) = entries.map (·.instruction) := by
  induction entries generalizing p with
  | nil => rfl
  | cons e entries ih => rw [placed, List.map_cons, ih, List.map_cons]

section Texts

variable {gap : List Char} {entries : List Entry}

theorem not_startsWord (gap : List Char) (entries : List Entry) :
    ¬ StartsWord (entries.flatMap (clusters gap)) := by
  rintro ⟨c, rest, split, wordChar⟩
  cases entries with
  | nil => cases split
  | cons e entries =>
    have noWord := wordChar?_of_names e.instruction.names_spelling
    obtain ⟨spelling_eq, -⟩ := List.cons.inj split
    rw [spelling_eq, wordChar?_eq_some_iff.mpr ⟨rfl, wordChar⟩] at noWord
    cases noWord

theorem not_startsWord_gap (gaps : ∀ c ∈ gap, IsGap c) {gs : List Cluster}
    (stopped : ¬ StartsWord gs) : ¬ StartsWord (gap.map (fun c => [c]) ++ gs) := by
  cases gap with
  | nil => exact stopped
  | cons d gap =>
    rintro ⟨c, rest, split, wordChar⟩
    obtain ⟨⟨rfl⟩, -⟩ := List.cons.inj split
    exact (gaps d List.mem_cons_self).not_wordChar wordChar

/-- A text is read as its instructions, each at its place. -/
theorem exists_reading (gaps : ∀ c ∈ gap, IsGap c) (readable : ∀ e ∈ entries, e.Readable)
    (p : Place) : ∃ tokens : List (Located Token),
      Reading ⟨p, entries.flatMap (clusters gap)⟩ (tokens.map .ok) ∧
      clauses tokens = (placed gap p entries).map fun i => .emit (.ready i.item) i.span := by
  induction entries generalizing p with
  | nil => exact ⟨[], .done rfl, by rw [clauses]; rfl⟩
  | cons e entries ih =>
    obtain ⟨first, others⟩ := List.forall_mem_cons.mp readable
    obtain ⟨tokens, reading, assembled⟩ := ih others (p.over (e.clusters gap))
    -- The reading of the rest starts behind the separator, that of the entry ends before it.
    have stopped := not_startsWord_gap first.gaps (not_startsWord gap entries)
    have behind := skip_gap first.gaps (p.over (e.instruction.clusters gap))
      (entries.flatMap (clusters gap))
    rw [← Place.over_append, ← clusters] at behind
    obtain ⟨operandSpan, whole⟩ :=
      exists_reading_instruction gaps first.fits stopped (reading.of_skip_eq behind)
    refine ⟨e.instruction.tokens (p.spanTo (p.past e.instruction.spelling)) operandSpan ++ tokens,
      ?_, ?_⟩
    · rw [List.map_append, List.flatMap_cons, clusters, List.append_assoc]
      exact whole
    · rw [clauses_tokens first.fits, assembled, placed, List.map_cons]

end Texts

end Entry

/-! ## Assembling instructions -/

section Instructions

variable {code : List (Located Instruction)}

/-- Instructions without labels are drafts at once. -/
theorem foldl_add_ready (code : List (Located Instruction)) (a : Assembly) :
    (code.map fun i => Clause.emit (.ready i.item) i.span).foldl Assembly.add a =
      { a with drafts := a.drafts ++ (code.map (·.map Draft.ready)).toArray } := by
  induction code generalizing a with
  | nil => simp
  | cons i code ih =>
    rw [List.map_cons, List.foldl_cons, ih]
    simp [Assembly.add, Assembly.emit, Located.map]

/-- Tokens that make up instructions only are assembled to them. -/
theorem ofTokens_of_clauses {tokens : List (Located Token)}
    (assembled : clauses tokens = code.map fun i => .emit (.ready i.item) i.span) :
    Program.ofTokens tokens = .ok ⟨code.toArray, []⟩ := by
  rw [Program.ofTokens, finish_eq_ok_iff, Assembly.ofTokens_eq_foldl, assembled,
    foldl_add_ready]
  refine ⟨rfl, ?_, ?_⟩
  · simp [Assembly.empty, Assembly.resolve, Located.map, Function.comp_def]
  · simp [Assembly.empty, Assembly.labels]

end Instructions

end Language

end GlyphMachine
