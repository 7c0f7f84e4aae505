import GlyphMachine.Proofs.Language.Acceptance
import GlyphMachine.Proofs.Text.LineCuts
import GlyphMachine.Text.Utf8

/-!
# Lines of listings

What is written line by line is read again line by line (`map_text_linesFrom`), and a
line of a listing says which instruction it shows (`instructionLine_inj`). It is that of
an instruction exactly if a digit begins it, so the lines of two listings can be
followed side by side: at every address they show the same labels and the same
instruction (`listingLines_inj`).
-/

namespace GlyphMachine

namespace Text

/-! ## Lines that end in line feeds -/

/-- Nothing in the line can be taken for a part of a line break. -/
def Unbroken (line : List Char) : Prop :=
  ∀ c ∈ line, c ≠ '\n' ∧ c ≠ '\r'

theorem Unbroken.append {first second : List Char} (h : Unbroken first) (h' : Unbroken second) :
    Unbroken (first ++ second) := by
  intro c among
  exact (List.mem_append.mp among).elim (h c) (h' c)

theorem unbroken_of_wordChars {w : List Char} (chars : ∀ c ∈ w, Language.WordChar c) :
    Unbroken w := by
  intro c among
  have solid := Language.not_isBlank_of_wordChar (chars c among)
  refine ⟨?_, ?_⟩
  · rintro rfl
    exact solid (by decide)
  · rintro rfl
    exact solid (by decide)

/-- Lines that were written one after the other are read again. -/
theorem map_text_linesFrom {ls : List (List Char)} (unbroken : ∀ l ∈ ls, Unbroken l)
    (start : Nat) : (linesFrom start [] (ls.flatMap (· ++ ['\n']))).map (·.text) = ls := by
  induction ls generalizing start with
  | nil => rfl
  | cons l ls ih =>
    obtain ⟨first, later⟩ := List.forall_mem_cons.mp unbroken
    have noFeed : '\n' ∉ l := fun among => (first _ among).1 rfl
    have noReturn : l.getLast? ≠ some '\r' := by
      intro last
      exact (first _ (List.mem_of_getLast? last)).2 rfl
    rw [List.flatMap_cons, List.append_assoc, linesFrom_append noFeed, List.append_nil,
      List.singleton_append, linesFrom, if_pos rfl, List.map_cons, ih later,
      dropReturn_reverse noReturn]

/-! ## Byte order of ASCII texts -/

/-- An ASCII character is one byte. -/
theorem encode_of_ascii {s : String} (ascii : ∀ c ∈ s.toList, c.toNat < 128) :
    encode s = s.toList.map fun c => UInt8.ofNat c.toNat := by
  have bytes : s.toUTF8 = s.toList.utf8Encode := by
    conv_lhs => rw [← String.ofList_toList (s := s)]
    exact String.toByteArray_ofList
  rw [encode, bytes, List.utf8Encode, List.data_toByteArray, List.toList_toArray]
  generalize s.toList = cs at ascii
  induction cs with
  | nil => rfl
  | cons c cs ih =>
    obtain ⟨first, later⟩ := List.forall_mem_cons.mp ascii
    have single : String.utf8EncodeChar c = [UInt8.ofNat c.toNat] :=
      if_pos (Nat.le_of_lt_succ first)
    rw [List.flatMap_cons, single, ih later, List.singleton_append, List.map_cons]

/-- ASCII texts are in byte order if their characters are in order. -/
theorem encode_lt_encode {s t : String} (ascii : ∀ c ∈ s.toList, c.toNat < 128)
    (ascii' : ∀ c ∈ t.toList, c.toNat < 128) (below : s < t) : encode s < encode t := by
  rw [encode_of_ascii ascii, encode_of_ascii ascii']
  have lex : s.toList < t.toList := String.lt_iff.mp below
  generalize s.toList = cs at ascii lex
  generalize t.toList = ds at ascii' lex
  induction lex with
  | nil => exact .nil
  | cons _ ih =>
    exact .cons (ih (List.forall_mem_cons.mp ascii).2 (List.forall_mem_cons.mp ascii').2)
  | @rel c _ d _ less =>
    apply List.Lex.rel
    have small := (List.forall_mem_cons.mp ascii).1
    have small' := (List.forall_mem_cons.mp ascii').1
    have values : c.toNat < d.toNat := less
    rw [UInt8.lt_iff_toNat_lt, UInt8.toNat_ofNat', UInt8.toNat_ofNat']
    omega

end Text

/-! ## Lines of instructions -/

/-- Operands that are shown alike are of one kind and one value. -/
theorem Operand.text_inj {a b : Operand} (same : a.text = b.text) : a = b := by
  -- An at sign begins an address, and it is part of no numeral.
  have apart (w : Word) (n : Nat) : w.text ≠ "@" ++ toString n := by
    intro equal
    have chars := (Language.isWord_of_numeral (Language.numeral_toString w.toInt)).2 '@'
    rw [show toString w.toInt = "@" ++ toString n from equal, String.toList_append] at chars
    have isWord := Language.isWordChar_iff.mpr (chars (List.mem_append_left _ (by decide)))
    exact absurd isWord (by decide)
  cases a with
  | word v =>
    cases b with
    | word w =>
      have first := Language.numeral_toString v.toInt
      rw [show toString v.toInt = toString w.toInt from same] at first
      rw [Int64.toInt_inj.mp (first.unique (Language.numeral_toString w.toInt))]
    | address n => exact absurd same (apart v n)
  | address m =>
    cases b with
    | word w => exact absurd same.symm (apart w m)
    | address n =>
      have numerals : toString m = toString n := (String.append_right_inj "@").mp same
      rw [Language.toString_inj numerals]

theorem Operand.unbroken_text (operand : Operand) : Text.Unbroken operand.text.toList := by
  cases operand with
  | word w =>
    exact Text.unbroken_of_wordChars
      (Language.isWord_of_numeral (Language.numeral_toString w.toInt)).2
  | address n =>
    have sign : Text.Unbroken "@".toList := by simp [Text.Unbroken]
    rw [Operand.text, String.toList_append]
    exact sign.append (Text.unbroken_of_wordChars fun c among =>
      Language.wordChar_of_isDigit ((Language.digits_repr n).2.1 c among))

namespace Instruction

theorem eq_of_opcode_operand? {i j : Instruction} (opcode : i.opcode = j.opcode)
    (operand : i.operand? = j.operand?) : i = j := by
  cases i <;> cases j <;> simp_all [Instruction.opcode, Instruction.operand?]

/-- The text is the glyph of the opcode and what shows the operand. -/
theorem text_eq (i : Instruction) :
    i.text = i.opcode.glyph ++ (i.operand?.map (" " ++ ·.text)).getD "" := by
  unfold text
  cases i.operand? with
  | none => exact String.append_empty.symm
  | some operand => exact String.append_assoc

/-- The emoji of the opcode begins the text. -/
theorem head?_text (i : Instruction) : i.text.toList.head? = some (Glyph.op i.opcode).symbol := by
  have spelled : i.opcode.glyph.toList.head? = some (Glyph.op i.opcode).symbol := by
    rw [Opcode.glyph, Glyph.text, String.toList_ofList, Glyph.spelling]
    split <;> rfl
  rw [text_eq, String.toList_append, List.head?_append, spelled]
  rfl

/-- Instructions that are shown alike are the same. -/
theorem text_inj {i j : Instruction} (same : i.text = j.text) : i = j := by
  have symbols := (head?_text i).symm.trans ((congrArg (·.toList.head?) same).trans (head?_text j))
  have opcode : i.opcode = j.opcode :=
    Glyph.op.inj (Glyph.symbol_inj (Option.some.inj symbols))
  rw [text_eq, text_eq, opcode, String.append_right_inj] at same
  apply eq_of_opcode_operand? opcode
  cases asks : i.operand? with
  | none =>
    cases asks' : j.operand? with
    | none => rfl
    | some b => simp [asks, asks'] at same
  | some a =>
    cases asks' : j.operand? with
    | none => simp [asks, asks'] at same
    | some b =>
      rw [asks, asks'] at same
      rw [Operand.text_inj ((String.append_right_inj " ").mp same)]

end Instruction

namespace Program

open GlyphMachine.Language (Identifier)

/-- The line begins with an address, as the lines of instructions do. -/
def IsNumbered (line : String) : Prop :=
  ∃ c ∈ line.toList.head?, c.isDigit

theorem digits_padded (width n : Nat) :
    (Text.padded width n).toList ≠ [] ∧ ∀ c ∈ (Text.padded width n).toList, c.isDigit := by
  obtain ⟨nonempty, digits, -⟩ := Language.digits_repr n
  have text : (Text.padded width n).toList =
      List.replicate (width - n.repr.length) '0' ++ n.repr.toList := by
    rw [Text.padded, String.toList_append, String.toList_ofList]
    rfl
  rw [text]
  refine ⟨List.append_ne_nil_of_right_ne_nil _ nonempty, ?_⟩
  intro c among
  rcases List.mem_append.mp among with padding | digit
  · rw [List.eq_of_mem_replicate padding]
    rfl
  · exact digits c digit

theorem isNumbered_instructionLine (address : Nat) (i : Instruction) :
    IsNumbered (instructionLine address i) := by
  obtain ⟨nonempty, digits⟩ := digits_padded 4 address
  obtain ⟨c, cs, numeral⟩ := List.exists_cons_of_ne_nil nonempty
  refine ⟨c, ?_, digits c (by rw [numeral]; exact List.mem_cons_self)⟩
  rw [instructionLine, String.toList_append, String.toList_append, numeral]
  rfl

theorem instructionLine_inj {address : Nat} {i j : Instruction}
    (same : instructionLine address i = instructionLine address j) : i = j :=
  Instruction.text_inj ((String.append_right_inj _).mp same)

theorem unbroken_instructionLine (address : Nat) (i : Instruction) :
    Text.Unbroken (instructionLine address i).toList := by
  have numeral : Text.Unbroken (Text.padded 4 address).toList :=
    Text.unbroken_of_wordChars fun c among =>
      Language.wordChar_of_isDigit ((digits_padded 4 address).2 c among)
  have blanks : Text.Unbroken "    ".toList := by
    simp [Text.Unbroken]
  have glyph : Text.Unbroken i.opcode.glyph.toList := by
    have all : ∀ g ∈ Glyph.all, g.spelling.all fun c => c ≠ '\n' ∧ c ≠ '\r' := by decide
    rw [Opcode.glyph, Glyph.text, String.toList_ofList]
    intro c among
    exact of_decide_eq_true (List.all_eq_true.mp (all _ (Glyph.mem_all _)) c among)
  have operand : Text.Unbroken ((i.operand?.map (" " ++ ·.text)).getD "").toList := by
    cases i.operand? with
    | none => simp [Text.Unbroken]
    | some operand =>
      have blank : Text.Unbroken " ".toList := by simp [Text.Unbroken]
      rw [Option.map_some, Option.getD_some, String.toList_append]
      exact blank.append operand.unbroken_text
  rw [instructionLine, Instruction.text_eq, String.toList_append, String.toList_append,
    String.toList_append]
  exact (numeral.append blanks).append (glyph.append operand)

section LabelLines

variable {name : String} (named : Identifier name.toList)

include named

theorem wordChars_of_identifier : ∀ c ∈ name.toList, Language.WordChar c := by
  obtain ⟨first, rest, split, letter, chars⟩ := named
  rw [split]
  refine List.forall_mem_cons.mpr ⟨?_, ?_⟩
  · rcases letter with alpha | rfl
    · left
      simp [Char.isAlphanum, alpha]
    · simp [Language.WordChar]
  · intro c among
    rcases chars c among with letter | rfl
    · exact .inl letter
    · simp [Language.WordChar]

theorem ascii_of_identifier : ∀ c ∈ name.toList, c.toNat < 128 := by
  intro c among
  have isWord := wordChars_of_identifier named c among
  exact Language.toNat_lt_of_isWordChar (Language.isWordChar_iff.mpr isWord)

/-- No label can be taken for an address. -/
theorem not_isNumbered_label : ¬ IsNumbered (name ++ ":") := by
  intro numbered
  obtain ⟨d, begins, digit⟩ := numbered
  have plain := Language.looksNumeric_of_identifier named
  obtain ⟨c, cs, split, -⟩ := named
  rw [String.toList_append, split] at begins
  obtain rfl := Option.mem_some_iff.mp begins
  rw [split] at plain
  simp [looksNumeric, digit] at plain

theorem unbroken_label : Text.Unbroken (name ++ ":").toList := by
  have colon : Text.Unbroken ":".toList := by
    simp [Text.Unbroken]
  rw [String.toList_append]
  exact (Text.unbroken_of_wordChars (wordChars_of_identifier named)).append colon

end LabelLines

/-! ## The lines of a listing -/

section Lines

variable {labels labels' : List (String × Nat)} {is js : List Instruction} {address : Nat}
  {line : String}

theorem mem_labelLines_iff :
    line ∈ labelLines labels address ↔ ∃ name, (name, address) ∈ labels ∧ line = name ++ ":" := by
  simp only [labelLines, List.mem_map, List.mem_filter, decide_eq_true_eq, Prod.exists]
  constructor
  · rintro ⟨name, _, ⟨among, rfl⟩, rfl⟩
    exact ⟨name, among, rfl⟩
  · rintro ⟨name, among, rfl⟩
    exact ⟨name, address, ⟨among, rfl⟩, rfl⟩

/-- The line shows an instruction, or a label at one of the given addresses. -/
def Shows (labels : List (String × Nat)) (P : Nat → Prop) (line : String) : Prop :=
  (∃ n i, line = instructionLine n i) ∨ ∃ name n, (name, n) ∈ labels ∧ P n ∧ line = name ++ ":"

theorem shows_of_mem_labelLines {P : Nat → Prop} (here : P address)
    (among : line ∈ labelLines labels address) : Shows labels P line := by
  obtain ⟨name, listed, rfl⟩ := mem_labelLines_iff.mp among
  exact .inr ⟨name, address, listed, here, rfl⟩

theorem Shows.imp {P P' : Nat → Prop} (shown : Shows labels P line)
    (weaker : ∀ n, P n → P' n) : Shows labels P' line := by
  rcases shown with instruction | ⟨name, n, listed, holds, rfl⟩
  · exact .inl instruction
  · exact .inr ⟨name, n, listed, weaker n holds, rfl⟩

/-- The lines from an address on show no label before it. -/
theorem shows_of_mem_listingLines (among : line ∈ listingLines labels address is) :
    Shows labels (address ≤ ·) line := by
  induction is generalizing address with
  | nil => exact shows_of_mem_labelLines (Nat.le_refl _) among
  | cons i is ih =>
    rcases List.mem_append.mp among with labelled | later
    · exact shows_of_mem_labelLines (Nat.le_refl _) labelled
    · rcases List.mem_cons.mp later with first | further
      · exact .inl ⟨address, i, first⟩
      · exact (ih further).imp fun n => Nat.le_of_succ_le

/-- Runs of labels that are ended by the lines of instructions are found again. -/
theorem append_cons_inj {above above' below below' : List String} {i j : String}
    (labelled : ∀ l ∈ above, ¬ IsNumbered l) (labelled' : ∀ l ∈ above', ¬ IsNumbered l)
    (numbered : IsNumbered i) (numbered' : IsNumbered j)
    (same : above ++ i :: below = above' ++ j :: below') :
    above = above' ∧ i = j ∧ below = below' := by
  induction above generalizing above' with
  | nil =>
    cases above' with
    | nil => exact ⟨rfl, List.cons.inj same⟩
    | cons l above' =>
      obtain ⟨rfl, -⟩ := List.cons.inj same
      exact absurd numbered (labelled' i List.mem_cons_self)
  | cons l above ih =>
    cases above' with
    | nil =>
      obtain ⟨rfl, -⟩ := List.cons.inj same
      exact absurd numbered' (labelled l List.mem_cons_self)
    | cons l' above' =>
      obtain ⟨rfl, rest⟩ := List.cons.inj same
      obtain ⟨rfl, found⟩ := ih (List.forall_mem_cons.mp labelled).2
        (List.forall_mem_cons.mp labelled').2 rest
      exact ⟨rfl, found⟩

/-- The labels have names that can be told from addresses. -/
def Named (labels : List (String × Nat)) : Prop :=
  ∀ name n, (name, n) ∈ labels → Identifier name.toList

theorem Named.not_isNumbered (named : Named labels) :
    ∀ l ∈ labelLines labels address, ¬ IsNumbered l := by
  intro l among
  obtain ⟨name, listed, rfl⟩ := mem_labelLines_iff.mp among
  exact not_isNumbered_label (named name address listed)

/-- Equal lines from one address on show the same instructions, and the same labels at
each of their addresses. -/
theorem listingLines_inj (named : Named labels) (named' : Named labels')
    (same : listingLines labels address is = listingLines labels' address js) :
    is = js ∧ ∀ n, address ≤ n → n ≤ address + is.length →
      labelLines labels n = labelLines labels' n := by
  induction is generalizing address js with
  | nil =>
    cases js with
    | nil =>
      refine ⟨rfl, fun n low high => ?_⟩
      obtain rfl : n = address := Nat.le_antisymm high low
      exact same
    | cons j js =>
      have among : instructionLine address j ∈ labelLines labels address := by
        rw [show labelLines labels address = _ from same]
        exact List.mem_append_right _ List.mem_cons_self
      exact absurd (isNumbered_instructionLine address j) (named.not_isNumbered _ among)
  | cons i is ih =>
    cases js with
    | nil =>
      have among : instructionLine address i ∈ labelLines labels' address := by
        rw [show labelLines labels' address = _ from same.symm]
        exact List.mem_append_right _ List.mem_cons_self
      exact absurd (isNumbered_instructionLine address i) (named'.not_isNumbered _ among)
    | cons j js =>
      obtain ⟨block, first, later⟩ := append_cons_inj named.not_isNumbered named'.not_isNumbered
        (isNumbered_instructionLine address i) (isNumbered_instructionLine address j) same
      obtain ⟨rfl, blocks⟩ := ih later
      refine ⟨by rw [instructionLine_inj first], fun n low high => ?_⟩
      rcases Nat.eq_or_lt_of_le low with rfl | behind
      · exact block
      · rw [List.length_cons] at high
        exact blocks n behind (by omega)

end Lines

end Program

end GlyphMachine
