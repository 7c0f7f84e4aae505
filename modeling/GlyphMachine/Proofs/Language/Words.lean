import GlyphMachine.Proofs.Language.Grammar
import GlyphMachine.Token.Lexer

/-!
# Words of the language

The checks that the lexer makes on clusters and words, held to what the language
says of them: `wordChar?` to `WordChar`, `isLabelName` to `Identifier`, and the
reading of numbers to `Numeral`. The decimal text of a number is a numeral of it
(`numeral_toString`).
-/

namespace GlyphMachine.Language

open Text (Cluster)

/-! ## Clusters -/

theorem isWordChar_iff {c : Char} : isWordChar c ↔ WordChar c := by
  simp only [isWordChar, WordChar, Bool.or_eq_true, decide_eq_true_eq]
  tauto

theorem wordChar?_eq_some_iff {g : Cluster} {c : Char} :
    wordChar? g = some c ↔ g = [c] ∧ WordChar c := by
  rcases g with _ | ⟨d, _ | ⟨e, more⟩⟩
  · simp [wordChar?]
  · rw [wordChar?, ← isWordChar_iff]
    split
    · rename_i isWord
      constructor
      · rintro ⟨rfl⟩
        exact ⟨rfl, isWord⟩
      · rintro ⟨⟨rfl⟩, -⟩
        rfl
    · rename_i notWord
      constructor
      · intro h
        cases h
      · rintro ⟨⟨rfl⟩, isWord⟩
        exact (notWord isWord).elim
  · simp [wordChar?]

theorem startsWord_cons_iff {g : Cluster} {gs : List Cluster} :
    StartsWord (g :: gs) ↔ (wordChar? g).isSome := by
  rw [Option.isSome_iff_exists]
  constructor
  · rintro ⟨c, rest, ⟨rfl, rfl⟩, isWord⟩
    exact ⟨c, wordChar?_eq_some_iff.mpr ⟨rfl, isWord⟩⟩
  · rintro ⟨c, taken⟩
    obtain ⟨rfl, isWord⟩ := wordChar?_eq_some_iff.mp taken
    exact ⟨c, gs, rfl, isWord⟩

theorem isBlankCluster_iff {g : Cluster} : isBlankCluster g ↔ Blank g := by
  simp [isBlankCluster, Text.allBlank, Blank]

theorem isLineEnd_iff {g : Cluster} : isLineEnd g ↔ '\n' ∈ g := by
  simp [isLineEnd]

theorem ofCluster?_eq_some_iff_names {g : Cluster} {glyph : Glyph} :
    Glyph.ofCluster? g = some glyph ↔ Names g glyph := by
  have same : (fun c => !Glyph.isVariationSelector c) =
      fun c => decide (c ≠ '\uFE0E' ∧ c ≠ '\uFE0F') := by
    funext c
    simp [Glyph.isVariationSelector]
  rw [Glyph.ofCluster?_eq_some_iff, Names, same]

/-- Characters of words are ASCII, so what they are not is settled by inspection. -/
theorem toNat_lt_of_isWordChar {c : Char} (isWord : isWordChar c) : c.toNat < 128 := by
  delta isWordChar Char.isAlphanum Char.isAlpha Char.isUpper Char.isLower Char.isDigit at isWord
  simp only [Bool.or_eq_true, Bool.and_eq_true, decide_eq_true_eq, UInt32.le_iff_toNat_le,
    ge_iff_le] at isWord
  have value : c.toNat = c.val.toNat := rfl
  have upperEnd : 'Z'.val.toNat = 90 := rfl
  have lowerEnd : 'z'.val.toNat = 122 := rfl
  have digitEnd : '9'.val.toNat = 57 := rfl
  rcases isWord with ((((upper | lower) | digit) | rfl) | rfl) | rfl
  · omega
  · omega
  · omega
  all_goals decide

theorem not_isBlank_of_wordChar {c : Char} (isWord : WordChar c) : ¬ Text.isBlank c := by
  have ascii : ∀ n < 128, isWordChar (.ofNat n) → ¬ Text.isBlank (.ofNat n) := by decide +kernel
  have small := toNat_lt_of_isWordChar (isWordChar_iff.mpr isWord)
  have checked := ascii c.toNat small
  rw [Char.ofNat_toNat] at checked
  exact checked (isWordChar_iff.mpr isWord)

theorem not_blank_of_wordChar {c : Char} (isWord : WordChar c) : ¬ Blank [c] := by
  intro blank
  exact not_isBlank_of_wordChar isWord (blank c (List.mem_singleton_self c))

theorem ne_semicolon_of_wordChar {c : Char} (isWord : WordChar c) : [c] ≠ [';'] := by
  rintro ⟨rfl⟩
  exact absurd (isWordChar_iff.mpr isWord) (by decide)

/-- No emoji of a glyph is white space, a word character or the start of a comment. -/
theorem symbol_stands_apart (glyph : Glyph) :
    ¬ Text.isBlank glyph.symbol ∧ ¬ isWordChar glyph.symbol ∧ glyph.symbol ≠ ';' := by
  have all : ∀ g ∈ Glyph.all,
      ¬ Text.isBlank g.symbol ∧ ¬ isWordChar g.symbol ∧ g.symbol ≠ ';' := by decide +kernel
  exact all glyph glyph.mem_all

section NamedClusters

variable {g : Cluster} {glyph : Glyph}

theorem symbol_mem_of_names (named : Names g glyph) : glyph.symbol ∈ g := by
  have kept : glyph.symbol ∈ g.filter fun c => c ≠ '\uFE0E' ∧ c ≠ '\uFE0F' := by
    rw [named]
    exact List.mem_singleton_self _
  exact (List.mem_filter.mp kept).1

theorem not_blank_of_names (named : Names g glyph) : ¬ Blank g := by
  intro blank
  exact (symbol_stands_apart glyph).1 (blank _ (symbol_mem_of_names named))

theorem ne_semicolon_of_names (named : Names g glyph) : g ≠ [';'] := by
  rintro rfl
  have symbol := List.mem_singleton.mp (symbol_mem_of_names named)
  exact (symbol_stands_apart glyph).2.2 symbol

theorem wordChar?_of_names (named : Names g glyph) : wordChar? g = none := by
  rcases isWord : wordChar? g with _ | c
  · rfl
  · obtain ⟨rfl, wordChar⟩ := wordChar?_eq_some_iff.mp isWord
    have symbol := List.mem_singleton.mp (symbol_mem_of_names named)
    rw [← symbol] at wordChar
    exact ((symbol_stands_apart glyph).2.1 (isWordChar_iff.mpr wordChar)).elim

end NamedClusters

/-! ## Label names -/

theorem isLabelName_iff {w : List Char} : isLabelName w ↔ Identifier w := by
  rcases w with _ | ⟨c, cs⟩
  · simp [isLabelName, Identifier]
  · simp [isLabelName, Identifier]

theorem looksNumeric_of_identifier {w : List Char} (name : Identifier w) :
    looksNumeric w = false := by
  obtain ⟨c, cs, rfl, first, -⟩ := name
  have ascii : ∀ n < 128, ((Char.ofNat n).isAlpha ∨ Char.ofNat n = '_') →
      looksNumeric [.ofNat n] = false := by decide +kernel
  have isWord : isWordChar c := by
    rcases first with alpha | rfl
    · simp [isWordChar, Char.isAlphanum, alpha]
    · decide
  have checked := ascii c.toNat (toNat_lt_of_isWordChar isWord)
  rw [Char.ofNat_toNat] at checked
  exact checked first

/-! ## Numbers -/

theorem digitsFrom_eq_some_iff {v n : Nat} {w : List Char} :
    Text.digitsFrom v w = some n ↔ (∀ c ∈ w, c.isDigit) ∧
      n = Nat.ofDigits 10 (w.reverse.map fun c => c.toNat - '0'.toNat) + 10 ^ w.length * v := by
  induction w generalizing v with
  | nil =>
    simp only [Text.digitsFrom, Option.some.injEq]
    constructor
    · rintro rfl
      simp
    · intro ended
      obtain ⟨-, rfl⟩ := ended
      simp
  | cons c cs ih =>
    simp only [Text.digitsFrom, List.forall_mem_cons]
    split
    · rename_i digit
      rw [ih]
      simp only [digit, true_and, List.reverse_cons, List.map_append, List.map_cons, List.map_nil,
        Nat.ofDigits_append, Nat.ofDigits_singleton, List.length_map, List.length_reverse,
        List.length_cons, pow_succ]
      constructor
      · intro digit
        obtain ⟨digits, rfl⟩ := digit
        exact ⟨digits, by ring⟩
      · intro digit
        obtain ⟨digits, rfl⟩ := digit
        exact ⟨digits, by ring⟩
    · rename_i noDigit
      simp [noDigit]

theorem digits?_eq_some_iff {n : Nat} {w : List Char} :
    Text.digits? w = some n ↔ Digits w n := by
  rcases w with _ | ⟨c, cs⟩
  · simp [Text.digits?, Digits]
  · rw [Text.digits?, digitsFrom_eq_some_iff]
    · simp [Digits]
    · simp

theorem integer?_eq_some_iff {i : Int} {w : List Char} :
    Text.integer? w = some i ↔ Numeral w i := by
  constructor
  · intro read
    unfold Text.integer? at read
    split at read
    · obtain ⟨n, digits, rfl⟩ := Option.map_eq_some_iff.mp read
      exact .minus (digits?_eq_some_iff.mp digits)
    · obtain ⟨n, natural, rfl⟩ := Option.map_eq_some_iff.mp read
      unfold Text.natural? at natural
      split at natural
      · exact .plus (digits?_eq_some_iff.mp natural)
      · exact .bare (digits?_eq_some_iff.mp natural)
  · intro numeral
    cases numeral with
    | @bare w n digits =>
      rcases w with _ | ⟨c, cs⟩
      · exact (digits.1 rfl).elim
      have digit : c.isDigit := digits.2.1 c List.mem_cons_self
      have noPlus : c ≠ '+' := by
        rintro rfl
        cases digit
      have noMinus : c ≠ '-' := by
        rintro rfl
        cases digit
      have natural : Text.natural? (c :: cs) = some n := by
        rw [Text.natural?]
        · exact digits?_eq_some_iff.mpr digits
        · rintro tail ⟨rfl⟩
          exact noPlus rfl
      rw [Text.integer?, natural]
      · rfl
      · rintro tail ⟨rfl⟩
        exact noMinus rfl
    | plus digits =>
      rw [Text.integer?, Text.natural?, digits?_eq_some_iff.mpr digits]
      · rfl
      · simp
    | minus digits =>
      rw [Text.integer?, digits?_eq_some_iff.mpr digits]
      rfl

/-- A word reads as a machine word exactly if it is a numeral in range. -/
theorem ofText?_eq_some_iff {w : List Char} {v : Word} :
    Word.ofText? w = some v ↔
      ∃ i, Numeral w i ∧ Word.least ≤ i ∧ i ≤ Word.greatest ∧ v = .ofInt i := by
  simp only [Word.ofText?, Option.bind_eq_some_iff, integer?_eq_some_iff]
  constructor
  · intro read
    obtain ⟨i, numeral, fits⟩ := read
    simp only [Word.ofInt?] at fits
    split at fits
    · rename_i range
      exact ⟨i, numeral, range.1, range.2, (Option.some.inj fits).symm⟩
    · cases fits
  · intro written
    obtain ⟨i, numeral, low, high, rfl⟩ := written
    refine ⟨i, numeral, ?_⟩
    rw [Word.ofInt?, if_pos ⟨low, high⟩]

theorem looksNumeric_of_numeral {w : List Char} {i : Int} (numeral : Numeral w i) :
    looksNumeric w = true := by
  cases numeral with
  | @bare w n digits =>
    rcases w with _ | ⟨c, cs⟩
    · exact (digits.1 rfl).elim
    · simp [looksNumeric, digits.2.1 c List.mem_cons_self]
  | plus digits => rfl
  | minus digits => rfl

/-! ## Numerals of numbers -/

theorem digitsFrom_eq_ofDigitChars {cs : List Char} (digits : ∀ c ∈ cs, c.isDigit) (value : Nat) :
    Text.digitsFrom value cs = some (Nat.ofDigitChars 10 cs value) := by
  induction cs generalizing value with
  | nil => rfl
  | cons c cs ih =>
    obtain ⟨first, later⟩ := List.forall_mem_cons.mp digits
    rw [Text.digitsFrom, if_pos first, ih later, Nat.ofDigitChars_cons]

/-- The decimal digits of a number stand for it. -/
theorem digits_repr (n : Nat) : Digits n.repr.toList n := by
  have digits : ∀ c ∈ Nat.toDigits 10 n, c.isDigit := fun c among =>
    Nat.isDigit_of_mem_toDigits (by omega) (by omega) among
  rw [Nat.repr_eq_ofList_toDigits, String.toList_ofList, ← digits?_eq_some_iff, Text.digits?,
    digitsFrom_eq_ofDigitChars digits, Nat.ofDigitChars_ten_toDigits]
  exact Nat.toDigits_ne_nil

/-- Numbers that are written alike are equal. -/
theorem toString_inj {a b : Nat} (same : toString a = toString b) : a = b := by
  have first := digits_repr a
  have second := digits_repr b
  rw [show a.repr = b.repr from same] at first
  exact first.2.2.trans second.2.2.symm

/-- An integer is read back from its numeral. -/
theorem numeral_toString (i : Int) : Numeral (toString i).toList i := by
  rw [Int.toString_eq_repr, Int.repr_eq_if]
  split
  · rename_i nonnegative
    have numeral := Numeral.bare (digits_repr i.toNat)
    rw [Int.toNat_of_nonneg nonnegative] at numeral
    exact numeral
  · rename_i negative
    have numeral := Numeral.minus (digits_repr (-i).toNat)
    rw [Int.toNat_of_nonneg (by omega), Int.neg_neg] at numeral
    rw [String.toList_append]
    exact numeral

theorem wordChar_of_isDigit {c : Char} (digit : c.isDigit) : WordChar c := by
  left
  simp [Char.isAlphanum, digit]

/-- A numeral is a word. -/
theorem isWord_of_numeral {w : List Char} {i : Int} (numeral : Numeral w i) :
    w ≠ [] ∧ ∀ c ∈ w, WordChar c := by
  cases numeral with
  | bare digits => exact ⟨digits.1, fun c among => wordChar_of_isDigit (digits.2.1 c among)⟩
  | plus digits | minus digits =>
    refine ⟨List.cons_ne_nil _ _, List.forall_mem_cons.mpr ⟨?_, ?_⟩⟩
    · simp [WordChar]
    · exact fun c among => wordChar_of_isDigit (digits.2.1 c among)

end GlyphMachine.Language
