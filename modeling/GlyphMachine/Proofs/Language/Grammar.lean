import GlyphMachine.Program
import GlyphMachine.Text.Blank
import GlyphMachine.Text.Width
import Mathlib.Data.Nat.Digits.Defs

/-!
# The language of sources

What a source has to look like, and what program it stands for, said without
reference to how it is read.

A source is a sequence of clusters. `Pieces` cuts it into words and glyphs and
drops what separates them; `Items` groups the pieces into instructions and label
definitions; `Assembles` gives the program of the items. The relations state
which cuts are right and prescribe no order of reading: `Pieces` leaves out a
cluster that is neither part of a word nor a glyph nor a separator, so a source
with such a cluster has no pieces at all.
-/

namespace GlyphMachine.Language

open Text (Cluster)

/-! ## Words -/

/-- A character of a word: an ASCII letter or digit, an underscore or a sign. -/
def WordChar (c : Char) : Prop :=
  c.isAlphanum ∨ c = '_' ∨ c = '+' ∨ c = '-'

/-- A letter or underscore in front, then letters, digits and underscores. -/
def Identifier (w : List Char) : Prop :=
  ∃ c cs, w = c :: cs ∧ (c.isAlpha ∨ c = '_') ∧ ∀ d ∈ cs, d.isAlphanum ∨ d = '_'

/-- One or more decimal digits, and the number they stand for. -/
def Digits (w : List Char) (n : Nat) : Prop :=
  w ≠ [] ∧ (∀ c ∈ w, c.isDigit) ∧
    n = Nat.ofDigits 10 (w.reverse.map fun c => c.toNat - '0'.toNat)

/-- Digits behind an optional sign, and the integer they stand for. -/
inductive Numeral : List Char → Int → Prop
  | bare {w : List Char} {n : Nat} : Digits w n → Numeral w n
  | plus {w : List Char} {n : Nat} : Digits w n → Numeral ('+' :: w) n
  | minus {w : List Char} {n : Nat} : Digits w n → Numeral ('-' :: w) (-n)

/-! ## Pieces of a source -/

/-- The clusters of a source, without a byte order mark in front. -/
def sourceClusters (source : String) : List Cluster :=
  match Text.clusters source.toList with
  | ['\uFEFF'] :: rest => rest
  | gs => gs

/-- What remains of a source once white space and comments are gone. -/
inductive Piece where
  | word (text : List Char)
  | glyph (g : Glyph)
deriving DecidableEq

/-- The cluster is white space. -/
def Blank (g : Cluster) : Prop :=
  ∀ c ∈ g, Text.isBlank c

/-- The cluster spells the glyph, variation selectors aside. -/
def Names (g : Cluster) (glyph : Glyph) : Prop :=
  (g.filter fun c => c ≠ '\uFE0E' ∧ c ≠ '\uFE0F') = [glyph.symbol]

/-- A word would go on here. -/
def StartsWord (gs : List Cluster) : Prop :=
  ∃ c rest, gs = [c] :: rest ∧ WordChar c

/-- A comment stops here: at a cluster that breaks the line, or at the end. -/
def StopsComment (gs : List Cluster) : Prop :=
  gs = [] ∨ ∃ g rest, gs = g :: rest ∧ '\n' ∈ g

/-- The clusters fall into these pieces. Comments reach as far as they can, up to
the break of their line, and so do words. -/
inductive Pieces : List Cluster → List Piece → Prop
  | nil : Pieces [] []
  | blank {g : Cluster} {gs : List Cluster} {ps : List Piece} :
    Blank g → Pieces gs ps → Pieces (g :: gs) ps
  | comment {body gs : List Cluster} {ps : List Piece} :
    (∀ g ∈ body, '\n' ∉ g) → StopsComment gs → Pieces gs ps →
    Pieces ([';'] :: (body ++ gs)) ps
  | word {w : List Char} {gs : List Cluster} {ps : List Piece} :
    w ≠ [] → (∀ c ∈ w, WordChar c) → ¬ StartsWord gs → Pieces gs ps →
    Pieces (w.map (fun c => [c]) ++ gs) (.word w :: ps)
  | glyph {g : Cluster} {glyph : Glyph} {gs : List Cluster} {ps : List Piece} :
    Names g glyph → Pieces gs ps → Pieces (g :: gs) (.glyph glyph :: ps)

/-! ## Items -/

/-- Where a jump is written to lead. -/
inductive Target where
  | index (address : Nat)
  | label (name : String)
deriving DecidableEq

/-- One instruction or label definition as it is written. -/
inductive Item where
  /-- an instruction without operand -/
  | plain (instruction : Instruction)
  | push (value : Word)
  | jump (target : Target)
  | jumpIf (target : Target)
  | label (name : String)
deriving DecidableEq

/-- The word is a jump target: a label name, or a number that is not negative and
not beyond the greatest word. -/
inductive Target.Written : List Char → Target → Prop
  | index {w : List Char} {n : Nat} :
    Numeral w n → n ≤ Word.greatest → Target.Written w (.index n)
  | label {w : List Char} : Identifier w → Target.Written w (.label (String.ofList w))

/-- The pieces are these items, one after the other. -/
inductive Items : List Piece → List Item → Prop
  | nil : Items [] []
  | plain {o : Opcode} {i : Instruction} {ps : List Piece} {items : List Item} :
    Instruction.nullary? o = some i → Items ps items →
    Items (.glyph (.op o) :: ps) (.plain i :: items)
  | push {w : List Char} {i : Int} {ps : List Piece} {items : List Item} :
    Numeral w i → Word.least ≤ i → i ≤ Word.greatest → Items ps items →
    Items (.glyph (.op .push) :: .word w :: ps) (.push (.ofInt i) :: items)
  | jump {w : List Char} {t : Target} {ps : List Piece} {items : List Item} :
    t.Written w → Items ps items →
    Items (.glyph (.op .jump) :: .word w :: ps) (.jump t :: items)
  | jumpIf {w : List Char} {t : Target} {ps : List Piece} {items : List Item} :
    t.Written w → Items ps items →
    Items (.glyph (.op .jumpIf) :: .word w :: ps) (.jumpIf t :: items)
  | label {w : List Char} {ps : List Piece} {items : List Item} :
    Identifier w → Items ps items →
    Items (.glyph .labelDef :: .word w :: ps) (.label (String.ofList w) :: items)

/-- The source is written as these items. -/
def Written (source : String) (items : List Item) : Prop :=
  ∃ ps, Pieces (sourceClusters source) ps ∧ Items ps items

/-! ## The program of the items -/

/-- The labels defined by the items, each with the number of instructions before
its definition, where the given number of instructions comes before all items. -/
def addresses : Nat → List Item → List (String × Nat)
  | _, [] => []
  | n, .label name :: items => (name, n) :: addresses n items
  | n, _ :: items => addresses (n + 1) items

/-- The label that an item defines. -/
def Item.definition? : Item → Option String
  | label name => some name
  | _ => none

/-- The label that an item jumps to. -/
def Item.reference? : Item → Option String
  | jump (.label name) | jumpIf (.label name) => some name
  | _ => none

/-- The address that a target stands for. -/
def Target.address (labels : List (String × Nat)) : Target → Nat
  | index n => n
  | label name => (labels.lookup name).getD 0

/-- The instruction of an item, if it is not a label definition. -/
def Item.instruction? (labels : List (String × Nat)) : Item → Option Instruction
  | plain i => some i
  | push value => some (.push value)
  | jump t => some (.jump (t.address labels))
  | jumpIf t => some (.jumpIf (t.address labels))
  | label _ => none

/-- No label is defined twice, and every label that is jumped to is defined. -/
structure WellLabelled (items : List Item) : Prop where
  distinct : (items.filterMap Item.definition?).Nodup
  defined : ∀ name ∈ items.filterMap Item.reference?, name ∈ items.filterMap Item.definition?

/-- The code and the labels are those of the items: the code has the instructions
in order, with the address of its label in every jump to one, and the labels are
listed ascending by name. -/
structure Assembles (items : List Item) (code : List Instruction)
    (labels : List (String × Nat)) : Prop where
  wellLabelled : WellLabelled items
  code_eq : code = items.filterMap (Item.instruction? (addresses 0 items))
  labels_perm : labels.Perm (addresses 0 items)
  labels_ascend : labels.Pairwise fun x y => x.1 < y.1

end GlyphMachine.Language
