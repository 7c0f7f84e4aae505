import GlyphMachine.Word

/-!
The glyphs of the language. Every opcode, and the directive that defines a label, is written as one
emoji; a variation selector after the emoji never changes what it names.
-/

namespace GlyphMachine

/-- Operations of the machine. -/
inductive Opcode where
  | push
  | print
  | halt
  | binary (op : BinaryOp)
  | dup
  | swap
  | drop
  | jump
  | jumpIf
deriving DecidableEq, Repr

/-- What a glyph expects to follow it. -/
inductive Arity where
  | none
  /-- a signed integer -/
  | integer
  /-- a label name or the index of an instruction -/
  | target
  /-- a label name -/
  | name
deriving DecidableEq, Repr

/-- A recognised glyph: an opcode, or the directive that defines a label. -/
inductive Glyph where
  | op (opcode : Opcode)
  | labelDef
deriving DecidableEq, Repr

namespace Arity

/-- What a missing operand is called in messages. -/
def expected : Arity → String
  | integer => "a number"
  | target => "a label or an instruction index"
  | none | name => "a label name"

end Arity

namespace BinaryOp

/-- Name of the operator. -/
def name : BinaryOp → String
  | add => "add"
  | sub => "sub"
  | mul => "mul"
  | div => "div"
  | mod => "mod"
  | eq => "eq"
  | lt => "lt"
  | gt => "gt"

end BinaryOp

namespace Opcode

def arity : Opcode → Arity
  | push => .integer
  | jump | jumpIf => .target
  | _ => .none

/-- Name of the opcode. -/
def name : Opcode → String
  | push => "push"
  | print => "print"
  | halt => "halt"
  | binary op => op.name
  | dup => "dup"
  | swap => "swap"
  | drop => "drop"
  | jump => "jump"
  | jumpIf => "jump-if"

/-- All opcodes, in the order of the instruction set. -/
def all : List Opcode :=
  [push, print, halt, binary .add, binary .sub, binary .mul, binary .div, binary .mod, binary .eq,
    binary .lt, binary .gt, dup, swap, drop, jump, jumpIf]

end Opcode

namespace Glyph

/-- The two characters that ask for the text or the emoji form of the one before them. -/
def isVariationSelector (c : Char) : Bool :=
  c = '\uFE0E' || c = '\uFE0F'

/-- The emoji of a glyph. -/
def symbol : Glyph → Char
  | op .push => '📥'
  | op .print => '🖨'
  | op .halt => '⏹'
  | op (.binary .add) => '➕'
  | op (.binary .sub) => '➖'
  | op (.binary .mul) => '✖'
  | op (.binary .div) => '➗'
  | op (.binary .mod) => '🧮'
  | op (.binary .eq) => '🟰'
  | op (.binary .lt) => '◀'
  | op (.binary .gt) => '▶'
  | op .dup => '📋'
  | op .swap => '🔀'
  | op .drop => '🗑'
  | op .jump => '🦘'
  | op .jumpIf => '🤔'
  | labelDef => '🏷'

/-- Whether the emoji is by default shown as text, so that its canonical spelling asks for the
emoji form. -/
def isTextByDefault : Glyph → Bool
  | op .print | op .halt | op .drop | labelDef => true
  | op (.binary .mul) | op (.binary .lt) | op (.binary .gt) => true
  | _ => false

/-- The canonical spelling, as listings and messages show it. -/
def spelling (g : Glyph) : List Char :=
  if g.isTextByDefault then [g.symbol, '\uFE0F'] else [g.symbol]

/-- The canonical spelling as a string. -/
def text (g : Glyph) : String :=
  String.ofList g.spelling

def arity : Glyph → Arity
  | op o => o.arity
  | labelDef => .name

/-- All glyphs. -/
def all : List Glyph :=
  labelDef :: Opcode.all.map op

/-- The glyph that a cluster spells, variation selectors aside. -/
def ofCluster? (cs : List Char) : Option Glyph :=
  let bare := cs.filter fun c => !isVariationSelector c
  all.find? fun g => bare = [g.symbol]

theorem mem_all (g : Glyph) : g ∈ all := by
  rcases g with ⟨_ | _ | _ | op | _ | _ | _ | _ | _⟩ | _
  case op.binary => cases op <;> decide
  all_goals decide

/-- Different glyphs have different emojis. -/
theorem symbol_inj {g h : Glyph} (eq : g.symbol = h.symbol) : g = h := by
  have all_inj : ∀ g ∈ all, ∀ h ∈ all, g.symbol = h.symbol → g = h := by decide
  exact all_inj g g.mem_all h h.mem_all eq

/-- A cluster spells a glyph exactly if the glyph's emoji is all that is left of it without
variation selectors. -/
theorem ofCluster?_eq_some_iff {cs : List Char} {g : Glyph} :
    ofCluster? cs = some g ↔ cs.filter (fun c => !isVariationSelector c) = [g.symbol] := by
  constructor
  · intro found
    simpa using List.find?_some found
  · intro bare
    rcases found : ofCluster? cs with _ | h
    · have missing := List.find?_eq_none.mp found g g.mem_all
      simp [bare] at missing
    · have spelled := List.find?_some found
      simp only [bare, List.cons.injEq, and_true, decide_eq_true_eq] at spelled
      rw [symbol_inj spelled]

/-- Every glyph is read back from its canonical spelling. -/
theorem ofCluster?_spelling (g : Glyph) : ofCluster? g.spelling = some g := by
  rw [ofCluster?_eq_some_iff]
  have all_bare : ∀ g ∈ all,
      g.spelling.filter (fun c => !isVariationSelector c) = [g.symbol] := by decide
  exact all_bare g g.mem_all

end Glyph

namespace Opcode

/-- The canonical spelling of an opcode. -/
def glyph (o : Opcode) : String :=
  (Glyph.op o).text

end Opcode

end GlyphMachine
