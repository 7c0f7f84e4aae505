import GlyphMachine.Results
import GlyphMachine.SyntaxErrors
import GlyphMachine.Token
import GlyphMachine.Token.Cursor

/-!
The lexer reads a source text cluster by cluster. It knows what every glyph expects, so the word
after a glyph is read together with the glyph, as the right kind of token, and a missing word is
reported at the glyph. Every error is reported and none stops the reading.
-/

namespace GlyphMachine

open Text (Cluster)

/-! ## Words -/

/-- Whether a word is to be read as a number: it starts with a digit or a sign. -/
def looksNumeric : List Char → Bool
  | c :: _ => c.isDigit || c = '-' || c = '+'
  | [] => false

/-- Whether a word is a label name: letters, digits and underscores, no digit in front. -/
def isLabelName : List Char → Bool
  | c :: cs => (c.isAlpha || c = '_') && cs.all fun c => c.isAlphanum || c = '_'
  | [] => false

/-- A token or a lexical error, with its place. -/
abbrev Lexeme := Except (Located LexError) (Located Token)

namespace Lexeme

/-- A word read as a number. -/
def literal (word : List Char) (span : Span) : Lexeme :=
  match Word.ofText? word with
  | some value => .ok ⟨.literal value, span⟩
  | none => .error ⟨.invalidLiteral (String.ofList word), span⟩

/-- A word read as a label name. -/
def label (word : List Char) (span : Span) : Lexeme :=
  if isLabelName word then .ok ⟨.label (String.ofList word), span⟩
  else .error ⟨.invalidLabel (String.ofList word), span⟩

/-- A word read as what it looks like. -/
def ofWord (word : List Char) (span : Span) : Lexeme :=
  if looksNumeric word then literal word span else label word span

/-- A word read as the operand that a glyph expects. -/
def operand (arity : Arity) (word : List Char) (span : Span) : Lexeme :=
  match arity with
  | .integer => literal word span
  | .target => ofWord word span
  | .none | .name => label word span

end Lexeme

/-! ## The lexer -/

/-- The state of the lexer: where it stands, and the operand it has read with the last glyph but
not yet given out. -/
structure Lexer where
  cursor : Cursor
  pending : Option Lexeme

namespace Lexer

/-- The lexer at the start of a source. -/
def ofSource (source : String) : Lexer :=
  ⟨.ofSource source, none⟩

/-- Byte offset of the next cluster to read. -/
def offset (l : Lexer) : Nat :=
  l.cursor.place.offset

/-- Whether every cluster has been read. -/
def atEnd (l : Lexer) : Bool :=
  l.cursor.rest.isEmpty

/-- The operand of a glyph, read from the cursor after the glyph. Where no word follows, the
cursor stays before what follows and the glyph is reported. -/
def readOperand (glyph : Glyph) (glyphSpan : Span) (after : Cursor) : Lexeme × Cursor :=
  let start := after.skip
  let (word, stop) := start.word
  if word = [] then (.error ⟨.missingOperand glyph glyph.arity, glyphSpan⟩, start)
  else (.operand glyph.arity word (start.place.spanTo stop.place), stop)

/-- The glyph in a cluster, read together with its operand. -/
def readGlyph (start : Place) (g : Cluster) (rest : List Cluster) : Lexeme × Lexer :=
  let after : Cursor := ⟨start.past g, rest⟩
  let span := start.spanTo after.place
  match Glyph.ofCluster? g with
  | none => (.error ⟨.unknownGlyph (String.ofList g), span⟩, ⟨after, none⟩)
  | some glyph =>
    let token : Lexeme := .ok ⟨.ofGlyph glyph, span⟩
    if glyph.arity = .none then (token, ⟨after, none⟩)
    else
      let (operand, stop) := readOperand glyph span after
      (token, ⟨stop, some operand⟩)

/-- The next token or error, and the lexer after it. -/
def next? (l : Lexer) : Option (Lexeme × Lexer) :=
  match l.pending with
  | some lexeme => some (lexeme, ⟨l.cursor, none⟩)
  | none =>
    let start := l.cursor.skip
    match start.rest with
    | [] => none
    | g :: rest =>
      let (word, stop) := start.word
      if word = [] then some (readGlyph start.place g rest)
      else some (.ofWord word (start.place.spanTo stop.place), ⟨stop, none⟩)

/-- The lexer once it has nothing left to give out: it stands at the end of the source. -/
def exhausted (l : Lexer) : Lexer :=
  ⟨l.cursor.skip, none⟩

/-- What is left to do: clusters count twice, so that giving out a stored operand is progress. -/
def workLeft (l : Lexer) : Nat :=
  2 * l.cursor.rest.length + if l.pending.isSome then 1 else 0

theorem readOperand_rest_length_le (glyph : Glyph) (span : Span) (after : Cursor) :
    (readOperand glyph span after).2.rest.length ≤ after.rest.length := by
  have hskip := after.skip_rest_length_le
  have hword := after.skip.word_rest_length_le
  simp only [readOperand]
  split
  · exact hskip
  · exact Nat.le_trans hword hskip

theorem readGlyph_workLeft_le (start : Place) (g : Cluster) (rest : List Cluster) :
    (readGlyph start g rest).2.workLeft ≤ 2 * rest.length + 1 := by
  unfold readGlyph
  split
  · simp [workLeft]
  · rename_i glyph _
    have hoperand := readOperand_rest_length_le glyph (start.spanTo (start.past g))
      ⟨start.past g, rest⟩
    dsimp only at hoperand ⊢
    split <;> simp [workLeft]
    omega

/-- Every step of the lexer leaves less to do. -/
theorem next?_workLeft_lt {l : Lexer} {step : Lexeme × Lexer} (h : l.next? = some step) :
    step.2.workLeft < l.workLeft := by
  rcases l with ⟨cursor, _ | pending⟩
  · have hskip := cursor.skip_rest_length_le
    simp only [next?] at h
    split at h
    · cases h
    · rename_i g rest hrest
      rw [hrest, List.length_cons] at hskip
      split at h <;> rw [← Option.some.inj h]
      · have hglyph := readGlyph_workLeft_le cursor.skip.place g rest
        simp only [workLeft] at hglyph ⊢
        simp
        omega
      · rename_i hword
        have hlt := Cursor.word_rest_length_lt hword
        rw [hrest, List.length_cons] at hlt
        simp only [workLeft]
        simp
        omega
  · rw [← Option.some.inj h]
    simp [workLeft]

/-- Everything the lexer still gives out. -/
def lexemes (l : Lexer) : List Lexeme :=
  match _h : l.next? with
  | none => []
  | some step => step.1 :: step.2.lexemes
termination_by l.workLeft
decreasing_by exact next?_workLeft_lt _h

end Lexer

/-! ## Whole sources -/

/-- The tokens of a source, or every lexical error in it. -/
def tokenize (source : String) : Except (List (Located LexError)) (List (Located Token)) :=
  gather (Lexer.ofSource source).lexemes

end GlyphMachine
