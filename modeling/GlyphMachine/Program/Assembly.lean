import GlyphMachine.Program
import GlyphMachine.Results
import GlyphMachine.SyntaxErrors
import GlyphMachine.Token

/-!
Assembly of tokens into a program, one token at a time. A glyph that needs an operand waits for the
next token: if that is of the right kind the two make an instruction or a label definition, if not
the glyph is reported and the token is taken on its own. Jumps keep the name of their label until
every definition is known. What does not fit is reported in token order; jumps to labels that are
defined nowhere come last.
-/

namespace GlyphMachine

/-- An instruction whose jump target may still be a label. -/
inductive Draft where
  | ready (instruction : Instruction)
  | jumpTo (label : Located String)
  | jumpIfTo (label : Located String)
deriving DecidableEq, Repr

/-- Where a label was defined. -/
structure Definition where
  name : String
  /-- number of instructions before the definition -/
  address : Nat
  /-- line of the label's name -/
  line : Nat
deriving DecidableEq, Repr

/-- What a glyph waits for. -/
inductive Demand where
  /-- the number to push -/
  | value
  /-- the target of a jump -/
  | jump
  /-- the target of a conditional jump -/
  | jumpIf
  /-- the name of a label to define -/
  | name
deriving DecidableEq, Repr

namespace Demand

/-- What is wrong when the demand is not met. -/
def unmet : Demand → Malformation
  | value => .expectsNumber .push
  | jump => .expectsTarget .jump
  | jumpIf => .expectsTarget .jumpIf
  | name => .expectsName

end Demand

/-- What the tokens read so far amount to. -/
structure Assembly where
  drafts : Array (Located Draft)
  /-- definitions, latest first -/
  definitions : List Definition
  errors : Array (Located AssemblyError)
  /-- the glyph that waits for its operand -/
  due : Option (Located Demand)

namespace Assembly

/-- Nothing read yet. -/
def empty : Assembly := ⟨#[], [], #[], none⟩

/-- The definition of a label. -/
def find? (a : Assembly) (name : String) : Option Definition :=
  a.definitions.find? (·.name = name)

/-- One more instruction. -/
def emit (a : Assembly) (draft : Draft) (span : Span) : Assembly :=
  { a with drafts := a.drafts.push ⟨draft, span⟩ }

/-- One more error. -/
def report (a : Assembly) (error : AssemblyError) (span : Span) : Assembly :=
  { a with errors := a.errors.push ⟨error, span⟩ }

/-- A glyph that waits for its operand. -/
def await (a : Assembly) (demand : Demand) (span : Span) : Assembly :=
  { a with due := some ⟨demand, span⟩ }

/-- One more label, at the next instruction, unless its name is taken. -/
def define (a : Assembly) (name : String) (span : Span) : Assembly :=
  match a.find? name with
  | some first => a.report (.duplicateLabel name first.line) span
  | none => { a with definitions := ⟨name, a.drafts.size, span.line⟩ :: a.definitions }

/-- A jump to an instruction index, which must not be negative. -/
def emitJump (a : Assembly) (jump : Nat → Instruction) (span : Span) (target : Located Word) :
    Assembly :=
  if target.item < 0 then a.report (.malformed (.negativeTarget target.item)) target.span
  else a.emit (.ready (jump target.item.toInt.toNat)) span

/-- A token that is nobody's operand. -/
def start (a : Assembly) (token : Located Token) : Assembly :=
  let span := token.span
  match token.item with
  | .literal value => a.report (.malformed (.strayNumber value)) span
  | .label name => a.report (.malformed (.strayLabel name)) span
  | .labelDef => a.await .name span
  | .opcode .push => a.await .value span
  | .opcode .jump => a.await .jump span
  | .opcode .jumpIf => a.await .jumpIf span
  | .opcode .print => a.emit (.ready .print) span
  | .opcode .halt => a.emit (.ready .halt) span
  | .opcode (.binary op) => a.emit (.ready (.binary op)) span
  | .opcode .dup => a.emit (.ready .dup) span
  | .opcode .swap => a.emit (.ready .swap) span
  | .opcode .drop => a.emit (.ready .drop) span

/-- A token as the operand of a glyph, if it is of the right kind. -/
def complete? (a : Assembly) (demand : Located Demand) (operand : Located Token) :
    Option Assembly :=
  let span := demand.span
  match demand.item, operand.item with
  | .value, .literal value => some (a.emit (.ready (.push value)) span)
  | .jump, .literal value => some (a.emitJump .jump span ⟨value, operand.span⟩)
  | .jump, .label name => some (a.emit (.jumpTo ⟨name, operand.span⟩) span)
  | .jumpIf, .literal value => some (a.emitJump .jumpIf span ⟨value, operand.span⟩)
  | .jumpIf, .label name => some (a.emit (.jumpIfTo ⟨name, operand.span⟩) span)
  | .name, .label name => some (a.define name operand.span)
  | _, _ => none

/-- A glyph whose operand did not come. -/
def giveUp (a : Assembly) (demand : Located Demand) : Assembly :=
  a.report (.malformed demand.item.unmet) demand.span

/-- The next token. -/
def read (a : Assembly) (token : Located Token) : Assembly :=
  match a.due with
  | none => a.start token
  | some demand =>
    let settled := { a with due := none }
    match settled.complete? demand token with
    | some completed => completed
    | none => (settled.giveUp demand).start token

/-- The end of the tokens. -/
def close (a : Assembly) : Assembly :=
  match a.due with
  | none => a
  | some demand => { a with due := none }.giveUp demand

/-- All tokens of a source. -/
def ofTokens (tokens : List (Located Token)) : Assembly :=
  (tokens.foldl read empty).close

/-- The address that a label stands for. -/
def addressOf (a : Assembly) (label : Located String) : Except (Located AssemblyError) Nat :=
  match a.find? label.item with
  | some definition => .ok definition.address
  | none => .error ⟨.unresolvedLabel label.item, label.span⟩

/-- A draft with its label replaced by an address. -/
def resolve (a : Assembly) (draft : Located Draft) :
    Except (Located AssemblyError) (Located Instruction) :=
  match draft.item with
  | .ready instruction => .ok ⟨instruction, draft.span⟩
  | .jumpTo label => (a.addressOf label).map fun target => ⟨.jump target, draft.span⟩
  | .jumpIfTo label => (a.addressOf label).map fun target => ⟨.jumpIf target, draft.span⟩

/-- The labels and their addresses, ascending by name. -/
def labels (a : Assembly) : List (String × Nat) :=
  (a.definitions.map fun d => (d.name, d.address)).mergeSort fun x y => decide (x.1 ≤ y.1)

/-- The program, if nothing was reported and every label is known. -/
def finish (a : Assembly) : Except (List (Located AssemblyError)) Program :=
  let resolved := a.drafts.toList.map a.resolve
  match a.errors.toList ++ failures resolved with
  | [] => .ok ⟨(successes resolved).toArray, a.labels⟩
  | errors => .error errors

end Assembly

namespace Program

/-- The program that the tokens spell, or everything that keeps them from spelling one. -/
def ofTokens (tokens : List (Located Token)) : Except (List (Located AssemblyError)) Program :=
  (Assembly.ofTokens tokens).finish

end Program

end GlyphMachine
