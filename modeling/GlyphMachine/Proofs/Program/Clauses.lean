import GlyphMachine.Program.Assembly

/-!
# Clauses

`Assembly.read` takes one token at a time and keeps a glyph that waits for its
operand. `clauses` cuts the whole token list at once, so that a glyph stands
together with its operand, and `ofTokens_eq_foldl` says that the assembly does to
every clause what `Assembly.add` does to it. After that the waiting glyph is gone
from all statements.
-/

namespace GlyphMachine

/-- One or two tokens that the assembly takes together. -/
inductive Clause where
  /-- an instruction, at the place of its glyph -/
  | emit (draft : Draft) (span : Span)
  /-- a label definition, at the place of the name -/
  | define (name : String) (span : Span)
  /-- tokens that make neither -/
  | report (cause : Malformation) (span : Span)
deriving DecidableEq

/-! ## Cutting tokens into clauses -/

/-- The clause of a token that stands alone, or what the token waits for. -/
def opening (token : Located Token) : Clause ⊕ Demand :=
  match token.item with
  | .literal value => .inl (.report (.strayNumber value) token.span)
  | .label name => .inl (.report (.strayLabel name) token.span)
  | .labelDef => .inr .name
  | .opcode .push => .inr .value
  | .opcode .jump => .inr .jump
  | .opcode .jumpIf => .inr .jumpIf
  | .opcode .print => .inl (.emit (.ready .print) token.span)
  | .opcode .halt => .inl (.emit (.ready .halt) token.span)
  | .opcode (.binary op) => .inl (.emit (.ready (.binary op)) token.span)
  | .opcode .dup => .inl (.emit (.ready .dup) token.span)
  | .opcode .swap => .inl (.emit (.ready .swap) token.span)
  | .opcode .drop => .inl (.emit (.ready .drop) token.span)

/-- The clause of a jump to a number, given the jump and the place of its glyph. -/
def numericJump (jump : Nat → Instruction) (span : Span) (target : Located Word) : Clause :=
  if target.item < 0 then .report (.negativeTarget target.item) target.span
  else .emit (.ready (jump target.item.toInt.toNat)) span

/-- The clause of a waiting glyph and the token after it, if the token is of the
right kind. -/
def completion (demand : Demand) (span : Span) (operand : Located Token) : Option Clause :=
  match demand, operand.item with
  | .value, .literal value => some (.emit (.ready (.push value)) span)
  | .jump, .literal value => some (numericJump .jump span ⟨value, operand.span⟩)
  | .jump, .label name => some (.emit (.jumpTo ⟨name, operand.span⟩) span)
  | .jumpIf, .literal value => some (numericJump .jumpIf span ⟨value, operand.span⟩)
  | .jumpIf, .label name => some (.emit (.jumpIfTo ⟨name, operand.span⟩) span)
  | .name, .label name => some (.define name operand.span)
  | _, _ => none

/-- The clauses of the tokens, from left to right. -/
def clauses : List (Located Token) → List Clause
  | [] => []
  | token :: rest =>
    match opening token with
    | .inl clause => clause :: clauses rest
    | .inr demand =>
      match rest with
      | [] => [.report demand.unmet token.span]
      | operand :: later =>
        match completion demand token.span operand with
        | some clause => clause :: clauses later
        | none => .report demand.unmet token.span :: clauses (operand :: later)
termination_by tokens => tokens.length

namespace Assembly

/-- What the assembly does with a clause. -/
def add (a : Assembly) : Clause → Assembly
  | .emit draft span => a.emit draft span
  | .define name span => a.define name span
  | .report cause span => a.report (.malformed cause) span

/-! ## The assembly, clause by clause -/

theorem add_due (a : Assembly) (clause : Clause) : (a.add clause).due = a.due := by
  cases clause with
  | emit => rfl
  | report => rfl
  | define name span =>
    simp only [add, define]
    split <;> rfl

theorem read_of_opening_inl {a : Assembly} {token : Located Token} {clause : Clause}
    (idle : a.due = none) (alone : opening token = .inl clause) :
    a.read token = a.add clause := by
  simp only [read, idle]
  unfold opening at alone
  split at alone <;> cases alone <;> simp [start, add, *]

theorem read_of_opening_inr {a : Assembly} {token : Located Token} {demand : Demand}
    (idle : a.due = none) (waits : opening token = .inr demand) :
    a.read token = a.await demand token.span := by
  simp only [read, idle]
  unfold opening at waits
  split at waits <;> cases waits <;> simp [start, *]

theorem emitJump_eq (a : Assembly) (jump : Nat → Instruction) (span : Span)
    (target : Located Word) :
    a.emitJump jump span target = a.add (numericJump jump span target) := by
  unfold emitJump numericJump
  split <;> rfl

theorem complete?_eq (a : Assembly) (demand : Demand) (span : Span) (operand : Located Token) :
    a.complete? ⟨demand, span⟩ operand = (completion demand span operand).map a.add := by
  unfold complete? completion
  rcases operand with ⟨item, place⟩
  cases demand <;> cases item <;> simp [emitJump_eq, add]

theorem settle_await {a : Assembly} (idle : a.due = none) (demand : Demand) (span : Span) :
    ({ a.await demand span with due := none } : Assembly) = a := by
  rcases a with ⟨drafts, definitions, errors, due⟩
  dsimp only at idle
  subst idle
  rfl

/-- A waiting glyph takes the next token, if that is of the right kind. -/
theorem read_await_of_completion {a : Assembly} {demand : Demand} {span : Span}
    {operand : Located Token} {clause : Clause} (idle : a.due = none)
    (completes : completion demand span operand = some clause) :
    (a.await demand span).read operand = a.add clause := by
  have settled := settle_await idle demand span
  simp only [read, await] at settled ⊢
  rw [settled, complete?_eq, completes]
  rfl

/-- A waiting glyph that cannot take the next token is reported before it. -/
theorem read_await_of_misfit {a : Assembly} {demand : Demand} {span : Span}
    {operand : Located Token} (idle : a.due = none)
    (misfit : completion demand span operand = none) :
    (a.await demand span).read operand =
      (a.add (.report demand.unmet span)).read operand := by
  have settled := settle_await idle demand span
  have reported : (a.add (.report demand.unmet span)).due = none := by
    rw [add_due, idle]
  simp only [read, await, reported] at settled ⊢
  rw [settled, complete?_eq, misfit]
  rfl

/-- Without a waiting glyph, reading the tokens and closing amounts to adding
their clauses. -/
theorem close_foldl_read (tokens : List (Located Token)) (a : Assembly) (idle : a.due = none) :
    (tokens.foldl read a).close = (clauses tokens).foldl add a := by
  fun_induction clauses tokens generalizing a with
  | case1 => simp [close, idle]
  | case2 token rest clause alone ih =>
    rw [List.foldl_cons, List.foldl_cons, read_of_opening_inl idle alone]
    exact ih _ (by rw [add_due, idle])
  | case3 token demand waits =>
    have unmet : (a.await demand token.span).close = a.add (.report demand.unmet token.span) := by
      simp only [close, await]
      exact congrArg (giveUp · _) (settle_await idle demand token.span)
    rw [List.foldl_cons, List.foldl_nil, List.foldl_cons, List.foldl_nil,
      read_of_opening_inr idle waits, unmet]
  | case4 token demand waits operand later clause completes ih =>
    rw [List.foldl_cons, List.foldl_cons, List.foldl_cons, read_of_opening_inr idle waits,
      read_await_of_completion idle completes]
    exact ih _ (by rw [add_due, idle])
  | case5 token demand waits operand later misfit ih =>
    rw [List.foldl_cons, List.foldl_cons, List.foldl_cons, read_of_opening_inr idle waits,
      read_await_of_misfit idle misfit, ← List.foldl_cons]
    exact ih _ (by rw [add_due, idle])

/-- The assembly of the tokens adds their clauses one by one. -/
theorem ofTokens_eq_foldl (tokens : List (Located Token)) :
    ofTokens tokens = (clauses tokens).foldl add empty :=
  close_foldl_read tokens empty rfl

end Assembly

end GlyphMachine
