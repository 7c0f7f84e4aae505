import GlyphMachine.Proofs.Machine.StepErrors

/-!
# Quotients and remainders

Division and remainder are two operators of the machine that share one law. `Word.DividedBy`
collects it: the dividend comes back from quotient and remainder in the wrapping arithmetic
of the machine, and both are those of truncating division over the integers, but for the
one quotient that no word can hold. `Word.dividedBy_div_mod` proves it for every divisor other
than zero, where both operators fault.
-/

namespace GlyphMachine

namespace Word

/-- The words `q` and `r` are the quotient and the remainder of `a` by `b`. -/
structure DividedBy (a b q r : Word) : Prop where
  /-- The machine gets the dividend back with its own operators. -/
  restores : (BinaryOp.mul.eval? q b).bind (BinaryOp.add.eval? · r) = some a
  remainder_lt : r.toInt.natAbs < b.toInt.natAbs
  remainder_sign : r = 0 ∨ r.toInt.sign = a.toInt.sign
  quotient_eq : ¬ (a.toInt = least ∧ b = -1) → q.toInt = a.toInt.tdiv b.toInt
  /-- The opposite of the least word is no word, and wraps around to the least word. -/
  quotient_wraps : a.toInt = least ∧ b = -1 → q.toInt = least ∧ r = 0

variable {a b : Word}

theorem toInt_ne_zero (nonzero : b ≠ 0) : b.toInt ≠ 0 := by
  rw [← Int64.toInt_zero, ne_eq, Int64.toInt_inj]
  exact nonzero

/-- Whatever wraps around in the quotient is taken back by the product. -/
theorem div_mul_add_mod (a b : Word) : a / b * b + a % b = a := by
  rw [← Int64.toInt_inj]
  calc (a / b * b + a % b).toInt
    _ = (((a.toInt.tdiv b.toInt).bmod (2 ^ 64) * b.toInt).bmod (2 ^ 64) +
          a.toInt.tmod b.toInt).bmod (2 ^ 64) := by
      rw [Int64.toInt_add, Int64.toInt_mul, Int64.toInt_div, Int64.toInt_mod]
    _ = (a.toInt.tdiv b.toInt * b.toInt + a.toInt.tmod b.toInt).bmod (2 ^ 64) := by
      rw [Int.bmod_mul_bmod, Int.bmod_add_bmod]
    _ = a.toInt := by
      rw [Int.tdiv_mul_add_tmod]
      exact a.toInt_bmod

theorem natAbs_mod_lt (nonzero : b ≠ 0) : (a % b).toInt.natAbs < b.toInt.natAbs := by
  rw [Int64.toInt_mod, Int.natAbs_tmod]
  exact Nat.mod_lt _ (Int.natAbs_pos.mpr (toInt_ne_zero nonzero))

theorem sign_mod (a b : Word) : a % b = 0 ∨ (a % b).toInt.sign = a.toInt.sign := by
  have sign := Int.sign_tmod a.toInt b.toInt
  rw [← Int64.toInt_mod] at sign
  split at sign
  · left
    rw [← Int64.toInt_inj, Int.sign_eq_zero_iff_zero.mp sign, Int64.toInt_zero]
  · exact .inr sign

/-- All quotients of words but one are words. -/
theorem toInt_div_of_fits (fits : ¬ (a.toInt = least ∧ b = -1)) :
    (a / b).toInt = a.toInt.tdiv b.toInt := by
  by_cases divisor : b = -1
  · apply Int64.toInt_div_of_ne_left
    rintro rfl
    exact fits ⟨by decide, divisor⟩
  · exact Int64.toInt_div_of_ne_right a b divisor

theorem least_div_neg_one (dividend : a.toInt = least) :
    (a / -1).toInt = least ∧ a % -1 = 0 := by
  rw [← Int64.toInt_inj, Int64.toInt_div, Int64.toInt_mod, dividend]
  decide

/-- For any divisor other than zero the two operators fit together. -/
theorem dividedBy_div_mod (a : Word) (nonzero : b ≠ 0) : a.DividedBy b (a / b) (a % b) where
  restores := congrArg some (div_mul_add_mod a b)
  remainder_lt := natAbs_mod_lt nonzero
  remainder_sign := sign_mod a b
  quotient_eq := toInt_div_of_fits
  quotient_wraps := by
    rintro ⟨dividend, rfl⟩
    exact least_div_neg_one dividend

/-- Neither is rounded down: the quotient goes toward zero and the remainder with the dividend. -/
example : BinaryOp.div.eval? (-7) 2 = some (-3) ∧ BinaryOp.mod.eval? (-7) 2 = some (-1) := by
  decide

end Word

/-- An operator that finds its two words divides by zero exactly where it has no value. -/
theorem Machine.exec_eq_divideByZero_iff {m : Machine} {rest : Stack} {a b : Word}
    {size : Nat} {budget : Budget} {op : BinaryOp}
    (popped : m.stack.popPair? = some (a, b, rest)) :
    m.exec size budget (.binary op) = .fault .divideByZero ↔ op.eval? a b = none := by
  rw [Request.exec_eq_iff, Request.outcome_fault_iff,
    (m.asks_request size (.binary op)).eq_divideByZero_iff, BinaryOp.eval?_eq_none_iff,
    Stack.top?_of_popPair? popped]
  simp [Instruction.operands, Stack.depth_of_popPair? popped]

/-- Division and remainder of any two words fault together, by a divisor of zero and by no
other, and fit together wherever they do not. -/
theorem division_fits_remainder (a b : Word) :
    (∀ (size : Nat) (budget : Budget) (m : Machine) (rest : Stack),
      m.stack.popPair? = some (a, b, rest) →
      (m.exec size budget (.binary .div) = .fault .divideByZero ↔ b = 0) ∧
      (m.exec size budget (.binary .mod) = .fault .divideByZero ↔ b = 0)) ∧
    (BinaryOp.div.eval? a b = none ↔ b = 0) ∧ (BinaryOp.mod.eval? a b = none ↔ b = 0) ∧
    (b ≠ 0 → ∃ q r, BinaryOp.div.eval? a b = some q ∧ BinaryOp.mod.eval? a b = some r ∧
      a.DividedBy b q r) := by
  have undefinedDiv : BinaryOp.div.eval? a b = none ↔ b = 0 := by
    simp [BinaryOp.eval?_eq_none_iff]
  have undefinedMod : BinaryOp.mod.eval? a b = none ↔ b = 0 := by
    simp [BinaryOp.eval?_eq_none_iff]
  refine ⟨?_, undefinedDiv, undefinedMod, ?_⟩
  · intro size budget m rest popped
    rw [Machine.exec_eq_divideByZero_iff popped, Machine.exec_eq_divideByZero_iff popped]
    exact ⟨undefinedDiv, undefinedMod⟩
  · intro nonzero
    exact ⟨a / b, a % b, if_neg nonzero, if_neg nonzero, Word.dividedBy_div_mod a nonzero⟩

end GlyphMachine
