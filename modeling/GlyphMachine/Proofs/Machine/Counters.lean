import GlyphMachine.Proofs.Language.Words
import GlyphMachine.Proofs.Machine.Sandbox
import Mathlib.Data.Nat.Digits.Defs

/-!
# Counters of sixty-four bits

The machine counts instructions, addresses and printed bytes without a bound.
`Meter.chargeWrapping` and `Machine.execWrapping` are the same steps on counters of
sixty-four bits, which wrap around; the ceiling of the output is then held against
what is left of a sum. A sum is as good as its remainder as long as it fits, and
`Sandboxed.countersFit` shows that every sum does: the invariant of the sandbox bounds
the counters, and the numeral of a word is short (`Word.utf8ByteSize_text_le`).
`reachedWrapping_iff` carries this over a run.
-/

namespace GlyphMachine

/-! ## Steps on counters that wrap around -/

/-- What a counter of sixty-four bits holds of a number. -/
def wrapped (n : Nat) : Nat :=
  (UInt64.ofNat n).toNat

theorem wrapped_of_lt {n : Nat} (fits : n < 2 ^ 64) : wrapped n = n :=
  UInt64.toNat_ofNat_of_lt' fits

/-- Charges one instruction on a counter that wraps around. The limit is held against the
counter before it moves on. -/
def Meter.chargeWrapping (budget : Budget) (elapsed : Nat) (m : Meter) : Except Breach Meter :=
  if budget.maxInstructions ≤ m.executed then .error (.instructionLimit budget.maxInstructions)
  else if budget.timeLimit ≤ elapsed then .error (.timeLimit budget.timeLimit)
  else .ok ⟨wrapped (m.executed + 1), m.allowance - 1⟩

/-- The effect of one instruction on counters that wrap around. The ceiling of the output is
held against the counter of the bytes after the line was added to it. -/
def Machine.execWrapping (size : Nat) (budget : Budget) (m : Machine) (i : Instruction) : Effect :=
  match m.request size i with
  | .print stack line =>
    let bytes := wrapped (m.output.bytes + Output.cost line)
    if budget.maxOutputBytes < bytes then .breach (.outputLimit budget.maxOutputBytes)
    else .next ⟨wrapped (m.pc + 1), stack, ⟨line :: m.output.latest, bytes⟩⟩
  | request =>
    match request.grant budget m with
    | .next next => .next { next with pc := wrapped next.pc }
    | effect => effect

/-- `ReachedWrapping job clock c`: on counters that wrap around, the run of the job passes
through `c`. -/
inductive ReachedWrapping (job : Job) (clock : Clock) : Configuration → Prop
  | start : ReachedWrapping job clock (.initial job)
  | step {c next : Configuration} {i : Instruction} : ReachedWrapping job clock c →
    job.program.get? c.machine.pc = some i →
    c.meter.chargeWrapping job.budget (clock c.meter.executed) = .ok next.meter →
    c.machine.execWrapping job.program.size job.budget i = .next next.machine →
    ReachedWrapping job clock next

/-! ## Numerals are short -/

/-- Characters of words are one byte each. -/
theorem byteSize_of_wordChars {cs : List Char} (isWord : ∀ c ∈ cs, Language.WordChar c) :
    Text.byteSize cs = cs.length := by
  induction cs with
  | nil => rfl
  | cons c cs ih =>
    obtain ⟨first, later⟩ := List.forall_mem_cons.mp isWord
    have ascii := Language.toNat_lt_of_isWordChar (Language.isWordChar_iff.mpr first)
    have single : c.utf8Size = 1 := if_pos (Nat.le_of_lt_succ ascii)
    rw [Text.byteSize_cons, ih later, single, List.length_cons, Nat.add_comm]

/-- A sign and nineteen digits write every word. -/
theorem Word.length_text_le (w : Word) : w.text.length ≤ 20 := by
  have above := w.le_toInt
  have below := w.toInt_lt
  rw [Word.text, Int.toString_eq_repr, Int.repr_eq_if]
  split
  · have digits := Nat.repr_length w.toInt.toNat 19 (by omega) (by omega)
    omega
  · have digits := Nat.repr_length (-w.toInt).toNat 19 (by omega) (by omega)
    rw [String.length_append]
    exact Nat.add_le_add (Nat.le_refl 1) digits

theorem Word.utf8ByteSize_text_le (w : Word) : w.text.utf8ByteSize ≤ 20 := by
  have isWord := (Language.isWord_of_numeral (Language.numeral_toString w.toInt)).2
  have size := Text.utf8ByteSize_ofList w.text.toList
  rw [String.ofList_toList, Word.text, byteSize_of_wordChars isWord, String.length_toList] at size
  rw [Word.text, size]
  exact w.length_text_le

/-! ## Every sum fits -/

/-- A program as long as any list of instructions can be, and ceilings that leave room for one
more line of output. The ceiling of the stack may be any. -/
structure Job.LeavesRoom (job : Job) : Prop where
  size_le : job.program.size ≤ 2 ^ 63 - 1
  maxInstructions_le : job.budget.maxInstructions ≤ 2 ^ 64 - 1
  maxOutputBytes_le : job.budget.maxOutputBytes ≤ 2 ^ 64 - 22

/-- No counter of the configuration wraps around in the next step. -/
structure CountersFit (job : Job) (c : Configuration) : Prop where
  /-- The meter moves on only below its limit. -/
  executed_lt : c.meter.executed < job.budget.maxInstructions → c.meter.executed + 1 < 2 ^ 64
  pc_lt : c.machine.pc + 1 < 2 ^ 64
  lines_le : ∀ line ∈ c.machine.output.lines, line.utf8ByteSize ≤ 20
  bytes_lt : ∀ w : Word, c.machine.output.bytes + Output.cost w.text < 2 ^ 64
  /-- The ceiling of the output is held against the true sum. -/
  compares : ∀ w : Word,
    job.budget.maxOutputBytes < wrapped (c.machine.output.bytes + Output.cost w.text) ↔
      job.budget.maxOutputBytes < c.machine.output.bytes + Output.cost w.text
  charge_eq : ∀ elapsed,
    c.meter.chargeWrapping job.budget elapsed = c.meter.charge job.budget elapsed
  exec_eq : ∀ i, job.program.get? c.machine.pc = some i →
    c.machine.execWrapping job.program.size job.budget i =
      c.machine.exec job.program.size job.budget i

/-- The meter charges the same as long as its limit is a number of sixty-four bits. -/
theorem Meter.chargeWrapping_eq {m : Meter} {budget : Budget} (elapsed : Nat)
    (metered : m.executed + m.allowance = budget.maxInstructions)
    (limit_lt : budget.maxInstructions < 2 ^ 64) :
    m.chargeWrapping budget elapsed = m.charge budget elapsed := by
  rcases m with ⟨executed, _ | allowance⟩
  · exact if_pos (Nat.le_of_eq metered.symm)
  · dsimp only at metered
    rw [chargeWrapping, if_neg (by dsimp only; omega), wrapped_of_lt (by dsimp only; omega)]
    rfl

/-- An instruction has the same effect as long as neither of its sums wraps around. -/
theorem Machine.execWrapping_eq {m : Machine} {size : Nat} {budget : Budget} (i : Instruction)
    (inside : m.pc < size) (size_lt : size < 2 ^ 64)
    (bytes_lt : ∀ w : Word, m.output.bytes + Output.cost w.text < 2 ^ 64) :
    m.execWrapping size budget i = m.exec size budget i := by
  have sound := Request.request_sound inside i
  rw [Request.exec_eq_grant, execWrapping]
  split
  · rename_i stack line asked
    rw [asked] at sound
    obtain ⟨-, w, numeral⟩ := sound
    have line_eq : line = w.text := numeral
    rw [asked, line_eq, Request.grant, Machine.advancePrint, wrapped_of_lt (bytes_lt w),
      wrapped_of_lt (by omega)]
    rfl
  · split
    · rename_i next granted
      have outcome := Request.outcome_grant budget m (m.request size i)
      rw [granted] at outcome ⊢
      have pc_le := outcome.pc_le inside sound
      rw [wrapped_of_lt (by omega)]
    · rfl

section Runs

variable {job : Job} {clock : Clock} {c : Configuration}

/-- In the sandbox no counter wraps around. -/
theorem Sandboxed.countersFit (sandboxed : Sandboxed job c) (room : job.LeavesRoom)
    (metered : c.meter.executed + c.meter.allowance = job.budget.maxInstructions) :
    CountersFit job c := by
  have size_le := room.size_le
  have maxInstructions_le := room.maxInstructions_le
  have maxOutputBytes_le := room.maxOutputBytes_le
  have pc_le := sandboxed.pc_le
  have bytes_le := sandboxed.bytes_le
  have bytes_lt (w : Word) : c.machine.output.bytes + Output.cost w.text < 2 ^ 64 := by
    have short := w.utf8ByteSize_text_le
    rw [Output.cost]
    omega
  refine ⟨by omega, by omega, ?_, bytes_lt, ?_, ?_, ?_⟩
  · intro line printed
    obtain ⟨w, rfl⟩ := sandboxed.numerals line printed
    exact w.utf8ByteSize_text_le
  · intro w
    rw [wrapped_of_lt (bytes_lt w)]
  · intro elapsed
    exact Meter.chargeWrapping_eq elapsed metered (by omega)
  · intro i fetched
    exact Machine.execWrapping_eq i (Program.lt_size_of_get? fetched) (by omega) bytes_lt

theorem Reached.countersFit (reached : Reached job clock c) (room : job.LeavesRoom) :
    CountersFit job c :=
  reached.sandboxed.countersFit room reached.executed_add_allowance

/-- Counters that wrap around pass through the same configurations as those that do not. -/
theorem reachedWrapping_iff (room : job.LeavesRoom) :
    ReachedWrapping job clock c ↔ Reached job clock c := by
  constructor
  · intro reached
    induction reached with
    | start => exact .start
    | step _ fetched charged granted ih =>
      have fit := ih.countersFit room
      rw [fit.charge_eq] at charged
      rw [fit.exec_eq _ fetched] at granted
      have outcome := Request.exec_eq_iff.mp granted
      exact ih.step (Configuration.tick_eq_go_iff.mpr ⟨_, fetched, charged, outcome⟩)
  · intro reached
    induction reached with
    | start => exact .start
    | @step c next before goes ih =>
      have fit := before.countersFit room
      obtain ⟨i, fetched, charged, outcome⟩ := Configuration.tick_eq_go_iff.mp goes
      have granted := Request.exec_eq_iff.mpr outcome
      rw [← fit.charge_eq] at charged
      rw [← fit.exec_eq _ fetched] at granted
      exact ih.step fetched charged granted

end Runs

/-- Counters of sixty-four bits are enough. A run on counters that wrap around passes
through the configurations of the run on counters without a bound, and in none of them
does a sum reach two to the sixty-fourth, since no line is longer than twenty bytes. -/
theorem counters_never_overflow {job : Job} (room : job.LeavesRoom) (clock : Clock) :
    (∀ w : Word, w.text.utf8ByteSize ≤ 20) ∧
    (∀ c, ReachedWrapping job clock c ↔ Reached job clock c) ∧
    ∀ c, ReachedWrapping job clock c → CountersFit job c := by
  refine ⟨Word.utf8ByteSize_text_le, fun c => reachedWrapping_iff room, ?_⟩
  intro c reached
  exact ((reachedWrapping_iff room).mp reached).countersFit room

/-- Prints the longest line there is for ever, under the highest ceilings. -/
def longestLines : Job where
  program := {
    code := #[⟨.push (-9223372036854775808), ⟨0, 4, 1, 1⟩⟩, ⟨.print, ⟨26, 33, 1, 24⟩⟩,
      ⟨.jump 0, ⟨34, 41, 1, 26⟩⟩]
    labels := [] }
  budget := ⟨2 ^ 64 - 1, 1, 2 ^ 64 - 1, 2 ^ 64 - 22⟩

/-- The first of these lines counts for twenty-one bytes. -/
theorem counters_never_overflow_longest_lines :
    longestLines.LeavesRoom ∧ ∃ c, ReachedWrapping longestLines .stopped c ∧
      c.machine.output.bytes = 21 ∧ CountersFit longestLines c := by
  have room : longestLines.LeavesRoom := ⟨by decide, by decide, by decide⟩
  have pushed : Reached longestLines .stopped
      ⟨⟨1, 2 ^ 64 - 2⟩, ⟨1, .ofCells [-9223372036854775808], .empty⟩⟩ :=
    .step .start (by decide +kernel)
  have printed : Reached longestLines .stopped
      ⟨⟨2, 2 ^ 64 - 3⟩, ⟨2, .empty, ⟨["-9223372036854775808"], 21⟩⟩⟩ :=
    .step pushed (by decide +kernel)
  obtain ⟨-, same, fits⟩ := counters_never_overflow room .stopped
  exact ⟨room, _, (same _).mpr printed, rfl, fits _ ((same _).mpr printed)⟩

end GlyphMachine
