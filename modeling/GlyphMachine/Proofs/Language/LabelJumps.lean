import GlyphMachine.Proofs.Machine.Faults

/-!
# Jumps to labels

A jump that is written with a label stays inside the program. The source is written
as one list of items only (`written_unique`), and the instruction at an address is
that of the item there (`get?_eq_of_assembles`). Labels stand at most just behind the last
instruction, so a target that a run refuses was written as a number
(`jumpsByNumber_of_refused`).
-/

namespace GlyphMachine.Language

/-! ## The items of a source -/

theorem exists_areItems_of_written {source : String} {items : List Item}
    (written : Written source items) :
    ∃ tokens, tokenize source = .ok tokens ∧ (clauses tokens).map clauseItem? = items.map some := by
  obtain ⟨ps, pieces, derived⟩ := written
  obtain ⟨ts, tokensOf⟩ := exists_tokensOf_of_items derived
  obtain ⟨tokens, tokenized, same⟩ := tokenize_eq_ok_iff.mpr ⟨ps, pieces, tokensOf⟩
  exact ⟨tokens, tokenized, (areItems_iff_items tokensOf tokens items same).mpr derived⟩

/-- A source is written as one list of items only. -/
theorem written_unique {source : String} {items other : List Item}
    (first : Written source items) (second : Written source other) : other = items := by
  obtain ⟨tokens, tokenized, areItems⟩ := exists_areItems_of_written first
  obtain ⟨tokens', tokenized', areOther⟩ := exists_areItems_of_written second
  obtain rfl : tokens = tokens' := Except.ok.inj (tokenized.symm.trans tokenized')
  have same : other.map some = items.map some := areOther.symm.trans areItems
  exact List.map_injective_iff.mpr (Option.some_injective _) same

/-- An instruction that is written without an operand is no jump. -/
theorem not_jump_of_plain {ps : List Piece} {items : List Item} (derived : Items ps items)
    {i : Instruction} (plain : .plain i ∈ items) (target : Nat) :
    i ≠ .jump target ∧ i ≠ .jumpIf target := by
  induction derived with
  | nil => cases plain
  | @plain o j ps items nullary _ ih =>
    rcases List.mem_cons.mp plain with first | later
    · obtain rfl := Item.plain.inj first
      cases o <;> simp [Instruction.nullary?] at nullary <;> subst nullary <;> simp
    · exact ih later
  | push _ _ _ _ ih | jump _ _ ih | jumpIf _ _ ih | label _ _ ih =>
    rcases List.mem_cons.mp plain with first | later
    · cases first
    · exact ih later

/-! ## Instructions and their items -/

/-- The number that an item jumps to. -/
def Item.index? : Item → Option Nat
  | jump (.index n) | jumpIf (.index n) => some n
  | _ => none

/-- The items that are instructions, so that the one at an address is found there. -/
def instructionItems (items : List Item) : List Item :=
  items.filter Item.isInstruction

theorem getElem?_filterMap_of_isSome {α β : Type} {f : α → Option β} {as : List α}
    (total : ∀ a ∈ as, (f a).isSome) (k : Nat) : (as.filterMap f)[k]? = as[k]?.bind f := by
  induction as generalizing k with
  | nil => rfl
  | cons a as ih =>
    obtain ⟨first, later⟩ := List.forall_mem_cons.mp total
    obtain ⟨b, value⟩ := Option.isSome_iff_exists.mp first
    rw [List.filterMap_cons, value]
    cases k with
    | zero => simp [value]
    | succ k => simpa using ih later k

section AssembledItems

variable {items : List Item} {p : Program}

/-- The instruction at an address is that of the item at the same place. -/
theorem get?_eq_of_assembles (assembles : Assembles items p.instructions p.labels) (k : Nat) :
    p.get? k = (instructionItems items)[k]?.bind (Item.instruction? (addresses 0 items)) := by
  have total : ∀ item ∈ instructionItems items,
      (item.instruction? (addresses 0 items)).isSome := by
    intro item among
    have isInstruction := (List.mem_filter.mp among).2
    cases item with
    | label => cases isInstruction
    | plain | push | jump | jumpIf => rfl
  rw [Program.get?_eq_getElem?_instructions, assembles.code_eq, ← filterMap_filter_isInstruction]
  exact getElem?_filterMap_of_isSome total k

theorem size_eq_of_assembles (assembles : Assembles items p.instructions p.labels) :
    p.size = items.countP Item.isInstruction := by
  have length : p.size = p.instructions.length := by simp [Program.size, Program.instructions]
  rw [length, assembles.code_eq, List.length_filterMap_eq_countP]
  congr 1
  funext item
  cases item <;> rfl

/-- A label stands before an instruction or behind the last one. -/
theorem le_of_mem_addresses {n m : Nat} {name : String} (among : (name, m) ∈ addresses n items) :
    m ≤ n + items.countP Item.isInstruction := by
  induction items generalizing n with
  | nil => cases among
  | cons item items ih =>
    rw [List.countP_cons]
    cases item with
    | label other =>
      rcases List.mem_cons.mp among with first | later
      · cases first
        omega
      · have bound := ih later
        omega
    | plain | push | jump | jumpIf =>
      have bound := ih (show (name, m) ∈ addresses (n + 1) items from among)
      simp only [Item.isInstruction, Item.definition?, Option.isNone_none, if_true]
      omega

theorem address_le_size (assembles : Assembles items p.instructions p.labels)
    {name : String} {address : Nat} (among : (name, address) ∈ p.labels) : address ≤ p.size := by
  have bound := le_of_mem_addresses (assembles.labels_perm.mem_iff.mp among)
  rw [size_eq_of_assembles assembles]
  omega

theorem nodup_map_fst_addresses (wellLabelled : WellLabelled items) :
    ((addresses 0 items).map Prod.fst).Nodup := by
  rw [addresses_map_fst]
  exact wellLabelled.distinct

theorem address?_eq_some_iff (assembles : Assembles items p.instructions p.labels)
    {name : String} {address : Nat} :
    p.address? name = some address ↔ (name, address) ∈ p.labels := by
  apply lookup_eq_some_iff_mem
  rw [(assembles.labels_perm.map Prod.fst).nodup_iff]
  exact nodup_map_fst_addresses assembles.wellLabelled

/-- A defined label has an address, which is the one that jumps to it are given. -/
theorem exists_address_of_defined (assembles : Assembles items p.instructions p.labels)
    {name : String} (defined : name ∈ items.filterMap Item.definition?) :
    ∃ address, p.address? name = some address ∧
      (Target.label name).address (addresses 0 items) = address := by
  rw [← addresses_map_fst 0] at defined
  obtain ⟨⟨_, address⟩, among, rfl⟩ := List.mem_map.mp defined
  have distinct := nodup_map_fst_addresses assembles.wellLabelled
  refine ⟨address, ?_, ?_⟩
  · rw [address?_eq_some_iff assembles]
    exact assembles.labels_perm.mem_iff.mpr among
  · rw [Target.address, (lookup_eq_some_iff_mem distinct).mpr among]
    rfl

/-- A jump that is written with a label leads to the address of the label. -/
theorem exists_address_of_reference (assembles : Assembles items p.instructions p.labels)
    {k : Nat} {item : Item} {name : String} (found : (instructionItems items)[k]? = some item)
    (refers : item.reference? = some name) :
    ∃ address, p.address? name = some address ∧ address ≤ p.size ∧
      (item = .jump (.label name) ∧ p.get? k = some (.jump address) ∨
        item = .jumpIf (.label name) ∧ p.get? k = some (.jumpIf address)) := by
  have among : item ∈ items := (List.mem_filter.mp (List.mem_of_getElem? found)).1
  have referred : name ∈ items.filterMap Item.reference? :=
    List.mem_filterMap.mpr ⟨item, among, refers⟩
  have defined := assembles.wellLabelled.defined name referred
  obtain ⟨address, known, target⟩ := exists_address_of_defined assembles defined
  have inside := address_le_size assembles ((address?_eq_some_iff assembles).mp known)
  have fetched := get?_eq_of_assembles assembles k
  rw [found, Option.bind_some] at fetched
  refine ⟨address, known, inside, ?_⟩
  cases item with
  | plain | push | label => cases refers
  | jump t =>
    cases t with
    | index n => cases refers
    | label other =>
      cases refers
      left
      rw [fetched, Item.instruction?, target]
      exact ⟨rfl, rfl⟩
  | jumpIf t =>
    cases t with
    | index n => cases refers
    | label other =>
      cases refers
      right
      rw [fetched, Item.instruction?, target]
      exact ⟨rfl, rfl⟩

/-- A target beyond the end of the program is written as a number. -/
theorem eq_index_of_outside (assembles : Assembles items p.instructions p.labels)
    {item : Item} {t : Target} (among : item ∈ items) (leads : item = .jump t ∨ item = .jumpIf t)
    {target : Nat} (address_eq : t.address (addresses 0 items) = target)
    (outside : p.size < target) : t = .index target := by
  cases t with
  | index n =>
    obtain rfl : n = target := address_eq
    rfl
  | label name =>
    have refers : item.reference? = some name := by
      rcases leads with rfl | rfl <;> rfl
    have referred : name ∈ items.filterMap Item.reference? :=
      List.mem_filterMap.mpr ⟨item, among, refers⟩
    have defined := assembles.wellLabelled.defined name referred
    obtain ⟨address, known, same⟩ := exists_address_of_defined assembles defined
    have inside := address_le_size assembles ((address?_eq_some_iff assembles).mp known)
    omega

/-- The item of a jump beyond the end of the program. -/
theorem item_of_jump_outside {ps : List Piece} (derived : Items ps items)
    (assembles : Assembles items p.instructions p.labels) {k target : Nat}
    (outside : p.size < target) :
    (p.get? k = some (.jump target) →
      (instructionItems items)[k]? = some (.jump (.index target))) ∧
    (p.get? k = some (.jumpIf target) →
      (instructionItems items)[k]? = some (.jumpIf (.index target))) := by
  rw [get?_eq_of_assembles assembles]
  rcases found : (instructionItems items)[k]? with _ | item
  · simp
  have among : item ∈ items := (List.mem_filter.mp (List.mem_of_getElem? found)).1
  rw [Option.bind_some]
  cases item with
  | label | push => simp [Item.instruction?]
  | plain i =>
    have noJump := not_jump_of_plain derived among target
    simp [Item.instruction?, noJump]
  | jump t =>
    simp only [Item.instruction?, Option.some.injEq, Instruction.jump.injEq, reduceCtorEq,
      false_implies, and_true]
    intro address_eq
    rw [eq_index_of_outside assembles among (.inl rfl) address_eq outside]
  | jumpIf t =>
    simp only [Item.instruction?, Option.some.injEq, Instruction.jumpIf.injEq, reduceCtorEq,
      false_implies, true_and]
    intro address_eq
    rw [eq_index_of_outside assembles among (.inr rfl) address_eq outside]

end AssembledItems

/-! ## Runs -/

/-- The instruction at the address is a jump to the target, and its target is written
as a number. -/
def JumpsByNumber (items : List Item) (p : Program) (address target : Nat) : Prop :=
  p.get? address = some (.jump target) ∧
      (instructionItems items)[address]? = some (.jump (.index target)) ∨
    p.get? address = some (.jumpIf target) ∧
      (instructionItems items)[address]? = some (.jumpIf (.index target))

theorem JumpsByNumber.exists_index {items : List Item} {p : Program} {address target : Nat}
    (jumps : JumpsByNumber items p address target) : ∃ item ∈ items, item.index? = some target := by
  rcases jumps with ⟨-, found⟩ | ⟨-, found⟩
  · exact ⟨_, (List.mem_filter.mp (List.mem_of_getElem? found)).1, rfl⟩
  · exact ⟨_, (List.mem_filter.mp (List.mem_of_getElem? found)).1, rfl⟩

/-- What a run refuses is a jump to a number beyond the end of the program. -/
theorem jumpsByNumber_of_refused {ps : List Piece} {items : List Item} {p : Program}
    (derived : Items ps items) (assembles : Assembles items p.instructions p.labels)
    {e : Engine} {fault : Fault} (faulted : (e.run p).status = .faulted fault)
    {target size : Nat} (cause_eq : fault.cause = .invalidJumpTarget target size) :
    size = p.size ∧ p.size < target ∧ JumpsByNumber items p fault.pc target := by
  obtain ⟨i, raised⟩ := exists_raisedBy faulted
  obtain ⟨isJump, size_eq, outside⟩ := raised.jump_of_invalidJumpTarget cause_eq
  have fetched : p.get? fault.pc = some i := raised.fetched
  obtain ⟨ofJump, ofJumpIf⟩ := item_of_jump_outside derived assembles (k := fault.pc) outside
  refine ⟨size_eq.symm, outside, ?_⟩
  rcases isJump with rfl | rfl
  · exact .inl ⟨fetched, ofJump fetched⟩
  · exact .inr ⟨fetched, ofJumpIf fetched⟩

/-- Jumps that are written with labels lead to their labels, which are part of the
program. So a run of a program without numeric jumps refuses no jump, and what a run
refuses is a jump whose target is written as a number beyond the end. -/
theorem label_jumps_stay_inside {source : String} {p : Program}
    (parsed : Program.parse source = .ok p) :
    ∃ items, Written source items ∧ (∀ other, Written source other → other = items) ∧
      (∀ name address, (name, address) ∈ p.labels → address ≤ p.size) ∧
      (∀ k item name, (instructionItems items)[k]? = some item → item.reference? = some name →
        ∃ address, p.address? name = some address ∧ address ≤ p.size ∧
          (item = .jump (.label name) ∧ p.get? k = some (.jump address) ∨
            item = .jumpIf (.label name) ∧ p.get? k = some (.jumpIf address))) ∧
      ∀ (e : Engine) (trace : Trace), e.runSource source = .ok trace →
        ((∀ item ∈ items, item.index? = none) → ∀ fault target size,
          trace.status = .faulted fault → fault.cause ≠ .invalidJumpTarget target size) ∧
        ∀ fault target size, trace.status = .faulted fault →
          fault.cause = .invalidJumpTarget target size →
          size = p.size ∧ p.size < target ∧ JumpsByNumber items p fault.pc target := by
  obtain ⟨items, written, assembles⟩ := exists_written_of_parse parsed
  obtain ⟨ps, pieces, derived⟩ := written
  refine ⟨items, ⟨ps, pieces, derived⟩, ?_, ?_, ?_, ?_⟩
  · intro other written
    exact written_unique ⟨ps, pieces, derived⟩ written
  · intro name address among
    exact address_le_size assembles among
  · intro k item name found refers
    exact exists_address_of_reference assembles found refers
  · intro e trace ran
    obtain ⟨p', parsed', rfl⟩ := runSource_eq_ok_iff.mp ran
    obtain rfl : p = p' := Except.ok.inj (parsed.symm.trans parsed')
    refine ⟨?_, ?_⟩
    · intro labelled fault target size faulted cause_eq
      obtain ⟨-, -, jumps⟩ := jumpsByNumber_of_refused derived assembles faulted cause_eq
      obtain ⟨item, among, index⟩ := jumps.exists_index
      rw [labelled item among] at index
      cases index
    · intro fault target size faulted cause_eq
      exact jumpsByNumber_of_refused derived assembles faulted cause_eq

/-- A label behind the first jump is inside, the number nine of the second jump is
not: the run is stopped at the second. -/
theorem label_jumps_stay_inside_two_jumps :
    ∃ p trace fault items, Program.parse "🦘 next\n🏷 next 🦘 9" = .ok p ∧
      Engine.runSource ⟨.standard, .stopped⟩ "🦘 next\n🏷 next 🦘 9" = .ok trace ∧
      trace.status = .faulted fault ∧ fault.cause = .invalidJumpTarget 9 2 ∧
      Written "🦘 next\n🏷 next 🦘 9" items ∧ p.size = 2 ∧ p.get? 0 = some (.jump 1) ∧
      JumpsByNumber items p fault.pc 9 := by
  have parsed : Program.parse "🦘 next\n🏷 next 🦘 9" =
      .ok ⟨#[⟨.jump 1, ⟨0, 4, 1, 1⟩⟩, ⟨.jump 9, ⟨20, 24, 2, 8⟩⟩], [("next", 1)]⟩ := by
    decide +kernel
  have ran : Engine.runSource ⟨.standard, .stopped⟩ "🦘 next\n🏷 next 🦘 9" =
      .ok ⟨[], .faulted ⟨.invalidJumpTarget 9 2, 1, .jump, some ⟨20, 24, 2, 8⟩⟩, 2⟩ := by
    decide +kernel
  obtain ⟨items, written, -, -, -, runs⟩ := label_jumps_stay_inside parsed
  obtain ⟨-, -, jumps⟩ := (runs _ _ ran).2 _ 9 2 rfl rfl
  exact ⟨_, _, _, items, parsed, ran, rfl, rfl, written, rfl, rfl, jumps⟩

end GlyphMachine.Language
