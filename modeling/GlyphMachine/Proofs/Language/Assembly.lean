import GlyphMachine.Proofs.Language.Grammar
import GlyphMachine.Proofs.Program.Clauses
import Mathlib.Data.List.Nodup

/-!
# Assembly of items

What the assembly holds after a run of clauses, in the words of the language.
`Accounts a items` says that the assembly has taken in exactly these items and
found nothing wrong. `Accounts.add` is the step and `accounts_foldl` the run over
clauses that are items with distinct labels; `exists_accounts_of_clean` is the way
back from an assembly without errors. `finish_eq_ok_iff` adds the labels that jumps
ask for.
-/

namespace GlyphMachine.Language

/-! ## Clauses as items -/

/-- The item that a draft is written as. -/
def draftItem : Draft → Item
  | .ready (.push value) => .push value
  | .ready (.jump address) => .jump (.index address)
  | .ready (.jumpIf address) => .jumpIf (.index address)
  | .ready instruction => .plain instruction
  | .jumpTo label => .jump (.label label.item)
  | .jumpIfTo label => .jumpIf (.label label.item)

/-- The item of a clause, if nothing is wrong with it. -/
def clauseItem? : Clause → Option Item
  | .emit draft _ => some (draftItem draft)
  | .define name _ => some (.label name)
  | .report .. => none

/-- Whether the item is an instruction. -/
def Item.isInstruction (item : Item) : Bool :=
  item.definition?.isNone

@[simp] theorem definition?_draftItem (draft : Draft) : (draftItem draft).definition? = none := by
  rcases draft with i | _ | _
  · cases i <;> rfl
  · rfl
  · rfl

/-! ## Addresses -/

theorem addresses_map_fst (n : Nat) (items : List Item) :
    (addresses n items).map Prod.fst = items.filterMap Item.definition? := by
  induction items generalizing n with
  | nil => rfl
  | cons item items ih => cases item <;> simp [addresses, List.filterMap_cons, Item.definition?, ih]

/-- One more instruction defines no label. -/
theorem addresses_append_instruction (n : Nat) (items : List Item) {item : Item}
    (plain : item.definition? = none) : addresses n (items ++ [item]) = addresses n items := by
  induction items generalizing n with
  | nil => cases item <;> simp_all [addresses, Item.definition?]
  | cons first items ih => cases first <;> simp [addresses, ih]

/-- One more label stands behind all instructions so far. -/
theorem addresses_append_label (n : Nat) (items : List Item) (name : String) :
    addresses n (items ++ [.label name]) =
      addresses n items ++ [(name, n + items.countP Item.isInstruction)] := by
  induction items generalizing n with
  | nil => rfl
  | cons first items ih =>
    cases first <;>
      simp [addresses, ih, List.countP_cons, Item.isInstruction, Item.definition?] <;> omega

/-- In a list with distinct keys, a key is looked up as the one entry it has. -/
theorem lookup_eq_some_iff_mem {labels : List (String × Nat)}
    (distinct : (labels.map Prod.fst).Nodup) {name : String} {n : Nat} :
    labels.lookup name = some n ↔ (name, n) ∈ labels := by
  induction labels with
  | nil => simp
  | cons entry labels ih =>
    rcases entry with ⟨key, m⟩
    simp only [List.map_cons, List.nodup_cons, List.mem_map, Prod.exists, exists_and_right,
      exists_eq_right, not_exists] at distinct
    obtain ⟨fresh, distinct⟩ := distinct
    rw [List.lookup_cons]
    by_cases same : name = key
    · subst same
      have absent : (name, n) ∉ labels := fresh n
      simp [absent, eq_comm]
    · have different : (name == key) = false := beq_eq_false_iff_ne.mpr same
      simp [different, ih distinct, same]

/-! ## The assembly after some clauses -/

/-- The assembly has taken in these items and found nothing wrong with them. -/
structure Accounts (a : Assembly) (items : List Item) : Prop where
  clean : a.errors = #[]
  distinct : (items.filterMap Item.definition?).Nodup
  drafts_eq : a.drafts.toList.map (fun draft => draftItem draft.item) =
    items.filter Item.isInstruction
  definitions_eq : a.definitions.map (fun d => (d.name, d.address)) = (addresses 0 items).reverse

namespace Accounts

variable {a : Assembly} {items : List Item}

theorem empty : Accounts .empty [] :=
  ⟨rfl, .nil, rfl, rfl⟩

theorem names_eq (accounts : Accounts a items) :
    a.definitions.map (·.name) = (items.filterMap Item.definition?).reverse := by
  have pairs := congrArg (List.map Prod.fst) accounts.definitions_eq
  rw [List.map_map, List.map_reverse, addresses_map_fst] at pairs
  exact pairs

theorem size_eq (accounts : Accounts a items) :
    a.drafts.size = items.countP Item.isInstruction := by
  have sizes := congrArg List.length accounts.drafts_eq
  rw [List.length_map, Array.length_toList, ← List.countP_eq_length_filter] at sizes
  exact sizes

theorem find?_eq_none_iff (accounts : Accounts a items) {name : String} :
    a.find? name = none ↔ name ∉ items.filterMap Item.definition? := by
  rw [← List.mem_reverse, ← accounts.names_eq]
  simp [Assembly.find?]

/-- The definition found for a name has the address of its label. -/
theorem find?_address (accounts : Accounts a items) (name : String) :
    (a.find? name).map (·.address) = (addresses 0 items).lookup name := by
  rcases found : a.find? name with _ | d
  · have absent := accounts.find?_eq_none_iff.mp found
    rw [← addresses_map_fst 0] at absent
    symm
    rw [Option.map_none, List.lookup_eq_none_iff]
    intro entry member
    rw [bne_iff_ne]
    rintro rfl
    exact absent (List.mem_map_of_mem member)
  · have member : (d.name, d.address) ∈ addresses 0 items := by
      rw [← List.mem_reverse, ← accounts.definitions_eq]
      exact List.mem_map_of_mem (List.mem_of_find?_eq_some found)
    have named : d.name = name := by
      have := List.find?_some found
      simpa using this
    have distinct : ((addresses 0 items).map Prod.fst).Nodup := by
      rw [addresses_map_fst]
      exact accounts.distinct
    rw [← named, (lookup_eq_some_iff_mem distinct).mpr member]
    rfl

/-- One more clause, if it is an item and its label is new. -/
theorem add (accounts : Accounts a items) {clause : Clause} {item : Item}
    (isItem : clauseItem? clause = some item)
    (distinct : ((items ++ [item]).filterMap Item.definition?).Nodup) :
    Accounts (a.add clause) (items ++ [item]) := by
  cases clause with
  | report => cases isItem
  | emit draft span =>
    obtain rfl := Option.some.inj isItem
    refine ⟨accounts.clean, distinct, ?_, ?_⟩
    · have isInstruction : (draftItem draft).isInstruction := by simp [Item.isInstruction]
      simp [Assembly.add, Assembly.emit, accounts.drafts_eq, isInstruction]
    · rw [addresses_append_instruction 0 items (definition?_draftItem draft)]
      exact accounts.definitions_eq
  | define name span =>
    obtain rfl := Option.some.inj isItem
    have fresh : a.find? name = none := by
      rw [accounts.find?_eq_none_iff]
      intro member
      rw [List.filterMap_append, List.nodup_append] at distinct
      exact distinct.2.2 name member name (by simp [Item.definition?]) rfl
    have added : a.add (.define name span) =
        { a with definitions := ⟨name, a.drafts.size, span.line⟩ :: a.definitions } := by
      simp [Assembly.add, Assembly.define, fresh]
    rw [added]
    refine ⟨accounts.clean, distinct, ?_, ?_⟩
    · simp [accounts.drafts_eq, Item.isInstruction, Item.definition?]
    · rw [addresses_append_label, List.reverse_append, Nat.zero_add, ← accounts.size_eq,
        List.map_cons, accounts.definitions_eq]
      rfl

/-- A clause that leaves no error is an item with a new label. -/
theorem of_add_clean (accounts : Accounts a items) {clause : Clause}
    (clean : (a.add clause).errors = #[]) :
    ∃ item, clauseItem? clause = some item ∧
      ((items ++ [item]).filterMap Item.definition?).Nodup := by
  cases clause with
  | report cause span => simp [Assembly.add, Assembly.report] at clean
  | emit draft span => exact ⟨_, rfl, by simpa using accounts.distinct⟩
  | define name span =>
    refine ⟨_, rfl, ?_⟩
    rcases found : a.find? name with _ | d
    · have absent := accounts.find?_eq_none_iff.mp found
      rw [List.filterMap_append, List.nodup_append]
      refine ⟨accounts.distinct, by simp [Item.definition?], ?_⟩
      intro first member second last
      obtain rfl : second = name := by simpa [Item.definition?] using last
      rintro rfl
      exact absent member
    · simp [Assembly.add, Assembly.define, found, Assembly.report] at clean

end Accounts

theorem errors_of_add_clean {a : Assembly} {clause : Clause}
    (clean : (a.add clause).errors = #[]) : a.errors = #[] := by
  cases clause with
  | report cause span => simp [Assembly.add, Assembly.report] at clean
  | emit draft span => exact clean
  | define name span =>
    simp only [Assembly.add, Assembly.define] at clean
    split at clean
    · simp [Assembly.report] at clean
    · exact clean

/-- Errors stay, so an assembly that ends without any never had one. -/
theorem errors_of_foldl_clean {cs : List Clause} {a : Assembly}
    (clean : (cs.foldl Assembly.add a).errors = #[]) : a.errors = #[] := by
  induction cs generalizing a with
  | nil => exact clean
  | cons clause cs ih => exact errors_of_add_clean (ih clean)

/-- Clauses that are items with distinct labels are taken in without errors. -/
theorem accounts_foldl {cs : List Clause} {items more : List Item} {a : Assembly}
    (accounts : Accounts a items) (areItems : cs.map clauseItem? = more.map some)
    (distinct : ((items ++ more).filterMap Item.definition?).Nodup) :
    Accounts (cs.foldl Assembly.add a) (items ++ more) := by
  induction cs generalizing items more a with
  | nil =>
    obtain rfl := List.map_eq_nil_iff.mp areItems.symm
    rw [List.append_nil]
    exact accounts
  | cons clause cs ih =>
    obtain ⟨item, later, rfl, isItem, areItems⟩ := List.map_eq_cons_iff.mp areItems.symm
    rw [List.append_cons] at distinct ⊢
    have front : ((items ++ [item]).filterMap Item.definition?).Nodup := by
      rw [List.filterMap_append] at distinct
      exact distinct.of_append_left
    exact ih (accounts.add isItem.symm front) areItems.symm distinct

/-- An assembly that ends without errors has taken in items. -/
theorem exists_accounts_of_clean {cs : List Clause} {items : List Item} {a : Assembly}
    (accounts : Accounts a items) (clean : (cs.foldl Assembly.add a).errors = #[]) :
    ∃ more, cs.map clauseItem? = more.map some ∧
      ((items ++ more).filterMap Item.definition?).Nodup := by
  induction cs generalizing items a with
  | nil => exact ⟨[], rfl, by simpa using accounts.distinct⟩
  | cons clause cs ih =>
    obtain ⟨item, isItem, front⟩ := accounts.of_add_clean (errors_of_foldl_clean clean)
    obtain ⟨more, areItems, distinct⟩ := ih (accounts.add isItem front) clean
    refine ⟨item :: more, ?_, ?_⟩
    · rw [List.map_cons, List.map_cons, isItem, areItems]
    · rw [List.append_cons]
      exact distinct

/-! ## Resolved drafts -/

/-- A label has an address exactly if it is defined. -/
theorem addressOf_eq_ok_iff {a : Assembly} {items : List Item} (accounts : Accounts a items)
    {label : Located String} {n : Nat} :
    a.addressOf label = .ok n ↔ label.item ∈ items.filterMap Item.definition? ∧
      (Target.label label.item).address (addresses 0 items) = n := by
  have address := accounts.find?_address label.item
  unfold Assembly.addressOf Target.address
  rcases found : a.find? label.item with _ | d
  · have absent := accounts.find?_eq_none_iff.mp found
    simp [absent]
  · have present : label.item ∈ items.filterMap Item.definition? := by
      by_contra absent
      rw [accounts.find?_eq_none_iff.mpr absent] at found
      cases found
    rw [found] at address
    simp [present, ← address]

theorem map_eq_ok_iff {ε α β : Type} {f : α → β} {x : Except ε α} {b : β} :
    x.map f = .ok b ↔ ∃ a, x = .ok a ∧ f a = b := by
  cases x <;> simp [Except.map]

/-- A draft resolves exactly if the label it asks for, if any, is defined, and
then to the instruction of its item. -/
theorem resolve_eq_ok_iff {a : Assembly} {items : List Item} (accounts : Accounts a items)
    {draft : Located Draft} {i : Located Instruction} :
    a.resolve draft = .ok i ↔
      (∀ name, (draftItem draft.item).reference? = some name →
        name ∈ items.filterMap Item.definition?) ∧
      (draftItem draft.item).instruction? (addresses 0 items) = some i.item ∧
      draft.span = i.span := by
  rcases draft with ⟨_ | label | label, span⟩ <;> rcases i with ⟨i, place⟩
  case ready instruction =>
    have plain : (draftItem (.ready instruction)).reference? = none ∧
        (draftItem (.ready instruction)).instruction? (addresses 0 items) = some instruction := by
      cases instruction <;> exact ⟨rfl, rfl⟩
    simp [Assembly.resolve, plain]
  case jumpTo =>
    simp [Assembly.resolve, map_eq_ok_iff, addressOf_eq_ok_iff accounts, draftItem,
      Item.reference?, Item.instruction?, and_assoc]
  case jumpIfTo =>
    simp [Assembly.resolve, map_eq_ok_iff, addressOf_eq_ok_iff accounts, draftItem,
      Item.reference?, Item.instruction?, and_assoc]

/-! ## The finished program -/

theorem eq_map_ok_iff {ε α : Type} {rs : List (Except ε α)} {as : List α} :
    rs = as.map .ok ↔ failures rs = [] ∧ successes rs = as := by
  rw [← gather_eq_ok_iff, gather]
  split
  · rename_i none
    simp [none]
  · rename_i some
    constructor
    · intro gathered
      cases gathered
    · intro settled
      obtain ⟨none, -⟩ := settled
      exact (some none).elim

/-- An assembly finishes exactly if it holds no error and every draft resolves. -/
theorem finish_eq_ok_iff {a : Assembly} {p : Program} :
    a.finish = .ok p ↔ a.errors = #[] ∧ a.drafts.toList.map a.resolve = p.code.toList.map .ok ∧
      p.labels = a.labels := by
  rcases p with ⟨code, labels⟩
  rw [eq_map_ok_iff]
  unfold Assembly.finish
  dsimp only
  split
  · rename_i none
    obtain ⟨clean, resolved⟩ := List.append_eq_nil_iff.mp none
    have clean : a.errors = #[] := Array.toList_eq_nil_iff.mp clean
    simp only [clean, resolved, Except.ok.injEq, Program.mk.injEq, true_and]
    constructor
    · rintro ⟨rfl, rfl⟩
      exact ⟨rfl, rfl⟩
    · rintro ⟨codeEq, rfl⟩
      exact ⟨by rw [codeEq], rfl⟩
  · rename_i some
    constructor
    · intro finished
      cases finished
    · intro settled
      obtain ⟨clean, ⟨resolved, -⟩, -⟩ := settled
      exact (some (by rw [clean, resolved]; rfl)).elim

/-- The labels of the program are those of the items, ascending by name. -/
theorem labels_of_accounts {a : Assembly} {items : List Item} (accounts : Accounts a items) :
    a.labels.Perm (addresses 0 items) ∧ a.labels.Pairwise fun x y => x.1 < y.1 := by
  have perm : a.labels.Perm (addresses 0 items) := by
    rw [Assembly.labels, accounts.definitions_eq]
    exact (List.mergeSort_perm _ _).trans (List.reverse_perm _)
  refine ⟨perm, ?_⟩
  have ordered : a.labels.Pairwise fun x y => decide (x.1 ≤ y.1) := by
    apply List.pairwise_mergeSort
    · intro x y z first second
      exact decide_eq_true (String.le_trans (of_decide_eq_true first) (of_decide_eq_true second))
    · intro x y
      rw [Bool.or_eq_true, decide_eq_true_iff, decide_eq_true_iff]
      exact String.le_total _ _
  have distinct : (a.labels.map Prod.fst).Nodup := by
    rw [(perm.map Prod.fst).nodup_iff, addresses_map_fst]
    exact accounts.distinct
  have apart := List.pairwise_map.mp distinct
  refine ordered.imp₂ (fun x y le ne => ?_) apart
  rw [← String.not_le]
  exact fun ge => ne (String.le_antisymm (of_decide_eq_true le) ge)

section ResolvedCode

variable {a : Assembly} {items : List Item}

/-- The labels that jumps ask for are those of the drafts. -/
theorem mem_references_iff (accounts : Accounts a items) {name : String} :
    name ∈ items.filterMap Item.reference? ↔
      ∃ draft ∈ a.drafts.toList, (draftItem draft.item).reference? = some name := by
  have drafted : ∀ item, item ∈ items ∧ item.isInstruction ↔
      ∃ draft ∈ a.drafts.toList, draftItem draft.item = item := by
    intro item
    rw [← List.mem_filter, ← accounts.drafts_eq, List.mem_map]
  rw [List.mem_filterMap]
  constructor
  · intro asked
    obtain ⟨item, member, asks⟩ := asked
    have isInstruction : item.isInstruction := by
      cases item <;> first | rfl | cases asks
    obtain ⟨draft, inDrafts, rfl⟩ := (drafted item).mp ⟨member, isInstruction⟩
    exact ⟨draft, inDrafts, asks⟩
  · intro asked
    obtain ⟨draft, inDrafts, asks⟩ := asked
    exact ⟨_, ((drafted _).mpr ⟨draft, inDrafts, rfl⟩).1, asks⟩

/-- All drafts resolve exactly if all labels that jumps ask for are defined. -/
theorem exists_resolved_iff (accounts : Accounts a items) :
    (∃ code : List (Located Instruction), a.drafts.toList.map a.resolve = code.map .ok) ↔
      ∀ name ∈ items.filterMap Item.reference?, name ∈ items.filterMap Item.definition? := by
  have each : (∃ code : List (Located Instruction), a.drafts.toList.map a.resolve = code.map .ok) ↔
      ∀ draft ∈ a.drafts.toList, ∃ i, a.resolve draft = .ok i := by
    generalize a.drafts.toList = drafts
    induction drafts with
    | nil => exact ⟨by simp, fun _ => ⟨[], rfl⟩⟩
    | cons draft drafts ih =>
      rw [List.forall_mem_cons, ← ih]
      constructor
      · intro gathered
        obtain ⟨code, resolved⟩ := gathered
        obtain ⟨i, later, -, first, rest⟩ := List.map_eq_cons_iff.mp resolved.symm
        exact ⟨⟨i, first.symm⟩, later, rest.symm⟩
      · intro gathered
        obtain ⟨⟨i, first⟩, later, rest⟩ := gathered
        exact ⟨i :: later, by rw [List.map_cons, List.map_cons, first, rest]⟩
  have hasInstruction : ∀ draft : Draft, ∃ i,
      (draftItem draft).instruction? (addresses 0 items) = some i := by
    rintro (i | label | label)
    · cases i <;> exact ⟨_, rfl⟩
    · exact ⟨_, rfl⟩
    · exact ⟨_, rfl⟩
  rw [each]
  constructor
  · intro resolves name asked
    obtain ⟨draft, member, asks⟩ := (mem_references_iff accounts).mp asked
    obtain ⟨i, resolved⟩ := resolves draft member
    obtain ⟨defined, -⟩ := (resolve_eq_ok_iff accounts).mp resolved
    exact defined name asks
  · intro defined draft member
    obtain ⟨i, instruction⟩ := hasInstruction draft.item
    refine ⟨⟨i, draft.span⟩, (resolve_eq_ok_iff accounts).mpr ⟨?_, instruction, rfl⟩⟩
    intro name asks
    have asked := (mem_references_iff accounts).mpr ⟨draft, member, asks⟩
    exact defined name asked

/-- Label definitions add nothing to the code. -/
theorem filterMap_filter_isInstruction (labels : List (String × Nat)) (items : List Item) :
    (items.filter Item.isInstruction).filterMap (Item.instruction? labels) =
      items.filterMap (Item.instruction? labels) := by
  rw [List.filterMap_filter]
  congr 1
  funext item
  cases item <;> rfl

/-- Resolved drafts are the instructions of the items. -/
theorem code_of_resolved (accounts : Accounts a items) {code : List (Located Instruction)}
    (resolved : a.drafts.toList.map a.resolve = code.map .ok) :
    code.map (·.item) = items.filterMap (Item.instruction? (addresses 0 items)) := by
  have drafted : code.map (·.item) = a.drafts.toList.filterMap fun draft =>
      (draftItem draft.item).instruction? (addresses 0 items) := by
    generalize a.drafts.toList = drafts at resolved
    induction drafts generalizing code with
    | nil =>
      obtain rfl := List.map_eq_nil_iff.mp resolved.symm
      rfl
    | cons draft drafts ih =>
      obtain ⟨i, later, rfl, first, rest⟩ := List.map_eq_cons_iff.mp resolved.symm
      have instruction := ((resolve_eq_ok_iff accounts).mp first.symm).2.1
      rw [List.map_cons, List.filterMap_cons, instruction, ih rest.symm]
  calc code.map (·.item)
      = (a.drafts.toList.map fun draft => draftItem draft.item).filterMap
          (Item.instruction? (addresses 0 items)) := by rw [drafted, List.filterMap_map]; rfl
    _ = (items.filter Item.isInstruction).filterMap (Item.instruction? (addresses 0 items)) := by
        rw [accounts.drafts_eq]
    _ = items.filterMap (Item.instruction? (addresses 0 items)) :=
        filterMap_filter_isInstruction _ items

end ResolvedCode

/-! ## Programs of token lists -/

/-- The clauses of tokens that spell a program are well-labelled items, and the
program is that of the items. -/
theorem assembles_of_ofTokens {tokens : List (Located Token)} {p : Program}
    (assembled : Program.ofTokens tokens = .ok p) :
    ∃ items, (clauses tokens).map clauseItem? = items.map some ∧
      Assembles items p.instructions p.labels := by
  rw [Program.ofTokens, finish_eq_ok_iff, Assembly.ofTokens_eq_foldl] at assembled
  obtain ⟨clean, resolved, labelsEq⟩ := assembled
  obtain ⟨items, areItems, distinct⟩ := exists_accounts_of_clean .empty clean
  have accounts := accounts_foldl .empty areItems distinct
  rw [List.nil_append] at accounts distinct
  obtain ⟨perm, ascend⟩ := labels_of_accounts accounts
  have defined := (exists_resolved_iff accounts).mp ⟨_, resolved⟩
  refine ⟨items, areItems, ⟨distinct, defined⟩, ?_, ?_, ?_⟩
  · exact code_of_resolved accounts resolved
  · rw [labelsEq]
    exact perm
  · rw [labelsEq]
    exact ascend

/-- Tokens whose clauses are well-labelled items spell the program of the items. -/
theorem exists_ofTokens {tokens : List (Located Token)} {items : List Item}
    (areItems : (clauses tokens).map clauseItem? = items.map some)
    (wellLabelled : WellLabelled items) :
    ∃ p, Program.ofTokens tokens = .ok p ∧ Assembles items p.instructions p.labels := by
  have accounts := accounts_foldl .empty areItems (by simpa using wellLabelled.distinct)
  rw [List.nil_append] at accounts
  obtain ⟨code, resolved⟩ := (exists_resolved_iff accounts).mpr wellLabelled.defined
  obtain ⟨perm, ascend⟩ := labels_of_accounts accounts
  rw [← Assembly.ofTokens_eq_foldl] at accounts resolved perm ascend
  refine ⟨⟨code.toArray, (Assembly.ofTokens tokens).labels⟩, ?_, ?_⟩
  · rw [Program.ofTokens, finish_eq_ok_iff]
    exact ⟨accounts.clean, resolved, rfl⟩
  · exact ⟨wellLabelled, code_of_resolved accounts resolved, perm, ascend⟩

end GlyphMachine.Language
