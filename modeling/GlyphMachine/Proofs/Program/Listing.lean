import GlyphMachine.Proofs.Language.LabelJumps
import GlyphMachine.Proofs.Program.ListingLines

/-!
# Listings of programs

The labels of an assembled program are identifiers in ascending order, and none lies
beyond its end (`Orderly`). Its listing therefore leaves nothing out, and can be read
back (`Orderly.listing_inj`); what it shows at an address is one block of lines
(`Orderly.exists_block`).
-/

namespace GlyphMachine

namespace Program

/-! ## Programs of source texts -/

/-- Labels have names, lie inside the program and are listed by name. -/
structure Orderly (p : Program) : Prop where
  named : Named p.labels
  inside : ∀ name n, (name, n) ∈ p.labels → n ≤ p.size
  ascend : p.labels.Pairwise fun x y => x.1 < y.1

theorem named_addresses {ps : List Language.Piece} {items : List Language.Item}
    (derived : Language.Items ps items) {start : Nat} : Named (Language.addresses start items) := by
  intro name n among
  induction derived generalizing start with
  | nil => cases among
  | plain _ _ ih | push _ _ _ _ ih | jump _ _ ih | jumpIf _ _ ih =>
    exact @ih (start + 1) among
  | label identifier _ ih =>
    rcases List.mem_cons.mp among with first | later
    · obtain ⟨rfl, rfl⟩ := Prod.mk.inj first
      rw [String.toList_ofList]
      exact identifier
    · exact ih later

theorem orderly_of_parse {source : String} {p : Program} (parsed : parse source = .ok p) :
    p.Orderly := by
  obtain ⟨items, ⟨ps, -, derived⟩, assembles⟩ := Language.exists_written_of_parse parsed
  refine ⟨?_, ?_, assembles.labels_ascend⟩
  · intro name n among
    exact named_addresses derived name n (assembles.labels_perm.mem_iff.mp among)
  · intro name n among
    exact Language.address_le_size assembles among

/-- The lines of the listing, read off its text. -/
def listedLines (p : Program) : List String :=
  (Text.lines p.listing.toList).map fun l => String.ofList l.text

namespace Orderly

variable {p q : Program}

theorem listedLines_eq (orderly : p.Orderly) :
    p.listedLines = listingLines p.labels 0 p.instructions := by
  have text : p.listing.toList =
      ((listingLines p.labels 0 p.instructions).map String.toList).flatMap (· ++ ['\n']) := by
    rw [listing, String.toList_join, List.flatMap_map, List.flatMap_map]
    simp only [String.toList_append]
    rfl
  have unbroken : ∀ l ∈ (listingLines p.labels 0 p.instructions).map String.toList,
      Text.Unbroken l := by
    intro l among
    obtain ⟨line, listed, rfl⟩ := List.mem_map.mp among
    rcases shows_of_mem_listingLines listed with ⟨n, i, rfl⟩ | ⟨name, n, labelled, -, rfl⟩
    · exact unbroken_instructionLine n i
    · exact unbroken_label (orderly.named name n labelled)
  have read := Text.map_text_linesFrom unbroken 0
  rw [← text] at read
  calc p.listedLines
      = ((Text.linesFrom 0 [] p.listing.toList).map (·.text)).map String.ofList := by
        rw [List.map_map]
        rfl
    _ = listingLines p.labels 0 p.instructions := by
        simp [read]

theorem nodup (orderly : p.Orderly) : (p.labels.map Prod.fst).Nodup := by
  rw [List.nodup_iff_pairwise_ne, List.pairwise_map]
  exact orderly.ascend.imp fun below => String.ne_of_lt below

/-- Programs with the same labels at each address have the same labels. -/
theorem labels_eq (orderly : p.Orderly) (orderly' : q.Orderly) (sizes : p.size = q.size)
    (blocks : ∀ n ≤ p.size, labelLines p.labels n = labelLines q.labels n) :
    p.labels = q.labels := by
  have carried {r s : Program} (inside : ∀ name n, (name, n) ∈ r.labels → n ≤ p.size)
      (blocks : ∀ n ≤ p.size, labelLines r.labels n = labelLines s.labels n) :
      ∀ entry ∈ r.labels, entry ∈ s.labels := by
    rintro ⟨name, n⟩ among
    have listed : name ++ ":" ∈ labelLines r.labels n := mem_labelLines_iff.mpr ⟨name, among, rfl⟩
    rw [blocks n (inside name n among)] at listed
    obtain ⟨other, among', same⟩ := mem_labelLines_iff.mp listed
    rw [(String.append_left_inj ":").mp same]
    exact among'
  have perm : p.labels.Perm q.labels := by
    rw [List.perm_ext_iff_of_nodup orderly.nodup.of_map orderly'.nodup.of_map]
    intro entry
    refine ⟨carried orderly.inside blocks entry, carried ?_ (fun n le => (blocks n le).symm) entry⟩
    rw [sizes]
    exact orderly'.inside
  apply perm.eq_of_pairwise _ orderly.ascend orderly'.ascend
  intro x y _ _ below above
  exact (String.lt_irrefl _ (String.lt_trans below above)).elim

/-- A listing shows all there is to its program, the places in the source aside. -/
theorem listing_inj (orderly : p.Orderly) (orderly' : q.Orderly) (same : p.listing = q.listing) :
    p.instructions = q.instructions ∧ p.labels = q.labels := by
  have lines : p.listedLines = q.listedLines := by rw [listedLines, listedLines, same]
  rw [orderly.listedLines_eq, orderly'.listedLines_eq] at lines
  obtain ⟨code, blocks⟩ := listingLines_inj orderly.named orderly'.named lines
  have length (r : Program) : r.instructions.length = r.size := by
    simp [Program.instructions, Program.size]
  refine ⟨code, orderly.labels_eq orderly' ?_ fun n le => blocks n (Nat.zero_le n) ?_⟩
  · rw [← length, ← length, code]
  · rw [length, Nat.zero_add]
    exact le

end Orderly

/-! ## Blocks of labels -/

/-- What a listing shows from an address on, below the labels there. -/
def linesBelow (labels : List (String × Nat)) (address : Nat) : List Instruction → List String
  | [] => []
  | i :: is => instructionLine address i :: listingLines labels (address + 1) is

theorem listingLines_eq (labels : List (String × Nat)) (address : Nat) (is : List Instruction) :
    listingLines labels address is = labelLines labels address ++ linesBelow labels address is := by
  cases is with
  | nil => exact (List.append_nil _).symm
  | cons i is => rfl

theorem shows_of_mem_linesBelow {labels : List (String × Nat)} {address : Nat}
    {is : List Instruction} {line : String} (among : line ∈ linesBelow labels address is) :
    Shows labels (address < ·) line := by
  cases is with
  | nil => cases among
  | cons i is =>
    rcases List.mem_cons.mp among with first | later
    · exact .inl ⟨address, i, first⟩
    · exact shows_of_mem_listingLines later

/-- The lines from an address on stand below the line of the instruction before, and no
label from there on stands above that. -/
theorem exists_above (labels : List (String × Nat)) (address : Nat) (is js : List Instruction) :
    ∃ above, listingLines labels address (is ++ js) =
        above ++ listingLines labels (address + is.length) js ∧
      above.getLast? = is.getLast?.map (instructionLine (address + is.length - 1)) ∧
      ∀ l ∈ above, Shows labels (· < address + is.length) l := by
  induction is generalizing address with
  | nil => exact ⟨[], rfl, rfl, by simp⟩
  | cons i is ih =>
    obtain ⟨above, split, last, shown⟩ := ih (address + 1)
    have length : address + 1 + is.length = address + (i :: is).length := by
      rw [List.length_cons]
      omega
    rw [length] at split shown last
    refine ⟨labelLines labels address ++ instructionLine address i :: above, ?_, ?_, ?_⟩
    · rw [List.cons_append, listingLines, split, List.append_assoc, List.cons_append]
    · rw [List.getLast?_append, List.getLast?_cons, last, List.getLast?_cons]
      cases is with
      | nil => rfl
      | cons j is =>
        rw [List.getLast?_cons]
        rfl
    · intro l among
      rcases List.mem_append.mp among with labelled | later
      · have here : address < address + (i :: is).length := by
          rw [List.length_cons]
          omega
        exact shows_of_mem_labelLines here labelled
      · rcases List.mem_cons.mp later with first | further
        · exact .inl ⟨address, i, first⟩
        · exact shown l further

/-- The labels of an address make up one block of the listing, in byte order: right below
the line of the instruction before, if there is one, and right above the line of the
instruction there, or at the end of the listing. -/
structure ListsBlock (p : Program) (address : Nat) (above names below : List String) : Prop where
  lines_eq : p.listedLines = above ++ names.map (· ++ ":") ++ below
  mem_iff : ∀ name, name ∈ names ↔ (name, address) ∈ p.labels
  ascend : names.Pairwise fun x y => Text.encode x < Text.encode y
  behind : above.getLast? =
    (p.instructions.take address).getLast?.map (instructionLine (address - 1))
  ahead : below.head? = (p.get? address).map (instructionLine address)

namespace Orderly

variable {p : Program}

/-- A label has one address. -/
theorem address_unique (orderly : p.Orderly) {name : String} {n m : Nat}
    (first : (name, n) ∈ p.labels) (second : (name, m) ∈ p.labels) : n = m := by
  have found := (Language.lookup_eq_some_iff_mem orderly.nodup).mpr first
  rw [(Language.lookup_eq_some_iff_mem orderly.nodup).mpr second] at found
  exact (Option.some.inj found).symm

/-- A line of a label shows it where the label is. -/
theorem at_address (orderly : p.Orderly) {name : String} {address : Nat} {P : Nat → Prop}
    (labelled : (name, address) ∈ p.labels) (shown : Shows p.labels P (name ++ ":")) :
    P address := by
  rcases shown with ⟨n, i, same⟩ | ⟨other, n, listed, holds, same⟩
  · have plain := not_isNumbered_label (orderly.named name address labelled)
    rw [same] at plain
    exact absurd (isNumbered_instructionLine n i) plain
  · obtain rfl := (String.append_left_inj ":").mp same
    rw [orderly.address_unique labelled listed]
    exact holds

/-- Every address has its block, and its labels are listed nowhere else. -/
theorem exists_block (orderly : p.Orderly) {address : Nat} (inside : address ≤ p.size) :
    ∃ above names below, p.ListsBlock address above names below ∧
      ∀ name, (name, address) ∈ p.labels → name ++ ":" ∉ above ∧ name ++ ":" ∉ below := by
  have whole := p.instructions.take_append_drop address
  have length : (p.instructions.take address).length = address := by
    rw [List.length_take]
    simpa [Program.instructions, Program.size] using inside
  obtain ⟨above, split, last, shown⟩ := exists_above p.labels 0 (p.instructions.take address)
    (p.instructions.drop address)
  rw [whole, Nat.zero_add, length] at split
  rw [Nat.zero_add, length] at last shown
  refine ⟨above, (p.labels.filter (·.2 = address)).map Prod.fst,
    linesBelow p.labels address (p.instructions.drop address), ⟨?_, ?_, ?_, last, ?_⟩, ?_⟩
  · rw [orderly.listedLines_eq, split, listingLines_eq, List.map_map, List.append_assoc]
    rfl
  · intro name
    simp
  · rw [List.pairwise_map]
    apply (orderly.ascend.filter _).imp_of_mem
    intro x y among among' below
    have ascii := ascii_of_identifier (orderly.named x.1 x.2 (List.mem_filter.mp among).1)
    have ascii' := ascii_of_identifier (orderly.named y.1 y.2 (List.mem_filter.mp among').1)
    exact Text.encode_lt_encode ascii ascii' below
  · rw [Program.get?_eq_getElem?_instructions, ← List.head?_drop]
    cases p.instructions.drop address <;> rfl
  · intro name labelled
    refine ⟨fun among => ?_, fun among => ?_⟩
    · have earlier := orderly.at_address labelled (shown _ among)
      exact Nat.lt_irrefl address earlier
    · have later := orderly.at_address labelled (shows_of_mem_linesBelow among)
      exact Nat.lt_irrefl address later

/-- A label is listed once. -/
theorem count_label (orderly : p.Orderly) {name : String} {address : Nat}
    (labelled : (name, address) ∈ p.labels) : p.listedLines.count (name ++ ":") = 1 := by
  obtain ⟨above, names, below, block, elsewhere⟩ :=
    orderly.exists_block (orderly.inside name address labelled)
  obtain ⟨notAbove, notBelow⟩ := elsewhere name labelled
  have once : (names.map (· ++ ":")).count (name ++ ":") = 1 := by
    have distinct : names.Nodup := by
      refine block.ascend.imp ?_
      rintro name _ below rfl
      exact List.lt_irrefl _ below
    have injective : Function.Injective fun other : String => other ++ ":" :=
      fun _ _ same => (String.append_left_inj ":").mp same
    exact List.count_eq_one_of_mem (distinct.map injective)
      (List.mem_map_of_mem ((block.mem_iff name).mpr labelled))
  rw [block.lines_eq, List.count_append, List.count_append, once,
    List.count_eq_zero.mpr notAbove, List.count_eq_zero.mpr notBelow]

end Orderly

/-- The listing of an assembled program tells its instructions and its labels. Every label
is listed once, in the block of its address, and the block is where the address is. -/
theorem listing_tells_program {source : String} {p : Program} (parsed : parse source = .ok p) :
    (∀ other q, parse other = .ok q → p.listing = q.listing →
      p.instructions = q.instructions ∧ p.labels = q.labels) ∧
    (∀ address ≤ p.size, ∃ above names below, p.ListsBlock address above names below) ∧
    ∀ name address, (name, address) ∈ p.labels →
      address ≤ p.size ∧ p.listedLines.count (name ++ ":") = 1 := by
  have orderly := orderly_of_parse parsed
  refine ⟨?_, ?_, ?_⟩
  · intro other q parsed' same
    exact orderly.listing_inj (orderly_of_parse parsed') same
  · intro address inside
    obtain ⟨above, names, below, block, -⟩ := orderly.exists_block inside
    exact ⟨above, names, below, block⟩
  · intro name address labelled
    exact ⟨orderly.inside name address labelled, orderly.count_label labelled⟩

/-- Two sources that differ in their layout and in how they write the jump have one listing,
and so one program. Its label stands behind the last instruction. -/
theorem listing_tells_program_with_end_label :
    ∃ p q, parse "🦘 end 🏷 end" = .ok p ∧ parse "\n🦘1🏷️end" = .ok q ∧
      p ≠ q ∧ p.listing = "0000    🦘 @1\nend:\n" ∧ p.listing = q.listing ∧
      p.instructions = q.instructions ∧ p.labels = q.labels ∧
      p.listedLines.count "end:" = 1 ∧
      ∃ above names below, p.ListsBlock 1 above names below ∧ "end" ∈ names ∧ below = [] := by
  have parsed : parse "🦘 end 🏷 end" =
      .ok ⟨#[⟨.jump 1, ⟨0, 4, 1, 1⟩⟩], [("end", 1)]⟩ := by
    decide +kernel
  have parsed' : parse "\n🦘1🏷️end" =
      .ok ⟨#[⟨.jump 1, ⟨1, 5, 2, 1⟩⟩], [("end", 1)]⟩ := by
    decide +kernel
  obtain ⟨told, blocks, once⟩ := listing_tells_program parsed
  obtain ⟨above, names, below, block⟩ := blocks 1 (Nat.le_refl _)
  obtain ⟨code, labels⟩ := told _ _ parsed' rfl
  exact ⟨_, _, parsed, parsed', by decide, by decide +kernel, rfl, code, labels,
    (once "end" 1 (by decide)).2, above, names, below, block,
    (block.mem_iff "end").mpr (by decide), List.head?_eq_none_iff.mp block.ahead⟩

end Program

end GlyphMachine
