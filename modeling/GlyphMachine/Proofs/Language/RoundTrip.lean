import GlyphMachine.Proofs.Language.Canonical
import GlyphMachine.Proofs.Text.Selectors
import GlyphMachine.Proofs.Text.Standalone

/-!
# Round trips

Every list of instructions is read back from its canonical text. The glyphs, the
digits and the gaps of a text are clusters that stand alone, so it falls into just
these clusters, and `Entry.parse_eq_ok` gives its program. Where entries end their
lines, each stands on a line of its own (`Entry.placed_on_lines`). What remains is to
write the texts as entries: `Entry.followed` for the same separator behind every
instruction, `Entry.separated` for line feeds between them.
-/

namespace GlyphMachine

open Text (Cluster Standalone BreakClass)

namespace Language

/-! ## Texts as clusters -/

theorem standalone_spelling (g : Glyph) : Standalone g.spelling := by
  have pictograph := g.breakClass_symbol
  have selector : BreakClass.of '\uFE0F' = .extend := Glyph.breakClass_selector (by decide)
  unfold Glyph.spelling
  split
  · exact .selected pictograph selector
  · apply Standalone.char
    rw [pictograph]
    rfl

theorem standalone_wordChar {c : Char} (wordChar : WordChar c) : Standalone [c] := by
  have ascii : ∀ n < 128, isWordChar (.ofNat n) → (BreakClass.of (.ofNat n)).isPlain := by
    decide +kernel
  have isWord := isWordChar_iff.mpr wordChar
  have checked := ascii c.toNat (toNat_lt_of_isWordChar isWord)
  rw [Char.ofNat_toNat] at checked
  exact .char (checked isWord)

theorem IsGap.standalone {c : Char} (isGap : IsGap c) : Standalone [c] := by
  apply Standalone.char
  rcases isGap with rfl | rfl <;> decide

namespace Entry

variable {gap : List Char} {entries : List Entry} {source : String}

theorem standalone_of_mem_clusters (gaps : ∀ c ∈ gap, IsGap c) {e : Entry} (readable : e.Readable) :
    ∀ g ∈ e.clusters gap, Standalone g := by
  intro g among
  rcases List.mem_append.mp among with inInstruction | inSeparator
  · rcases Instruction.mem_clusters_cases inInstruction with rfl | ⟨c, rfl, inGap | wordChar⟩
    · exact standalone_spelling _
    · exact (gaps c inGap).standalone
    · exact standalone_wordChar wordChar
  · obtain ⟨c, inside, rfl⟩ := List.mem_map.mp inSeparator
    exact (readable.gaps c inside).standalone

/-- The cursor of a text stands at its start: no glyph is a byte order mark. -/
theorem ofSource_eq (cut : Text.clusters source.toList = entries.flatMap (clusters gap)) :
    Cursor.ofSource source = ⟨⟨0, 1, 1⟩, entries.flatMap (clusters gap)⟩ := by
  unfold Cursor.ofSource
  rw [cut]
  cases entries with
  | nil => rfl
  | cons e entries =>
    have noMark : ∀ g ∈ Glyph.all, g.spelling ≠ [Text.byteOrderMark] := by decide +kernel
    have different : e.instruction.spelling ≠ [Text.byteOrderMark] := noMark _ (Glyph.mem_all _)
    rw [List.flatMap_cons, clusters, Instruction.clusters, List.cons_append, List.cons_append]
    split
    · rename_i c rest split
      obtain ⟨same, -⟩ := List.cons.inj split
      rw [same] at different
      rw [if_neg (fun mark => different (by rw [mark])), split]
    · rfl

/-- A text that is made of readable entries is parsed to their instructions. -/
theorem parse_eq_ok (gaps : ∀ c ∈ gap, IsGap c) (readable : ∀ e ∈ entries, e.Readable)
    (text : source.toList = (entries.flatMap (clusters gap)).flatten) :
    Program.parse source = .ok ⟨(placed gap ⟨0, 1, 1⟩ entries).toArray, []⟩ := by
  have alone : ∀ g ∈ entries.flatMap (clusters gap), Standalone g := by
    intro g among
    obtain ⟨e, inEntries, inClusters⟩ := List.mem_flatMap.mp among
    exact standalone_of_mem_clusters gaps (readable e inEntries) g inClusters
  have cut : Text.clusters source.toList = entries.flatMap (clusters gap) := by
    rw [text, Text.clusters_flatten alone]
  obtain ⟨tokens, reading, assembled⟩ := exists_reading gaps readable ⟨0, 1, 1⟩
  have tokenized : tokenize source = .ok tokens := by
    rw [tokenize, gather_eq_ok_iff, Lexer.ofSource, ofSource_eq cut]
    exact reading.lexemes_eq
  exact parse_eq_ok_iff.mpr ⟨tokens, tokenized, ofTokens_of_clauses assembled⟩

/-- The text of entries with the same gap before every operand. -/
theorem flatten_flatMap_clusters (gap : String) (entries : List Entry) :
    (entries.flatMap (clusters gap.toList)).flatten =
      entries.flatMap fun e => (e.instruction.canonical gap).toList ++ e.separator := by
  induction entries with
  | nil => rfl
  | cons e entries ih =>
    rw [List.flatMap_cons, List.flatten_append, ih, clusters, List.flatten_append,
      Instruction.flatten_clusters, ← List.flatMap_def, List.flatMap_singleton', List.flatMap_cons]

end Entry

/-! ## Lines -/

theorem over_line_of_unbroken {gs : List Cluster} (unbroken : ∀ g ∈ gs, '\n' ∉ g) (p : Place) :
    (p.over gs).line = p.line := by
  induction gs generalizing p with
  | nil => rfl
  | cons g gs ih =>
    obtain ⟨first, later⟩ := List.forall_mem_cons.mp unbroken
    rw [Place.over_cons, ih later]
    simp [Place.past, isLineEnd, first]

/-- An instruction takes no more than one line, if the gap does not break it. -/
theorem unbroken_of_mem_clusters {gap : List Char} (unbroken : '\n' ∉ gap) (i : Instruction) :
    ∀ g ∈ i.clusters gap, '\n' ∉ g := by
  have spellings : ∀ g ∈ Glyph.all, '\n' ∉ g.spelling := by decide +kernel
  have noWordChar : ¬ WordChar '\n' := IsGap.not_wordChar (.inr rfl)
  intro g among lineFeed
  rcases Instruction.mem_clusters_cases among with rfl | ⟨c, rfl, inGap | wordChar⟩
  · exact spellings _ (Glyph.mem_all _) lineFeed
  · exact unbroken (List.mem_singleton.mp lineFeed ▸ inGap)
  · exact noWordChar (List.mem_singleton.mp lineFeed ▸ wordChar)

/-- The place behind an entry that ends its line. -/
theorem over_clusters_of_lineFeed {gap : List Char} (unbroken : '\n' ∉ gap) {e : Entry}
    (ended : e.separator = ['\n']) (p : Place) :
    (p.over (e.clusters gap)).line = p.line + 1 ∧ (p.over (e.clusters gap)).column = 1 := by
  have sameLine := over_line_of_unbroken (unbroken_of_mem_clusters unbroken e.instruction) p
  have next : p.over (e.clusters gap) = (p.over (e.instruction.clusters gap)).past ['\n'] := by
    rw [Entry.clusters, ended, Place.over_append]
    rfl
  rw [next, ← sameLine]
  exact ⟨rfl, rfl⟩

namespace Entry

/-- Where every entry but the last ends its line, each has a line of its own and starts
it. -/
theorem placed_on_lines {gap : List Char} (unbroken : '\n' ∉ gap) {entries : List Entry}
    (ended : ∀ e ∈ entries.dropLast, e.separator = ['\n']) {p : Place} (start : p.column = 1)
    {k : Nat} {i : Located Instruction} (found : (placed gap p entries)[k]? = some i) :
    i.span.line = p.line + k ∧ i.span.column = 1 := by
  induction entries generalizing p k with
  | nil => cases found
  | cons e entries ih =>
    rw [placed] at found
    cases k with
    | zero =>
      cases found
      exact ⟨rfl, start⟩
    | succ k =>
      rw [List.getElem?_cons_succ] at found
      have more : entries ≠ [] := by
        rintro rfl
        cases found
      rw [List.dropLast_cons_of_ne_nil more] at ended
      obtain ⟨first, later⟩ := List.forall_mem_cons.mp ended
      obtain ⟨line_eq, column_eq⟩ := over_clusters_of_lineFeed unbroken first p
      obtain ⟨line, column⟩ := ih later column_eq found
      exact ⟨by omega, column⟩

/-! ## Texts as entries -/

/-- The instructions on lines that a line feed separates. -/
def separated : List Instruction → List Entry
  | [] => []
  | [i] => [⟨i, []⟩]
  | i :: j :: is => ⟨i, ['\n']⟩ :: separated (j :: is)

theorem map_instruction_separated (is : List Instruction) :
    (separated is).map (·.instruction) = is := by
  fun_induction separated is with
  | case1 => rfl
  | case2 => rfl
  | case3 i j is ih => rw [List.map_cons, ih]

theorem separated_ne_nil (i : Instruction) (is : List Instruction) : separated (i :: is) ≠ [] := by
  cases is <;> exact List.cons_ne_nil _ _

theorem separator_of_mem_separated (is : List Instruction) :
    (∀ e ∈ separated is, e.separator = [] ∨ e.separator = ['\n']) ∧
      ∀ e ∈ (separated is).dropLast, e.separator = ['\n'] := by
  fun_induction separated is with
  | case1 => simp
  | case2 => simp
  | case3 i j is ih =>
    obtain ⟨each, ended⟩ := ih
    rw [List.dropLast_cons_of_ne_nil (separated_ne_nil j is)]
    exact ⟨List.forall_mem_cons.mpr ⟨.inr rfl, each⟩, List.forall_mem_cons.mpr ⟨rfl, ended⟩⟩

theorem flatMap_separated (gap : String) (is : List Instruction) :
    ((separated is).flatMap fun e => (e.instruction.canonical gap).toList ++ e.separator) =
      ("\n".intercalate (is.map (Instruction.canonical gap))).toList := by
  rw [String.toList_intercalate]
  fun_induction separated is with
  | case1 => rfl
  | case2 => simp
  | case3 i j is ih =>
    rw [List.flatMap_cons, ih]
    simp [List.intercalate_cons_cons]

/-- The instructions, each with the same separator behind it. -/
def followed (separator : List Char) (is : List Instruction) : List Entry :=
  is.map fun i => ⟨i, separator⟩

theorem map_instruction_followed (separator : List Char) (is : List Instruction) :
    (followed separator is).map (·.instruction) = is := by
  rw [followed, List.map_map]
  exact List.map_id is

theorem separator_of_mem_followed (separator : List Char) (is : List Instruction) :
    ∀ e ∈ followed separator is, e.separator = separator := by
  intro e among
  obtain ⟨i, -, rfl⟩ := List.mem_map.mp among
  rfl

theorem flatMap_followed (gap separator : String) (is : List Instruction) :
    ((followed separator.toList is).flatMap fun e =>
        (e.instruction.canonical gap).toList ++ e.separator) =
      (String.join (is.map fun i => i.canonical gap ++ separator)).toList := by
  rw [String.toList_join, followed, List.flatMap_map, List.flatMap_map]
  simp only [String.toList_append]

/-- Entries on lines, or without separators, are readable if their instructions are. -/
theorem readable_of_separator {entries : List Entry}
    (fits : ∀ i ∈ entries.map (·.instruction), i.Fits)
    (each : ∀ e ∈ entries, e.separator = [] ∨ e.separator = ['\n']) :
    ∀ e ∈ entries, e.Readable := by
  intro e among
  refine ⟨fits _ (List.mem_map_of_mem among), ?_⟩
  rcases each e among with none | lineFeed
  · rw [none]
    exact List.forall_mem_nil _
  · rw [lineFeed]
    exact fun c inside => .inr (List.mem_singleton.mp inside)

/-- A text of entries without gaps is parsed to their instructions. -/
theorem exists_parse_of_dense {entries : List Entry} {source : String}
    (readable : ∀ e ∈ entries, e.Readable)
    (text : (entries.flatMap fun e => (e.instruction.canonical "").toList ++ e.separator) =
      source.toList) :
    ∃ p, Program.parse source = .ok p ∧ p.instructions = entries.map (·.instruction) ∧
      p.labels = [] := by
  rw [← flatten_flatMap_clusters ""] at text
  exact ⟨_, parse_eq_ok (List.forall_mem_nil _) readable text.symm, map_item_placed _ _ _, rfl⟩

/-- A text of entries on lines is parsed to their instructions, one on each line. -/
theorem exists_parse_of_lines {entries : List Entry} {source : String}
    (readable : ∀ e ∈ entries, e.Readable)
    (ended : ∀ e ∈ entries.dropLast, e.separator = ['\n'])
    (text : (entries.flatMap fun e => (e.instruction.canonical " ").toList ++ e.separator) =
      source.toList) :
    ∃ p, Program.parse source = .ok p ∧ p.instructions = entries.map (·.instruction) ∧
      p.labels = [] ∧ ∀ k < (entries.map (·.instruction)).length,
        ∃ s, p.span? k = some s ∧ s.line = k + 1 ∧ s.column = 1 := by
  have gaps : ∀ c ∈ " ".toList, IsGap c := fun c among => .inl (List.mem_singleton.mp among)
  rw [← flatten_flatMap_clusters " "] at text
  refine ⟨_, parse_eq_ok gaps readable text.symm, map_item_placed _ _ _, rfl, ?_⟩
  intro k inside
  rw [← map_item_placed " ".toList ⟨0, 1, 1⟩, List.length_map] at inside
  have found := List.getElem?_eq_getElem inside
  obtain ⟨line, column⟩ := placed_on_lines (by decide) ended rfl found
  refine ⟨_, ?_, line.trans (Nat.add_comm _ _), column⟩
  rw [Program.span?, List.getElem?_toArray, found]
  rfl

end Entry

end Language

/-! ## Canonical sources -/

/-- Every list of instructions is read back from its canonical text, be it without any
separator or with one instruction a line, where each starts its own line. -/
theorem canonical_text_round_trips {is : List Instruction}
    (addressable : ∀ i ∈ is, ∀ a, i.operand? = some (.address a) → a ≤ Word.greatest) :
    (∃ p, Program.parse (String.join (is.map (Instruction.canonical ""))) = .ok p ∧
      p.instructions = is ∧ p.labels = []) ∧
    ∀ text, (text = "\n".intercalate (is.map (Instruction.canonical " ")) ∨
        text = String.join (is.map fun i => i.canonical " " ++ "\n")) →
      ∃ p, Program.parse text = .ok p ∧ p.instructions = is ∧ p.labels = [] ∧
        ∀ k < is.length, ∃ s, p.span? k = some s ∧ s.line = k + 1 ∧ s.column = 1 := by
  have fits : ∀ i ∈ is, i.Fits := by
    intro i among operand takes
    cases operand with
    | word => trivial
    | address a => exact addressable i among a takes
  refine ⟨?_, ?_⟩
  · have same := Language.Entry.map_instruction_followed [] is
    have bare := Language.Entry.separator_of_mem_followed [] is
    have readable := Language.Entry.readable_of_separator (by rw [same]; exact fits)
      fun e among => .inl (bare e among)
    have text := Language.Entry.flatMap_followed "" "" is
    simp only [String.append_empty] at text
    have parsed := Language.Entry.exists_parse_of_dense readable text
    rw [same] at parsed
    exact parsed
  · intro text written
    rcases written with rfl | rfl
    · have same := Language.Entry.map_instruction_separated is
      obtain ⟨each, ended⟩ := Language.Entry.separator_of_mem_separated is
      have readable := Language.Entry.readable_of_separator (by rw [same]; exact fits) each
      have parsed := Language.Entry.exists_parse_of_lines readable ended
        (Language.Entry.flatMap_separated " " is)
      rw [same] at parsed
      exact parsed
    · have same := Language.Entry.map_instruction_followed ['\n'] is
      have ended := Language.Entry.separator_of_mem_followed ['\n'] is
      have readable := Language.Entry.readable_of_separator (by rw [same]; exact fits)
        fun e among => .inr (ended e among)
      have parsed := Language.Entry.exists_parse_of_lines readable
        (fun e among => ended e (List.dropLast_subset _ among))
        (Language.Entry.flatMap_followed " " "\n" is)
      rw [same] at parsed
      exact parsed

/-- The ends of both ranges, and glyphs with and without selector, on three lines. -/
theorem canonical_text_round_trips_three_lines :
    ∃ p, Program.parse "📥 -9223372036854775808\n🤔 9223372036854775807\n🖨️" = .ok p ∧
      p.instructions = [.push (.ofInt Word.least), .jumpIf 9223372036854775807, .print] ∧
      p.labels = [] ∧ ∃ s, p.span? 2 = some s ∧ s.line = 3 ∧ s.column = 1 := by
  have addressable : ∀ i ∈ [Instruction.push (.ofInt Word.least), .jumpIf 9223372036854775807,
      .print], ∀ a, i.operand? = some (.address a) → a ≤ Word.greatest := by
    simp [Instruction.operand?, Word.greatest]
  obtain ⟨p, parsed, instructions, labels, spans⟩ :=
    (canonical_text_round_trips addressable).2 _ (.inl rfl)
  have text : "\n".intercalate ([Instruction.push (.ofInt Word.least),
      .jumpIf 9223372036854775807, .print].map (Instruction.canonical " ")) =
        "📥 -9223372036854775808\n🤔 9223372036854775807\n🖨️" := by
    decide +kernel
  rw [text] at parsed
  exact ⟨p, parsed, instructions, labels, spans 2 (by decide)⟩

end GlyphMachine
