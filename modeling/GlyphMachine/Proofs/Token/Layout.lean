import GlyphMachine.Proofs.Token.Coverage

/-!
# Layout does not matter

White space and comments set clusters apart and mean nothing else. `Spaced` lays out
blocks of solid clusters with separators between them; two texts that lay out the same
blocks have the same lexemes (`Resembles`, carried from the end of the texts to their
start by `Resembles.block` and `Resembles.separator`), so `tokenize` gives the same tokens
or the same errors (`tokenize_ignores_layout`).
-/

namespace GlyphMachine

open Text (Cluster clusters)

/-! ## Separators -/

/-- White space, and comments with the clusters that end their lines. -/
inductive Layout : List Cluster → Prop
  | nil : Layout []
  | blank {g : Cluster} {gs : List Cluster} : isBlankCluster g → Layout gs → Layout (g :: gs)
  | comment {body : List Cluster} {lineEnd : Cluster} {gs : List Cluster} :
    (∀ g ∈ body, ¬ isLineEnd g) → isLineEnd lineEnd → Layout gs →
    Layout ([';'] :: (body ++ lineEnd :: gs))

/-- Layout that sets apart what stands on its two sides. -/
structure Separator (gs : List Cluster) : Prop where
  layout : Layout gs
  nonempty : gs ≠ []

/-- What can stand at the end of a text: layout, and a comment whose line does not end. -/
inductive Trailer : List Cluster → Prop
  | layout {gs : List Cluster} : Layout gs → Trailer gs
  | comment {gs body : List Cluster} :
    Layout gs → (∀ g ∈ body, ¬ isLineEnd g) → Trailer (gs ++ [';'] :: body)

/-- The blocks, a separator between any two of them, and a trailer. -/
inductive Spaced : List (List Cluster) → List Cluster → Prop
  | last {block trailer : List Cluster} : Trailer trailer → Spaced [block] (block ++ trailer)
  | cons {block separator gs : List Cluster} {blocks : List (List Cluster)} :
    Separator separator → Spaced blocks gs → Spaced (block :: blocks) (block ++ (separator ++ gs))

/-- The blocks laid out, behind layout of any kind. -/
def LaidOut (blocks : List (List Cluster)) (gs : List Cluster) : Prop :=
  ∃ leading spaced, Layout leading ∧ Spaced blocks spaced ∧ gs = leading ++ spaced

section Skipping

variable {cs : List Char} {gs : List Cluster}

/-- Layout is skipped, whatever comes behind it. -/
theorem Layout.skip_append (layout : Layout gs) (among : ∀ g ∈ gs, g ∈ clusters cs) (p : Place)
    (more : List Cluster) : ∃ q, (⟨p, gs ++ more⟩ : Cursor).skip = (⟨q, more⟩ : Cursor).skip := by
  induction layout generalizing p with
  | nil => exact ⟨p, rfl⟩
  | @blank g gs blank _ ih =>
    obtain ⟨q, skipped⟩ := ih (fun h later => among h (List.mem_cons_of_mem _ later)) (p.past g)
    refine ⟨q, ?_⟩
    rw [← skipped]
    exact Language.skipLayout_cons_of_blank p (Language.isBlankCluster_iff.mp blank)
  | @comment body lineEnd gs unbroken ends _ ih =>
    -- The end of the line is white space because it is a cluster of a text.
    have blank : Language.Blank lineEnd := by
      have within := among lineEnd (by simp)
      exact Language.isBlankCluster_iff.mp (isBlankCluster_of_isLineEnd within ends)
    have unbroken' : ∀ g ∈ body, '\n' ∉ g := fun g within =>
      mt Language.isLineEnd_iff.mpr (unbroken g within)
    have line : Language.CommentLine ([';'] :: (body ++ lineEnd :: gs) ++ more) (gs ++ more) :=
      ⟨body, lineEnd, by simp, unbroken', Language.isLineEnd_iff.mp ends, blank⟩
    obtain ⟨r, -, -, behind⟩ := line.exists_skip p
    obtain ⟨q, skipped⟩ := ih (fun h later => among h (by simp [later])) r
    exact ⟨q, behind.trans skipped⟩

theorem Trailer.skip_eq (trailer : Trailer gs) (among : ∀ g ∈ gs, g ∈ clusters cs) (p : Place) :
    (⟨p, gs⟩ : Cursor).skip.rest = [] := by
  cases trailer with
  | layout layout =>
    obtain ⟨q, skipped⟩ := layout.skip_append among p []
    rw [List.append_nil] at skipped
    rw [skipped]
    rfl
  | @comment gs body layout unbroken =>
    have unbroken' : ∀ g ∈ body, '\n' ∉ g := fun g within =>
      mt Language.isLineEnd_iff.mpr (unbroken g within)
    obtain ⟨before, -⟩ := List.forall_mem_append.mp among
    obtain ⟨q, skipped⟩ := layout.skip_append before p ([';'] :: body)
    rw [skipped, Language.skip_lastComment unbroken']

end Skipping

section FirstCluster

variable {gs more : List Cluster} {g : Cluster} {blocks : List (List Cluster)}

/-- Layout does not start with a solid cluster. -/
theorem Layout.head?_ne (layout : Layout gs) (solid : Solid g) : gs.head? ≠ some g := by
  cases layout with
  | nil => exact (Option.some_ne_none g).symm
  | blank blank _ =>
    rintro ⟨rfl⟩
    exact solid.1 blank
  | comment _ _ _ =>
    rintro ⟨rfl⟩
    exact solid.2 (isCommentStart_iff.mpr rfl)

theorem head?_append_ne (first : gs.head? ≠ some g) (second : more.head? ≠ some g) :
    (gs ++ more).head? ≠ some g := by
  cases gs with
  | nil => exact second
  | cons => exact first

theorem Trailer.head?_ne (trailer : Trailer gs) (solid : Solid g) : gs.head? ≠ some g := by
  cases trailer with
  | layout layout => exact layout.head?_ne solid
  | comment layout _ =>
    apply head?_append_ne (layout.head?_ne solid)
    rintro ⟨rfl⟩
    exact solid.2 (isCommentStart_iff.mpr rfl)

theorem Separator.head?_append_ne (separator : Separator gs) (solid : Solid g) :
    (gs ++ more).head? ≠ some g := by
  rw [List.head?_append_of_ne_nil _ separator.nonempty]
  exact separator.layout.head?_ne solid

/-- What is laid out starts with a solid cluster only if the first block does. -/
theorem LaidOut.head?_ne (laidOut : LaidOut blocks gs) (solid : Solid g)
    (first : blocks.flatten.head? ≠ some g) : gs.head? ≠ some g := by
  obtain ⟨leading, spaced, layout, blocks, rfl⟩ := laidOut
  apply head?_append_ne (layout.head?_ne solid)
  cases blocks with
  | last trailer =>
    rw [List.flatten_singleton] at first
    exact head?_append_ne first (trailer.head?_ne solid)
  | @cons block _ _ _ separator _ =>
    refine head?_append_ne ?_ (separator.head?_append_ne solid)
    intro starts
    rw [List.flatten_cons, List.head?_append, starts] at first
    exact first rfl

theorem not_startsWord_of_head?_ne (first : ∀ g, Solid g → gs.head? ≠ some g) :
    ¬ Language.StartsWord gs := by
  rintro ⟨e, rest, rfl, isWord⟩
  exact first [e] (.of_wordChar isWord) rfl

end FirstCluster

/-! ## Texts with the same blocks -/

/-- From any two places on, the clusters are read alike. -/
structure Resembles (gs hs : List Cluster) : Prop where
  alike : ∀ p q, (⟨p, gs⟩ : Cursor).Alike (fun _ _ => True) Eq ⟨q, hs⟩
  startsWord : Language.StartsWord hs ↔ Language.StartsWord gs

theorem legible_everywhere : Legible (fun _ _ => True) Eq (fun _ _ => True) where
  reads := by
    rintro g h rfl
    exact .same g
  cluster _ _ := trivial
  word _ _ := trivial

namespace Resembles

variable {cs ds : List Char} {gs hs : List Cluster}

theorem solid {g : Cluster} (stays : Solid g) (later : Resembles gs hs) :
    Resembles (g :: gs) (g :: hs) where
  alike p q := .cluster (stays.skip_eq p gs) (stays.skip_eq q hs) trivial rfl later.startsWord
    (later.alike _ _)
  startsWord := by rw [Language.startsWord_cons_iff, Language.startsWord_cons_iff]

theorem block {block : List Cluster} (stays : ∀ g ∈ block, Solid g) (later : Resembles gs hs) :
    Resembles (block ++ gs) (block ++ hs) := by
  induction block with
  | nil => exact later
  | cons g block ih =>
    obtain ⟨first, rest⟩ := List.forall_mem_cons.mp stays
    exact (ih rest).solid first

theorem trailer (here : Trailer gs) (there : Trailer hs) (among : ∀ g ∈ gs, g ∈ clusters cs)
    (among' : ∀ g ∈ hs, g ∈ clusters ds) : Resembles gs hs where
  alike p q := .ended (here.skip_eq among p) (there.skip_eq among' q)
  startsWord := iff_of_false (not_startsWord_of_head?_ne fun _ => there.head?_ne)
    (not_startsWord_of_head?_ne fun _ => here.head?_ne)

variable {layout layout' : List Cluster}

theorem alike_behind (later : Resembles gs hs) (here : Layout layout) (there : Layout layout')
    (among : ∀ g ∈ layout, g ∈ clusters cs) (among' : ∀ g ∈ layout', g ∈ clusters ds)
    (p q : Place) :
    (⟨p, layout ++ gs⟩ : Cursor).Alike (fun _ _ => True) Eq ⟨q, layout' ++ hs⟩ := by
  obtain ⟨p', skipped⟩ := here.skip_append among p gs
  obtain ⟨q', skipped'⟩ := there.skip_append among' q hs
  exact (later.alike p' q').of_skip_eq skipped skipped'

theorem separator (later : Resembles gs hs) (here : Separator layout) (there : Separator layout')
    (among : ∀ g ∈ layout, g ∈ clusters cs) (among' : ∀ g ∈ layout', g ∈ clusters ds) :
    Resembles (layout ++ gs) (layout' ++ hs) where
  alike := later.alike_behind here.layout there.layout among among'
  startsWord := iff_of_false (not_startsWord_of_head?_ne fun _ => there.head?_append_ne)
    (not_startsWord_of_head?_ne fun _ => here.head?_append_ne)

end Resembles

section SameBlocks

variable {cs ds : List Char} {gs hs : List Cluster} {blocks : List (List Cluster)}

theorem Spaced.not_nil (spaced : Spaced [] gs) : False := by
  cases spaced

/-- The same blocks, spaced in two ways, are read alike. -/
theorem Spaced.resembles (here : Spaced blocks gs) (there : Spaced blocks hs)
    (stay : ∀ block ∈ blocks, ∀ g ∈ block, Solid g) (among : ∀ g ∈ gs, g ∈ clusters cs)
    (among' : ∀ g ∈ hs, g ∈ clusters ds) : Resembles gs hs := by
  induction here generalizing hs with
  | @last block trailer ends =>
    obtain ⟨-, behind⟩ := List.forall_mem_append.mp among
    cases there with
    | last ends' =>
      obtain ⟨-, behind'⟩ := List.forall_mem_append.mp among'
      exact (Resembles.trailer ends ends' behind behind').block (stay block List.mem_cons_self)
    | cons _ later => exact later.not_nil.elim
  | @cons block separator gs blocks apart spaced ih =>
    obtain ⟨-, behind⟩ := List.forall_mem_append.mp among
    obtain ⟨within, further⟩ := List.forall_mem_append.mp behind
    obtain ⟨stays, stay⟩ := List.forall_mem_cons.mp stay
    cases there with
    | last => exact spaced.not_nil.elim
    | cons apart' spaced' =>
      obtain ⟨-, behind'⟩ := List.forall_mem_append.mp among'
      obtain ⟨within', further'⟩ := List.forall_mem_append.mp behind'
      have later := ih spaced' stay further further'
      exact (later.separator apart apart' within within').block stays

theorem LaidOut.alike (here : LaidOut blocks (clusters cs)) (there : LaidOut blocks (clusters ds))
    (stay : ∀ block ∈ blocks, ∀ g ∈ block, Solid g) (p q : Place) :
    (⟨p, clusters cs⟩ : Cursor).Alike (fun _ _ => True) Eq ⟨q, clusters ds⟩ := by
  obtain ⟨leading, spaced, layout, blocks, cut⟩ := here
  obtain ⟨leading', spaced', layout', blocks', cut'⟩ := there
  have among : ∀ g ∈ leading ++ spaced, g ∈ clusters cs := by simp [cut]
  have among' : ∀ g ∈ leading' ++ spaced', g ∈ clusters ds := by simp [cut']
  rw [List.forall_mem_append] at among among'
  rw [cut, cut']
  exact (blocks.resembles blocks' stay among.2 among'.2).alike_behind layout layout' among.1
    among'.1 p q

end SameBlocks

/-! ## Sources with the same blocks -/

/-- A source whose first solid cluster is no byte order mark does not start with one. -/
theorem LaidOut.ofSource_eq {blocks : List (List Cluster)} {source : String}
    (laidOut : LaidOut blocks (clusters source.toList))
    (unmarked : blocks.flatten.head? ≠ some [Text.byteOrderMark]) :
    Cursor.ofSource source = ⟨⟨0, 1, 1⟩, clusters source.toList⟩ := by
  apply ofSource_of_unmarked
  intro marked
  obtain ⟨cs, shape⟩ := List.head?_eq_some_iff.mp marked
  have solid : Solid [Text.byteOrderMark] := by
    unfold Solid
    decide
  apply laidOut.head?_ne solid unmarked
  rw [shape, Text.clusters_byteOrderMark]
  rfl

/-- Two sources that lay out the same blocks of solid clusters, with whatever separators between
them and whatever layout around them, have the same tokens or the same lexical errors. -/
theorem tokenize_ignores_layout {blocks : List (List Cluster)} {source other : String}
    (stay : ∀ block ∈ blocks, ∀ g ∈ block, Solid g)
    (unmarked : blocks.flatten.head? ≠ some [Text.byteOrderMark])
    (here : LaidOut blocks (clusters source.toList))
    (there : LaidOut blocks (clusters other.toList)) :
    ExceptMatches
      (fun errors errors' => errors'.map (·.item) = errors.map (·.item))
      (fun tokens tokens' => tokens'.map (·.item) = tokens.map (·.item))
      (tokenize source) (tokenize other) := by
  have alike := here.alike there stay ⟨0, 1, 1⟩ ⟨0, 1, 1⟩
  rw [← here.ofSource_eq unmarked, ← there.ofSource_eq unmarked] at alike
  obtain ⟨lexemes, reading, matched⟩ := (reading_ofSource source).exists_alike
    legible_everywhere alike
  obtain rfl : (Lexer.ofSource other).lexemes = lexemes := reading.lexemes_eq
  apply (gather_matches matched).imp
  · intro errors errors' same
    exact map_eq_of_matches (fun _ _ m => m.item_eq) same
  · intro tokens tokens' same
    exact map_eq_of_matches (fun _ _ m => m.item_eq) same

/-- A number in a comment is no operand: the glyph behind the comment is what follows. -/
theorem tokenize_ignores_layout_missing_operand :
    LaidOut [[['📥']], [['🖨']]] (clusters "📥 🖨".toList) ∧
      LaidOut [[['📥']], [['🖨']]] (clusters "\t📥;7\r\n🖨 ;".toList) ∧
      tokenize "📥 🖨" =
        .error [⟨.missingOperand (.op .push) .integer, ⟨0, 4, 1, 1⟩⟩] ∧
      ∃ errors, tokenize "\t📥;7\r\n🖨 ;" = .error errors ∧
        errors.map (·.item) = [.missingOperand (.op .push) .integer] := by
  have here : LaidOut [[['📥']], [['🖨']]] (clusters "📥 🖨".toList) := by
    have cut : clusters "📥 🖨".toList = [] ++ ([['📥']] ++ ([[' ']] ++ ([['🖨']] ++ []))) := by
      decide +kernel
    have between : Separator [[' ']] := ⟨.blank (by decide) .nil, List.cons_ne_nil _ _⟩
    exact ⟨_, _, .nil, .cons between (.last (.layout .nil)), cut⟩
  have there : LaidOut [[['📥']], [['🖨']]] (clusters "\t📥;7\r\n🖨 ;".toList) := by
    have cut : clusters "\t📥;7\r\n🖨 ;".toList = [['\t']] ++ ([['📥']] ++
        (([';'] :: ([['7']] ++ ['\r', '\n'] :: [])) ++ ([['🖨']] ++ ([[' ']] ++ [';'] :: [])))) := by
      decide +kernel
    have before : Layout [['\t']] := .blank (by decide) .nil
    have between : Separator ([';'] :: ([['7']] ++ ['\r', '\n'] :: [])) :=
      ⟨.comment (by decide) (by decide) .nil, List.cons_ne_nil _ _⟩
    have behind : Trailer ([[' ']] ++ [';'] :: []) :=
      .comment (.blank (by decide) .nil) (List.forall_mem_nil _)
    exact ⟨_, _, before, .cons between (.last behind), cut⟩
  have stay : ∀ block ∈ [[['📥']], [['🖨']]], ∀ g ∈ block, Solid g := by
    unfold Solid
    decide
  have failed : tokenize "📥 🖨" =
      .error [⟨.missingOperand (.op .push) .integer, ⟨0, 4, 1, 1⟩⟩] := by
    decide +kernel
  refine ⟨here, there, failed, ?_⟩
  have same := tokenize_ignores_layout stay (by decide) here there
  rw [failed] at same
  generalize tokenize "\t📥;7\r\n🖨 ;" = result at same ⊢
  cases same with
  | error items => exact ⟨_, rfl, items⟩

end GlyphMachine
