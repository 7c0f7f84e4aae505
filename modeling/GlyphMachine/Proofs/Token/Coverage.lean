import GlyphMachine.Proofs.Token.Columns
import GlyphMachine.Proofs.Token.Tiling

/-!
# What lexemes cover

`EndsInComment` says where comments are, from the text alone, and `Skipped` which
clusters are passed over. Skipping goes over such clusters only
(`Cursor.skipsTo_skipLayout`), and the spans of a tiling lie over the others, so that a
tiling accounts for every cluster (`Tiling.accounts`): a span holds it whole, or it is
skipped and no span touches it. `lexemes_cover_all_but_layout` says so of a source.
-/

namespace GlyphMachine

open Text (Cluster byteSize clusters)

/-! ## Layout -/

/-- The last of the clusters is part of a comment: a semicolon stands on its line,
before it or in its place. -/
def EndsInComment (gs : List Cluster) : Prop :=
  [';'] ∈ sinceLineBreak gs

instance (gs : List Cluster) : Decidable (EndsInComment gs) :=
  inferInstanceAs (Decidable (_ ∈ _))

/-- The cluster is skipped behind the earlier ones: it is white space or part of a
comment. -/
def Skipped (earlier : List Cluster) (g : Cluster) : Prop :=
  Language.Blank g ∨ EndsInComment (earlier ++ [g])

section Comments

variable {earlier gs : List Cluster} {g : Cluster} {cs : List Char}

/-- A comment begins at a semicolon and goes on up to a cluster with a line feed. -/
theorem endsInComment_concat :
    EndsInComment (gs ++ [g]) ↔ '\n' ∉ g ∧ (g = [';'] ∨ EndsInComment gs) := by
  unfold EndsInComment sinceLineBreak
  rw [List.rtakeWhile_concat]
  by_cases lineFeed : '\n' ∈ g
  · simp [lineFeed]
  · simp [lineFeed, or_comm, eq_comm]

/-- Clusters that begin no comment lead into none. -/
theorem not_endsInComment_append (calm : ¬ EndsInComment earlier)
    (plain : ∀ g ∈ gs, ¬ isCommentStart g) : ¬ EndsInComment (earlier ++ gs) := by
  induction gs using List.reverseRecOn with
  | nil =>
    rw [List.append_nil]
    exact calm
  | append_singleton gs g ih =>
    have before := ih fun h among => plain h (List.mem_append_left _ among)
    have last := plain g (List.mem_append_right _ (List.mem_singleton_self g))
    rw [isCommentStart_iff] at last
    rw [← List.append_assoc, endsInComment_concat]
    rintro ⟨-, opens | inside⟩
    · exact last opens
    · exact before inside

/-- Solid clusters outside of comments are not skipped. -/
theorem not_skipped_of_solid {before after : List Cluster} (calm : ¬ EndsInComment earlier)
    (solid : ∀ h ∈ before ++ g :: after, Solid h) : ¬ Skipped (earlier ++ before) g := by
  rintro (blank | comment)
  · exact (solid g (by simp)).1 (Language.isBlankCluster_iff.mpr blank)
  · rw [List.append_assoc] at comment
    refine not_endsInComment_append calm ?_ comment
    intro h among
    have within : h ∈ before ++ g :: after := by
      rw [List.append_cons]
      exact List.mem_append_left _ among
    exact (solid h within).2

/-- A cluster that ends a line is white space. -/
theorem isBlankCluster_of_isLineEnd (among : g ∈ clusters cs) (lineEnd : isLineEnd g) :
    isBlankCluster g := by
  rcases Text.eq_of_lineFeed_mem among (Language.isLineEnd_iff.mp lineEnd) with rfl | rfl
  · decide
  · decide

end Comments

/-- Behind the earlier clusters, all of these are skipped. -/
def AllSkipped (earlier gs : List Cluster) : Prop :=
  ∀ before g after, gs = before ++ g :: after → Skipped (earlier ++ before) g

theorem AllSkipped.cons {earlier gs : List Cluster} {g : Cluster} (first : Skipped earlier g)
    (later : AllSkipped (earlier ++ [g]) gs) : AllSkipped earlier (g :: gs) := by
  intro before h after cut
  rcases before with _ | ⟨_, before⟩
  · obtain ⟨rfl, -⟩ := List.cons.inj cut
    rw [List.append_nil]
    exact first
  · obtain ⟨rfl, rest⟩ := List.cons.inj cut
    rw [List.append_cons]
    exact later before h after rest

/-- Between the cursors lies nothing but what is skipped, and at the second one no
comment is open, unless the text ends there. -/
def Cursor.SkipsTo (earlier : List Cluster) (c d : Cursor) : Prop :=
  ∃ layout, c.Advances layout d ∧ AllSkipped earlier layout ∧
    (d.rest ≠ [] → ¬ EndsInComment (earlier ++ layout))

theorem Cursor.SkipsTo.cons {earlier rest : List Cluster} {g : Cluster} {p : Place} {d : Cursor}
    (first : Skipped earlier g)
    (later : Cursor.SkipsTo (earlier ++ [g]) ⟨p.past g, rest⟩ d) :
    Cursor.SkipsTo earlier ⟨p, g :: rest⟩ d := by
  obtain ⟨layout, advances, skipped, calm⟩ := later
  refine ⟨g :: layout, .cons advances, skipped.cons first, ?_⟩
  rw [List.append_cons]
  exact calm

/-- Skipping goes over skipped clusters to where no comment is open. -/
theorem Cursor.skipsTo_skipLayout {cs : List Char} (inComment : Bool) (p : Place)
    (gs : List Cluster) {earlier : List Cluster} (among : ∀ g ∈ gs, g ∈ clusters cs)
    (state : inComment = true ↔ EndsInComment earlier) :
    Cursor.SkipsTo earlier ⟨p, gs⟩ (skipLayout inComment p gs) := by
  -- The flag says all along whether the cluster read last is part of a comment.
  fun_induction skipLayout inComment p gs generalizing earlier with
  | case1 => exact ⟨[], .refl _, by simp [AllSkipped], by simp⟩
  | case2 inComment p g rest inside ih =>
    have comment : EndsInComment (earlier ++ [g]) :=
      endsInComment_concat.mpr ⟨Language.isLineEnd_iff.not.mp inside.2, .inr (state.mp inside.1)⟩
    exact (ih (List.forall_mem_cons.mp among).2 (iff_of_true rfl comment)).cons (.inr comment)
  | case3 inComment p g rest outside blank ih =>
    have ended : ¬ EndsInComment (earlier ++ [g]) := by
      rw [endsInComment_concat]
      rintro ⟨unbroken, rfl | inside⟩
      · exact absurd blank (by decide)
      · exact outside ⟨state.mpr inside, Language.isLineEnd_iff.not.mpr unbroken⟩
    have later := ih (List.forall_mem_cons.mp among).2 (iff_of_false (by simp) ended)
    exact later.cons (.inl (Language.isBlankCluster_iff.mp blank))
  | case4 inComment p g rest outside solid opens ih =>
    have comment : EndsInComment (earlier ++ [g]) := by
      obtain rfl := isCommentStart_iff.mp opens
      exact endsInComment_concat.mpr ⟨by decide, .inl rfl⟩
    exact (ih (List.forall_mem_cons.mp among).2 (iff_of_true rfl comment)).cons (.inr comment)
  | case5 inComment p g rest outside solid plain =>
    refine ⟨[], .refl _, by simp [AllSkipped], ?_⟩
    intro _ inside
    rw [List.append_nil] at inside
    -- A comment that is open here would go on over the cluster, or end at it as at white space.
    apply outside
    refine ⟨state.mpr inside, fun lineEnd => solid ?_⟩
    exact isBlankCluster_of_isLineEnd (among g List.mem_cons_self) lineEnd

theorem Cursor.skipsTo_skip {cs : List Char} {c : Cursor} {earlier : List Cluster}
    (among : ∀ g ∈ c.rest, g ∈ clusters cs) (calm : ¬ EndsInComment earlier) :
    Cursor.SkipsTo earlier c c.skip :=
  skipsTo_skipLayout false c.place c.rest among (iff_of_false (by simp) calm)

/-! ## Clusters in spans and between them -/

/-- All of the cluster behind `before` lies in the span. -/
def Span.Holds (s : Span) (before : List Cluster) (g : Cluster) : Prop :=
  s.start ≤ byteSize before.flatten ∧ byteSize before.flatten + byteSize g ≤ s.stop

/-- Nothing of the cluster behind `before` lies in the span. -/
def Span.Misses (s : Span) (before : List Cluster) (g : Cluster) : Prop :=
  s.stop ≤ byteSize before.flatten ∨ byteSize before.flatten + byteSize g ≤ s.start

/-- The spans cut no cluster in two, and miss it exactly if `left` holds of it. -/
structure Accounts (spans : List Span) (before : List Cluster) (g : Cluster) (left : Prop) :
    Prop where
  whole : ∀ s ∈ spans, s.Misses before g ∨ s.Holds before g
  missed_iff : (∀ s ∈ spans, s.Misses before g) ↔ left

section Accounting

variable {spans : List Span} {s : Span} {before : List Cluster} {g : Cluster} {left : Prop}

theorem Accounts.of_missed (missed : ∀ s ∈ spans, s.Misses before g) (isLeft : left) :
    Accounts spans before g left :=
  ⟨fun s among => .inl (missed s among), iff_of_true missed isLeft⟩

theorem Accounts.of_held (nonempty : g ≠ []) (held : s.Holds before g)
    (missed : ∀ t ∈ spans, t.Misses before g) (isTaken : ¬ left) :
    Accounts (s :: spans) before g left := by
  have positive := Text.byteSize_pos nonempty
  refine ⟨List.forall_mem_cons.mpr ⟨.inr held, fun t among => .inl (missed t among)⟩, ?_⟩
  refine iff_of_false (fun all => ?_) isTaken
  have hit := all s List.mem_cons_self
  unfold Span.Misses at hit
  unfold Span.Holds at held
  omega

theorem Accounts.cons (first : s.Misses before g) (later : Accounts spans before g left) :
    Accounts (s :: spans) before g left where
  whole := List.forall_mem_cons.mpr ⟨.inl first, later.whole⟩
  missed_iff := by
    rw [List.forall_mem_cons, later.missed_iff]
    exact and_iff_right first

/-- A cluster of two parts in a row is in the first or in the second. -/
theorem append_eq_append_cons {first second before after : List Cluster} {g : Cluster}
    (cut : first ++ second = before ++ g :: after) :
    (∃ more, first = before ++ g :: more) ∨
      ∃ more, before = first ++ more ∧ second = more ++ g :: after := by
  rcases List.append_eq_append_iff.mp cut with ⟨more, rfl, rest⟩ | ⟨more, rfl, rest⟩
  · exact .inr ⟨more, rfl, rest⟩
  · rcases more with _ | ⟨h, more⟩
    · exact .inr ⟨[], by simp, rest.symm⟩
    · obtain ⟨rfl, -⟩ := List.cons.inj rest
      exact .inl ⟨more, rfl⟩

theorem byteSize_flatten_append (before more : List Cluster) :
    byteSize (before ++ more).flatten = byteSize before.flatten + byteSize more.flatten := by
  rw [List.flatten_append, Text.byteSize_append]

theorem byteSize_flatten_append_cons (before more : List Cluster) (g : Cluster) :
    byteSize (before ++ g :: more).flatten =
      byteSize before.flatten + byteSize g + byteSize more.flatten := by
  rw [byteSize_flatten_append, List.flatten_cons, Text.byteSize_append, Nat.add_assoc]

theorem Cursor.Advances.offset_eq {c d : Cursor} {gs earlier : List Cluster}
    (advances : c.Advances gs d) (here : c.place.offset = byteSize earlier.flatten) :
    d.place.offset = byteSize (earlier ++ gs).flatten := by
  rw [advances.place_eq, Place.over_offset, here, byteSize_flatten_append]

/-- A tiling accounts for every cluster behind its cursor: the spans hold what is not
skipped and miss what is. -/
theorem Tiling.accounts {c : Cursor} (tiling : Tiling c spans) {cs : List Char}
    (among : ∀ g ∈ c.rest, g ∈ clusters cs) {earlier after : List Cluster}
    (here : c.place.offset = byteSize earlier.flatten) (calm : ¬ EndsInComment earlier)
    (cut : c.rest = before ++ g :: after) :
    Accounts spans (earlier ++ before) g (Skipped (earlier ++ before) g) := by
  induction tiling generalizing earlier before with
  | @done c ended =>
    obtain ⟨layout, advances, skipped, -⟩ := Cursor.skipsTo_skip among calm
    have all : c.rest = layout := by rw [advances.rest_eq, ended, List.append_nil]
    exact .of_missed (by simp) (skipped before g after (all.symm.trans cut))
  | @tile c start stop covered spans skips advances nonempty solid later ih =>
    obtain ⟨layout, toStart, skipped, ended⟩ := Cursor.skipsTo_skip among calm
    rw [skips] at toStart ended
    have calmThere : ¬ EndsInComment (earlier ++ layout) := by
      apply ended
      rw [advances.rest_eq]
      simp [nonempty]
    have start_eq := toStart.offset_eq here
    have stop_eq := advances.offset_eq start_eq
    have cluster : g ∈ clusters cs := among g (by simp [cut])
    have further : ∀ h ∈ stop.rest, h ∈ clusters cs := by
      intro h inside
      apply among
      rw [toStart.rest_eq, advances.rest_eq]
      simp [inside]
    rw [toStart.rest_eq, advances.rest_eq] at cut
    rcases append_eq_append_cons cut with ⟨more, inLayout⟩ | ⟨front, rfl, behind⟩
    · -- Skipped before the span begins.
      have fromStart : Tiling start (start.place.spanTo stop.place :: spans) :=
        .tile (by rw [← skips, Cursor.skip_skip]) advances nonempty solid later
      refine .of_missed ?_ (skipped before g more inLayout)
      intro s inside
      have begins := fromStart.offset_le_start inside
      rw [start_eq, inLayout, ← List.append_assoc, byteSize_flatten_append_cons] at begins
      right
      omega
    rw [← List.append_assoc]
    rcases append_eq_append_cons behind with ⟨more, rfl⟩ | ⟨front, rfl, rest⟩
    · -- Under the span.
      rw [← List.append_assoc, byteSize_flatten_append_cons] at stop_eq
      refine .of_held (Text.mem_clusters_cases cluster).1 ⟨?_, ?_⟩ ?_
        (not_skipped_of_solid calmThere solid)
      · rw [Place.spanTo, start_eq, byteSize_flatten_append _ front]
        exact Nat.le_add_right _ _
      · rw [Place.spanTo, stop_eq]
        exact Nat.le_add_right _ _
      · intro t inside
        have begins := later.offset_le_start inside
        right
        omega
    · -- Behind the span, where the rest of the tiling accounts for it.
      have calmBehind := not_endsInComment_append calmThere fun h inside => (solid h inside).2
      have rest := ih further stop_eq calmBehind rest
      rw [← List.append_assoc]
      refine rest.cons (.inl ?_)
      rw [Place.spanTo, stop_eq, byteSize_flatten_append _ front]
      exact Nat.le_add_right _ _

end Accounting

/-! ## Missing operands -/

/-- Every missing operand is given out right behind its glyph and with the span of it. -/
def MissingFollowGlyphs (ls : List Lexeme) : Prop :=
  ∀ before glyph expected s after,
    ls = before ++ .error ⟨.missingOperand glyph expected, s⟩ :: after →
      before.getLast? = some (.ok ⟨.ofGlyph glyph, s⟩)

section Missing

variable {ls : List Lexeme}

theorem MissingFollowGlyphs.cons (follow : MissingFollowGlyphs ls) {l : Lexeme}
    (own : Lexeme.isMissingOperand l = false) : MissingFollowGlyphs (l :: ls) := by
  intro before glyph expected s after cut
  rcases before with _ | ⟨first, before⟩
  · obtain ⟨rfl, -⟩ := List.cons.inj cut
    cases own
  · have last := follow before glyph expected s after (List.cons.inj cut).2
    rw [List.getLast?_cons, last]
    rfl

theorem MissingFollowGlyphs.cons_missing (follow : MissingFollowGlyphs ls) (glyph : Glyph)
    (expected : Arity) (s : Span) :
    MissingFollowGlyphs
      (.ok ⟨.ofGlyph glyph, s⟩ :: .error ⟨.missingOperand glyph expected, s⟩ :: ls) := by
  intro before other expected' t after cut
  rcases before with _ | ⟨first, _ | ⟨second, before⟩⟩
  · cases (List.cons.inj cut).1
  · obtain ⟨rfl, missing⟩ := List.cons.inj cut
    cases (List.cons.inj missing).1
    rfl
  · have last := follow before other expected' t after (List.cons.inj (List.cons.inj cut).2).2
    rw [List.getLast?_cons, List.getLast?_cons, last]
    rfl

theorem Reading.missingFollowGlyphs {c : Cursor} (reading : Reading c ls) :
    MissingFollowGlyphs ls := by
  induction reading with
  | done => simp [MissingFollowGlyphs]
  | @word c start stop w ls _ _ _ _ ih => exact ih.cons (Lexeme.isMissingOperand_ofWord w _)
  | unknown _ _ _ _ ih => exact ih.cons rfl
  | plain _ _ _ _ _ ih => exact ih.cons rfl
  | missing _ _ _ _ _ _ _ ih => exact ih.cons_missing _ _ _
  | @operand c start stop p g rest glyph w ls _ _ _ _ _ _ _ _ ih =>
    exact (ih.cons (Lexeme.isMissingOperand_operand _ w _)).cons rfl

end Missing

/-! ## All of a source -/

/-- The cluster behind `before` is layout of its source: the byte order mark in front,
white space, or part of a comment. -/
def IsLayout (before : List Cluster) (g : Cluster) : Prop :=
  before = [] ∧ g = [Text.byteOrderMark] ∨ Language.Blank g ∨ EndsInComment (before ++ [g])

section Sources

variable {source : String} {before after : List Cluster} {g : Cluster}

theorem eq_of_leadingMark_eq {more : List Cluster}
    (inMark : leadingMark source = before ++ g :: more) :
    before = [] ∧ g = [Text.byteOrderMark] := by
  unfold leadingMark at inMark
  split at inMark
  · rcases before with _ | ⟨h, before⟩
    · exact ⟨rfl, (List.cons.inj inMark).1.symm⟩
    · simp at inMark
  · simp at inMark

/-- A source that begins with a byte order mark has it in front. -/
theorem leadingMark_ne_nil (cut : clusters source.toList = [Text.byteOrderMark] :: after) :
    leadingMark source ≠ [] := by
  have whole := Text.flatten_clusters source.toList
  rw [cut] at whole
  have marked : source.toList.head? = some Text.byteOrderMark := by
    rw [← whole]
    rfl
  rw [leadingMark, if_pos marked]
  exact List.cons_ne_nil _ _

/-- What the lexer gives out accounts for every cluster of the source. -/
theorem accounts_of_clusters (cut : clusters source.toList = before ++ g :: after) :
    Accounts (takenSpans (Lexer.ofSource source).lexemes) before g (IsLayout before g) := by
  have tiling := (reading_ofSource source).tiling
  obtain ⟨whole, place_eq⟩ := ofSource_spec source
  have here : (Cursor.ofSource source).place.offset = byteSize (leadingMark source).flatten := by
    rw [place_eq]
  rcases append_eq_append_cons (whole.symm.trans cut) with ⟨more, inMark⟩ | ⟨front, rfl, rest⟩
  · refine .of_missed ?_ (.inl (eq_of_leadingMark_eq inMark))
    intro s inside
    have begins := tiling.offset_le_start inside
    rw [here, inMark, byteSize_flatten_append_cons] at begins
    right
    omega
  · have among : ∀ h ∈ (Cursor.ofSource source).rest, h ∈ clusters source.toList := by
      intro h inside
      rw [whole]
      exact List.mem_append_right _ inside
    have calm : ¬ EndsInComment (leadingMark source) := by
      unfold leadingMark
      split <;> decide
    have noMark : ¬ (leadingMark source ++ front = [] ∧ g = [Text.byteOrderMark]) := by
      rintro ⟨none, rfl⟩
      rw [none, List.nil_append] at cut
      exact leadingMark_ne_nil cut (List.append_eq_nil_iff.mp none).1
    rw [IsLayout, or_iff_right noMark]
    exact tiling.accounts among here calm rest

end Sources

/-- The lexer loses no text and reads none twice. Missing operands aside, which stand at
the glyph given out before them, lexemes follow each other in the source without
overlapping; they hold every cluster whole or not at all, and those that none of them
holds are the layout. -/
theorem lexemes_cover_all_but_layout (source : String) :
    MissingFollowGlyphs (Lexer.ofSource source).lexemes ∧
    (∀ s ∈ takenSpans (Lexer.ofSource source).lexemes, s.start < s.stop) ∧
    (takenSpans (Lexer.ofSource source).lexemes).Pairwise (fun s t => s.stop ≤ t.start) ∧
    ∀ before g after, clusters source.toList = before ++ g :: after →
      Accounts (takenSpans (Lexer.ofSource source).lexemes) before g (IsLayout before g) := by
  refine ⟨(reading_ofSource source).missingFollowGlyphs,
    fun _ => start_lt_stop_of_mem_takenSpans, ?_, fun _ _ _ => accounts_of_clusters⟩
  exact (pairwise_precedes_takenSpans source).imp Span.Precedes.apart

/-- The operand that is commented out is in no span, and the one on the next line is. -/
theorem lexemes_cover_all_but_layout_comment :
    takenSpans (Lexer.ofSource "📥;7\n7").lexemes = [⟨0, 4, 1, 1⟩, ⟨7, 8, 2, 1⟩] ∧
      clusters "📥;7\n7".toList = [['📥'], [';']] ++ ['7'] :: [['\n'], ['7']] ∧
      ∀ s ∈ takenSpans (Lexer.ofSource "📥;7\n7").lexemes, s.Misses [['📥'], [';']] ['7'] := by
  have cut : clusters "📥;7\n7".toList = [['📥'], [';']] ++ ['7'] :: [['\n'], ['7']] := by
    decide +kernel
  obtain ⟨-, -, -, accounts⟩ := lexemes_cover_all_but_layout "📥;7\n7"
  refine ⟨by decide +kernel, cut, (accounts _ _ _ cut).missed_iff.mpr ?_⟩
  exact .inr (.inr (by decide))

end GlyphMachine
