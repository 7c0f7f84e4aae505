import GlyphMachine.Proofs.Language.Tokens
import GlyphMachine.Proofs.Token.LineByLine

/-!
# Tilings

A text falls into the spans of its lexemes and the layout around them. `Tiling` says so:
one span comes after the other, each over clusters that are not skipped, with skipping
before it. `Reading.tiling` finds the tiling of what the lexer gives out, and
`Tiling.pairwise_precedes` says that the spans of a tiling go strictly on, in bytes as
well as in lines and columns.
-/

namespace GlyphMachine

open Text (Cluster)

/-! ## Solid clusters -/

/-- The cluster is not skipped outside of comments. -/
def Solid (g : Cluster) : Prop :=
  ¬ isBlankCluster g ∧ ¬ isCommentStart g

section SolidClusters

variable {g : Cluster}

theorem isCommentStart_iff : isCommentStart g ↔ g = [';'] := by
  simp [isCommentStart]

/-- What is not skipped is solid: skipping from there again would go on. -/
theorem Solid.of_skip {c : Cursor} {p : Place} {rest : List Cluster}
    (skipped : c.skip = ⟨p, g :: rest⟩) : Solid g := by
  refine ⟨Cursor.not_blank_of_skip skipped, ?_⟩
  intro opens
  obtain rfl := isCommentStart_iff.mp opens
  have stays := c.skip_skip
  rw [skipped, Cursor.skip, Language.skipLayout_cons_semicolon] at stays
  have shorter := Cursor.skipLayout_rest_length_le true (p.past [';']) rest
  rw [stays, List.length_cons] at shorter
  omega

theorem Solid.of_wordChar {c : Char} (isWord : Language.WordChar c) : Solid [c] := by
  rw [Solid, Language.isBlankCluster_iff, isCommentStart_iff]
  exact ⟨Language.not_blank_of_wordChar isWord, Language.ne_semicolon_of_wordChar isWord⟩

theorem Solid.of_ofCluster? {glyph : Glyph} (named : Glyph.ofCluster? g = some glyph) :
    Solid g := by
  have names := Language.ofCluster?_eq_some_iff_names.mp named
  rw [Solid, Language.isBlankCluster_iff, isCommentStart_iff]
  exact ⟨Language.not_blank_of_names names, Language.ne_semicolon_of_names names⟩

theorem Solid.skip_eq (solid : Solid g) (p : Place) (gs : List Cluster) :
    (⟨p, g :: gs⟩ : Cursor).skip = ⟨p, g :: gs⟩ :=
  Language.skipLayout_cons_of_not p (mt Language.isBlankCluster_iff.mpr solid.1)
    (mt isCommentStart_iff.mpr solid.2)

end SolidClusters

/-! ## Tilings -/

/-- `Tiling c spans`: from the cursor on, the spans lie one after the other over solid
clusters, with nothing but layout before, between and behind them. -/
inductive Tiling : Cursor → List Span → Prop
  | done {c : Cursor} : c.skip.rest = [] → Tiling c []
  | tile {c start stop : Cursor} {covered : List Cluster} {spans : List Span} :
    c.skip = start → start.Advances covered stop → covered ≠ [] → (∀ g ∈ covered, Solid g) →
    Tiling stop spans → Tiling c (start.place.spanTo stop.place :: spans)

theorem Tiling.of_skip_eq {c d : Cursor} {spans : List Span} (tiling : Tiling c spans)
    (same : d.skip = c.skip) : Tiling d spans := by
  cases tiling with
  | done ended =>
    rw [← same] at ended
    exact .done ended
  | tile skipped advances nonempty solid later =>
    exact .tile (same.trans skipped) advances nonempty solid later

/-- The cluster at a cursor is a tile. -/
theorem Tiling.cluster {c : Cursor} {p : Place} {g : Cluster} {rest : List Cluster}
    {spans : List Span} (skipped : c.skip = ⟨p, g :: rest⟩)
    (later : Tiling ⟨p.past g, rest⟩ spans) : Tiling c (p.spanTo (p.past g) :: spans) := by
  have advances := Cursor.advances_past p g rest
  refine .tile skipped advances (List.cons_ne_nil _ _) ?_ later
  intro h among
  obtain rfl := List.mem_singleton.mp among
  exact .of_skip skipped

/-- The word at a cursor is a tile. -/
theorem Tiling.word {c start stop : Cursor} {w : List Char} {spans : List Span}
    (skipped : c.skip = start) (taken : start.word = (w, stop)) (nonempty : w ≠ [])
    (later : Tiling stop spans) : Tiling c (start.place.spanTo stop.place :: spans) := by
  have chars := Cursor.wordChar_of_mem_takeWord start.place start.rest
  rw [show Cursor.takeWord start.place start.rest = (w, stop) from taken] at chars
  refine .tile skipped (Cursor.advances_word taken) ?_ ?_ later
  · rw [ne_eq, List.map_eq_nil_iff]
    exact nonempty
  · intro g among
    obtain ⟨d, inWord, rfl⟩ := List.mem_map.mp among
    exact .of_wordChar (chars d inWord)

/-! ## The tiling of a reading -/

namespace Lexeme

/-- Whether the lexeme reports a missing operand. It then stands at the glyph that
misses it and takes up no text of its own. -/
def isMissingOperand : Lexeme → Bool
  | .error ⟨.missingOperand .., _⟩ => true
  | _ => false

theorem isMissingOperand_literal (w : List Char) (s : Span) :
    isMissingOperand (literal w s) = false := by
  unfold literal
  split <;> rfl

theorem isMissingOperand_label (w : List Char) (s : Span) :
    isMissingOperand (label w s) = false := by
  unfold label
  split <;> rfl

theorem isMissingOperand_ofWord (w : List Char) (s : Span) :
    isMissingOperand (ofWord w s) = false := by
  unfold ofWord
  split
  · exact isMissingOperand_literal w s
  · exact isMissingOperand_label w s

theorem isMissingOperand_operand (arity : Arity) (w : List Char) (s : Span) :
    isMissingOperand (operand arity w s) = false := by
  cases arity with
  | integer => exact isMissingOperand_literal w s
  | target => exact isMissingOperand_ofWord w s
  | none | name => exact isMissingOperand_label w s

end Lexeme

/-- The spans of the lexemes that take up text of their own. -/
def takenSpans (ls : List Lexeme) : List Span :=
  (ls.filter fun l => !Lexeme.isMissingOperand l).map Lexeme.span

section Taken

variable {l : Lexeme} {c : Cursor} {ls : List Lexeme}

theorem takenSpans_cons (own : Lexeme.isMissingOperand l = false) (ls : List Lexeme) :
    takenSpans (l :: ls) = Lexeme.span l :: takenSpans ls := by
  simp [takenSpans, own]

/-- The spans that a reading takes up tile what is read. -/
theorem Reading.tiling (reading : Reading c ls) : Tiling c (takenSpans ls) := by
  induction reading with
  | done ended => exact .done ended
  | @word c start stop w ls skipped taken nonempty _ ih =>
    rw [takenSpans_cons (Lexeme.isMissingOperand_ofWord w _), (Lexeme.ofWord_names w _).2]
    exact .word skipped taken nonempty ih
  | unknown skipped _ _ _ ih => exact .cluster skipped ih
  | plain skipped _ _ _ _ ih => exact .cluster skipped ih
  | @missing c start p g rest glyph ls skipped _ _ _ behind _ _ ih =>
    have same : (⟨p.past g, rest⟩ : Cursor).skip = start.skip := by
      rw [← behind, Cursor.skip_skip]
    exact .cluster skipped (ih.of_skip_eq same)
  | @operand c start stop p g rest glyph w ls skipped _ _ _ behind taken nonempty _ ih =>
    rw [takenSpans_cons rfl, takenSpans_cons (Lexeme.isMissingOperand_operand _ w _),
      (Lexeme.operand_names _ w _).2]
    exact .cluster skipped (.word behind taken nonempty ih)

theorem failures_cons_sublist (l : Lexeme) (ls : List Lexeme) :
    ((failures (l :: ls)).map (·.span)).Sublist
      (Lexeme.span l :: (failures ls).map (·.span)) := by
  cases l with
  | ok => exact List.sublist_cons_self _ _
  | error => exact List.Sublist.refl _

/-- The errors of a reading stand at spans that it takes up, in their order. A missing
operand stands at its glyph, which is no error. -/
theorem Reading.failures_sublist (reading : Reading c ls) :
    ((failures ls).map (·.span)).Sublist (takenSpans ls) := by
  induction reading with
  | done => exact List.Sublist.refl _
  | @word c start stop w ls _ _ _ _ ih =>
    rw [takenSpans_cons (Lexeme.isMissingOperand_ofWord w _)]
    exact (failures_cons_sublist _ ls).trans (ih.cons_cons _)
  | unknown _ _ _ _ ih => exact ih.cons_cons _
  | plain _ _ _ _ _ ih => exact ih.cons _
  | missing _ _ _ _ _ _ _ ih => exact ih.cons_cons _
  | @operand c start stop p g rest glyph w ls _ _ _ _ _ _ _ _ ih =>
    rw [takenSpans_cons rfl, takenSpans_cons (Lexeme.isMissingOperand_operand _ w _)]
    exact ((failures_cons_sublist _ ls).trans (ih.cons_cons _)).cons _

end Taken

/-! ## The order of spans -/

/-- The span begins on an earlier line, or on the same line in an earlier column. -/
def Span.BeginsBefore (s t : Span) : Prop :=
  s.line < t.line ∨ s.line = t.line ∧ s.column < t.column

/-- The span is over before the other begins, in bytes as well as in lines and columns. -/
structure Span.Precedes (s t : Span) : Prop where
  apart : s.stop ≤ t.start
  begins : s.BeginsBefore t

/-- Where the span begins. -/
def Span.place (s : Span) : Place :=
  ⟨s.start, s.line, s.column⟩

/-- Reading on leads to a later line, or to a later column. -/
theorem Place.over_begins (p : Place) {gs : List Cluster} (nonempty : gs ≠ []) :
    p.line < (p.over gs).line ∨ p.line = (p.over gs).line ∧ p.column < (p.over gs).column := by
  induction gs generalizing p with
  | nil => exact absurd rfl nonempty
  | cons g gs ih =>
    have first : p.line < (p.past g).line ∨
        p.line = (p.past g).line ∧ p.column < (p.past g).column := by
      unfold past
      split <;> simp
    rw [over_cons]
    rcases gs with _ | ⟨h, gs⟩
    · exact first
    · have later := ih (p.past g) (List.cons_ne_nil h gs)
      omega

section Order

variable {c : Cursor} {spans : List Span}

/-- The spans of a tiling begin behind the cursor. -/
theorem Tiling.exists_place (tiling : Tiling c spans) :
    ∀ s ∈ spans, ∃ gs, s.place = c.place.over gs := by
  induction tiling with
  | done => simp
  | @tile c start stop covered spans skipped advances _ _ _ ih =>
    obtain ⟨layout, skips⟩ := Cursor.exists_advances_skipLayout false c.place c.rest
    have toStart : c.Advances layout start := skipped ▸ skips
    refine List.forall_mem_cons.mpr ⟨⟨layout, toStart.place_eq⟩, ?_⟩
    intro s among
    obtain ⟨gs, place_eq⟩ := ih s among
    refine ⟨layout ++ covered ++ gs, ?_⟩
    rw [place_eq, (toStart.trans advances).place_eq, Place.over_append _ (layout ++ covered)]

theorem Tiling.offset_le_start (tiling : Tiling c spans) {s : Span} (among : s ∈ spans) :
    c.place.offset ≤ s.start := by
  obtain ⟨gs, place_eq⟩ := tiling.exists_place s among
  have start_eq : s.start = (c.place.over gs).offset := congrArg Place.offset place_eq
  rw [start_eq, Place.over_offset]
  exact Nat.le_add_right _ _

/-- The spans of a tiling stand in the order of the text. -/
theorem Tiling.pairwise_precedes (tiling : Tiling c spans) :
    spans.Pairwise Span.Precedes := by
  induction tiling with
  | done => exact .nil
  | @tile c start stop covered spans skipped advances nonempty _ later ih =>
    refine List.pairwise_cons.mpr ⟨?_, ih⟩
    intro t among
    refine ⟨later.offset_le_start among, ?_⟩
    obtain ⟨gs, place_eq⟩ := later.exists_place t among
    have behind : t.place = start.place.over (covered ++ gs) := by
      rw [place_eq, advances.place_eq, Place.over_append]
    have begins := start.place.over_begins (List.append_ne_nil_of_left_ne_nil nonempty gs)
    rw [← behind] at begins
    exact begins

end Order

/-! ## Spans of a source -/

theorem start_lt_stop_of_mem_takenSpans {source : String} {s : Span}
    (among : s ∈ takenSpans (Lexer.ofSource source).lexemes) : s.start < s.stop := by
  obtain ⟨l, given, rfl⟩ := List.mem_map.mp among
  obtain ⟨_, _, _, covers, -⟩ := exists_covers_of_mem_lexemes (List.mem_filter.mp given).1
  exact covers.start_lt_stop

theorem pairwise_precedes_takenSpans (source : String) :
    (takenSpans (Lexer.ofSource source).lexemes).Pairwise Span.Precedes :=
  (reading_ofSource source).tiling.pairwise_precedes

end GlyphMachine
