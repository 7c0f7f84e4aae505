import GlyphMachine.Token.Lexer

/-!
# Readings

`Lexer.next?` gives out one lexeme at a time and keeps the operand of a glyph for
the step after. `Reading` is the same stream without a stored operand: one rule
for each thing that can stand at a cursor, a glyph and its operand together.
`reading_iff_lexemes` identifies the two, so a fact about everything the lexer
gives out is an induction over `Reading`.
-/

namespace GlyphMachine

open Text (Cluster)

/-- `Reading c ls`: from the cursor `c` on, the source reads as the lexemes `ls`. -/
inductive Reading : Cursor → List Lexeme → Prop
  | done {c : Cursor} : c.skip.rest = [] → Reading c []
  | word {c start stop : Cursor} {w : List Char} {ls : List Lexeme} :
    c.skip = start → start.word = (w, stop) → w ≠ [] → Reading stop ls →
    Reading c (.ofWord w (start.place.spanTo stop.place) :: ls)
  | unknown {c : Cursor} {p : Place} {g : Cluster} {rest : List Cluster} {ls : List Lexeme} :
    c.skip = ⟨p, g :: rest⟩ → c.skip.word.1 = [] → Glyph.ofCluster? g = none →
    Reading ⟨p.past g, rest⟩ ls →
    Reading c (.error ⟨.unknownGlyph (String.ofList g), p.spanTo (p.past g)⟩ :: ls)
  | plain {c : Cursor} {p : Place} {g : Cluster} {rest : List Cluster} {glyph : Glyph}
      {ls : List Lexeme} :
    c.skip = ⟨p, g :: rest⟩ → c.skip.word.1 = [] → Glyph.ofCluster? g = some glyph →
    glyph.arity = .none → Reading ⟨p.past g, rest⟩ ls →
    Reading c (.ok ⟨.ofGlyph glyph, p.spanTo (p.past g)⟩ :: ls)
  | missing {c start : Cursor} {p : Place} {g : Cluster} {rest : List Cluster} {glyph : Glyph}
      {ls : List Lexeme} :
    c.skip = ⟨p, g :: rest⟩ → c.skip.word.1 = [] → Glyph.ofCluster? g = some glyph →
    glyph.arity ≠ .none → (⟨p.past g, rest⟩ : Cursor).skip = start → start.word.1 = [] →
    Reading start ls →
    Reading c (.ok ⟨.ofGlyph glyph, p.spanTo (p.past g)⟩ ::
      .error ⟨.missingOperand glyph glyph.arity, p.spanTo (p.past g)⟩ :: ls)
  | operand {c start stop : Cursor} {p : Place} {g : Cluster} {rest : List Cluster}
      {glyph : Glyph} {w : List Char} {ls : List Lexeme} :
    c.skip = ⟨p, g :: rest⟩ → c.skip.word.1 = [] → Glyph.ofCluster? g = some glyph →
    glyph.arity ≠ .none → (⟨p.past g, rest⟩ : Cursor).skip = start → start.word = (w, stop) →
    w ≠ [] → Reading stop ls →
    Reading c (.ok ⟨.ofGlyph glyph, p.spanTo (p.past g)⟩ ::
      .operand glyph.arity w (start.place.spanTo stop.place) :: ls)

namespace Lexer

/-! ## The stream, step by step -/

theorem lexemes_of_next?_eq_none {l : Lexer} (ended : l.next? = none) : l.lexemes = [] := by
  rw [lexemes]
  split
  · rfl
  · rename_i step given
    rw [ended] at given
    cases given

theorem lexemes_of_next?_eq_some {l l' : Lexer} {lexeme : Lexeme}
    (given : l.next? = some (lexeme, l')) : l.lexemes = lexeme :: l'.lexemes := by
  rw [lexemes]
  split
  · rename_i ended
    rw [ended] at given
    cases given
  · rename_i step given'
    rw [given] at given'
    cases given'
    rfl

/-- A stored operand is given out next. -/
theorem lexemes_pending (c : Cursor) (lexeme : Lexeme) :
    (⟨c, some lexeme⟩ : Lexer).lexemes = lexeme :: (⟨c, none⟩ : Lexer).lexemes :=
  lexemes_of_next?_eq_some rfl

/-- Where no word starts, the next lexeme is that of a cluster. -/
theorem next?_of_word_eq_nil {c : Cursor} {p : Place} {g : Cluster} {rest : List Cluster}
    (skipped : c.skip = ⟨p, g :: rest⟩) (noWord : c.skip.word.1 = []) :
    (⟨c, none⟩ : Lexer).next? = some (readGlyph p g rest) := by
  rw [skipped] at noWord
  simp [next?, skipped, noWord]

end Lexer

/-! ## Readings are what the lexer gives out -/

/-- A reading is what the lexer gives out from its cursor on. -/
theorem Reading.lexemes_eq {c : Cursor} {ls : List Lexeme} (reading : Reading c ls) :
    (⟨c, none⟩ : Lexer).lexemes = ls := by
  induction reading with
  | done ended =>
    apply Lexer.lexemes_of_next?_eq_none
    simp [Lexer.next?, ended]
  | @word c start stop w ls skipped read nonempty _ ih =>
    have given : (⟨c, none⟩ : Lexer).next? =
        some (.ofWord w (start.place.spanTo stop.place), ⟨stop, none⟩) := by
      have more : start.rest ≠ [] := by
        intro ended
        simp [Cursor.word, ended, Cursor.takeWord] at read
        exact nonempty read.1
      obtain ⟨g, rest, split⟩ := List.exists_cons_of_ne_nil more
      simp [Lexer.next?, skipped, split, read, nonempty]
    rw [Lexer.lexemes_of_next?_eq_some given, ih]
  | @unknown c p g rest ls skipped noWord unnamed _ ih =>
    have given := Lexer.next?_of_word_eq_nil skipped noWord
    simp only [Lexer.readGlyph, unnamed] at given
    rw [Lexer.lexemes_of_next?_eq_some given, ih]
  | @plain c p g rest glyph ls skipped noWord named arity _ ih =>
    have given := Lexer.next?_of_word_eq_nil skipped noWord
    simp only [Lexer.readGlyph, named, arity, if_true] at given
    rw [Lexer.lexemes_of_next?_eq_some given, ih]
  | @missing c start p g rest glyph ls skipped noWord named arity after lacking _ ih =>
    have given := Lexer.next?_of_word_eq_nil skipped noWord
    simp only [Lexer.readGlyph, Lexer.readOperand, named, arity, if_false, after, lacking,
      if_true] at given
    rw [Lexer.lexemes_of_next?_eq_some given, Lexer.lexemes_pending, ih]
  | @operand c start stop p g rest glyph w ls skipped noWord named arity after read nonempty _ ih =>
    have given := Lexer.next?_of_word_eq_nil skipped noWord
    simp only [Lexer.readGlyph, Lexer.readOperand, named, arity, if_false, after, read,
      nonempty] at given
    rw [Lexer.lexemes_of_next?_eq_some given, Lexer.lexemes_pending, ih]

/-- Every cursor has a reading. -/
theorem Reading.exists (c : Cursor) : ∃ ls, Reading c ls := by
  -- Each rule leaves fewer clusters than it found, so the count of clusters is the measure.
  induction size : c.rest.length using Nat.strongRecOn generalizing c with
  | ind n ih =>
    subst size
    have skipLe := c.skip_rest_length_le
    rcases skipped : c.skip with ⟨p, _ | ⟨g, rest⟩⟩
    · exact ⟨[], .done (by rw [skipped])⟩
    have fewer : rest.length < c.rest.length := by
      rw [skipped] at skipLe
      exact skipLe
    by_cases noWord : c.skip.word.1 = []
    · have operandLe := (⟨p.past g, rest⟩ : Cursor).skip_rest_length_le
      rcases named : Glyph.ofCluster? g with _ | glyph
      · obtain ⟨ls, tail⟩ := ih _ fewer ⟨p.past g, rest⟩ rfl
        exact ⟨_, .unknown skipped noWord named tail⟩
      by_cases arity : glyph.arity = .none
      · obtain ⟨ls, tail⟩ := ih _ fewer ⟨p.past g, rest⟩ rfl
        exact ⟨_, .plain skipped noWord named arity tail⟩
      rcases read : (⟨p.past g, rest⟩ : Cursor).skip.word with ⟨w, stop⟩
      by_cases lacking : w = []
      · obtain ⟨ls, tail⟩ := ih _ (Nat.lt_of_le_of_lt operandLe fewer) _ rfl
        exact ⟨_, .missing skipped noWord named arity rfl (by rw [read]; exact lacking) tail⟩
      · have wordLe := (⟨p.past g, rest⟩ : Cursor).skip.word_rest_length_le
        rw [read] at wordLe
        dsimp only at wordLe operandLe
        obtain ⟨ls, tail⟩ := ih _ (by omega) stop rfl
        exact ⟨_, .operand skipped noWord named arity rfl read lacking tail⟩
    · have wordLt := Cursor.word_rest_length_lt noWord
      rcases read : c.skip.word with ⟨w, stop⟩
      rw [read] at wordLt noWord
      dsimp only at wordLt
      obtain ⟨ls, tail⟩ := ih _ (by omega) stop rfl
      exact ⟨_, .word rfl read noWord tail⟩

/-- The lexemes of a cursor are its reading. -/
theorem reading_iff_lexemes {c : Cursor} {ls : List Lexeme} :
    Reading c ls ↔ (⟨c, none⟩ : Lexer).lexemes = ls := by
  constructor
  · exact Reading.lexemes_eq
  · rintro rfl
    obtain ⟨ls, reading⟩ := Reading.exists c
    rw [reading.lexemes_eq]
    exact reading

/-- What the lexer gives out for a source is a reading of it. -/
theorem reading_ofSource (source : String) :
    Reading (.ofSource source) (Lexer.ofSource source).lexemes :=
  reading_iff_lexemes.mpr rfl

/-- A reading depends on what stands behind the layout only. -/
theorem Reading.of_skip_eq {c d : Cursor} {ls : List Lexeme} (reading : Reading c ls)
    (same : d.skip = c.skip) : Reading d ls := by
  cases reading with
  | done ended =>
    rw [← same] at ended
    exact .done ended
  | word skipped taken nonempty later => exact .word (same.trans skipped) taken nonempty later
  | unknown skipped noWord unnamed later =>
    rw [← same] at skipped noWord
    exact .unknown skipped noWord unnamed later
  | plain skipped noWord named arity later =>
    rw [← same] at skipped noWord
    exact .plain skipped noWord named arity later
  | missing skipped noWord named arity after lacking later =>
    rw [← same] at skipped noWord
    exact .missing skipped noWord named arity after lacking later
  | operand skipped noWord named arity after taken nonempty later =>
    rw [← same] at skipped noWord
    exact .operand skipped noWord named arity after taken nonempty later

end GlyphMachine
