import GlyphMachine.Proofs.Text.ClusterCuts
import GlyphMachine.Proofs.Token.Matching

/-!
# Reading line by line

A text that is read up to the end of a line and then goes on is read as its two parts
are. `Reading.followedBy` puts two readings together over a cluster that ends the line,
`Closes`; the one thing that can reach over it is a glyph that still waits for its
operand. `Reading.moved` carries a reading to another place. The two give the lexemes of
two texts with a line feed between them (`lexemes_of_joined_texts`).
-/

namespace GlyphMachine

open Text (Cluster byteSize clusters)

/-! ## Texts that go on -/

namespace Cursor

/-- The cursor in a text that goes on with more clusters. -/
def followedBy (c : Cursor) (more : List Cluster) : Cursor :=
  ⟨c.place, c.rest ++ more⟩

/-- The place behind the last cluster. -/
def endPlace (c : Cursor) : Place :=
  c.place.over c.rest

variable {c d : Cursor} {gs : List Cluster}

theorem Advances.endPlace_eq (advances : c.Advances gs d) : d.endPlace = c.endPlace := by
  rw [endPlace, endPlace, advances.rest_eq, advances.place_eq, Place.over_append]

theorem endPlace_skip (c : Cursor) : c.skip.endPlace = c.endPlace := by
  obtain ⟨layout, advances⟩ := exists_advances_skipLayout false c.place c.rest
  exact advances.endPlace_eq

/-- Skipping stops where it stopped, or it came to the end and goes on from there. -/
theorem skipLayout_append (inComment : Bool) (p : Place) (gs more : List Cluster) :
    (skipLayout inComment p gs).rest ≠ [] ∧
        skipLayout inComment p (gs ++ more) = (skipLayout inComment p gs).followedBy more ∨
      (skipLayout inComment p gs).rest = [] ∧
        ∃ still, skipLayout inComment p (gs ++ more) = skipLayout still (p.over gs) more := by
  fun_induction skipLayout inComment p gs with
  | case1 inComment p => exact .inr ⟨rfl, inComment, rfl⟩
  | case2 inComment p g rest inside ih =>
    rw [List.cons_append, skipLayout, if_pos inside]
    exact ih
  | case3 inComment p g rest outside blank ih =>
    rw [List.cons_append, skipLayout, if_neg outside, if_pos blank]
    exact ih
  | case4 inComment p g rest outside solid opens ih =>
    rw [List.cons_append, skipLayout, if_neg outside, if_neg solid, if_pos opens]
    exact ih
  | case5 inComment p g rest outside solid plain =>
    left
    refine ⟨List.cons_ne_nil _ _, ?_⟩
    rw [List.cons_append, skipLayout, if_neg outside, if_neg solid, if_neg plain]
    rfl

theorem skip_followedBy (more : List Cluster) (stopped : c.skip.rest ≠ []) :
    (c.followedBy more).skip = c.skip.followedBy more := by
  rcases skipLayout_append false c.place c.rest more with ⟨-, same⟩ | ⟨ended, -⟩
  · exact same
  · exact absurd ended stopped

end Cursor

/-- The cluster closes what stands before it: it is white space, and comments end at it
unless the text does. -/
structure Closes (g : Cluster) (tail : List Cluster) : Prop where
  blank : isBlankCluster g
  stops : isLineEnd g ∨ tail = []

section Closed

variable {c d : Cursor} {g : Cluster} {tail : List Cluster}

theorem Closes.skipLayout_eq (closes : Closes g tail) (inComment : Bool) (p : Place) :
    Cursor.skipLayout inComment p (g :: tail) = Cursor.skipLayout false (p.past g) tail := by
  rw [Cursor.skipLayout]
  split
  · rename_i inside
    rcases closes.stops with lineEnd | rfl
    · exact absurd lineEnd inside.2
    · rfl
  · rw [if_pos closes.blank]

/-- Where only layout is left, skipping goes on behind the line. -/
theorem Closes.skip_eq (closes : Closes g tail) (ended : c.skip.rest = []) :
    (c.followedBy (g :: tail)).skip = (⟨c.endPlace.past g, tail⟩ : Cursor).skip := by
  rcases Cursor.skipLayout_append false c.place c.rest (g :: tail) with
    ⟨stopped, -⟩ | ⟨-, still, goesOn⟩
  · exact absurd ended stopped
  · exact goesOn.trans (closes.skipLayout_eq still _)

theorem Closes.takeWord_eq (closes : Closes g tail) (p : Place) (gs : List Cluster) :
    Cursor.takeWord p (gs ++ g :: tail) =
      ((Cursor.takeWord p gs).1, (Cursor.takeWord p gs).2.followedBy (g :: tail)) := by
  have noWord : wordChar? g = none := by
    rcases isWord : wordChar? g with _ | e
    · rfl
    · obtain ⟨rfl, wordChar⟩ := Language.wordChar?_eq_some_iff.mp isWord
      have blank := Language.isBlankCluster_iff.mp closes.blank e (List.mem_singleton_self e)
      exact absurd blank (Language.not_isBlank_of_wordChar wordChar)
  fun_induction Cursor.takeWord p gs with
  | case1 p => simp [Cursor.takeWord, noWord, Cursor.followedBy]
  | case2 p h rest e isWord word after taken ih =>
    rw [taken] at ih
    rw [List.cons_append, Cursor.takeWord, isWord]
    dsimp only
    rw [ih]
  | case3 p h rest isWord => simp [Cursor.takeWord, isWord, Cursor.followedBy]

theorem Closes.word_eq (closes : Closes g tail) (c : Cursor) :
    (c.followedBy (g :: tail)).word = (c.word.1, c.word.2.followedBy (g :: tail)) :=
  closes.takeWord_eq c.place c.rest

/-- A word at the cursor is still there, and stops where it stopped. -/
theorem Closes.exists_word (closes : Closes g tail) {w : List Char} (taken : c.word = (w, d))
    (nonempty : w ≠ []) :
    c.rest ≠ [] ∧ (c.followedBy (g :: tail)).word = (w, d.followedBy (g :: tail)) ∧
      d.endPlace = c.endPlace := by
  refine ⟨?_, ?_, (Cursor.advances_word taken).endPlace_eq⟩
  · intro ended
    apply nonempty
    rw [Cursor.word, ended, Cursor.takeWord] at taken
    exact (Prod.mk.inj taken).1.symm
  · rw [closes.word_eq, taken]

/-- A cluster that stands behind the layout and starts no word still does so. -/
theorem Closes.exists_cluster (closes : Closes g tail) {p : Place} {h : Cluster}
    {rest : List Cluster} (skipped : c.skip = ⟨p, h :: rest⟩) (noWord : c.skip.word.1 = []) :
    (c.followedBy (g :: tail)).skip = ⟨p, h :: (rest ++ g :: tail)⟩ ∧
      (c.followedBy (g :: tail)).skip.word.1 = [] ∧
      (⟨p.past h, rest⟩ : Cursor).endPlace = c.endPlace := by
  have stopped : c.skip.rest ≠ [] := by
    rw [skipped]
    exact List.cons_ne_nil _ _
  have there := Cursor.skip_followedBy (g :: tail) stopped
  refine ⟨?_, ?_, ?_⟩
  · rw [there, skipped]
    rfl
  · rw [there, closes.word_eq]
    exact noWord
  · rw [← Cursor.endPlace_skip c, skipped]
    exact (Cursor.advances_past p h rest).endPlace_eq

end Closed

/-! ## Two readings in a row -/

/-- The lexemes end in a missing operand. It is the end of the text that cuts it off:
had the lexer found anything behind the glyph, it would have given that out after. -/
def EndsLacking (ls : List Lexeme) : Prop :=
  ∃ glyph expected span, ls.getLast? = some (.error ⟨.missingOperand glyph expected, span⟩)

theorem EndsLacking.cons {ls : List Lexeme} (lacking : EndsLacking ls) (l : Lexeme) :
    EndsLacking (l :: ls) := by
  obtain ⟨glyph, expected, span, last⟩ := lacking
  refine ⟨glyph, expected, span, ?_⟩
  rw [List.getLast?_cons, last]
  rfl

/-- Two texts in a row are read one after the other, if the line between them is closed
and the second does not begin with the operand of a glyph in the first. -/
theorem Reading.followedBy {c : Cursor} {q : Place} {g : Cluster} {tail : List Cluster}
    {ls ls' : List Lexeme} (closes : Closes g tail) (reading : Reading c ls)
    (ends : c.endPlace = q) (later : Reading ⟨q.past g, tail⟩ ls')
    (noOperand : EndsLacking ls → (⟨q.past g, tail⟩ : Cursor).skip.word.1 = []) :
    Reading (c.followedBy (g :: tail)) (ls ++ ls') := by
  induction reading with
  | done ended =>
    subst ends
    exact later.of_skip_eq (closes.skip_eq ended)
  | @word c start stop w ls skipped taken nonempty _ ih =>
    obtain ⟨filled, taken', same⟩ := closes.exists_word taken nonempty
    have there : (c.followedBy (g :: tail)).skip = start.followedBy (g :: tail) := by
      rw [Cursor.skip_followedBy _ (by rw [skipped]; exact filled), skipped]
    have ends' : stop.endPlace = q := by
      rw [same, ← skipped, Cursor.endPlace_skip, ends]
    have next := ih ends' fun lacking => noOperand (lacking.cons _)
    have joined := Reading.word there taken' nonempty next
    exact joined
  | unknown skipped noWord unnamed _ ih =>
    obtain ⟨there, noWord', same⟩ := closes.exists_cluster skipped noWord
    have next := ih (same.trans ends) fun lacking => noOperand (lacking.cons _)
    exact .unknown there noWord' unnamed next
  | plain skipped noWord named arity _ ih =>
    obtain ⟨there, noWord', same⟩ := closes.exists_cluster skipped noWord
    have next := ih (same.trans ends) fun lacking => noOperand (lacking.cons _)
    exact .plain there noWord' named arity next
  | @missing c start p h rest glyph ls skipped noWord named arity behind lacks further ih =>
    obtain ⟨there, noWord', same⟩ := closes.exists_cluster skipped noWord
    by_cases ended : start.rest = []
    · -- The operand is sought in the second text, where the hypothesis finds none.
      have stays : start.skip = start := by rw [← behind, Cursor.skip_skip]
      have none : ls = [] := by
        have read : Reading start [] := .done (by rw [stays, ended])
        rw [← further.lexemes_eq, read.lexemes_eq]
      subst none
      have onward := closes.skip_eq (by rw [behind, ended])
      rw [same, ends] at onward
      have lacks' := noOperand ⟨glyph, glyph.arity, _, rfl⟩
      have next := later.of_skip_eq (Cursor.skip_skip _)
      exact .missing there noWord' named arity onward lacks' next
    · have onward := Cursor.skip_followedBy (g :: tail) (by rw [behind]; exact ended)
      rw [behind] at onward
      have lacks' : (start.followedBy (g :: tail)).word.1 = [] := by
        rw [closes.word_eq]
        exact lacks
      have ends' : start.endPlace = q := by
        rw [← behind, Cursor.endPlace_skip, same, ends]
      have next := ih ends' fun lacking => noOperand ((lacking.cons _).cons _)
      exact .missing there noWord' named arity onward lacks' next
  | @operand c start stop p h rest glyph w ls skipped noWord named arity behind taken nonempty _
      ih =>
    obtain ⟨there, noWord', same⟩ := closes.exists_cluster skipped noWord
    obtain ⟨filled, taken', further⟩ := closes.exists_word taken nonempty
    have onward := Cursor.skip_followedBy (g :: tail) (by rw [behind]; exact filled)
    rw [behind] at onward
    have ends' : stop.endPlace = q := by
      rw [further, ← behind, Cursor.endPlace_skip, same, ends]
    have next := ih ends' fun lacking => noOperand ((lacking.cons _).cons _)
    have joined := Reading.operand there noWord' named arity onward taken' nonempty next
    exact joined

/-! ## Readings further on -/

/-- The same place in the line, so many bytes and lines further on. -/
def Place.moved (bytes lines : Nat) (p : Place) : Place :=
  ⟨p.offset + bytes, p.line + lines, p.column⟩

/-- The same stretch of text, so many bytes and lines further on. -/
def Span.moved (bytes lines : Nat) (s : Span) : Span :=
  ⟨s.start + bytes, s.stop + bytes, s.line + lines, s.column⟩

/-- The same thing further on. -/
def Located.moved {α : Type} (bytes lines : Nat) (x : Located α) : Located α :=
  ⟨x.item, x.span.moved bytes lines⟩

/-- The same token or the same error further on. -/
def Lexeme.moved (bytes lines : Nat) : Lexeme → Lexeme
  | .ok token => .ok (token.moved bytes lines)
  | .error e => .error (e.moved bytes lines)

section Moved

variable {bytes lines : Nat}

theorem Place.past_moved (p : Place) (g : Cluster) :
    (p.moved bytes lines).past g = (p.past g).moved bytes lines := by
  unfold past
  split
  · simp only [moved, Nat.add_right_comm]
  · simp only [moved, Nat.add_right_comm]

theorem Place.extent_moved (p : Place) (size : Nat) :
    (p.moved bytes lines).extent size = (p.extent size).moved bytes lines := by
  simp only [extent, moved, Span.moved, Nat.add_right_comm]

/-- Places keep their distance while the same clusters are read. -/
theorem parallel_moved : Parallel (fun p q => q = p.moved bytes lines) Eq where
  clusters := by
    rintro g _ rfl
    exact .same g
  past := by
    rintro p _ g _ rfl rfl
    exact Place.past_moved p g

theorem Located.Matches.eq_moved {α : Type} {x y : Located α}
    (m : x.Matches (SpanMatches fun p q => q = p.moved bytes lines) y) :
    y = x.moved bytes lines := by
  obtain ⟨item_eq, p, _, size, rfl, from_eq, to_eq⟩ := m
  rw [Located.moved, from_eq, ← Place.extent_moved, ← to_eq, ← item_eq]

/-- From a place further on, the same is read further on. -/
theorem Reading.moved {p : Place} {gs : List Cluster} {ls : List Lexeme}
    (reading : Reading ⟨p, gs⟩ ls) (bytes lines : Nat) :
    Reading ⟨p.moved bytes lines, gs⟩ (ls.map (Lexeme.moved bytes lines)) := by
  have together : (⟨p, gs⟩ : Cursor).Matches (fun p q => q = p.moved bytes lines) Eq
      ⟨p.moved bytes lines, gs⟩ := ⟨rfl, List.forall₂_refl gs⟩
  obtain ⟨ls', reading', alike⟩ := reading.exists_matches parallel_moved together
  have same : ls.map (Lexeme.moved bytes lines) = ls' := by
    rw [← List.forall₂_eq_eq_eq, List.forall₂_map_left_iff]
    apply alike.imp
    intro l l' found
    cases found with
    | ok m => rw [m.eq_moved, Lexeme.moved]
    | error m => rw [m.eq_moved, Lexeme.moved]
  rw [same]
  exact reading'

end Moved

/-! ## Texts with a line feed between them -/

section Seam

open Text (LineSeam)

variable {trail : List Cluster} {lineBreak : Cluster}

theorem Text.LineSeam.lineBreak_eq (seam : LineSeam trail lineBreak) :
    lineBreak = trail.flatten ++ ['\n'] := by
  cases seam <;> rfl

theorem Text.LineSeam.isLineEnd (seam : LineSeam trail lineBreak) : isLineEnd lineBreak := by
  rw [Language.isLineEnd_iff, seam.lineBreak_eq]
  exact List.mem_append_right _ List.mem_cons_self

theorem Text.LineSeam.closes (seam : LineSeam trail lineBreak) (tail : List Cluster) :
    Closes lineBreak tail := by
  refine ⟨?_, .inl seam.isLineEnd⟩
  cases seam <;> decide

/-- The carriage return that goes into a line break was white space before. -/
theorem Text.LineSeam.reading (seam : LineSeam trail lineBreak) {c : Cursor} {ls : List Lexeme}
    (reading : Reading c ls) : Reading (c.followedBy trail) ls := by
  cases seam with
  | feed =>
    rw [Cursor.followedBy, List.append_nil]
    exact reading
  | returned =>
    have closes : Closes ['\r'] [] := ⟨by decide, .inr rfl⟩
    have nothing : Reading ⟨c.endPlace.past ['\r'], []⟩ [] := .done rfl
    have joined := reading.followedBy closes rfl nothing fun _ => rfl
    rw [List.append_nil] at joined
    exact joined

/-- A source that goes on behind a line feed is read from the same place, and its
clusters are those of the two texts but for the line break. -/
theorem exists_ofSource_lineFeed (source more : String) :
    ∃ gs trail lineBreak, LineSeam trail lineBreak ∧
      (Cursor.ofSource source).rest = gs ++ trail ∧
      Cursor.ofSource (source ++ "\n" ++ more) =
        ⟨(Cursor.ofSource source).place, gs ++ lineBreak :: clusters more.toList⟩ := by
  have whole : (source ++ "\n" ++ more).toList = source.toList ++ '\n' :: more.toList := by
    simp
  by_cases marked : source.toList.head? = some Text.byteOrderMark
  · obtain ⟨cs, shape⟩ := List.head?_eq_some_iff.mp marked
    rw [shape, List.cons_append] at whole
    obtain ⟨gs, trail, lineBreak, seam, first, joined⟩ :=
      Text.exists_clusters_lineFeed cs more.toList
    refine ⟨gs, trail, lineBreak, seam, ?_, ?_⟩
    · rw [ofSource_of_marked shape, first]
    · rw [ofSource_of_marked shape, ofSource_of_marked whole, joined]
  · have unmarked : (source ++ "\n" ++ more).toList.head? ≠ some Text.byteOrderMark := by
      rw [whole]
      rcases front : source.toList with _ | ⟨c, cs⟩
      · rw [List.nil_append, List.head?_cons]
        decide
      · rw [front] at marked
        exact marked
    obtain ⟨gs, trail, lineBreak, seam, first, joined⟩ :=
      Text.exists_clusters_lineFeed source.toList more.toList
    refine ⟨gs, trail, lineBreak, seam, ?_, ?_⟩
    · rw [ofSource_of_unmarked marked, first]
    · rw [ofSource_of_unmarked marked, ofSource_of_unmarked unmarked, whole, joined]

/-- Behind the line break begins a line, one line feed and its byte further on than the
source. -/
theorem Text.LineSeam.place_eq (seam : LineSeam trail lineBreak) {source : String}
    {gs : List Cluster} (cut : (Cursor.ofSource source).rest = gs ++ trail) :
    ((Cursor.ofSource source).place.over gs).past lineBreak =
      Place.moved (source.utf8ByteSize + 1) (1 + source.toList.count '\n') ⟨0, 1, 1⟩ := by
  obtain ⟨whole, start⟩ := ofSource_spec source
  rw [cut] at whole
  have among : ∀ g ∈ gs, g ∈ clusters source.toList := by
    intro g inside
    rw [whole]
    exact List.mem_append_right _ (List.mem_append_left _ inside)
  have text : source.toList = (leadingMark source).flatten ++ (gs.flatten ++ trail.flatten) := by
    rw [← flatten_clusters source.toList, whole, List.flatten_append, List.flatten_append]
  have bytes : source.utf8ByteSize = byteSize source.toList := by
    rw [← utf8ByteSize_ofList, String.ofList_toList]
  have noTrail : trail.flatten.count '\n' = 0 := by
    cases seam <;> rfl
  have size : byteSize lineBreak = byteSize trail.flatten + 1 := by
    rw [seam.lineBreak_eq, byteSize_append]
    rfl
  rw [Place.past, if_pos seam.isLineEnd, Place.over_offset, Place.over_line among, start, size, bytes,
    text]
  simp only [byteSize_append, List.count_append, count_leadingMark, noTrail, Place.moved, Place.mk.injEq,
    and_true]
  omega

end Seam

/-- Two texts with a line feed between them are read line by line: first come the
lexemes of the one text and then those of the other, as many bytes and lines further on
as stand before it. The one text must not end in a glyph that waits for its operand,
and the other not begin with a byte order mark. -/
theorem lexemes_of_joined_texts (source more : String)
    (unmarked : more.toList.head? ≠ some Text.byteOrderMark)
    (complete : ¬ EndsLacking (Lexer.ofSource source).lexemes) :
    (Lexer.ofSource (source ++ "\n" ++ more)).lexemes =
      (Lexer.ofSource source).lexemes ++ (Lexer.ofSource more).lexemes.map
        (Lexeme.moved (source.utf8ByteSize + 1) (1 + source.toList.count '\n')) := by
  obtain ⟨gs, trail, lineBreak, seam, cut, joined⟩ := exists_ofSource_lineFeed source more
  have first : Reading ⟨(Cursor.ofSource source).place, gs⟩ (Lexer.ofSource source).lexemes := by
    obtain ⟨ls, reading⟩ := Reading.exists ⟨(Cursor.ofSource source).place, gs⟩
    have whole := seam.reading reading
    rw [Cursor.followedBy, ← cut] at whole
    have same : (Lexer.ofSource source).lexemes = ls := whole.lexemes_eq
    rw [same]
    exact reading
  have second : Reading ⟨⟨0, 1, 1⟩, clusters more.toList⟩ (Lexer.ofSource more).lexemes := by
    rw [reading_iff_lexemes, Lexer.ofSource, ofSource_of_unmarked unmarked]
  have further := second.moved (source.utf8ByteSize + 1) (1 + source.toList.count '\n')
  rw [← seam.place_eq cut] at further
  have both := first.followedBy (seam.closes _) rfl further fun lacking => absurd lacking complete
  rw [Cursor.followedBy, ← joined] at both
  exact both.lexemes_eq

/-- Neither the glyph with a bad operand nor the comment that ends in a carriage return
says anything of the next line, and the accent that begins it joins nothing before it. -/
theorem lexemes_of_joined_texts_after_error :
    (Lexer.ofSource "📥 x ; 🍕\r").lexemes =
        [.ok ⟨.ofGlyph (.op .push), ⟨0, 4, 1, 1⟩⟩, .error ⟨.invalidLiteral "x", ⟨5, 6, 1, 3⟩⟩] ∧
      (Lexer.ofSource ("📥 x ; 🍕\r" ++ "\n" ++ "\u0301 7")).lexemes =
        (Lexer.ofSource "📥 x ; 🍕\r").lexemes ++ (Lexer.ofSource "\u0301 7").lexemes.map
          (Lexeme.moved 15 1) := by
  have first : (Lexer.ofSource "📥 x ; 🍕\r").lexemes =
      [.ok ⟨.ofGlyph (.op .push), ⟨0, 4, 1, 1⟩⟩, .error ⟨.invalidLiteral "x", ⟨5, 6, 1, 3⟩⟩] := by
    decide +kernel
  refine ⟨first, lexemes_of_joined_texts _ _ (by decide) ?_⟩
  rintro ⟨glyph, expected, span, last⟩
  rw [first] at last
  cases last

end GlyphMachine
