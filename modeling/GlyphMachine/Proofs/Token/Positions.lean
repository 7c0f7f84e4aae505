import GlyphMachine.Proofs.Language.Words
import GlyphMachine.Proofs.Text.SavedText
import GlyphMachine.Proofs.Token.Reading

/-!
# Positions of lexemes

Every lexeme carries the span of the text it was read from. `Cursor.Advances` says
which clusters lie between two cursors and composes like a path; skipping layout
and taking a word are such paths. `Stands` puts a lexeme on its clusters, and
`Reading.stands` carries it over a whole reading. `exists_covers_of_mem_lexemes`
says the same of the characters of the source: the span is cut out between
characters, lies on one line, and what it covers is what the lexeme names.
-/

namespace GlyphMachine

open Text (Cluster)

/-! ## Spans as cuts of a text -/

/-- The text before a span, under it and after it, if the span begins and ends
between two characters. -/
def Span.cut? (s : Span) (source : List Char) : Option (List Char × List Char × List Char) :=
  if s.stop < s.start then none
  else do
    let (before, rest) ← Text.splitAtByte? s.start source
    let (text, after) ← Text.splitAtByte? (s.stop - s.start) rest
    return (before, text, after)

/-- A span cuts the text in three exactly at its two byte offsets. -/
theorem Span.cut?_eq_some_iff {s : Span} {source before text after : List Char} :
    s.cut? source = some (before, text, after) ↔
      source = before ++ text ++ after ∧ s.start = Text.byteSize before ∧
        s.stop = Text.byteSize before + Text.byteSize text := by
  unfold cut?
  constructor
  · intro cut
    split at cut
    · cases cut
    · rename_i ordered
      simp only [Option.bind_eq_bind, Option.bind_eq_some_iff, Prod.exists] at cut
      obtain ⟨front, rest, first, covered, back, second, ⟨⟩⟩ := cut
      obtain ⟨rfl, startSize⟩ := Text.splitAtByte?_eq_some first
      obtain ⟨rfl, length⟩ := Text.splitAtByte?_eq_some second
      refine ⟨?_, startSize.symm, by omega⟩
      rw [List.append_assoc]
  · intro parts
    obtain ⟨rfl, start_eq, stop_eq⟩ := parts
    have length : s.stop - s.start = Text.byteSize text := by omega
    have first := Text.splitAtByte?_append before (text ++ after)
    have second := Text.splitAtByte?_append text after
    rw [if_neg (by omega), length, start_eq, List.append_assoc, first]
    simp [second]

/-- The span covers the text, which stands on one line between `before` and
`after`. -/
structure Span.Covers (s : Span) (source before text after : List Char) : Prop where
  source_eq : source = before ++ text ++ after
  start_eq : s.start = Text.byteSize before
  stop_eq : s.stop = Text.byteSize before + Text.byteSize text
  line_eq : s.line = 1 + before.count '\n'
  nonempty : text ≠ []
  unbroken : '\n' ∉ text
  unreturned : '\r' ∉ text

namespace Span.Covers

variable {s : Span} {source before text after : List Char}

theorem start_lt_stop (covers : s.Covers source before text after) : s.start < s.stop := by
  have positive := Text.byteSize_pos covers.nonempty
  rw [covers.start_eq, covers.stop_eq]
  omega

theorem cut?_eq (covers : s.Covers source before text after) :
    s.cut? source = some (before, text, after) :=
  Span.cut?_eq_some_iff.mpr ⟨covers.source_eq, covers.start_eq, covers.stop_eq⟩

end Span.Covers

/-! ## Places behind clusters -/

/-- The place behind some clusters. -/
def Place.over (p : Place) (gs : List Cluster) : Place :=
  gs.foldl Place.past p

namespace Place

@[simp] theorem over_nil (p : Place) : p.over [] = p := rfl

@[simp] theorem over_cons (p : Place) (g : Cluster) (gs : List Cluster) :
    p.over (g :: gs) = (p.past g).over gs := rfl

theorem over_append (p : Place) (gs hs : List Cluster) :
    p.over (gs ++ hs) = (p.over gs).over hs :=
  List.foldl_append ..

theorem past_offset (p : Place) (g : Cluster) :
    (p.past g).offset = p.offset + Text.byteSize g := by
  unfold past
  split <;> rfl

theorem over_offset (p : Place) (gs : List Cluster) :
    (p.over gs).offset = p.offset + Text.byteSize gs.flatten := by
  induction gs generalizing p with
  | nil => rfl
  | cons g gs ih =>
    rw [over_cons, ih, past_offset, List.flatten_cons, Text.byteSize_append, Nat.add_assoc]

theorem past_line {g : Cluster} {cs : List Char} (among : g ∈ Text.clusters cs) (p : Place) :
    (p.past g).line = p.line + g.count '\n' := by
  rw [Text.count_lineFeed_of_mem among]
  by_cases lineFeed : '\n' ∈ g
  · simp [past, isLineEnd, lineFeed]
  · simp [past, isLineEnd, lineFeed]

/-- A line is counted for every line feed. -/
theorem over_line {gs : List Cluster} {cs : List Char} (among : ∀ g ∈ gs, g ∈ Text.clusters cs)
    (p : Place) : (p.over gs).line = p.line + gs.flatten.count '\n' := by
  induction gs generalizing p with
  | nil => rfl
  | cons g gs ih =>
    obtain ⟨first, later⟩ := List.forall_mem_cons.mp among
    rw [over_cons, ih later, past_line first, List.flatten_cons, List.count_append,
      Nat.add_assoc]

end Place

/-! ## From cursor to cursor -/

/-- `c.Advances gs d`: the clusters `gs` lie between the cursors `c` and `d`. -/
structure Cursor.Advances (c : Cursor) (gs : List Cluster) (d : Cursor) : Prop where
  rest_eq : c.rest = gs ++ d.rest
  place_eq : d.place = c.place.over gs

namespace Cursor

variable {c d e : Cursor} {gs hs : List Cluster}

theorem Advances.refl (c : Cursor) : c.Advances [] c :=
  ⟨rfl, rfl⟩

theorem Advances.trans (first : c.Advances gs d) (second : d.Advances hs e) :
    c.Advances (gs ++ hs) e where
  rest_eq := by rw [first.rest_eq, second.rest_eq, List.append_assoc]
  place_eq := by rw [second.place_eq, first.place_eq, Place.over_append]

theorem Advances.cons {p : Place} {g : Cluster} {rest : List Cluster}
    (later : (⟨p.past g, rest⟩ : Cursor).Advances gs d) :
    (⟨p, g :: rest⟩ : Cursor).Advances (g :: gs) d where
  rest_eq := congrArg (g :: ·) later.rest_eq
  place_eq := later.place_eq

/-- The step over one cluster. -/
theorem advances_past (p : Place) (g : Cluster) (rest : List Cluster) :
    (⟨p, g :: rest⟩ : Cursor).Advances [g] ⟨p.past g, rest⟩ :=
  .cons (.refl _)

theorem exists_advances_skipLayout (inComment : Bool) (p : Place) (gs : List Cluster) :
    ∃ layout, (⟨p, gs⟩ : Cursor).Advances layout (skipLayout inComment p gs) := by
  fun_induction skipLayout inComment p gs with
  | case1 | case5 => exact ⟨[], .refl _⟩
  | case2 _ p g rest _ ih | case3 _ p g rest _ _ ih | case4 _ p g rest _ _ _ ih =>
    obtain ⟨layout, advances⟩ := ih
    exact ⟨g :: layout, .cons advances⟩

/-- What is not skipped is not white space. -/
theorem not_blank_of_skip {p : Place} {g : Cluster} {rest : List Cluster}
    (skipped : c.skip = ⟨p, g :: rest⟩) : ¬ isBlankCluster g := by
  suffices general : ∀ inComment p gs, ∀ q h hs,
      skipLayout inComment p gs = ⟨q, h :: hs⟩ → ¬ isBlankCluster h from
    general _ _ _ _ _ _ skipped
  intro inComment p gs
  fun_induction skipLayout inComment p gs with
  | case1 =>
    rintro q h hs ⟨⟩
  | case2 _ _ _ _ _ ih | case3 _ _ _ _ _ _ ih | case4 _ _ _ _ _ _ _ ih => exact ih
  | case5 _ _ _ _ _ solid =>
    rintro q h hs ⟨⟩
    exact solid

/-- Behind what was skipped there is nothing more to skip. -/
theorem skip_skip (c : Cursor) : c.skip.skip = c.skip := by
  suffices general : ∀ inComment p gs,
      (skipLayout inComment p gs).skip = skipLayout inComment p gs from general _ _ _
  intro inComment p gs
  fun_induction skipLayout inComment p gs with
  | case1 => rfl
  | case2 _ _ _ _ _ ih | case3 _ _ _ _ _ _ ih | case4 _ _ _ _ _ _ _ ih => exact ih
  | case5 inComment p g rest outside solid plain =>
    rw [skip, skipLayout, if_neg (by simp), if_neg solid, if_neg plain]

/-- The word at a cursor is made of the clusters up to the cursor after it. -/
theorem advances_takeWord (p : Place) (gs : List Cluster) :
    (⟨p, gs⟩ : Cursor).Advances ((takeWord p gs).1.map fun c => [c]) (takeWord p gs).2 := by
  fun_induction takeWord p gs with
  | case1 => exact .refl _
  | case2 p g rest c isWord word after taken ih =>
    obtain ⟨rfl, -⟩ := Language.wordChar?_eq_some_iff.mp isWord
    rw [taken] at ih
    exact .cons ih
  | case3 => exact .refl _

theorem advances_word {w : List Char} (taken : c.word = (w, d)) :
    c.Advances (w.map fun e => [e]) d := by
  have advances := advances_takeWord c.place c.rest
  rw [show takeWord c.place c.rest = (w, d) from taken] at advances
  exact advances

theorem wordChar_of_mem_takeWord (p : Place) (gs : List Cluster) :
    ∀ c ∈ (takeWord p gs).1, Language.WordChar c := by
  fun_induction takeWord p gs with
  | case1 => simp
  | case2 p g rest c isWord word after taken ih =>
    rw [taken] at ih
    exact List.forall_mem_cons.mpr ⟨(Language.wordChar?_eq_some_iff.mp isWord).2, ih⟩
  | case3 => simp

/-- The cursor `d` lies behind `c` in the same text. -/
def Reaches (c d : Cursor) : Prop :=
  ∃ gs, c.Advances gs d

theorem Reaches.refl (c : Cursor) : c.Reaches c :=
  ⟨[], .refl c⟩

theorem Reaches.skip (reached : c.Reaches d) (skipped : d.skip = e) : c.Reaches e := by
  obtain ⟨gs, advances⟩ := reached
  obtain ⟨layout, skips⟩ := exists_advances_skipLayout false d.place d.rest
  subst skipped
  exact ⟨gs ++ layout, advances.trans skips⟩

theorem Reaches.past {p : Place} {g : Cluster} {rest : List Cluster}
    (reached : c.Reaches ⟨p, g :: rest⟩) : c.Reaches ⟨p.past g, rest⟩ := by
  obtain ⟨gs, advances⟩ := reached
  exact ⟨gs ++ [g], advances.trans (advances_past p g rest)⟩

theorem Reaches.word {w : List Char} (reached : c.Reaches d) (taken : d.word = (w, e)) :
    c.Reaches e := by
  obtain ⟨gs, advances⟩ := reached
  exact ⟨_, advances.trans (advances_word taken)⟩

end Cursor

/-! ## What a lexeme names -/

namespace Lexeme

/-- The place of a lexeme. -/
def span : Lexeme → Span
  | .ok token => token.span
  | .error error => error.span

/-- The lexeme is about this text: its glyph is the one the text spells, its number
the one the text writes, and any other text it carries is the text itself. -/
inductive Names : Lexeme → List Char → Prop
  | glyph {glyph : Glyph} {text : List Char} {span : Span} :
    Glyph.ofCluster? text = some glyph → Names (.ok ⟨.ofGlyph glyph, span⟩) text
  | literal {value : Word} {text : List Char} {span : Span} :
    Word.ofText? text = some value → Names (.ok ⟨.literal value, span⟩) text
  | label {text : List Char} {span : Span} : Language.Identifier text →
    Names (.ok ⟨.label (String.ofList text), span⟩) text
  | unknownGlyph {text : List Char} {span : Span} : Glyph.ofCluster? text = none →
    Names (.error ⟨.unknownGlyph (String.ofList text), span⟩) text
  | missingOperand {glyph : Glyph} {text : List Char} {span : Span} :
    Glyph.ofCluster? text = some glyph → glyph.arity ≠ .none →
    Names (.error ⟨.missingOperand glyph glyph.arity, span⟩) text
  | invalidLiteral {text : List Char} {span : Span} : Word.ofText? text = none →
    Names (.error ⟨.invalidLiteral (String.ofList text), span⟩) text
  | invalidLabel {text : List Char} {span : Span} : ¬ Language.Identifier text →
    Names (.error ⟨.invalidLabel (String.ofList text), span⟩) text

theorem literal_names (w : List Char) (s : Span) :
    (literal w s).Names w ∧ span (literal w s) = s := by
  unfold literal
  split
  · rename_i value read
    exact ⟨.literal read, rfl⟩
  · rename_i unread
    exact ⟨.invalidLiteral unread, rfl⟩

theorem label_names (w : List Char) (s : Span) :
    (label w s).Names w ∧ span (label w s) = s := by
  unfold label
  split
  · rename_i name
    exact ⟨.label (Language.isLabelName_iff.mp name), rfl⟩
  · rename_i noName
    exact ⟨.invalidLabel fun name => noName (Language.isLabelName_iff.mpr name), rfl⟩

theorem ofWord_names (w : List Char) (s : Span) :
    (ofWord w s).Names w ∧ span (ofWord w s) = s := by
  unfold ofWord
  split
  · exact literal_names w s
  · exact label_names w s

theorem operand_names (arity : Arity) (w : List Char) (s : Span) :
    (operand arity w s).Names w ∧ span (operand arity w s) = s := by
  cases arity with
  | integer => exact literal_names w s
  | target => exact ofWord_names w s
  | none | name => exact label_names w s

end Lexeme

/-! ## Lexemes on their clusters -/

/-- The lexeme stands on the clusters `covered`, which lie behind `before`. -/
structure Stands (origin : Cursor) (before covered : List Cluster) (l : Lexeme) : Prop where
  span_eq : ∃ start stop, origin.Advances before start ∧ start.Advances covered stop ∧
    Lexeme.span l = start.place.spanTo stop.place
  nonempty : covered ≠ []
  solid : ∀ g ∈ covered, ¬ isBlankCluster g
  names : l.Names covered.flatten

section Standing

variable {origin start stop : Cursor} {p : Place} {g : Cluster} {rest : List Cluster}
  {w : List Char} {l : Lexeme}

/-- A lexeme about the cluster at a cursor. -/
theorem stands_of_cluster (reached : origin.Reaches ⟨p, g :: rest⟩)
    (solid : ¬ isBlankCluster g) (span_eq : Lexeme.span l = p.spanTo (p.past g))
    (names : l.Names g) : ∃ before covered, Stands origin before covered l := by
  obtain ⟨before, advances⟩ := reached
  refine ⟨before, [g], ?_, List.cons_ne_nil _ _, ?_, ?_⟩
  · exact ⟨_, _, advances, Cursor.advances_past p g rest, span_eq⟩
  · intro h among
    obtain rfl := List.mem_singleton.mp among
    exact solid
  · rw [List.flatten_singleton]
    exact names

/-- A lexeme about the word at a cursor. -/
theorem stands_of_word (reached : origin.Reaches start) (taken : start.word = (w, stop))
    (nonempty : w ≠ []) (span_eq : Lexeme.span l = start.place.spanTo stop.place)
    (names : l.Names w) : ∃ before covered, Stands origin before covered l := by
  obtain ⟨before, advances⟩ := reached
  have chars := Cursor.wordChar_of_mem_takeWord start.place start.rest
  rw [show Cursor.takeWord start.place start.rest = (w, stop) from taken] at chars
  refine ⟨before, w.map fun d => [d], ?_, ?_, ?_, ?_⟩
  · exact ⟨start, stop, advances, Cursor.advances_word taken, span_eq⟩
  · rw [ne_eq, List.map_eq_nil_iff]
    exact nonempty
  · intro g among
    obtain ⟨d, inWord, rfl⟩ := List.mem_map.mp among
    rw [Language.isBlankCluster_iff]
    intro blank
    exact Language.not_isBlank_of_wordChar (chars d inWord) (blank d (List.mem_singleton_self d))
  · rw [← List.flatMap_def, List.flatMap_singleton']
    exact names

end Standing

/-- Every lexeme of a reading stands on clusters of what is read. -/
theorem Reading.stands {origin c : Cursor} {ls : List Lexeme} (reading : Reading c ls)
    (reached : origin.Reaches c) : ∀ l ∈ ls, ∃ before covered, Stands origin before covered l := by
  -- Each rule reads one cluster or word behind the layout, and the next one goes on behind that.
  induction reading with
  | done => simp
  | @word c start stop w ls skipped taken nonempty _ ih =>
    have there := reached.skip skipped
    obtain ⟨names, span_eq⟩ := Lexeme.ofWord_names w (start.place.spanTo stop.place)
    have first := stands_of_word there taken nonempty span_eq names
    exact List.forall_mem_cons.mpr ⟨first, ih (there.word taken)⟩
  | unknown skipped _ unnamed _ ih =>
    have there := reached.skip skipped
    have solid := Cursor.not_blank_of_skip skipped
    have first := stands_of_cluster there solid rfl (.unknownGlyph unnamed)
    exact List.forall_mem_cons.mpr ⟨first, ih there.past⟩
  | plain skipped _ named _ _ ih =>
    have there := reached.skip skipped
    have solid := Cursor.not_blank_of_skip skipped
    have first := stands_of_cluster there solid rfl (.glyph named)
    exact List.forall_mem_cons.mpr ⟨first, ih there.past⟩
  | missing skipped _ named arity after _ _ ih =>
    have there := reached.skip skipped
    have solid := Cursor.not_blank_of_skip skipped
    have first := stands_of_cluster there solid rfl (.glyph named)
    have second := stands_of_cluster there solid rfl (.missingOperand named arity)
    have later := ih (there.past.skip after)
    exact List.forall_mem_cons.mpr ⟨first, List.forall_mem_cons.mpr ⟨second, later⟩⟩
  | @operand c start stop p g rest glyph w ls skipped _ named _ after taken nonempty _ ih =>
    have there := reached.skip skipped
    have behind := there.past.skip after
    have solid := Cursor.not_blank_of_skip skipped
    obtain ⟨names, span_eq⟩ := Lexeme.operand_names glyph.arity w (start.place.spanTo stop.place)
    have first := stands_of_cluster there solid rfl (.glyph named)
    have second := stands_of_word behind taken nonempty span_eq names
    have later := ih (behind.word taken)
    exact List.forall_mem_cons.mpr ⟨first, List.forall_mem_cons.mpr ⟨second, later⟩⟩

/-! ## Lexemes in their source -/

/-- The byte order mark at the front of a source, which is no part of the program. -/
def leadingMark (source : String) : List Cluster :=
  if source.toList.head? = some Text.byteOrderMark then [[Text.byteOrderMark]] else []

/-- A byte order mark breaks no line. -/
theorem count_leadingMark (source : String) : (leadingMark source).flatten.count '\n' = 0 := by
  unfold leadingMark
  split <;> rfl

theorem ofSource_of_unmarked {source : String}
    (unmarked : source.toList.head? ≠ some Text.byteOrderMark) :
    Cursor.ofSource source = ⟨⟨0, 1, 1⟩, Text.clusters source.toList⟩ := by
  unfold Cursor.ofSource
  split
  · rename_i c rest cut
    have whole := Text.flatten_clusters source.toList
    rw [cut] at whole
    have other : c ≠ Text.byteOrderMark := by
      intro isMark
      rw [← whole, isMark] at unmarked
      exact unmarked rfl
    rw [if_neg other, cut]
  · rfl

theorem ofSource_of_marked {source : String} {cs : List Char}
    (marked : source.toList = Text.byteOrderMark :: cs) :
    Cursor.ofSource source =
      ⟨⟨Text.byteSize [Text.byteOrderMark], 1, 1⟩, Text.clusters cs⟩ := by
  unfold Cursor.ofSource
  rw [marked, Text.clusters_byteOrderMark]
  rfl

/-- The cursor of a source stands at its start, or behind its byte order mark. -/
theorem ofSource_spec (source : String) :
    Text.clusters source.toList = leadingMark source ++ (Cursor.ofSource source).rest ∧
      (Cursor.ofSource source).place = ⟨Text.byteSize (leadingMark source).flatten, 1, 1⟩ := by
  by_cases marked : source.toList.head? = some Text.byteOrderMark
  · obtain ⟨cs, shape⟩ := List.head?_eq_some_iff.mp marked
    rw [leadingMark, if_pos marked, ofSource_of_marked shape, shape, Text.clusters_byteOrderMark]
    exact ⟨rfl, rfl⟩
  · rw [leadingMark, if_neg marked, ofSource_of_unmarked marked]
    exact ⟨rfl, rfl⟩

/-- What stands on clusters of a source covers the characters of these clusters. -/
theorem Stands.covers {source : String} {before covered : List Cluster} {l : Lexeme}
    (stands : Stands (.ofSource source) before covered l) :
    ∃ after, Text.clusters source.toList = leadingMark source ++ before ++ covered ++ after ∧
      (Lexeme.span l).Covers source.toList (leadingMark source ++ before).flatten
        covered.flatten after.flatten := by
  obtain ⟨⟨start, stop, toStart, toStop, span_eq⟩, nonempty, solid, -⟩ := stands
  obtain ⟨cut, place_eq⟩ := ofSource_spec source
  have whole : Text.clusters source.toList =
      leadingMark source ++ before ++ covered ++ stop.rest := by
    rw [cut, toStart.rest_eq, toStop.rest_eq, List.append_assoc, List.append_assoc]
  have among : ∀ g ∈ covered, g ∈ Text.clusters source.toList := by
    intro g inside
    rw [whole]
    simp [inside]
  have amongBefore : ∀ g ∈ before, g ∈ Text.clusters source.toList := by
    intro g inside
    rw [whole]
    simp [inside]
  -- Both line breaks are white space, so neither is part of a lexeme.
  have unbroken : '\n' ∉ covered.flatten := by
    intro lineFeed
    obtain ⟨g, inside, inCluster⟩ := List.mem_flatten.mp lineFeed
    rcases Text.eq_of_lineFeed_mem (among g inside) inCluster with rfl | rfl
    · exact solid _ inside (by decide)
    · exact solid _ inside (by decide)
  have unreturned : '\r' ∉ covered.flatten := by
    intro carriageReturn
    obtain ⟨g, inside, inCluster⟩ := List.mem_flatten.mp carriageReturn
    rcases Text.eq_of_carriageReturn_mem (among g inside) inCluster with rfl | rfl
    · exact solid _ inside (by decide)
    · exact solid _ inside (by decide)
  have filled : covered.flatten ≠ [] := by
    obtain ⟨g, rest, rfl⟩ := List.exists_cons_of_ne_nil nonempty
    have first := (Text.mem_clusters_cases (among g List.mem_cons_self)).1
    simp [first]
  refine ⟨stop.rest, whole, ?_, ?_, ?_, ?_, filled, unbroken, unreturned⟩
  · rw [← List.flatten_append, ← List.flatten_append, ← whole, Text.flatten_clusters]
  · rw [span_eq, Place.spanTo, toStart.place_eq, Place.over_offset, place_eq,
      List.flatten_append, Text.byteSize_append]
  · rw [span_eq, Place.spanTo, toStop.place_eq, Place.over_offset, toStart.place_eq,
      Place.over_offset, place_eq, List.flatten_append, Text.byteSize_append]
  · rw [span_eq, Place.spanTo, toStart.place_eq, Place.over_line amongBefore, place_eq,
      List.flatten_append, List.count_append, count_leadingMark, Nat.zero_add]

/-- A token of a source was given out by the lexer. -/
theorem mem_lexemes_of_tokenize {source : String} {tokens : List (Located Token)}
    (tokenized : tokenize source = .ok tokens) {token : Located Token} (among : token ∈ tokens) :
    .ok token ∈ (Lexer.ofSource source).lexemes := by
  rw [gather_eq_ok_iff.mp tokenized]
  exact List.mem_map_of_mem among

/-- Every lexeme of a source covers the text it names, on one line of the source. -/
theorem exists_covers_of_mem_lexemes {source : String} {l : Lexeme}
    (given : l ∈ (Lexer.ofSource source).lexemes) :
    ∃ before text after, (Lexeme.span l).Covers source.toList before text after ∧ l.Names text := by
  have reading : Reading (.ofSource source) (Lexer.ofSource source).lexemes :=
    reading_iff_lexemes.mpr rfl
  obtain ⟨before, covered, stands⟩ := reading.stands (.refl _) l given
  obtain ⟨after, -, covers⟩ := stands.covers
  exact ⟨_, covered.flatten, after.flatten, covers, stands.names⟩

end GlyphMachine
