import GlyphMachine.Proofs.Language.Tokens
import GlyphMachine.Proofs.Token.Positions
import Mathlib.Data.List.Forall2

/-!
# Matching readings

Two texts can differ in their layout, or in how they spell a glyph, and still be read
alike. `Cursor.Alike` says that the same clusters come behind two cursors, whatever layout
stands before each of them; what the lexer then gives out is the same, at matching places
(`Reading.exists_alike`). Which places and spans match is left open (`Legible`).

Texts that differ in their line breaks only are a case of it: `Cursor.Matches` says that
the clusters behind two cursors match one by one and that the cursors stand at places which
match in some way that reading on keeps (`Parallel`).
-/

namespace GlyphMachine

open Text (Cluster)

/-! ## The same at another place -/

/-- The same thing at a place that matches. -/
structure Located.Matches {α : Type} (S : Span → Span → Prop) (x y : Located α) : Prop where
  item_eq : y.item = x.item
  span : S x.span y.span

/-- What is the same in matching things is the same in lists of them. -/
theorem map_eq_of_matches {α β : Type} {S : Span → Span → Prop} {f : Located α → β}
    (same : ∀ x y, x.Matches S y → f y = f x) {xs ys : List (Located α)}
    (m : List.Forall₂ (Located.Matches S) xs ys) : ys.map f = xs.map f := by
  induction m with
  | nil => rfl
  | cons first _ ih => rw [List.map_cons, List.map_cons, same _ _ first, ih]

/-- Both are successes or both are failures, and match as such. -/
inductive ExceptMatches {ε ε' α α' : Type} (E : ε → ε' → Prop) (A : α → α' → Prop) :
    Except ε α → Except ε' α' → Prop
  | ok {x : α} {y : α'} : A x y → ExceptMatches E A (.ok x) (.ok y)
  | error {x : ε} {y : ε'} : E x y → ExceptMatches E A (.error x) (.error y)

theorem ExceptMatches.imp {ε ε' α α' : Type} {E F : ε → ε' → Prop} {A B : α → α' → Prop}
    {r : Except ε α} {r' : Except ε' α'} (m : ExceptMatches E A r r')
    (errors : ∀ x y, E x y → F x y) (values : ∀ x y, A x y → B x y) : ExceptMatches F B r r' := by
  cases m with
  | ok same => exact .ok (values _ _ same)
  | error same => exact .error (errors _ _ same)

theorem ExceptMatches.map {ε ε' α α' β β' : Type} {E : ε → ε' → Prop} {A : α → α' → Prop}
    {B : β → β' → Prop} {r : Except ε α} {r' : Except ε' α'} (m : ExceptMatches E A r r')
    {f : α → β} {g : α' → β'} (keeps : ∀ x y, A x y → B (f x) (g y)) :
    ExceptMatches E B (r.map f) (r'.map g) := by
  cases m with
  | ok same => exact .ok (keeps _ _ same)
  | error same => exact .error same

section Results

variable {ε ε' α α' : Type} {E : ε → ε' → Prop} {A : α → α' → Prop}
  {rs : List (Except ε α)} {rs' : List (Except ε' α')}

theorem failures_matches (h : List.Forall₂ (ExceptMatches E A) rs rs') :
    List.Forall₂ E (failures rs) (failures rs') := by
  induction h with
  | nil => exact .nil
  | cons first _ ih =>
    cases first with
    | ok => exact ih
    | error same => exact .cons same ih

theorem successes_matches (h : List.Forall₂ (ExceptMatches E A) rs rs') :
    List.Forall₂ A (successes rs) (successes rs') := by
  induction h with
  | nil => exact .nil
  | cons first _ ih =>
    cases first with
    | ok same => exact .cons same ih
    | error => exact ih

/-- Results that match are gathered into lists that match. -/
theorem gather_matches (h : List.Forall₂ (ExceptMatches E A) rs rs') :
    ExceptMatches (List.Forall₂ E) (List.Forall₂ A) (gather rs) (gather rs') := by
  have failed := failures_matches h
  unfold gather
  generalize failures rs = es at failed ⊢
  generalize failures rs' = fs at failed ⊢
  cases failed with
  | nil => exact .ok (successes_matches h)
  | cons first later => exact .error (.cons first later)

end Results

/-- Lexemes, or other results with places, that are the same at places that match. -/
abbrev ResultMatches {ε α : Type} (S : Span → Span → Prop) :
    Except (Located ε) (Located α) → Except (Located ε) (Located α) → Prop :=
  ExceptMatches (Located.Matches S) (Located.Matches S)

/-! ## Cursors that match -/

/-- The same cluster, or line breaks of one and of two characters. -/
inductive ClusterMatches : Cluster → Cluster → Prop
  | same (g : Cluster) : ClusterMatches g g
  | lineBreak : ClusterMatches ['\n'] ['\r', '\n']

namespace ClusterMatches

variable {g h : Cluster}

theorem isLineEnd_eq (m : ClusterMatches g h) : isLineEnd h = isLineEnd g := by
  cases m <;> rfl

theorem isBlankCluster_eq (m : ClusterMatches g h) : isBlankCluster h = isBlankCluster g := by
  cases m with
  | same => rfl
  | lineBreak => decide

theorem isCommentStart_eq (m : ClusterMatches g h) : isCommentStart h = isCommentStart g := by
  cases m <;> rfl

theorem wordChar?_eq (m : ClusterMatches g h) : wordChar? h = wordChar? g := by
  cases m with
  | same => rfl
  | lineBreak => decide

/-- Only white space differs. -/
theorem eq_of_not_blank (m : ClusterMatches g h) (solid : ¬ isBlankCluster g) : h = g := by
  cases m with
  | same => rfl
  | lineBreak => exact absurd (by decide) solid

end ClusterMatches

/-- Reading on over clusters of this kind keeps places matched. -/
structure Parallel (R : Place → Place → Prop) (K : Cluster → Cluster → Prop) : Prop where
  clusters : ∀ {g h}, K g h → ClusterMatches g h
  past : ∀ {p q g h}, R p q → K g h → R (p.past g) (q.past h)

/-- The cursors stand at places that match, and what comes after them matches. -/
structure Cursor.Matches (R : Place → Place → Prop) (K : Cluster → Cluster → Prop)
    (c d : Cursor) : Prop where
  place : R c.place d.place
  rest : List.Forall₂ K c.rest d.rest

namespace Cursor.Matches

variable {R : Place → Place → Prop} {K : Cluster → Cluster → Prop} {c d : Cursor}

theorem skipLayout (parallel : Parallel R K) {p q : Place} (inComment : Bool) (together : R p q)
    {gs hs : List Cluster} (rest : List.Forall₂ K gs hs) :
    (Cursor.skipLayout inComment p gs).Matches R K (Cursor.skipLayout inComment q hs) := by
  induction rest generalizing inComment p q with
  | nil => exact ⟨together, .nil⟩
  | @cons g h gs hs first rest ih =>
    have later := parallel.past together first
    have alike := parallel.clusters first
    simp only [Cursor.skipLayout, alike.isLineEnd_eq, alike.isBlankCluster_eq,
      alike.isCommentStart_eq]
    split
    · exact ih true later
    split
    · exact ih false later
    split
    · exact ih true later
    · exact ⟨together, .cons first rest⟩

theorem skip (parallel : Parallel R K) (m : c.Matches R K d) : c.skip.Matches R K d.skip :=
  skipLayout parallel false m.place m.rest

end Cursor.Matches

/-! ## Lexemes that match -/

/-- The span of so many bytes from a place on. -/
def Place.extent (p : Place) (size : Nat) : Span :=
  ⟨p.offset, p.offset + size, p.line, p.column⟩

/-- Spans of one size from places that match. -/
def SpanMatches (R : Place → Place → Prop) (s t : Span) : Prop :=
  ∃ p q size, R p q ∧ s = p.extent size ∧ t = q.extent size

theorem Place.spanTo_past (p : Place) (g : Cluster) :
    p.spanTo (p.past g) = p.extent (Text.byteSize g) := by
  rw [spanTo, past_offset, extent]

theorem Cursor.spanTo_word {c d : Cursor} {w : List Char} (taken : c.word = (w, d)) :
    c.place.spanTo d.place = c.place.extent (Text.byteSize w) := by
  have flat : (w.map fun e => [e]).flatten = w := by
    rw [← List.flatMap_def, List.flatMap_singleton']
  rw [Place.spanTo, (advances_word taken).place_eq, Place.over_offset, flat, Place.extent]

namespace Lexeme

variable {S : Span → Span → Prop} {s t : Span}

theorem literal_matches (w : List Char) (spans : S s t) :
    ResultMatches S (literal w s) (literal w t) := by
  unfold literal
  split
  · exact .ok ⟨rfl, spans⟩
  · exact .error ⟨rfl, spans⟩

theorem label_matches (w : List Char) (spans : S s t) :
    ResultMatches S (label w s) (label w t) := by
  unfold label
  split
  · exact .ok ⟨rfl, spans⟩
  · exact .error ⟨rfl, spans⟩

theorem ofWord_matches (w : List Char) (spans : S s t) :
    ResultMatches S (ofWord w s) (ofWord w t) := by
  unfold ofWord
  split
  · exact literal_matches w spans
  · exact label_matches w spans

theorem operand_matches (arity : Arity) (w : List Char) (spans : S s t) :
    ResultMatches S (operand arity w s) (operand arity w t) := by
  cases arity with
  | integer => exact literal_matches w spans
  | target => exact ofWord_matches w spans
  | none | name => exact label_matches w spans

end Lexeme

/-! ## Cursors that are read alike -/

/-- Clusters that are read alike: the same, or two spellings of one glyph. -/
inductive ReadAlike : Cluster → Cluster → Prop
  | same (g : Cluster) : ReadAlike g g
  | glyph {g h : Cluster} {glyph : Glyph} :
    Glyph.ofCluster? g = some glyph → Glyph.ofCluster? h = some glyph → ReadAlike g h

namespace ReadAlike

variable {g h : Cluster}

theorem wordChar?_eq (alike : ReadAlike g h) : wordChar? h = wordChar? g := by
  cases alike with
  | same => rfl
  | glyph named named' =>
    rw [Language.wordChar?_of_names (Language.ofCluster?_eq_some_iff_names.mp named),
      Language.wordChar?_of_names (Language.ofCluster?_eq_some_iff_names.mp named')]

theorem ofCluster?_eq (alike : ReadAlike g h) : Glyph.ofCluster? h = Glyph.ofCluster? g := by
  cases alike with
  | same => rfl
  | glyph named named' => rw [named, named']

/-- Only spellings of glyphs differ. -/
theorem eq_of_unnamed (alike : ReadAlike g h) (unnamed : Glyph.ofCluster? g = none) : h = g := by
  cases alike with
  | same => rfl
  | glyph named _ =>
    rw [unnamed] at named
    cases named

end ReadAlike

/-- Clusters of the kind `K` are read alike, and `S` relates what they and words span from places
that match. -/
structure Legible (R : Place → Place → Prop) (K : Cluster → Cluster → Prop)
    (S : Span → Span → Prop) : Prop where
  reads : ∀ {g h}, K g h → ReadAlike g h
  cluster : ∀ {p q g h}, R p q → K g h → S (p.extent (Text.byteSize g)) (q.extent (Text.byteSize h))
  word : ∀ {p q} size, R p q → S (p.extent size) (q.extent size)

namespace Cursor

/-- Clusters of the kind `K` come one after the other at places that match, whatever layout stands
before each of them, and where a word goes on at one cursor it goes on at the other. -/
inductive Alike (R : Place → Place → Prop) (K : Cluster → Cluster → Prop) :
    Cursor → Cursor → Prop
  | ended {c d : Cursor} : c.skip.rest = [] → d.skip.rest = [] → Alike R K c d
  | cluster {c d : Cursor} {p q : Place} {g h : Cluster} {gs hs : List Cluster} :
    c.skip = ⟨p, g :: gs⟩ → d.skip = ⟨q, h :: hs⟩ → R p q → K g h →
    (Language.StartsWord hs ↔ Language.StartsWord gs) → Alike R K ⟨p.past g, gs⟩ ⟨q.past h, hs⟩ →
    Alike R K c d

theorem skip_eq_of_startsWord {c : Cursor} (starts : Language.StartsWord c.rest) : c.skip = c := by
  obtain ⟨e, rest, split, wordChar⟩ := starts
  have solid := Language.not_blank_of_wordChar wordChar
  have plain := Language.ne_semicolon_of_wordChar wordChar
  rw [skip, split, Language.skipLayout_cons_of_not _ solid plain, ← split]

theorem word_of_not_startsWord {c : Cursor} (stopped : ¬ Language.StartsWord c.rest) :
    c.word = ([], c) := by
  rcases c with ⟨p, _ | ⟨g, rest⟩⟩
  · rfl
  · rw [Language.startsWord_cons_iff, Option.not_isSome_iff_eq_none] at stopped
    simp [word, takeWord, stopped]

theorem word_cons {p : Place} {g : Cluster} {e : Char} (rest : List Cluster)
    (isWord : wordChar? g = some e) :
    (⟨p, g :: rest⟩ : Cursor).word =
      (e :: (⟨p.past g, rest⟩ : Cursor).word.1, (⟨p.past g, rest⟩ : Cursor).word.2) := by
  simp [word, takeWord, isWord]

variable {R : Place → Place → Prop} {K : Cluster → Cluster → Prop} {S : Span → Span → Prop}
  {c d : Cursor}

/-- Whether cursors are alike depends on what stands behind the layout only. -/
theorem Alike.of_skip_eq {c' d' : Cursor} (alike : c.Alike R K d) (same : c'.skip = c.skip)
    (same' : d'.skip = d.skip) : c'.Alike R K d' := by
  cases alike with
  | ended ended ended' =>
    rw [← same] at ended
    rw [← same'] at ended'
    exact .ended ended ended'
  | cluster skipped skipped' place kind goesOn later =>
    exact .cluster (same.trans skipped) (same'.trans skipped') place kind goesOn later

theorem Alike.skip (alike : c.Alike R K d) : c.skip.Alike R K d.skip :=
  alike.of_skip_eq c.skip_skip d.skip_skip

/-- Behind the layout, words start at both cursors or at none. -/
theorem Alike.startsWord_skip (legible : Legible R K S) (alike : c.Alike R K d) :
    Language.StartsWord d.skip.rest ↔ Language.StartsWord c.skip.rest := by
  cases alike with
  | ended ended ended' => rw [ended, ended']
  | cluster skipped skipped' _ kind _ _ =>
    rw [skipped, skipped', Language.startsWord_cons_iff, Language.startsWord_cons_iff,
      (legible.reads kind).wordChar?_eq]

/-- Words that start at both cursors or at none are the same, and end at cursors that are alike
again. -/
theorem Alike.word (legible : Legible R K S) (alike : c.Alike R K d)
    (starts : Language.StartsWord d.rest ↔ Language.StartsWord c.rest) :
    d.word.1 = c.word.1 ∧ c.word.2.Alike R K d.word.2 := by
  by_cases here : Language.StartsWord c.rest
  case neg =>
    rw [word_of_not_startsWord here, word_of_not_startsWord (mt starts.mp here)]
    exact ⟨rfl, alike⟩
  -- No layout stands before a word, so its characters are the clusters that are alike.
  induction alike with
  | ended ended _ =>
    rw [skip_eq_of_startsWord here] at ended
    rw [ended] at here
    obtain ⟨e, rest, split, -⟩ := here
    cases split
  | @cluster c d p q g h gs hs skipped skipped' _ kind goesOn later ih =>
    rw [skip_eq_of_startsWord here] at skipped
    rw [skip_eq_of_startsWord (starts.mpr here)] at skipped'
    subst skipped skipped'
    obtain ⟨e, isWord⟩ := Option.isSome_iff_exists.mp (Language.startsWord_cons_iff.mp here)
    have isWord' := (legible.reads kind).wordChar?_eq.trans isWord
    have further : (⟨q.past h, hs⟩ : Cursor).word.1 = (⟨p.past g, gs⟩ : Cursor).word.1 ∧
        (⟨p.past g, gs⟩ : Cursor).word.2.Alike R K (⟨q.past h, hs⟩ : Cursor).word.2 := by
      by_cases more : Language.StartsWord gs
      · exact ih goesOn more
      · rw [word_of_not_startsWord (c := ⟨_, gs⟩) more,
          word_of_not_startsWord (c := ⟨_, hs⟩) (mt goesOn.mp more)]
        exact ⟨rfl, later⟩
    rw [word_cons _ isWord, word_cons _ isWord']
    exact ⟨congrArg (e :: ·) further.1, further.2⟩

/-- The word behind the layout stands behind the layout of the cursor that is alike, too. -/
theorem Alike.exists_word (legible : Legible R K S) {stop : Cursor} {w : List Char}
    (alike : c.Alike R K d) (taken : c.skip.word = (w, stop)) (nonempty : w ≠ []) :
    ∃ stop', d.skip.word = (w, stop') ∧ stop.Alike R K stop' ∧
      S (c.skip.place.spanTo stop.place) (d.skip.place.spanTo stop'.place) := by
  obtain ⟨same, after⟩ := alike.skip.word legible (alike.startsWord_skip legible)
  rw [taken] at same after
  have taken' : d.skip.word = (w, d.skip.word.2) := Prod.ext same rfl
  refine ⟨d.skip.word.2, taken', after, ?_⟩
  rw [spanTo_word taken, spanTo_word taken']
  cases alike with
  | ended ended _ =>
    rw [Cursor.word, ended, takeWord] at taken
    exact absurd (Prod.mk.inj taken).1.symm nonempty
  | cluster skipped skipped' place _ _ _ =>
    rw [skipped, skipped']
    exact legible.word _ place

/-- The cluster behind the layout is of one kind with that behind the layout of the cursor that is
alike. -/
theorem Alike.exists_cluster (legible : Legible R K S) {p : Place} {g : Cluster}
    {rest : List Cluster} (alike : c.Alike R K d) (skipped : c.skip = ⟨p, g :: rest⟩)
    (noWord : c.skip.word.1 = []) :
    ∃ q h hs, d.skip = ⟨q, h :: hs⟩ ∧ d.skip.word.1 = [] ∧ ReadAlike g h ∧
      (⟨p.past g, rest⟩ : Cursor).Alike R K ⟨q.past h, hs⟩ ∧
      S (p.spanTo (p.past g)) (q.spanTo (q.past h)) := by
  have same := (alike.skip.word legible (alike.startsWord_skip legible)).1
  cases alike with
  | ended ended _ =>
    rw [skipped] at ended
    cases ended
  | @cluster _ _ p' q g' h gs hs found found' place kind _ later =>
    obtain ⟨rfl, split⟩ := Cursor.mk.inj (skipped.symm.trans found)
    obtain ⟨rfl, rfl⟩ := List.cons.inj split
    refine ⟨q, h, hs, found', same.trans noWord, legible.reads kind, later, ?_⟩
    rw [Place.spanTo_past, Place.spanTo_past]
    exact legible.cluster place kind

end Cursor

/-! ## Readings that match -/

section Readings

variable {R : Place → Place → Prop} {K : Cluster → Cluster → Prop} {S : Span → Span → Prop}
  {c d : Cursor}

/-- From cursors that are alike, lexemes are read that match. -/
theorem Reading.exists_alike (legible : Legible R K S) {ls : List Lexeme}
    (reading : Reading c ls) (alike : c.Alike R K d) :
    ∃ ls', Reading d ls' ∧ List.Forall₂ (ResultMatches S) ls ls' := by
  induction reading generalizing d with
  | done ended =>
    cases alike with
    | ended _ ended' => exact ⟨[], .done ended', .nil⟩
    | cluster skipped _ _ _ _ _ =>
      rw [skipped] at ended
      cases ended
  | @word c start stop w ls skipped taken nonempty _ ih =>
    subst skipped
    obtain ⟨stop', taken', after, spans⟩ := alike.exists_word legible taken nonempty
    obtain ⟨ls', reading', later⟩ := ih after
    exact ⟨_, .word rfl taken' nonempty reading', .cons (Lexeme.ofWord_matches w spans) later⟩
  | unknown skipped noWord unnamed _ ih =>
    obtain ⟨q, h, hs, skipped', noWord', spelled, after, spans⟩ :=
      alike.exists_cluster legible skipped noWord
    obtain ⟨ls', reading', later⟩ := ih after
    obtain rfl := spelled.eq_of_unnamed unnamed
    exact ⟨_, .unknown skipped' noWord' unnamed reading', .cons (.error ⟨rfl, spans⟩) later⟩
  | plain skipped noWord named arity _ ih =>
    obtain ⟨q, h, hs, skipped', noWord', spelled, after, spans⟩ :=
      alike.exists_cluster legible skipped noWord
    obtain ⟨ls', reading', later⟩ := ih after
    exact ⟨_, .plain skipped' noWord' (spelled.ofCluster?_eq.trans named) arity reading',
      .cons (.ok ⟨rfl, spans⟩) later⟩
  | missing skipped noWord named arity behind lacking _ ih =>
    obtain ⟨q, h, hs, skipped', noWord', spelled, after, spans⟩ :=
      alike.exists_cluster legible skipped noWord
    subst behind
    have lacking' := (after.skip.word legible (after.startsWord_skip legible)).1.trans lacking
    obtain ⟨ls', reading', later⟩ := ih after.skip
    have named' := spelled.ofCluster?_eq.trans named
    exact ⟨_, .missing skipped' noWord' named' arity rfl lacking' reading',
      .cons (.ok ⟨rfl, spans⟩) (.cons (.error ⟨rfl, spans⟩) later)⟩
  | @operand c start stop p g rest glyph w ls skipped noWord named arity behind taken nonempty _
      ih =>
    obtain ⟨q, h, hs, skipped', noWord', spelled, after, spans⟩ :=
      alike.exists_cluster legible skipped noWord
    subst behind
    obtain ⟨stop', taken', further, wordSpans⟩ := after.exists_word legible taken nonempty
    obtain ⟨ls', reading', later⟩ := ih further
    have named' := spelled.ofCluster?_eq.trans named
    exact ⟨_, .operand skipped' noWord' named' arity rfl taken' nonempty reading',
      .cons (.ok ⟨rfl, spans⟩) (.cons (Lexeme.operand_matches glyph.arity w wordSpans) later)⟩

theorem legible_spanMatches : Legible R Eq (SpanMatches R) where
  reads := by
    rintro g h rfl
    exact .same g
  cluster := by
    rintro p q g h together rfl
    exact ⟨p, q, _, together, rfl, rfl⟩
  word size together := ⟨_, _, size, together, rfl, rfl⟩

/-- Words start at both cursors or at none. -/
theorem startsWord_of_forall₂ (parallel : Parallel R K) {gs hs : List Cluster}
    (rest : List.Forall₂ K gs hs) : Language.StartsWord hs ↔ Language.StartsWord gs := by
  cases rest with
  | nil => exact Iff.rfl
  | cons first _ =>
    rw [Language.startsWord_cons_iff, Language.startsWord_cons_iff,
      (parallel.clusters first).wordChar?_eq]

/-- Cursors that match are alike: only white space differs. -/
theorem Cursor.Matches.alike (parallel : Parallel R K) (m : c.Matches R K d) :
    c.Alike R Eq d := by
  induction size : c.rest.length using Nat.strongRecOn generalizing c d with
  | ind n ih =>
    have skips := m.skip parallel
    have skipLe := c.skip_rest_length_le
    rcases here : c.skip with ⟨p, _ | ⟨g, gs⟩⟩
    · rw [here] at skips
      exact .ended (by rw [here]) (List.forall₂_nil_left_iff.mp skips.rest)
    rcases there : d.skip with ⟨q, _ | ⟨h, hs⟩⟩
    · rw [here, there] at skips
      cases skips.rest
    rw [here, there] at skips
    rw [here, List.length_cons] at skipLe
    obtain ⟨first, later⟩ := List.forall₂_cons.mp skips.rest
    obtain rfl := (parallel.clusters first).eq_of_not_blank (Cursor.not_blank_of_skip here)
    have further : (⟨p.past h, gs⟩ : Cursor).Matches R K ⟨q.past h, hs⟩ :=
      ⟨parallel.past skips.place first, later⟩
    exact .cluster here there skips.place rfl (startsWord_of_forall₂ parallel later)
      (ih gs.length (by omega) further rfl)

/-- From cursors that match, lexemes are read that match. -/
theorem Reading.exists_matches (parallel : Parallel R K) {ls : List Lexeme}
    (reading : Reading c ls) (m : c.Matches R K d) :
    ∃ ls', Reading d ls' ∧ List.Forall₂ (ResultMatches (SpanMatches R)) ls ls' :=
  reading.exists_alike legible_spanMatches (m.alike parallel)

end Readings

end GlyphMachine
