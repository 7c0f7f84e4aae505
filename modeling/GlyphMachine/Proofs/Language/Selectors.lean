import GlyphMachine.Proofs.Language.Acceptance
import GlyphMachine.Proofs.Program.Matching
import GlyphMachine.Proofs.Text.Selectors
import GlyphMachine.Proofs.Token.Tiling

/-!
# Variation selectors do not change programs

In a source that is read without errors, selectors stand behind the emojis of glyphs and
in comments only. `Abreast` walks over two texts at once: clusters that are read alike, the
same white space, and comments of whatever length up to the ends of their lines.
`abreast_of_reselected` finds this walk for a source and the same source with other selectors,
and `Abreast.alike` turns it into lexemes at the same lines and columns.
-/

namespace GlyphMachine.Language

open Text (BreakClass Cluster clusters)

/-! ## The first cluster of a source without errors -/

/-- The clusters fall into pieces. -/
def Parsable (gs : List Cluster) : Prop :=
  ∃ ps, Pieces gs ps

/-- What the first of the clusters can be, where they fall into pieces. -/
inductive Opens : Cluster → List Cluster → Prop
  | blank {g : Cluster} {gs : List Cluster} : Blank g → Parsable gs → Opens g gs
  | comment {body gs : List Cluster} :
    (∀ g ∈ body, '\n' ∉ g) → StopsComment gs → Parsable gs → Opens [';'] (body ++ gs)
  | word {c : Char} {gs : List Cluster} : WordChar c → Parsable gs → Opens [c] gs
  | glyph {g : Cluster} {glyph : Glyph} {gs : List Cluster} :
    Names g glyph → Parsable gs → Opens g gs

theorem Parsable.opens {g : Cluster} {gs : List Cluster} (parsable : Parsable (g :: gs)) :
    Opens g gs := by
  obtain ⟨ps, pieces⟩ := parsable
  generalize whole : g :: gs = hs at pieces
  cases pieces with
  | nil => cases whole
  | blank blank later =>
    obtain ⟨rfl, rfl⟩ := List.cons.inj whole
    exact .blank blank ⟨_, later⟩
  | comment unbroken stops later =>
    obtain ⟨rfl, rfl⟩ := List.cons.inj whole
    exact .comment unbroken stops ⟨_, later⟩
  | word nonempty chars stopped later =>
    obtain ⟨c, cs, rfl⟩ := List.exists_cons_of_ne_nil nonempty
    obtain ⟨rfl, rfl⟩ := List.cons.inj whole
    obtain ⟨first, others⟩ := List.forall_mem_cons.mp chars
    refine .word first ?_
    -- The rest of the word is a word again, unless there is none.
    cases cs with
    | nil => exact ⟨_, later⟩
    | cons d cs => exact ⟨_, .word (List.cons_ne_nil d cs) others stopped later⟩
  | glyph named later =>
    obtain ⟨rfl, rfl⟩ := List.cons.inj whole
    exact .glyph named ⟨_, later⟩

theorem untouched_of_isBlank {c : Char} (blank : Text.isBlank c) : Untouched c where
  noSelector selector := by
    rcases Glyph.isVariationSelector_iff.mp selector with rfl | rfl
    · exact absurd blank (by decide)
    · exact absurd blank (by decide)
  noSymbol glyph := by
    rintro rfl
    exact (symbol_stands_apart glyph).1 blank

theorem untouched_of_wordChar {c : Char} (isWord : WordChar c) : Untouched c where
  noSelector selector := by
    rw [← isWordChar_iff] at isWord
    rcases Glyph.isVariationSelector_iff.mp selector with rfl | rfl
    · exact absurd isWord (by decide)
    · exact absurd isWord (by decide)
  noSymbol glyph := by
    rintro rfl
    exact (symbol_stands_apart glyph).2.1 (isWordChar_iff.mpr isWord)

theorem untouched_semicolon : Untouched ';' where
  noSelector := by decide
  noSymbol glyph same := (symbol_stands_apart glyph).2.2 same.symm

/-- A text that falls into pieces does not begin with a selector. -/
theorem Parsable.not_selector {cs : List Char} (parsable : Parsable (clusters cs)) :
    ∀ d ∈ cs.head?, ¬ Glyph.isVariationSelector d := by
  intro d first
  obtain ⟨cs, rfl⟩ := List.head?_eq_some_iff.mp first
  have cut := Text.clusters_cons d cs
  rw [cut] at parsable
  have opens := parsable.opens
  generalize begins : d :: (Text.continueCluster (.start (.of d)) cs).1 = g at cut opens
  generalize clusters (Text.continueCluster (.start (.of d)) cs).2 = gs at cut opens
  have within : d ∈ g := by
    rw [← begins]
    exact List.mem_cons_self
  cases opens with
  | blank blank => exact (untouched_of_isBlank (blank d within)).noSelector
  | comment =>
    rw [List.mem_singleton.mp within]
    exact untouched_semicolon.noSelector
  | word isWord =>
    rw [List.mem_singleton.mp within]
    exact (untouched_of_wordChar isWord).noSelector
  | @glyph _ glyph _ named =>
    obtain ⟨vs, rfl, -⟩ := exists_selectors_of_cluster cut (ofCluster?_eq_some_iff_names.mpr named)
    obtain ⟨rfl, -⟩ := List.cons.inj begins
    exact glyph.not_isVariationSelector_symbol

/-! ## Two texts abreast -/

/-- The texts go on alike: by clusters that are read alike, by the same white space, and by comments
that end both or not at all. -/
inductive Abreast : List Cluster → List Cluster → Prop
  | done : Abreast [] []
  | blank {g : Cluster} {gs hs : List Cluster} : Blank g → Abreast gs hs →
    Abreast (g :: gs) (g :: hs)
  | comment {gs gs' hs hs' : List Cluster} : CommentLine gs gs' → CommentLine hs hs' →
    Abreast gs' hs' → Abreast gs hs
  | lastComment {body body' : List Cluster} : (∀ g ∈ body, '\n' ∉ g) → (∀ g ∈ body', '\n' ∉ g) →
    Abreast ([';'] :: body) ([';'] :: body')
  | solid {g h : Cluster} {gs hs : List Cluster} : Solid g → Solid h → ReadAlike g h →
    Abreast gs hs → Abreast (g :: gs) (h :: hs)

/-- The places have the same line and column. -/
def SameSpot (p q : Place) : Prop :=
  q.line = p.line ∧ q.column = p.column

/-- The spans begin at the same line and column. -/
def SameBegin (s t : Span) : Prop :=
  t.line = s.line ∧ t.column = s.column

theorem legible_sameBegin : Legible SameSpot ReadAlike SameBegin where
  reads alike := alike
  cluster spot _ := spot
  word _ spot := spot

theorem SameSpot.past {p q : Place} {g h : Cluster} (spot : SameSpot p q)
    (lineEnd : isLineEnd h = isLineEnd g) : SameSpot (p.past g) (q.past h) := by
  obtain ⟨line, column⟩ := spot
  unfold SameSpot Place.past
  rw [lineEnd, line, column]
  split
  · exact ⟨rfl, rfl⟩
  · exact ⟨rfl, rfl⟩

theorem lineFeed_not_mem_of_names {g : Cluster} {glyph : Glyph} (named : Names g glyph) :
    '\n' ∉ g := by
  intro breaks
  have kept : '\n' ∈ g.filter fun c => c ≠ '\uFE0E' ∧ c ≠ '\uFE0F' :=
    List.mem_filter.mpr ⟨breaks, by decide⟩
  rw [named, List.mem_singleton] at kept
  have blank : Text.isBlank '\n' := by decide
  rw [kept] at blank
  exact (symbol_stands_apart glyph).1 blank

theorem isLineEnd_eq_of_readAlike {g h : Cluster} (alike : ReadAlike g h) :
    isLineEnd h = isLineEnd g := by
  cases alike with
  | same => rfl
  | glyph named named' =>
    have unbroken := lineFeed_not_mem_of_names (ofCluster?_eq_some_iff_names.mp named)
    have unbroken' := lineFeed_not_mem_of_names (ofCluster?_eq_some_iff_names.mp named')
    rw [Bool.eq_false_of_not_eq_true (mt isLineEnd_iff.mp unbroken),
      Bool.eq_false_of_not_eq_true (mt isLineEnd_iff.mp unbroken')]

theorem CommentLine.not_startsWord {gs rest : List Cluster} (comment : CommentLine gs rest) :
    ¬ StartsWord gs := by
  obtain ⟨body, lineEnd, rfl, -⟩ := comment
  rw [startsWord_cons_iff]
  decide

theorem Abreast.startsWord_iff {gs hs : List Cluster} (abreast : Abreast gs hs) :
    StartsWord hs ↔ StartsWord gs := by
  cases abreast with
  | done => exact Iff.rfl
  | blank => rw [startsWord_cons_iff, startsWord_cons_iff]
  | comment here there => exact iff_of_false there.not_startsWord here.not_startsWord
  | lastComment => rw [startsWord_cons_iff, startsWord_cons_iff]
  | solid _ _ alike => rw [startsWord_cons_iff, startsWord_cons_iff, alike.wordChar?_eq]

/-- From the same line and column on, the texts are read alike. -/
theorem Abreast.alike {gs hs : List Cluster} (abreast : Abreast gs hs) :
    ∀ p q, SameSpot p q → (⟨p, gs⟩ : Cursor).Alike SameSpot ReadAlike ⟨q, hs⟩ := by
  induction abreast with
  | done =>
    intro p q _
    exact .ended rfl rfl
  | @blank g gs hs blank _ ih =>
    intro p q spot
    have later := ih (p.past g) (q.past g) (spot.past rfl)
    exact later.of_skip_eq (skipLayout_cons_of_blank p blank) (skipLayout_cons_of_blank q blank)
  | comment here there _ ih =>
    intro p q spot
    obtain ⟨p', line, column, skipped⟩ := here.exists_skip p
    obtain ⟨q', line', column', skipped'⟩ := there.exists_skip q
    have together : SameSpot p' q' := by
      rw [SameSpot, line, line', column, column', spot.1]
      exact ⟨rfl, rfl⟩
    exact (ih p' q' together).of_skip_eq skipped skipped'
  | lastComment unbroken unbroken' =>
    intro p q _
    exact .ended (skip_lastComment unbroken p) (skip_lastComment unbroken' q)
  | solid here there alike later ih =>
    intro p q spot
    have further := ih _ _ (spot.past (isLineEnd_eq_of_readAlike alike))
    exact .cluster (here.skip_eq p _) (there.skip_eq q _) spot alike later.startsWord_iff
      further

/-! ## Other selectors in a source without errors -/

section Texts

variable {cs ds : List Char} {g : Cluster} {gs : List Cluster}

theorem lineFeed_not_mem_of_mem_clusters (unbroken : '\n' ∉ cs) :
    ∀ g ∈ clusters cs, '\n' ∉ g := by
  intro g among breaks
  apply unbroken
  rw [← Text.flatten_clusters cs]
  exact List.mem_flatten.mpr ⟨g, among, breaks⟩

/-- A comment ends at the first line feed behind it. -/
theorem commentLine_of_lineFeed {before : List Char} (unbroken : '\n' ∉ before)
    (after : List Char) :
    CommentLine ([';'] :: clusters (before ++ '\n' :: after)) (clusters after) := by
  obtain ⟨gs, trail, lineBreak, seam, cut, whole⟩ := Text.exists_clusters_lineFeed before after
  have within := lineFeed_not_mem_of_mem_clusters unbroken
  rw [cut, List.forall_mem_append] at within
  refine ⟨gs, lineBreak, by rw [whole], within.1, ?_, ?_⟩
  · cases seam with
    | feed => decide
    | returned => decide
  · rw [← isBlankCluster_iff]
    cases seam with
    | feed => decide
    | returned => decide

theorem exists_commentLine {before after : List Char} (unbroken : '\n' ∉ before)
    (reselected : Reselected (before ++ '\n' :: after) ds) :
    ∃ after', CommentLine ([';'] :: clusters ds) (clusters after') ∧ Reselected after after' := by
  obtain ⟨before', rest, rfl, first, second⟩ := reselected.exists_append
  obtain ⟨after', rfl, last⟩ := second.exists_cons_of_untouched (untouched_of_isBlank (by decide))
  exact ⟨after', commentLine_of_lineFeed (first.lineFeed_not_mem unbroken) after', last⟩

/-- A cluster that ends a line is no piece. -/
theorem Parsable.of_lineFeed (parsable : Parsable (g :: gs)) (breaks : '\n' ∈ g) :
    Parsable gs := by
  generalize gs = hs at parsable ⊢
  have opens := parsable.opens
  cases opens with
  | blank _ later => exact later
  | comment => exact absurd breaks (by decide)
  | word isWord =>
    rw [← List.mem_singleton.mp breaks] at isWord
    exact absurd (isWordChar_iff.mpr isWord) (by decide)
  | glyph named => exact absurd breaks (lineFeed_not_mem_of_names named)

/-- Where a comment stops, the text breaks its line or ends. -/
theorem StopsComment.lineFeed_cases {body : List Cluster} (stops : StopsComment gs)
    (cut : clusters cs = body ++ gs) (unbroken : ∀ g ∈ body, '\n' ∉ g) :
    '\n' ∉ cs ∨
      ∃ before g after, cs = before ++ '\n' :: after ∧ '\n' ∉ before ∧ gs = g :: clusters after ∧
        '\n' ∈ g := by
  have flat := Text.flatten_clusters cs
  have calm : '\n' ∉ body.flatten := by
    intro breaks
    obtain ⟨g, among, within⟩ := List.mem_flatten.mp breaks
    exact unbroken g among within
  rcases stops with rfl | ⟨g, rest, rfl, breaks⟩
  · rw [cut, List.append_nil] at flat
    rw [← flat]
    exact .inl calm
  · right
    have among : g ∈ clusters cs := by simp [cut]
    have behind : clusters cs = (body ++ [g]) ++ rest := by simp [cut]
    have tail : rest = clusters rest.flatten := (Text.clusters_flatten_suffix behind).symm
    rw [cut, List.flatten_append, List.flatten_cons] at flat
    rcases Text.eq_of_lineFeed_mem among breaks with rfl | rfl
    · exact ⟨body.flatten, ['\n'], rest.flatten, flat.symm, calm, by rw [← tail], breaks⟩
    · refine ⟨body.flatten ++ ['\r'], ['\r', '\n'], rest.flatten, ?_, ?_, by rw [← tail], breaks⟩
      · rw [← flat]
        simp
      · rw [List.mem_append, not_or]
        exact ⟨calm, by decide⟩

end Texts

theorem eq_nil_of_clusters {cs : List Char} (ended : clusters cs = []) : cs = [] := by
  rw [← Text.flatten_clusters cs, ended]
  rfl

/-- A source without errors and the same source with other selectors go on alike. -/
theorem abreast_of_reselected {cs ds : List Char} (parsable : Parsable (clusters cs))
    (reselected : Reselected cs ds) : Abreast (clusters cs) (clusters ds) := by
  induction size : (clusters cs).length using Nat.strongRecOn generalizing cs ds with
  | ind n ih =>
    subst size
    rcases cut : clusters cs with _ | ⟨g, gs⟩
    · obtain rfl := eq_nil_of_clusters cut
      cases reselected
      rw [Text.clusters_nil]
      exact .done
    rw [cut] at parsable
    obtain ⟨rest, rfl, rfl⟩ := Text.exists_of_clusters_cons cut
    have shorter : (clusters rest).length < (clusters (g ++ rest)).length := by
      rw [cut, List.length_cons]
      exact Nat.lt_succ_self _
    have opens := parsable.opens
    generalize behind : clusters rest = hs at opens
    cases opens with
    | blank blank later =>
      subst behind
      obtain ⟨ds', cut', further⟩ := reselected.exists_untouched
        (fun c within => untouched_of_isBlank (blank c within)) later.not_selector cut
      rw [cut']
      exact .blank blank (ih _ shorter later further rfl)
    | @word c _ isWord later =>
      subst behind
      obtain ⟨ds', cut', further⟩ := reselected.exists_untouched
        (List.forall_mem_singleton.mpr (untouched_of_wordChar isWord)) later.not_selector cut
      have solid : Solid [c] := .of_wordChar isWord
      rw [cut']
      exact .solid solid solid (.same [c]) (ih _ shorter later further rfl)
    | @glyph _ glyph _ named later =>
      subst behind
      obtain ⟨vs, rfl, selectors⟩ :=
        exists_selectors_of_cluster cut (ofCluster?_eq_some_iff_names.mpr named)
      obtain ⟨vs', ds', cut', selectors', further⟩ :=
        reselected.exists_glyph selectors later.not_selector cut
      have spelled := ofCluster?_adorned glyph selectors
      have spelled' := ofCluster?_adorned glyph selectors'
      rw [cut']
      exact .solid (.of_ofCluster? spelled) (.of_ofCluster? spelled') (.glyph spelled spelled')
        (ih _ shorter later further rfl)
    | @comment body _ unbroken stops later =>
      obtain ⟨ds', cut', further⟩ := reselected.exists_untouched
        (List.forall_mem_singleton.mpr untouched_semicolon)
        (not_selector_of_cluster cut (by decide +kernel)) cut
      rw [cut', ← behind]
      rcases stops.lineFeed_cases behind unbroken with
        calm | ⟨before, lineEnd, after, rfl, calm, rfl, breaks⟩
      · exact .lastComment (lineFeed_not_mem_of_mem_clusters calm)
          (lineFeed_not_mem_of_mem_clusters (further.lineFeed_not_mem calm))
      obtain ⟨after', there, last⟩ := exists_commentLine calm further
      have fewer : (clusters after).length <
          (clusters ([';'] ++ (before ++ '\n' :: after))).length := by
        rw [cut, behind, List.length_cons, List.length_append, List.length_cons]
        omega
      exact .comment (commentLine_of_lineFeed calm after) there
        (ih _ fewer (later.of_lineFeed breaks) last rfl)

theorem untouched_byteOrderMark : Untouched Text.byteOrderMark where
  noSelector := by decide
  noSymbol glyph same := by
    have control : BreakClass.of Text.byteOrderMark = .control := by decide +kernel
    rw [same, glyph.breakClass_symbol] at control
    cases control

/-- The cursors of a source without errors and of the same source with other selectors are alike. -/
theorem alike_ofSource {source other : String} (parsable : Parsable (sourceClusters source))
    (reselected : Reselected source.toList other.toList) :
    (Cursor.ofSource source).Alike SameSpot ReadAlike (Cursor.ofSource other) := by
  rw [← ofSource_rest] at parsable
  by_cases marked : source.toList.head? = some Text.byteOrderMark
  · obtain ⟨cs, shape⟩ := List.head?_eq_some_iff.mp marked
    rw [shape] at reselected
    obtain ⟨ds, shape', later⟩ := reselected.exists_cons_of_untouched untouched_byteOrderMark
    rw [ofSource_of_marked shape] at parsable
    rw [ofSource_of_marked shape, ofSource_of_marked shape']
    exact (abreast_of_reselected parsable later).alike _ _ ⟨rfl, rfl⟩
  · rw [ofSource_of_unmarked marked] at parsable
    have marked' : other.toList.head? ≠ some Text.byteOrderMark := by
      rw [reselected.head?_eq parsable.not_selector]
      exact marked
    rw [ofSource_of_unmarked marked, ofSource_of_unmarked marked']
    exact (abreast_of_reselected parsable reselected).alike _ _ ⟨rfl, rfl⟩

/-- A source that is accepted is accepted with other selectors, as the same program. -/
theorem exists_parse_of_reselected {source other : String} {p : Program}
    (parsed : Program.parse source = .ok p) (reselected : Reselected source.toList other.toList) :
    ∃ q, Program.parse other = .ok q ∧ p.SameOnScreen q := by
  obtain ⟨tokens, tokenized, assembled⟩ := parse_eq_ok_iff.mp parsed
  obtain ⟨ps, pieces, -⟩ := tokenize_eq_ok_iff.mp ⟨tokens, tokenized, rfl⟩
  obtain ⟨lexemes, reading, matched⟩ := (reading_ofSource source).exists_alike legible_sameBegin
    (alike_ofSource ⟨ps, pieces⟩ reselected)
  obtain rfl : (Lexer.ofSource other).lexemes = lexemes := reading.lexemes_eq
  have lexed : ExceptMatches (List.Forall₂ (Located.Matches SameBegin))
      (List.Forall₂ (Located.Matches SameBegin)) (tokenize source) (tokenize other) :=
    gather_matches matched
  rw [tokenized] at lexed
  generalize tokenized' : tokenize other = result at lexed
  cases lexed with
  | @ok _ tokens' same =>
    have program := Program.ofTokens_matches (fun _ _ begins => begins.1) same
    rw [assembled] at program
    generalize assembled' : Program.ofTokens tokens' = result at program
    cases program with
    | @ok _ q same =>
      exact ⟨q, parse_eq_ok_iff.mpr ⟨tokens', tokenized', assembled'⟩,
        same.sameOnScreen fun _ _ begins => begins⟩

/-! ## Selectors left out and put in -/

/-- `SelectorsInserted cs ds`: the text `ds` is `cs` with any number of selectors put in directly
behind emojis of glyphs and the selectors that these have. -/
inductive SelectorsInserted : List Char → List Char → Prop
  | nil : SelectorsInserted [] []
  | keep (c : Char) {cs ds : List Char} : SelectorsInserted cs ds →
    SelectorsInserted (c :: cs) (c :: ds)
  | glyph (g : Glyph) {old new cs ds : List Char} : Selectors old → Selectors new →
    SelectorsInserted cs ds →
    SelectorsInserted (g.symbol :: (old ++ cs)) (g.symbol :: (old ++ (new ++ ds)))

theorem reselected_of_filter (cs : List Char) :
    Reselected cs (cs.filter fun c => !Glyph.isVariationSelector c) := by
  induction cs with
  | nil => exact .nil
  | cons c cs ih =>
    by_cases selector : Glyph.isVariationSelector c
    · rw [List.filter_cons_of_neg (by simp [selector])]
      exact .drop selector ih
    · rw [List.filter_cons_of_pos (by simp [selector])]
      exact .keep c ih

theorem reselected_of_dropped {vs cs ds : List Char} (selectors : Selectors vs)
    (later : Reselected cs ds) : Reselected (vs ++ cs) ds := by
  induction vs with
  | nil => exact later
  | cons v vs ih =>
    obtain ⟨first, others⟩ := List.forall_mem_cons.mp selectors
    exact .drop first (ih others)

theorem SelectorsInserted.reselected {cs ds : List Char} (inserted : SelectorsInserted cs ds) :
    Reselected cs ds := by
  induction inserted with
  | nil => exact .nil
  | keep c _ ih => exact .keep c ih
  | glyph g old new _ ih =>
    rw [← List.append_assoc]
    exact .add g (selectors_append old new) (reselected_of_dropped old ih)

/-- A source that is accepted is accepted as the same program, its instructions at the same lines
and columns, without all its variation selectors, and with any number of them put in directly
behind its glyphs. -/
theorem selectors_never_change_a_program {source : String} {p : Program}
    (parsed : Program.parse source = .ok p) :
    (∃ q, Program.parse
        (String.ofList (source.toList.filter fun c => !Glyph.isVariationSelector c)) = .ok q ∧
      p.SameOnScreen q) ∧
    ∀ other : String, SelectorsInserted source.toList other.toList →
      ∃ q, Program.parse other = .ok q ∧ p.SameOnScreen q := by
  refine ⟨?_, fun other inserted => exists_parse_of_reselected parsed inserted.reselected⟩
  apply exists_parse_of_reselected parsed
  rw [String.toList_ofList]
  exact reselected_of_filter source.toList

/-- Where a selector parts a carriage return from the line feed that ends a comment, the two become
one cluster without it, and the jump behind the comment is still at the start of line two. -/
theorem selectors_never_change_a_jump :
    ∃ p q r, Program.parse "🏷\uFE0Fa;\r\uFE0F\n🦘 a" = .ok p ∧
      p.code = #[⟨.jump 0, ⟨14, 18, 2, 1⟩⟩] ∧
      Program.parse "🏷a;\r\n🦘 a" = .ok q ∧ p.SameOnScreen q ∧
      Program.parse "🏷\uFE0Fa;\r\uFE0F\n🦘\uFE0E\uFE0F a" = .ok r ∧ p.SameOnScreen r := by
  have parsed : Program.parse "🏷\uFE0Fa;\r\uFE0F\n🦘 a" =
      .ok ⟨#[⟨.jump 0, ⟨14, 18, 2, 1⟩⟩], [("a", 0)]⟩ := by
    decide +kernel
  have bare : String.ofList ("🏷\uFE0Fa;\r\uFE0F\n🦘 a".toList.filter
      fun c => !Glyph.isVariationSelector c) = "🏷a;\r\n🦘 a" := by
    decide +kernel
  have inserted : SelectorsInserted "🏷\uFE0Fa;\r\uFE0F\n🦘 a".toList
      "🏷\uFE0Fa;\r\uFE0F\n🦘\uFE0E\uFE0F a".toList := by
    have nothing : Selectors [] := List.forall_mem_nil _
    have both : Selectors ['\uFE0E', '\uFE0F'] := by
      simp [Selectors, Glyph.isVariationSelector]
    have jump : SelectorsInserted ['🦘', ' ', 'a'] ['🦘', '\uFE0E', '\uFE0F', ' ', 'a'] :=
      .glyph (.op .jump) nothing both (.keep ' ' (.keep 'a' .nil))
    exact .keep '🏷' (.keep '\uFE0F' (.keep 'a' (.keep ';' (.keep '\r' (.keep '\uFE0F'
      (.keep '\n' jump))))))
  obtain ⟨without, extended⟩ := selectors_never_change_a_program parsed
  rw [bare] at without
  obtain ⟨q, parsed', same⟩ := without
  obtain ⟨r, parsed'', same'⟩ := extended _ inserted
  exact ⟨_, q, r, parsed, rfl, parsed', same, parsed'', same'⟩

end GlyphMachine.Language
