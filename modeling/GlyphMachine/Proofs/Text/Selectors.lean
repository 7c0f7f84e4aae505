import GlyphMachine.Glyph
import GlyphMachine.Proofs.Text.ClusterCuts

/-!
# Variation selectors in a text

A variation selector goes on whatever cluster stands before it, and behind an emoji it
changes nothing of where the cluster ends (`continueCluster_selectors_iff`). `Reselected`
relates a text to one with other selectors: some are left out, and any number of them is
put in behind the emojis of glyphs. Cut off the first cluster of both texts, and what is
behind it is related again: the cluster is the same (`Reselected.exists_untouched`) or
spells the same glyph (`Reselected.exists_glyph`).
-/

namespace GlyphMachine

open Text (BreakClass Cluster Tail clusters continueCluster)

/-! ## Classes of the emojis and the selectors -/

namespace Glyph

theorem breakClass_symbol (g : Glyph) : BreakClass.of g.symbol = .pictograph := by
  have all_pictographs : ∀ g ∈ all, BreakClass.of g.symbol = .pictograph := by decide +kernel
  exact all_pictographs g g.mem_all

theorem isVariationSelector_iff {v : Char} :
    isVariationSelector v ↔ v = '\uFE0E' ∨ v = '\uFE0F' := by
  simp [isVariationSelector]

theorem breakClass_selector {v : Char} (selector : isVariationSelector v) :
    BreakClass.of v = .extend := by
  rcases isVariationSelector_iff.mp selector with rfl | rfl
  · decide +kernel
  · decide +kernel

theorem not_isVariationSelector_symbol (g : Glyph) : ¬ isVariationSelector g.symbol := by
  intro selector
  have extend := breakClass_selector selector
  rw [breakClass_symbol] at extend
  cases extend

end Glyph

/-- The characters are variation selectors. -/
def Selectors (vs : List Char) : Prop :=
  ∀ v ∈ vs, Glyph.isVariationSelector v

theorem selectors_append {us vs : List Char} (first : Selectors us) (second : Selectors vs) :
    Selectors (us ++ vs) :=
  List.forall_mem_append.mpr ⟨first, second⟩

/-! ## Selectors in clusters -/

section Clusters

variable {t : Tail} {cs vs rest : List Char}

/-- The tail of an emoji, with or without selectors behind it. -/
def Text.Tail.Adorned (t : Tail) : Prop :=
  t = .start .pictograph ∨ t = (Tail.start .pictograph).push .extend

theorem Text.Tail.Adorned.push_extend (adorned : t.Adorned) : (t.push .extend).Adorned := by
  rcases adorned with rfl | rfl
  · exact .inr rfl
  · exact .inr rfl

/-- What goes on an emoji goes on it behind selectors, too. -/
theorem Text.Tail.Adorned.joins_eq (adorned : t.Adorned) (k : BreakClass) :
    t.joins k = (Tail.start .pictograph).joins k := by
  rcases adorned with rfl | rfl
  · rfl
  · cases k <;> rfl

/-- Selectors behind an emoji are its whole cluster exactly if what comes behind them does not go on
the emoji itself. -/
theorem continueCluster_selectors_iff (adorned : t.Adorned) (selectors : Selectors vs) :
    continueCluster t (vs ++ rest) = (vs, rest) ↔
      ∀ d ∈ rest.head?, (Tail.start .pictograph).joins (.of d) = false := by
  induction vs generalizing t with
  | nil =>
    cases rest with
    | nil => simp [continueCluster]
    | cons d rest =>
      rw [List.nil_append, continueCluster, adorned.joins_eq]
      cases joins : (Tail.start .pictograph).joins (.of d) with
      | true => simp [joins]
      | false => simp [joins]
  | cons v vs ih =>
    obtain ⟨selector, later⟩ := List.forall_mem_cons.mp selectors
    have joins : t.joins .extend = true := adorned.joins_eq .extend
    rw [List.cons_append, continueCluster, Glyph.breakClass_selector selector, if_pos joins,
      ← ih adorned.push_extend later, Prod.ext_iff, Prod.ext_iff]
    simp

/-- The cluster of an emoji with these selectors, by what comes behind it. -/
theorem clusters_adorned_iff (g : Glyph) (selectors : Selectors vs) :
    clusters (g.symbol :: (vs ++ rest)) = (g.symbol :: vs) :: clusters rest ↔
      ∀ d ∈ rest.head?, (Tail.start .pictograph).joins (.of d) = false := by
  rw [Text.clusters_cons, Glyph.breakClass_symbol,
    ← continueCluster_selectors_iff (.inl rfl) selectors]
  constructor
  · intro cut
    obtain ⟨first, -⟩ := List.cons.inj cut
    have whole := Text.continueCluster_append (.start .pictograph) (vs ++ rest)
    have more := (List.cons.inj first).2
    rw [more] at whole
    exact Prod.ext more (List.append_cancel_left whole)
  · intro cut
    rw [cut]

/-- An emoji does not go on a cluster that begins with selectors. -/
theorem continueCluster_ne_symbol (g : Glyph) (last : t.last = .extend) (start : t.emoji = .none) :
    (continueCluster t cs).1.filter (fun c => !Glyph.isVariationSelector c) ≠ [g.symbol] := by
  induction cs generalizing t with
  | nil => simp [continueCluster]
  | cons c cs ih =>
    rw [continueCluster]
    split
    · rename_i joins
      by_cases selector : Glyph.isVariationSelector c
      · rw [Glyph.breakClass_selector selector]
        simp only [List.filter_cons, selector, Bool.not_true, Bool.false_eq_true, if_false]
        exact ih rfl (by simp [Tail.push, start, Text.Progress.nextEmoji])
      · intro bare
        simp only [List.filter_cons, selector, Bool.not_false, if_true, List.cons.injEq] at bare
        obtain ⟨rfl, -⟩ := bare
        rw [Glyph.breakClass_symbol] at joins
        simp [Tail.joins, last, start, BreakClass.isBreaking, BreakClass.syllable,
          BreakClass.attaches] at joins
    · simp

/-- A cluster that spells a glyph is its emoji with selectors behind it. -/
theorem exists_selectors_of_cluster {g : Cluster} {hs : List Cluster} {glyph : Glyph}
    (cut : clusters cs = g :: hs) (named : Glyph.ofCluster? g = some glyph) :
    ∃ vs, g = glyph.symbol :: vs ∧ Selectors vs := by
  rw [Glyph.ofCluster?_eq_some_iff] at named
  cases cs with
  | nil =>
    rw [Text.clusters_nil] at cut
    cases cut
  | cons c cs =>
    rw [Text.clusters_cons] at cut
    obtain ⟨rfl, -⟩ := List.cons.inj cut
    by_cases selector : Glyph.isVariationSelector c
    · rw [Glyph.breakClass_selector selector, List.filter_cons, selector] at named
      exact absurd named (continueCluster_ne_symbol glyph rfl rfl)
    · simp only [List.filter_cons, selector, Bool.not_false, if_true, List.cons.injEq,
        List.filter_eq_nil_iff] at named
      obtain ⟨rfl, bare⟩ := named
      refine ⟨_, rfl, ?_⟩
      intro v among
      simpa using bare v among

theorem ofCluster?_adorned (g : Glyph) (selectors : Selectors vs) :
    Glyph.ofCluster? (g.symbol :: vs) = some g := by
  have bare : vs.filter (fun c => !Glyph.isVariationSelector c) = [] := by
    rw [List.filter_eq_nil_iff]
    intro v among
    simp [selectors v among]
  rw [Glyph.ofCluster?_eq_some_iff,
    List.filter_cons_of_pos (by simp [g.not_isVariationSelector_symbol]), bare]

/-- A selector goes on whatever does not break, so none comes behind a cluster that ended there. -/
theorem not_selector_of_cluster {c : Char} (cut : clusters (c :: cs) = [c] :: clusters cs)
    (firm : (BreakClass.of c).isBreaking = false) :
    ∀ d ∈ cs.head?, ¬ Glyph.isVariationSelector d := by
  intro d first selector
  obtain ⟨cs, rfl⟩ := List.head?_eq_some_iff.mp first
  have joins : (Tail.start (BreakClass.of c)).joins (.of d) = true := by
    rw [Glyph.breakClass_selector selector]
    generalize BreakClass.of c = k at firm
    cases k <;> first | rfl | cases firm
  rw [Text.clusters_cons, Text.continueCluster, if_pos joins] at cut
  have more := (List.cons.inj (List.cons.inj cut).1).2
  cases more

end Clusters

/-! ## Texts with other selectors -/

/-- `Reselected cs ds`: the text `ds` is `cs` without some of its selectors, and with others put in
behind the emojis of glyphs. -/
inductive Reselected : List Char → List Char → Prop
  | nil : Reselected [] []
  | keep (c : Char) {cs ds : List Char} : Reselected cs ds → Reselected (c :: cs) (c :: ds)
  | drop {v : Char} {cs ds : List Char} :
    Glyph.isVariationSelector v → Reselected cs ds → Reselected (v :: cs) ds
  | add (glyph : Glyph) {vs cs ds : List Char} :
    Selectors vs → Reselected cs ds →
    Reselected (glyph.symbol :: cs) (glyph.symbol :: (vs ++ ds))

/-- The character is neither a selector nor the emoji of a glyph. -/
structure Untouched (c : Char) : Prop where
  noSelector : ¬ Glyph.isVariationSelector c
  noSymbol : ∀ glyph : Glyph, c ≠ glyph.symbol

namespace Reselected

variable {cs ds as bs : List Char}

theorem exists_append (reselected : Reselected (as ++ bs) ds) :
    ∃ as' bs', ds = as' ++ bs' ∧ Reselected as as' ∧ Reselected bs bs' := by
  induction as generalizing ds with
  | nil => exact ⟨[], ds, rfl, .nil, reselected⟩
  | cons a as ih =>
    cases reselected with
    | keep _ later =>
      obtain ⟨as', bs', rfl, first, second⟩ := ih later
      exact ⟨a :: as', bs', rfl, .keep a first, second⟩
    | drop selector later =>
      obtain ⟨as', bs', rfl, first, second⟩ := ih later
      exact ⟨as', bs', rfl, .drop selector first, second⟩
    | @add glyph vs _ _ selectors later =>
      obtain ⟨as', bs', rfl, first, second⟩ := ih later
      refine ⟨glyph.symbol :: (vs ++ as'), bs', ?_, .add glyph selectors first, second⟩
      rw [List.cons_append, List.append_assoc]

/-- Where a text does not begin with a selector, its first character stays, and selectors may come
behind it. -/
theorem exists_cons {c : Char} (reselected : Reselected (c :: cs) ds)
    (first : ¬ Glyph.isVariationSelector c) :
    ∃ vs ds', ds = c :: (vs ++ ds') ∧ Selectors vs ∧ Reselected cs ds' := by
  cases reselected with
  | keep _ later => exact ⟨[], _, rfl, List.forall_mem_nil _, later⟩
  | drop selector => exact absurd selector first
  | add glyph selectors later => exact ⟨_, _, rfl, selectors, later⟩

theorem exists_cons_of_untouched {c : Char} (reselected : Reselected (c :: cs) ds)
    (untouched : Untouched c) : ∃ ds', ds = c :: ds' ∧ Reselected cs ds' := by
  cases reselected with
  | keep _ later => exact ⟨_, rfl, later⟩
  | drop selector => exact absurd selector untouched.noSelector
  | add glyph => exact absurd rfl (untouched.noSymbol glyph)

theorem head?_eq (reselected : Reselected cs ds)
    (first : ∀ d ∈ cs.head?, ¬ Glyph.isVariationSelector d) : ds.head? = cs.head? := by
  cases cs with
  | nil =>
    cases reselected
    rfl
  | cons c cs =>
    obtain ⟨vs, ds', rfl, -, -⟩ := reselected.exists_cons (first c rfl)
    rfl

theorem eq_of_untouched (reselected : Reselected cs ds) (untouched : ∀ c ∈ cs, Untouched c) :
    ds = cs := by
  induction reselected with
  | nil => rfl
  | keep c _ ih => rw [ih (List.forall_mem_cons.mp untouched).2]
  | drop selector => exact absurd selector (untouched _ List.mem_cons_self).noSelector
  | add glyph => exact absurd rfl ((untouched _ List.mem_cons_self).noSymbol glyph)

theorem selectors (reselected : Reselected cs ds) (selectors : Selectors cs) : Selectors ds := by
  induction reselected with
  | nil => exact selectors
  | keep c _ ih =>
    obtain ⟨first, later⟩ := List.forall_mem_cons.mp selectors
    exact List.forall_mem_cons.mpr ⟨first, ih later⟩
  | drop _ _ ih => exact ih (List.forall_mem_cons.mp selectors).2
  | add glyph =>
    exact absurd (selectors _ List.mem_cons_self) glyph.not_isVariationSelector_symbol

theorem lineFeed_not_mem (reselected : Reselected cs ds) (unbroken : '\n' ∉ cs) : '\n' ∉ ds := by
  induction reselected with
  | nil => exact unbroken
  | keep c _ ih =>
    rw [List.mem_cons, not_or] at unbroken ⊢
    exact ⟨unbroken.1, ih unbroken.2⟩
  | drop _ _ ih => exact ih (List.not_mem_of_not_mem_cons unbroken)
  | add glyph selectors _ ih =>
    rw [List.mem_cons, not_or] at unbroken
    rw [List.mem_cons, List.mem_append, not_or, not_or]
    refine ⟨unbroken.1, fun among => ?_, ih unbroken.2⟩
    exact absurd (selectors _ among) (by decide)

/-- A cluster without selectors and emojis stays, if no selector comes behind it. -/
theorem exists_untouched {g : Cluster} (reselected : Reselected (g ++ cs) ds)
    (untouched : ∀ c ∈ g, Untouched c) (next : ∀ d ∈ cs.head?, ¬ Glyph.isVariationSelector d)
    (cut : clusters (g ++ cs) = g :: clusters cs) :
    ∃ ds', clusters ds = g :: clusters ds' ∧ Reselected cs ds' := by
  obtain ⟨g', ds', rfl, first, later⟩ := reselected.exists_append
  obtain rfl := first.eq_of_untouched untouched
  refine ⟨ds', ?_, later⟩
  have same : ∀ d ∈ ds'.head?, d ∈ (clusters cs).flatten.head? := by
    rw [Text.flatten_clusters, later.head?_eq next]
    exact fun _ first => first
  have cut' : clusters (g' ++ cs) = [g'] ++ clusters cs := cut
  have kept := Text.clusters_flatten_append cut' same
  rw [List.flatten_singleton] at kept
  exact kept

/-- The cluster of a glyph may get other selectors, if no selector comes behind it. -/
theorem exists_glyph {glyph : Glyph} {vs : List Char}
    (reselected : Reselected (glyph.symbol :: (vs ++ cs)) ds) (selectors : Selectors vs)
    (next : ∀ d ∈ cs.head?, ¬ Glyph.isVariationSelector d)
    (cut : clusters (glyph.symbol :: (vs ++ cs)) = (glyph.symbol :: vs) :: clusters cs) :
    ∃ vs' ds', clusters ds = (glyph.symbol :: vs') :: clusters ds' ∧ Selectors vs' ∧
      Reselected cs ds' := by
  obtain ⟨us, rest, rfl, added, later⟩ :=
    reselected.exists_cons glyph.not_isVariationSelector_symbol
  obtain ⟨vs', ds', rfl, first, further⟩ := later.exists_append
  have selectors' := selectors_append added (first.selectors selectors)
  refine ⟨us ++ vs', ds', ?_, selectors', further⟩
  rw [clusters_adorned_iff glyph selectors, ← further.head?_eq next] at cut
  rw [← List.append_assoc, clusters_adorned_iff glyph selectors']
  exact cut

end Reselected

end GlyphMachine
