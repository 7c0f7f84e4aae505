import GlyphMachine.Proofs.Text.LineBreaks

/-!
# Cuts between clusters

The clusters of a text are cut off from the left, and what is cut off sees nothing
of the text behind the character that ends it. A text that is cut between two of
its clusters therefore falls into the same clusters on either side
(`clusters_flatten_prefix`, `clusters_flatten_suffix`). `CutsClusters` says of two
texts that putting them together joins no cluster of the one to a cluster of the
other, and `cutsClusters_iff_offset` finds these cuts by their byte offsets. A line
feed always makes such a cut behind it (`exists_clusters_lineFeed`).
-/

namespace GlyphMachine.Text

/-! ## Clusters of a part of the text -/

/-- A cluster ends where it ends, if the text behind it begins with the same character or is
gone. -/
theorem continueCluster_of_next {t : Tail} {cs more rest : List Char}
    (cut : continueCluster t cs = (more, rest)) {part : List Char}
    (next : ∀ d ∈ part.head?, d ∈ rest.head?) :
    continueCluster t (more ++ part) = (more, part) := by
  induction cs generalizing t more with
  | nil =>
    obtain ⟨rfl, rfl⟩ := Prod.mk.inj cut
    cases part with
    | nil => rfl
    | cons d part => cases next d rfl
  | cons c cs ih =>
    rw [continueCluster] at cut
    split at cut
    · rename_i joins
      obtain ⟨rfl, rfl⟩ := Prod.mk.inj cut
      have later := ih rfl
      rw [List.cons_append, continueCluster, if_pos joins, later]
    · rename_i apart
      obtain ⟨rfl, rfl⟩ := Prod.mk.inj cut
      cases part with
      | nil => rfl
      | cons d part =>
        obtain rfl := Option.some.inj (next d rfl)
        rw [List.nil_append, continueCluster, if_neg apart]

section Parts

variable {cs : List Char} {gs hs : List Cluster}

/-- What comes after some clusters of a text has the clusters that come after them. -/
theorem clusters_flatten_suffix (cut : clusters cs = gs ++ hs) : clusters hs.flatten = hs := by
  induction gs generalizing cs with
  | nil => rw [← List.nil_append hs, ← cut, flatten_clusters]
  | cons g gs ih =>
    cases cs with
    | nil =>
      rw [clusters_nil] at cut
      cases cut
    | cons c cs =>
      rw [clusters_cons, List.cons_append] at cut
      exact ih (List.cons.inj cut).2

theorem exists_of_clusters_cons {g : Cluster} (cut : clusters cs = g :: gs) :
    ∃ rest, cs = g ++ rest ∧ gs = clusters rest := by
  have behind : clusters cs = [g] ++ gs := cut
  refine ⟨gs.flatten, ?_, (clusters_flatten_suffix behind).symm⟩
  rw [← flatten_clusters cs, cut, List.flatten_cons]

/-- A text that goes on behind some clusters with the character that came there before, or
not at all, has these clusters still, and behind them those of what it goes on with. -/
theorem clusters_flatten_append (cut : clusters cs = gs ++ hs) {part : List Char}
    (next : ∀ d ∈ part.head?, d ∈ hs.flatten.head?) :
    clusters (gs.flatten ++ part) = gs ++ clusters part := by
  induction gs generalizing cs with
  | nil => rfl
  | cons g gs ih =>
    cases cs with
    | nil =>
      rw [clusters_nil] at cut
      cases cut
    | cons c cs =>
      rw [clusters_cons, List.cons_append] at cut
      obtain ⟨rfl, later⟩ := List.cons.inj cut
      have further : ∀ d ∈ (gs.flatten ++ part).head?,
          d ∈ (continueCluster (.start (.of c)) cs).2.head? := by
        rw [← flatten_clusters (continueCluster (.start (.of c)) cs).2, later, List.flatten_append]
        cases gs.flatten with
        | nil => exact next
        | cons => exact fun _ first => first
      rw [List.flatten_cons, List.append_assoc, List.cons_append, clusters_cons,
        continueCluster_of_next rfl further, ih later]
      rfl

/-- The first clusters of a text are the clusters of the text up to there. -/
theorem clusters_flatten_prefix (cut : clusters cs = gs ++ hs) : clusters gs.flatten = gs := by
  have nothing : ∀ d ∈ ([] : List Char).head?, d ∈ hs.flatten.head? := by simp
  have first := clusters_flatten_append cut nothing
  rw [clusters_nil, List.append_nil, List.append_nil] at first
  exact first

end Parts

/-! ## Cuts that no cluster goes over -/

/-- No cluster of the whole text goes over the cut between its two parts. -/
def CutsClusters (before after : List Char) : Prop :=
  clusters (before ++ after) = clusters before ++ clusters after

instance (before after : List Char) : Decidable (CutsClusters before after) :=
  inferInstanceAs (Decidable (_ = _))

section Cuts

variable {before after : List Char}

theorem cutsClusters_nil_left (after : List Char) : CutsClusters [] after := by
  rw [CutsClusters, clusters_nil, List.nil_append, List.nil_append]

theorem cutsClusters_nil_right (before : List Char) : CutsClusters before [] := by
  rw [CutsClusters, clusters_nil, List.append_nil, List.append_nil]

/-- A text is cut so exactly where some clusters end and the others begin. -/
theorem cutsClusters_iff : CutsClusters before after ↔
    ∃ gs hs, clusters (before ++ after) = gs ++ hs ∧ before = gs.flatten := by
  constructor
  · intro cuts
    exact ⟨clusters before, clusters after, cuts, (flatten_clusters before).symm⟩
  · intro parts
    obtain ⟨gs, hs, cut, rfl⟩ := parts
    have rest : after = hs.flatten := by
      have whole := flatten_clusters (gs.flatten ++ after)
      rw [cut, List.flatten_append] at whole
      exact (List.append_cancel_left whole).symm
    rw [CutsClusters, cut, clusters_flatten_prefix cut, rest, clusters_flatten_suffix cut]

/-- Two beginnings of a text that take equally many bytes are one. -/
theorem eq_of_byteSize_eq {before' after' : List Char} (text : before ++ after = before' ++ after')
    (size : byteSize before = byteSize before') : before = before' := by
  have found := splitAtByte?_append before after
  rw [text, size, splitAtByte?_append] at found
  exact (congrArg Prod.fst (Option.some.inj found)).symm

/-- A byte offset of a text lies between two of its clusters, or at one of its ends. -/
def AtClusterEdge (text : List Char) (offset : Nat) : Prop :=
  ∃ gs hs, clusters text = gs ++ hs ∧ offset = byteSize gs.flatten

/-- The cuts that no cluster goes over are the ones at the offsets of clusters. -/
theorem cutsClusters_iff_offset :
    CutsClusters before after ↔ AtClusterEdge (before ++ after) (byteSize before) := by
  rw [cutsClusters_iff]
  constructor
  · intro parts
    obtain ⟨gs, hs, cut, rfl⟩ := parts
    exact ⟨gs, hs, cut, rfl⟩
  · intro parts
    obtain ⟨gs, hs, cut, size⟩ := parts
    have whole := flatten_clusters (before ++ after)
    rw [cut, List.flatten_append] at whole
    exact ⟨gs, hs, cut, eq_of_byteSize_eq whole.symm size⟩

end Cuts

/-! ## Cuts at line feeds -/

/-- The cluster that a character of a text is part of. -/
theorem exists_cluster_of_append {cs before after : List Char} {c : Char}
    (text : cs = before ++ c :: after) :
    ∃ gs front back hs, clusters cs = gs ++ (front ++ c :: back) :: hs ∧
      before = gs.flatten ++ front ∧ after = back ++ hs.flatten := by
  have whole : (clusters cs).flatten = before ++ c :: after := by rw [flatten_clusters, text]
  rcases List.flatten_eq_append_iff.mp whole with
    ⟨gs, hs, cut, rfl, rest⟩ | ⟨gs, front, d, back, hs, cut, rfl, rest⟩
  · obtain ⟨none, back, later, rfl, empty, rfl⟩ := List.flatten_eq_cons_iff.mp rest.symm
    refine ⟨gs ++ none, [], back, later, ?_, ?_, rfl⟩
    · rw [cut, List.append_assoc, List.nil_append]
    · rw [List.flatten_append, List.flatten_eq_nil_iff.mpr empty, List.append_nil,
        List.append_nil]
  · obtain ⟨rfl, rfl⟩ := List.cons.inj rest
    exact ⟨gs, front, back, hs, cut, rfl, rfl⟩

/-- What a line feed makes of the last clusters before it: it stands alone, or a
carriage return that stood alone goes into the line break. -/
inductive LineSeam : List Cluster → Cluster → Prop
  | feed : LineSeam [] ['\n']
  | returned : LineSeam [['\r']] ['\r', '\n']

/-- A line feed between two texts joins no cluster of the one to a cluster of the other. -/
theorem exists_clusters_lineFeed (before after : List Char) :
    ∃ gs trail lineBreak, LineSeam trail lineBreak ∧ clusters before = gs ++ trail ∧
      clusters (before ++ '\n' :: after) = gs ++ lineBreak :: clusters after := by
  have text : before ++ '\n' :: after = before ++ '\n' :: after := rfl
  obtain ⟨gs, front, back, hs, cut, before_eq, after_eq⟩ := exists_cluster_of_append text
  have behind : clusters (before ++ '\n' :: after) = (gs ++ [front ++ '\n' :: back]) ++ hs := by
    rw [cut, List.append_assoc, List.singleton_append]
  have later := clusters_flatten_suffix behind
  have among : front ++ '\n' :: back ∈ clusters (before ++ '\n' :: after) := by
    rw [cut]
    exact List.mem_append_right _ List.mem_cons_self
  rcases eq_of_lineFeed_mem among (by simp) with alone | joined
  · obtain ⟨rfl, rfl⟩ : front = [] ∧ back = [] := by simpa [List.append_eq_cons_iff] using alone
    refine ⟨gs, [], ['\n'], .feed, ?_, ?_⟩
    · rw [before_eq, List.append_nil, List.append_nil, clusters_flatten_prefix cut]
    · rw [cut, after_eq, List.nil_append, List.nil_append, later]
  · obtain ⟨rfl, rfl⟩ : front = ['\r'] ∧ back = [] := by
      rcases front with _ | ⟨c, _ | ⟨d, more⟩⟩
      · cases joined
      · simpa using joined
      · simp at joined
    have alone : clusters ['\r'] = [['\r']] := by
      simp [clusters_cons, continueCluster]
    have next : ∀ d ∈ ['\r'].head?, d ∈ ((['\r'] ++ '\n' :: []) :: hs).flatten.head? :=
      fun _ first => first
    refine ⟨gs, [['\r']], ['\r', '\n'], .returned, ?_, ?_⟩
    · rw [before_eq, clusters_flatten_append cut next, alone]
    · rw [cut, after_eq, List.nil_append, later]
      rfl

end GlyphMachine.Text
