import GlyphMachine.Text.Cluster

/-!
# Clusters that stand alone

Most characters never join the cluster before them or after them. A `Standalone`
cluster is made of one such character, or of a pictograph with a selector behind
it. Whatever standalone clusters are written one after the other, without anything
between them, are found again (`clusters_flatten`).
-/

namespace GlyphMachine.Text

/-- Characters of this class begin a cluster behind whatever else is plain. -/
def BreakClass.isPlain : BreakClass → Bool
  | lineFeed | pictograph | other => true
  | _ => false

/-- No plain character goes on a cluster with this tail. -/
def Tail.Shut (t : Tail) : Prop :=
  ∀ k : BreakClass, k.isPlain → t.joins k = false

theorem shut_start {k : BreakClass} (plain : k.isPlain) : (Tail.start k).Shut := by
  intro next plain'
  cases k <;> cases plain <;> cases next <;> cases plain' <;> rfl

/-- A selector behind a pictograph does not lead on to another pictograph, as a joiner
would. -/
theorem shut_selected : ((Tail.start .pictograph).push .extend).Shut := by
  intro next plain
  cases next <;> cases plain <;> rfl

/-- Where the next character does not go on the cluster, the cluster ends. -/
theorem continueCluster_of_shut {t : Tail} (shut : t.Shut) {rest : List Char}
    (next : ∀ d ∈ rest.head?, (BreakClass.of d).isPlain) :
    continueCluster t rest = ([], rest) := by
  cases rest with
  | nil => rfl
  | cons d rest =>
    have apart := shut (.of d) (next d rfl)
    simp [continueCluster, apart]

/-- A cluster of one plain character, or of a pictograph and a selector. -/
inductive Standalone : Cluster → Prop
  | char {c : Char} : (BreakClass.of c).isPlain → Standalone [c]
  | selected {c s : Char} : BreakClass.of c = .pictograph → BreakClass.of s = .extend →
    Standalone [c, s]

namespace Standalone

variable {g : Cluster}

/-- A standalone cluster begins with a plain character. -/
theorem isPlain_of_mem_head? (alone : Standalone g) (rest : List Char) :
    ∀ d ∈ (g ++ rest).head?, (BreakClass.of d).isPlain := by
  cases alone with
  | char plain =>
    rintro d ⟨⟩
    exact plain
  | selected pictograph =>
    rintro d ⟨⟩
    rw [pictograph]
    rfl

/-- A standalone cluster is cut off before the next plain character. -/
theorem clusters_append (alone : Standalone g) {rest : List Char}
    (next : ∀ d ∈ rest.head?, (BreakClass.of d).isPlain) :
    clusters (g ++ rest) = g :: clusters rest := by
  cases alone with
  | char plain =>
    rw [List.singleton_append, clusters_cons, continueCluster_of_shut (shut_start plain) next]
  | @selected c s pictograph extend =>
    have joins : (Tail.start .pictograph).joins .extend := rfl
    have ended := continueCluster_of_shut shut_selected next
    have goesOn : continueCluster (.start (.of c)) (s :: rest) = ([s], rest) := by
      rw [pictograph, continueCluster, extend, if_pos joins, ended]
    rw [List.cons_append, List.singleton_append, clusters_cons, goesOn]

end Standalone

/-- Standalone clusters are the clusters of the text they make up. -/
theorem clusters_flatten {gs : List Cluster} (alone : ∀ g ∈ gs, Standalone g) :
    clusters gs.flatten = gs := by
  induction gs with
  | nil => exact clusters_nil
  | cons g gs ih =>
    obtain ⟨first, later⟩ := List.forall_mem_cons.mp alone
    have next : ∀ d ∈ gs.flatten.head?, (BreakClass.of d).isPlain := by
      cases gs with
      | nil =>
        rintro d ⟨⟩
      | cons h hs => exact (later h List.mem_cons_self).isPlain_of_mem_head? hs.flatten
    rw [List.flatten_cons, first.clusters_append next, ih later]

end GlyphMachine.Text
