import GlyphMachine.Text.BreakClass

/-!
Extended grapheme clusters: what a reader takes for one character. Unicode's rules look at the text
before a boundary only as far back as the cluster that ends there, so a cluster is cut off from the
left by a small automaton whose state, a `Tail`, is what those rules can still see.
-/

namespace GlyphMachine.Text

/-- One cluster, never empty when it comes from `clusters`. -/
abbrev Cluster := List Char

/-- How far the text up to here has come toward a sequence that joins on. -/
inductive Progress where
  | none
  /-- the base stands, followed by extending characters only -/
  | based
  /-- the base and its link stand: a second base would join -/
  | linked
deriving DecidableEq, Repr

/-- What the cluster rules see of the cluster read so far. -/
structure Tail where
  /-- class of the last character -/
  last : BreakClass
  /-- an odd number of regional indicators stands at the end -/
  oddRegional : Bool
  /-- toward a pictograph, extending characters, a joiner, a pictograph -/
  emoji : Progress
  /-- toward a consonant, a linker among extending characters, a consonant -/
  conjunct : Progress
deriving DecidableEq, Repr

namespace BreakClass

/-- Line ends and controls stand alone. -/
def isBreaking : BreakClass → Bool
  | carriageReturn | lineFeed | control => true
  | _ => false

/-- Whether the character attaches to whatever stands before it, unless that is a control. -/
def attaches : BreakClass → Bool
  | extend | linker | nonJoiner | joiner | spacingMark => true
  | _ => false

/-- Whether two classes stand side by side inside one Hangul syllable. -/
def syllable : BreakClass → BreakClass → Bool
  | leadingJamo, leadingJamo | leadingJamo, vowelJamo => true
  | leadingJamo, openSyllable | leadingJamo, closedSyllable => true
  | openSyllable, vowelJamo | openSyllable, trailingJamo => true
  | vowelJamo, vowelJamo | vowelJamo, trailingJamo => true
  | closedSyllable, trailingJamo | trailingJamo, trailingJamo => true
  | _, _ => false

end BreakClass

namespace Progress

/-- Progress toward an emoji sequence after one more character. -/
def nextEmoji (p : Progress) : BreakClass → Progress
  | .pictograph => based
  | .extend | .linker | .nonJoiner => if p = based then based else none
  | .joiner => if p = based then linked else none
  | _ => none

/-- Progress toward a conjunct after one more character. -/
def nextConjunct (p : Progress) : BreakClass → Progress
  | .consonant => based
  | .linker => if p = none then none else linked
  | .extend | .joiner => p
  | _ => none

end Progress

namespace Tail

/-- The tail of a cluster that consists of one character. -/
def start (k : BreakClass) : Tail where
  last := k
  oddRegional := k = .regionalIndicator
  emoji := Progress.none.nextEmoji k
  conjunct := Progress.none.nextConjunct k

/-- The tail after one more character. -/
def push (t : Tail) (k : BreakClass) : Tail where
  last := k
  oddRegional := k = .regionalIndicator ∧ ¬ t.oddRegional
  emoji := t.emoji.nextEmoji k
  conjunct := t.conjunct.nextConjunct k

/-- Whether the cluster goes on with a character of the given class. -/
def joins (t : Tail) (k : BreakClass) : Bool :=
  if t.last = .carriageReturn ∧ k = .lineFeed then true
  else if t.last.isBreaking || k.isBreaking then false
  else t.last.syllable k
    || k.attaches
    || t.last = .prepended
    || (t.conjunct = .linked && k = .consonant)
    || (t.emoji = .linked && k = .pictograph)
    || (t.oddRegional && k = .regionalIndicator)

end Tail

/-- The characters that go on a cluster with the given tail, and the text after the cluster. -/
def continueCluster : Tail → List Char → List Char × List Char
  | _, [] => ([], [])
  | t, c :: cs =>
    if t.joins (.of c) then
      let (more, rest) := continueCluster (t.push (.of c)) cs
      (c :: more, rest)
    else ([], c :: cs)

/-- A cluster continued and the text after it make up the text it was cut from. -/
theorem continueCluster_append (t : Tail) (cs : List Char) :
    (continueCluster t cs).1 ++ (continueCluster t cs).2 = cs := by
  induction cs generalizing t with
  | nil => rfl
  | cons c cs ih =>
    simp only [continueCluster]
    split
    · simp [ih]
    · rfl

theorem continueCluster_length_le (t : Tail) (cs : List Char) :
    (continueCluster t cs).2.length ≤ cs.length := by
  have h := congrArg List.length (continueCluster_append t cs)
  simp only [List.length_append] at h
  omega

/-- The text as a sequence of clusters. -/
def clusters : List Char → List Cluster
  | [] => []
  | c :: cs =>
    let cut := continueCluster (.start (.of c)) cs
    (c :: cut.1) :: clusters cut.2
termination_by cs => cs.length
decreasing_by
  have := continueCluster_length_le (.start (.of c)) cs
  simp only [List.length_cons]
  omega

@[simp] theorem clusters_nil : clusters [] = [] := by
  simp [clusters]

theorem clusters_cons (c : Char) (cs : List Char) :
    clusters (c :: cs) =
      (c :: (continueCluster (.start (.of c)) cs).1) ::
        clusters (continueCluster (.start (.of c)) cs).2 := by
  rw [clusters]

/-- Cutting a text into clusters loses nothing. -/
theorem flatten_clusters (cs : List Char) : (clusters cs).flatten = cs := by
  fun_induction clusters cs with
  | case1 => rfl
  | case2 c cs cut ih =>
    simp only [List.flatten_cons, ih, List.cons_append]
    exact congrArg (c :: ·) (continueCluster_append _ cs)

end GlyphMachine.Text
