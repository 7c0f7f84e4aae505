import GlyphMachine.Span
import GlyphMachine.Text.Blank
import GlyphMachine.Text.Bytes
import GlyphMachine.Text.Width

/-!
Cursors into a source text, which move over it cluster by cluster and know the line and column they
stand at. White space, comments and words are told apart by whole clusters.
-/

namespace GlyphMachine

open Text (Cluster)

/-! ## Kinds of clusters -/

/-- Whether the cluster is white space. -/
def isBlankCluster (g : Cluster) : Bool :=
  Text.allBlank g

/-- Whether the cluster starts a comment, which runs to the end of its line. -/
def isCommentStart (g : Cluster) : Bool :=
  g = [';']

/-- Whether the cluster ends a line. -/
def isLineEnd (g : Cluster) : Bool :=
  g.contains '\n'

/-- Whether the character can stand in a word. -/
def isWordChar (c : Char) : Bool :=
  c.isAlphanum || c = '_' || c = '-' || c = '+'

/-- The character of a cluster that belongs to a word. -/
def wordChar? : Cluster → Option Char
  | [c] => if isWordChar c then some c else none
  | _ => none

/-! ## Where the reading stands -/

/-- A place between two clusters of the source. -/
structure Place where
  offset : Nat
  line : Nat
  column : Nat
deriving DecidableEq, Repr

namespace Place

/-- The place after a cluster. -/
def past (p : Place) (g : Cluster) : Place :=
  if isLineEnd g then ⟨p.offset + Text.byteSize g, p.line + 1, 1⟩
  else ⟨p.offset + Text.byteSize g, p.line, p.column + 1⟩

/-- The span from one place to another. -/
def spanTo (p q : Place) : Span :=
  ⟨p.offset, q.offset, p.line, p.column⟩

end Place

/-- A place and the clusters that come after it. -/
structure Cursor where
  place : Place
  rest : List Cluster
deriving DecidableEq, Repr

namespace Cursor

/-- The start of a source. A byte order mark at the front is not part of the program. -/
def ofSource (source : String) : Cursor :=
  match Text.clusters source.toList with
  | [c] :: rest =>
    if c = Text.byteOrderMark then ⟨⟨c.utf8Size, 1, 1⟩, rest⟩ else ⟨⟨0, 1, 1⟩, [c] :: rest⟩
  | rest => ⟨⟨0, 1, 1⟩, rest⟩

/-- The next place where something other than white space and comments stands. -/
def skipLayout (inComment : Bool) (p : Place) : List Cluster → Cursor
  | [] => ⟨p, []⟩
  | g :: rest =>
    if inComment ∧ ¬ isLineEnd g then skipLayout true (p.past g) rest
    else if isBlankCluster g then skipLayout false (p.past g) rest
    else if isCommentStart g then skipLayout true (p.past g) rest
    else ⟨p, g :: rest⟩

/-- The cursor at the next thing to read. -/
def skip (c : Cursor) : Cursor :=
  skipLayout false c.place c.rest

/-- The word at a place, which may be empty, and the cursor after it. -/
def takeWord (p : Place) : List Cluster → List Char × Cursor
  | [] => ([], ⟨p, []⟩)
  | g :: rest =>
    match wordChar? g with
    | some c =>
      let (word, after) := takeWord (p.past g) rest
      (c :: word, after)
    | none => ([], ⟨p, g :: rest⟩)

/-- The word at the cursor and the cursor after it. -/
def word (c : Cursor) : List Char × Cursor :=
  takeWord c.place c.rest

theorem skipLayout_rest_length_le (inComment : Bool) (p : Place) (gs : List Cluster) :
    (skipLayout inComment p gs).rest.length ≤ gs.length := by
  fun_induction skipLayout inComment p gs <;> grind

theorem skip_rest_length_le (c : Cursor) : c.skip.rest.length ≤ c.rest.length :=
  skipLayout_rest_length_le ..

theorem takeWord_rest_length_le (p : Place) (gs : List Cluster) :
    (takeWord p gs).2.rest.length ≤ gs.length := by
  fun_induction takeWord p gs <;> grind

theorem word_rest_length_le (c : Cursor) : c.word.2.rest.length ≤ c.rest.length :=
  takeWord_rest_length_le ..

/-- A word that is not empty takes at least one cluster. -/
theorem word_rest_length_lt {c : Cursor} (h : c.word.1 ≠ []) :
    c.word.2.rest.length < c.rest.length := by
  rcases c with ⟨p, _ | ⟨g, rest⟩⟩
  · simp [word, takeWord] at h
  · have := takeWord_rest_length_le (p.past g) rest
    unfold word takeWord at h ⊢
    grind

end Cursor

end GlyphMachine
