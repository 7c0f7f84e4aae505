import GlyphMachine.Text.Bytes
import GlyphMachine.Text.Cluster
import GlyphMachine.Text.Lines
import Mathlib.Logic.Basic

/-!
# Line breaks

A text can be cut in three ways: at a byte offset, into clusters, and into lines.
This module says where the three agree. `splitAtByte?_append` finds every cut
between two characters. `mem_clusters_cases` shows that a character that breaks
shares its cluster with nothing, the line feed behind a carriage return apart, so
no cluster reaches over the end of a line. `exists_line` gives the line that holds
a piece of text: it is numbered by the line feeds before the piece, and the
carriage return it may lose lies behind the piece.
-/

namespace GlyphMachine.Text

/-! ## Cuts at byte offsets -/

theorem byteSize_pos {cs : List Char} (nonempty : cs ≠ []) : 0 < byteSize cs := by
  obtain ⟨c, rest, rfl⟩ := List.exists_cons_of_ne_nil nonempty
  have positive := c.utf8Size_pos
  rw [byteSize_cons]
  omega

theorem byteSize_reverse (cs : List Char) : byteSize cs.reverse = byteSize cs := by
  induction cs with
  | nil => rfl
  | cons c cs ih =>
    rw [List.reverse_cons, byteSize_append, ih, byteSize_cons, byteSize_cons, byteSize_nil]
    omega

/-- A cut between two characters is found by its offset. -/
theorem splitAtByte?_append (before after : List Char) :
    splitAtByte? (byteSize before) (before ++ after) = some (before, after) := by
  induction before with
  | nil => rw [byteSize_nil, List.nil_append, splitAtByte?]
  | cons c before ih =>
    have positive := byteSize_pos (List.cons_ne_nil c before)
    obtain ⟨n, size⟩ := Nat.exists_eq_add_one.mpr positive
    rw [size, List.cons_append, splitAtByte?, ← size, byteSize_cons, if_pos (by omega),
      Nat.add_sub_cancel_left, ih]
    rfl

/-! ## Classes of the line breaks -/

namespace BreakClass

/-- Beyond ASCII nothing ends a line. -/
theorem ofWide_ne (n : Nat) : ofWide n ≠ lineFeed ∧ ofWide n ≠ carriageReturn := by
  simp only [ofWide, ne_eq, ite_eq_iff, reduceCtorEq, and_false, or_false, not_false_iff,
    and_self]

theorem of_eq_lineFeed_iff {c : Char} : of c = lineFeed ↔ c = '\n' := by
  constructor
  · intro lineFeed
    unfold of at lineFeed
    split at lineFeed
    · simp only [ofAscii, ite_eq_iff, reduceCtorEq, and_false, or_false, false_or,
        and_true] at lineFeed
      exact Char.toNat_inj.mp lineFeed.2
    · exact absurd lineFeed (ofWide_ne _).1
  · rintro rfl
    decide

theorem of_eq_carriageReturn_iff {c : Char} : of c = carriageReturn ↔ c = '\r' := by
  constructor
  · intro carriageReturn
    unfold of at carriageReturn
    split at carriageReturn
    · simp only [ofAscii, ite_eq_iff, reduceCtorEq, and_false, or_false, and_true] at carriageReturn
      exact Char.toNat_inj.mp carriageReturn
    · exact absurd carriageReturn (ofWide_ne _).2
  · rintro rfl
    decide

end BreakClass

/-! ## Line breaks inside clusters -/

theorem Tail.joins_of_isBreaking {t : Tail} {k : BreakClass} (breaking : t.last.isBreaking)
    (joins : t.joins k) : t.last = .carriageReturn ∧ k = .lineFeed := by
  unfold Tail.joins at joins
  split at joins
  · assumption
  · simp [breaking] at joins

theorem Tail.not_isBreaking_of_joins {t : Tail} {k : BreakClass} (plain : ¬ t.last.isBreaking)
    (joins : t.joins k) : ¬ k.isBreaking := by
  unfold Tail.joins at joins
  split at joins
  · rename_i lineEnd
    rw [lineEnd.1] at plain
    exact absurd rfl plain
  · intro breaking
    simp [breaking] at joins

/-- What goes on after a plain character is plain. -/
theorem not_isBreaking_of_mem_continueCluster {t : Tail} (plain : ¬ t.last.isBreaking)
    (cs : List Char) : ∀ c ∈ (continueCluster t cs).1, ¬ (BreakClass.of c).isBreaking := by
  induction cs generalizing t with
  | nil => simp [continueCluster]
  | cons c cs ih =>
    simp only [continueCluster]
    split
    · rename_i joins
      have next := Tail.not_isBreaking_of_joins plain joins
      exact List.forall_mem_cons.mpr ⟨next, ih next⟩
    · simp

/-- Nothing goes on after a breaking character but a line feed after a carriage
return. -/
theorem continueCluster_of_isBreaking {t : Tail} (breaking : t.last.isBreaking)
    (cs : List Char) : (continueCluster t cs).1 = [] ∨
      t.last = .carriageReturn ∧ (continueCluster t cs).1 = ['\n'] := by
  rcases cs with _ | ⟨c, cs⟩
  · exact .inl rfl
  by_cases joins : t.joins (.of c)
  · obtain ⟨carriageReturn, lineFeed⟩ := Tail.joins_of_isBreaking breaking joins
    -- A line feed breaks as well, and it is no carriage return: the cluster ends there.
    have ended : (continueCluster (t.push (.of c)) cs).1 = [] := by
      rcases cs with _ | ⟨d, cs⟩
      · rfl
      have apart : (t.push (.of c)).joins (.of d) = false := by
        rw [Bool.eq_false_iff]
        intro more
        have after : (t.push (.of c)).last = .lineFeed := lineFeed
        have again := Tail.joins_of_isBreaking (by rw [after]; rfl) more
        rw [after] at again
        cases again.1
      simp [continueCluster, apart]
    refine .inr ⟨carriageReturn, ?_⟩
    simp only [continueCluster, joins, if_true, ended]
    rw [BreakClass.of_eq_lineFeed_iff.mp lineFeed]
  · left
    simp [continueCluster, joins]

/-- A cluster holds no breaking character, or one that stands alone, or it is the
line break of two characters. -/
theorem mem_clusters_cases {g : Cluster} {cs : List Char} (among : g ∈ clusters cs) :
    g ≠ [] ∧ ((∀ c ∈ g, ¬ (BreakClass.of c).isBreaking) ∨ (∃ c, g = [c]) ∨ g = ['\r', '\n']) := by
  fun_induction clusters cs with
  | case1 => cases among
  | case2 c cs cut ih =>
    rcases List.mem_cons.mp among with rfl | later
    · refine ⟨List.cons_ne_nil _ _, ?_⟩
      by_cases plain : (BreakClass.of c).isBreaking
      · rcases continueCluster_of_isBreaking (t := .start (.of c)) plain cs with
          alone | ⟨carriageReturn, lineFeed⟩
        · exact .inr (.inl ⟨c, by rw [show cut.1 = [] from alone]⟩)
        · rw [show cut.1 = ['\n'] from lineFeed,
            BreakClass.of_eq_carriageReturn_iff.mp carriageReturn]
          exact .inr (.inr rfl)
      · left
        have more := not_isBreaking_of_mem_continueCluster (t := .start (.of c)) plain cs
        exact List.forall_mem_cons.mpr ⟨plain, more⟩
    · exact ih later

section ClusterLines

variable {g : Cluster} {cs : List Char}

/-- A cluster with a line feed is the line feed, or that and a carriage return. -/
theorem eq_of_lineFeed_mem (among : g ∈ clusters cs) (lineFeed : '\n' ∈ g) :
    g = ['\n'] ∨ g = ['\r', '\n'] := by
  rcases (mem_clusters_cases among).2 with plain | ⟨c, rfl⟩ | rfl
  · exact absurd (by decide) (plain '\n' lineFeed)
  · exact .inl (by rw [List.mem_singleton.mp lineFeed])
  · exact .inr rfl

/-- A cluster with a carriage return is the carriage return, or that and a line
feed. -/
theorem eq_of_carriageReturn_mem (among : g ∈ clusters cs) (carriageReturn : '\r' ∈ g) :
    g = ['\r'] ∨ g = ['\r', '\n'] := by
  rcases (mem_clusters_cases among).2 with plain | ⟨c, rfl⟩ | rfl
  · exact absurd (by decide) (plain '\r' carriageReturn)
  · exact .inl (by rw [List.mem_singleton.mp carriageReturn])
  · exact .inr rfl

/-- No cluster ends two lines. -/
theorem count_lineFeed_of_mem (among : g ∈ clusters cs) :
    g.count '\n' = if '\n' ∈ g then 1 else 0 := by
  by_cases lineFeed : '\n' ∈ g
  · rcases eq_of_lineFeed_mem among lineFeed with rfl | rfl <;> rfl
  · rw [if_neg lineFeed, List.count_eq_zero]
    exact lineFeed

end ClusterLines

/-! ## The line of a piece of text -/

/-- Reading on within a line. -/
theorem linesFrom_append {text : List Char} (unbroken : '\n' ∉ text) (start : Nat)
    (read rest : List Char) :
    linesFrom start read (text ++ rest) = linesFrom start (text.reverse ++ read) rest := by
  induction text generalizing read with
  | nil => rfl
  | cons c text ih =>
    obtain ⟨same, later⟩ := List.ne_and_not_mem_of_not_mem_cons unbroken
    rw [List.cons_append, linesFrom, if_neg (Ne.symm same), ih later]
    simp

/-- The line that is being read begins with what was read of it, unless all of
that is the carriage return of the line break. -/
theorem exists_linesFrom_eq_cons {read : List Char} (nonempty : read ≠ [])
    (solid : read.head? ≠ some '\r') (start : Nat) (more rest : List Char) :
    ∃ tail later, linesFrom start (more ++ read) rest =
      ⟨start, read.reverse ++ tail⟩ :: later := by
  -- `more` is what of `rest` was read so far; a carriage return that is dropped comes from there.
  induction rest generalizing more with
  | nil => exact ⟨more.reverse, [], by simp [linesFrom, nonempty]⟩
  | cons c rest ih =>
    rw [linesFrom]
    split
    · have kept : ∃ tail, dropReturn (more ++ read) = read.reverse ++ tail := by
        rcases more with _ | ⟨d, more⟩
        · obtain ⟨e, read, rfl⟩ := List.exists_cons_of_ne_nil nonempty
          refine ⟨[], ?_⟩
          rw [List.nil_append, List.append_nil, dropReturn]
          rintro cs ⟨rfl, rfl⟩
          exact solid rfl
        · by_cases carriageReturn : d = '\r'
          · subst carriageReturn
            exact ⟨more.reverse, by simp [dropReturn]⟩
          · refine ⟨(d :: more).reverse, ?_⟩
            rw [dropReturn, List.reverse_append]
            rintro cs ⟨rfl, rfl⟩
            exact carriageReturn rfl
      obtain ⟨tail, kept⟩ := kept
      exact ⟨tail, _, by rw [kept]⟩
    · exact ih (c :: more)

/-- A piece of text that holds no line break lies whole on the line numbered by the
line feeds before it. -/
theorem exists_line {text : List Char} (nonempty : text ≠ []) (unbroken : '\n' ∉ text)
    (unreturned : '\r' ∉ text) (before after : List Char) :
    ∃ l head tail, (lines (before ++ text ++ after))[before.count '\n']? = some l ∧
      l.text = head ++ text ++ tail ∧ l.start + byteSize head = byteSize before := by
  suffices general : ∀ start read, ∃ l head tail,
      (linesFrom start read (before ++ text ++ after))[before.count '\n']? = some l ∧
      l.text = head ++ text ++ tail ∧
      l.start + byteSize head = start + byteSize read + byteSize before by
    simpa [lines] using general 0 []
  induction before with
  | nil =>
    intro start read
    have solid : (text.reverse ++ read).head? ≠ some '\r' := by
      obtain ⟨c, rest, reversed⟩ :=
        List.exists_cons_of_ne_nil (List.reverse_ne_nil_iff.mpr nonempty)
      rw [reversed]
      rintro ⟨rfl⟩
      apply unreturned
      rw [← List.mem_reverse, reversed]
      exact List.mem_cons_self
    have filled : text.reverse ++ read ≠ [] := by simp [nonempty]
    obtain ⟨tail, later, read_on⟩ := exists_linesFrom_eq_cons filled solid start [] after
    refine ⟨⟨start, (text.reverse ++ read).reverse ++ tail⟩, read.reverse, tail, ?_, ?_, ?_⟩
    · rw [List.nil_append, linesFrom_append unbroken, ← List.nil_append (_ ++ read), read_on]
      rfl
    · rw [List.reverse_append, List.reverse_reverse]
    · rw [byteSize_reverse, byteSize_nil, Nat.add_zero]
  | cons c before ih =>
    intro start read
    rw [List.cons_append, List.cons_append, linesFrom]
    split
    · rename_i lineFeed
      subst lineFeed
      obtain ⟨l, head, tail, found, text_eq, start_eq⟩ := ih (start + byteSize read + 1) []
      refine ⟨l, head, tail, ?_, text_eq, ?_⟩
      · rw [List.count_cons_self, List.getElem?_cons_succ]
        exact found
      · rw [start_eq, byteSize_cons, byteSize_nil, show '\n'.utf8Size = 1 from rfl]
        omega
    · rename_i other
      obtain ⟨l, head, tail, found, text_eq, start_eq⟩ := ih start (c :: read)
      refine ⟨l, head, tail, ?_, text_eq, ?_⟩
      · rw [List.count_cons_of_ne other]
        exact found
      · rw [start_eq, byteSize_cons, byteSize_cons]
        omega

end GlyphMachine.Text
