import GlyphMachine.Proofs.Text.LineBreaks
import GlyphMachine.Text.Width

/-!
# Texts as editors save them

`saved` is a text whose lines end in two characters instead of one, with or without a
byte order mark in front. It has the clusters of the text, of which only the line
breaks are other ones (`clusters_crlf`, `clusters_byteOrderMark`), and its lines
(`exists_line_saved`), of which the first begins with the mark.
-/

namespace GlyphMachine.Text

/-! ## Line breaks of two characters -/

/-- The text with a carriage return in front of every line feed. -/
def crlf (cs : List Char) : List Char :=
  cs.flatMap fun c => if c = '\n' then ['\r', '\n'] else [c]

@[simp] theorem crlf_nil : crlf [] = [] := rfl

@[simp] theorem crlf_cons_lineFeed (cs : List Char) :
    crlf ('\n' :: cs) = '\r' :: '\n' :: crlf cs := rfl

theorem crlf_cons_of_ne {c : Char} (other : c ≠ '\n') (cs : List Char) :
    crlf (c :: cs) = c :: crlf cs := by
  simp [crlf, other]

theorem crlf_append (cs ds : List Char) : crlf (cs ++ ds) = crlf cs ++ crlf ds :=
  List.flatMap_append

theorem crlf_eq_self {cs : List Char} (unbroken : '\n' ∉ cs) : crlf cs = cs := by
  induction cs with
  | nil => rfl
  | cons c cs ih =>
    obtain ⟨other, later⟩ := List.ne_and_not_mem_of_not_mem_cons unbroken
    rw [crlf_cons_of_ne (Ne.symm other), ih later]

theorem byteSize_crlf (cs : List Char) : byteSize (crlf cs) = byteSize cs + cs.count '\n' := by
  induction cs with
  | nil => rfl
  | cons c cs ih =>
    by_cases lineFeed : c = '\n'
    · subst lineFeed
      rw [crlf_cons_lineFeed, byteSize_cons, byteSize_cons, byteSize_cons, ih,
        List.count_cons_self, show '\r'.utf8Size = 1 from rfl]
      omega
    · rw [crlf_cons_of_ne lineFeed, byteSize_cons, byteSize_cons, ih,
        List.count_cons_of_ne lineFeed, Nat.add_assoc]

theorem count_crlf (cs : List Char) : (crlf cs).count '\n' = cs.count '\n' := by
  induction cs with
  | nil => rfl
  | cons c cs ih =>
    by_cases lineFeed : c = '\n'
    · subst lineFeed
      rw [crlf_cons_lineFeed, List.count_cons_of_ne (by decide), List.count_cons_self,
        List.count_cons_self, ih]
    · rw [crlf_cons_of_ne lineFeed, List.count_cons_of_ne lineFeed,
        List.count_cons_of_ne lineFeed, ih]

/-- Of two beginnings of a text, the longer one stays the longer one. -/
theorem byteSize_crlf_le_iff {before after before' after' : List Char}
    (same : before ++ after = before' ++ after') :
    byteSize (crlf before) ≤ byteSize (crlf before') ↔ byteSize before ≤ byteSize before' := by
  rcases List.prefix_or_prefix_of_prefix ⟨after, rfl⟩ ⟨after', same.symm⟩ with
    ⟨more, rfl⟩ | ⟨more, rfl⟩
  · rw [crlf_append, byteSize_append, byteSize_append]
    omega
  · rw [crlf_append, byteSize_append, byteSize_append, byteSize_crlf more]
    by_cases empty : more = []
    · subst empty
      simp
    · have positive := byteSize_pos empty
      omega

/-! ## Clusters -/

/-- Where no carriage return stands last, neither character of a line break goes on a
cluster. -/
theorem Tail.joins_lineBreak {t : Tail} (noReturn : t.last ≠ .carriageReturn) {k : BreakClass}
    (lineBreak : k = .carriageReturn ∨ k = .lineFeed) : t.joins k = false := by
  have breaking : k.isBreaking := by
    rcases lineBreak with rfl | rfl <;> rfl
  simp [joins, noReturn, breaking]

theorem continueCluster_crlf {t : Tail} (noReturn : t.last ≠ .carriageReturn) {cs : List Char}
    (free : '\r' ∉ cs) :
    continueCluster t (crlf cs) =
      (crlf (continueCluster t cs).1, crlf (continueCluster t cs).2) := by
  induction cs generalizing t with
  | nil => rfl
  | cons c cs ih =>
    obtain ⟨plain, free⟩ := List.ne_and_not_mem_of_not_mem_cons free
    have nextFree : BreakClass.of c ≠ .carriageReturn := fun isReturn =>
      plain (BreakClass.of_eq_carriageReturn_iff.mp isReturn).symm
    by_cases lineFeed : c = '\n'
    · subst lineFeed
      have feed := t.joins_lineBreak noReturn (k := .of '\n') (.inr (by decide))
      have carriage := t.joins_lineBreak noReturn (k := .of '\r') (.inl (by decide))
      simp [continueCluster, feed, carriage]
    · rw [crlf_cons_of_ne lineFeed, continueCluster, continueCluster]
      split
      · rw [ih (t := t.push (.of c)) nextFree free]
        simp [crlf_cons_of_ne lineFeed]
      · simp [crlf_cons_of_ne lineFeed]

/-- A cluster ends behind a breaking character, unless that is a carriage return. -/
theorem continueCluster_eq_nil {t : Tail} (breaking : t.last.isBreaking)
    (noReturn : t.last ≠ .carriageReturn) (cs : List Char) :
    continueCluster t cs = ([], cs) := by
  have whole := continueCluster_append t cs
  rcases continueCluster_of_isBreaking breaking cs with ended | ⟨isReturn, -⟩
  · rw [ended, List.nil_append] at whole
    exact Prod.ext ended whole
  · exact absurd isReturn noReturn

theorem clusters_byteOrderMark (cs : List Char) :
    clusters (byteOrderMark :: cs) = [byteOrderMark] :: clusters cs := by
  have control : BreakClass.of byteOrderMark = .control := by decide +kernel
  have ended := continueCluster_eq_nil (t := .start (.of byteOrderMark)) (by rw [control]; rfl)
    (by rw [control]; nofun) cs
  rw [clusters_cons, ended]

/-- A carriage return and a line feed are one cluster. -/
theorem clusters_crlf_lineFeed (cs : List Char) :
    clusters ('\r' :: '\n' :: cs) = ['\r', '\n'] :: clusters cs := by
  have joins : (Tail.start (.of '\r')).joins (.of '\n') := by decide
  have ended := continueCluster_eq_nil (t := (Tail.start (.of '\r')).push (.of '\n'))
    (by decide) (by decide) cs
  rw [clusters_cons, continueCluster, if_pos joins, ended]

/-- The clusters of a text keep their places, whatever its lines end in. -/
theorem clusters_crlf {cs : List Char} (free : '\r' ∉ cs) :
    clusters (crlf cs) = (clusters cs).map crlf := by
  fun_induction clusters cs with
  | case1 => simp
  | case2 c cs cut ih =>
    obtain ⟨plain, free⟩ := List.ne_and_not_mem_of_not_mem_cons free
    have laterFree : '\r' ∉ cut.2 := by
      intro among
      rw [← continueCluster_append (.start (.of c)) cs, List.mem_append, not_or] at free
      exact free.2 among
    by_cases lineFeed : c = '\n'
    · subst lineFeed
      have ended : cut = ([], cs) := continueCluster_eq_nil (by decide) (by decide) cs
      rw [ended] at ih laterFree ⊢
      rw [crlf_cons_lineFeed, clusters_crlf_lineFeed, ih laterFree]
      rfl
    · have noReturn : (Tail.start (.of c)).last ≠ .carriageReturn := fun isReturn =>
        plain (BreakClass.of_eq_carriageReturn_iff.mp isReturn).symm
      rw [crlf_cons_of_ne lineFeed, clusters_cons, continueCluster_crlf noReturn free,
        List.map_cons, crlf_cons_of_ne lineFeed, ih laterFree]

/-- A byte order mark takes no columns. -/
theorem displayWidth_byteOrderMark (cs : List Char) :
    displayWidth (byteOrderMark :: cs) = displayWidth cs := by
  rw [displayWidth, clusters_byteOrderMark, widthOf, Cluster.width, if_pos rfl, Nat.zero_add]
  rfl

/-! ## Saved texts -/

/-- The byte order mark of a text that is marked by one. -/
def mark (marked : Bool) : List Char :=
  if marked then [byteOrderMark] else []

/-- The text as an editor saves it that ends lines in two characters and may put a byte
order mark in front. -/
def saved (marked : Bool) (cs : List Char) : List Char :=
  mark marked ++ crlf cs

theorem displayWidth_mark (marked : Bool) (cs : List Char) :
    displayWidth (mark marked ++ cs) = displayWidth cs := by
  cases marked with
  | false => rfl
  | true => exact displayWidth_byteOrderMark cs

theorem not_mem_mark {c : Char} (other : c ≠ byteOrderMark) (marked : Bool) :
    c ∉ mark marked := by
  cases marked <;> simp [mark, other]

/-! ## Lines -/

theorem dropReturn_of_not_mem {read : List Char} (free : '\r' ∉ read) :
    dropReturn read = read.reverse := by
  rw [dropReturn]
  rintro rest rfl
  exact free List.mem_cons_self

/-- A line keeps its text, and starts one byte further on for every line before it. -/
theorem linesFrom_crlf {read cs : List Char} (readFree : '\r' ∉ read) (free : '\r' ∉ cs)
    (start ahead : Nat) :
    linesFrom (start + ahead) read (crlf cs) =
      (linesFrom start read cs).mapIdx fun n l => ⟨l.start + ahead + n, l.text⟩ := by
  induction cs generalizing read start ahead with
  | nil =>
    simp only [crlf_nil, linesFrom]
    split <;> simp
  | cons c cs ih =>
    obtain ⟨plain, laterFree⟩ := List.ne_and_not_mem_of_not_mem_cons free
    by_cases lineFeed : c = '\n'
    · subst lineFeed
      have later := ih List.not_mem_nil laterFree (start + byteSize read + 1) (ahead + 1)
      have next : start + ahead + byteSize ('\r' :: read) + 1 =
          start + byteSize read + 1 + (ahead + 1) := by
        rw [byteSize_cons, show '\r'.utf8Size = 1 from rfl]
        omega
      have further (l : Line) (n : Nat) :
          l.start + (ahead + 1) + n = l.start + ahead + (n + 1) := by
        omega
      rw [crlf_cons_lineFeed, linesFrom, if_neg (by decide), linesFrom, if_pos rfl, linesFrom,
        if_pos rfl, next, later, List.mapIdx_cons, dropReturn_of_not_mem readFree]
      simp only [further]
      rfl
    · rw [crlf_cons_of_ne lineFeed, linesFrom, if_neg lineFeed, linesFrom, if_neg lineFeed]
      exact ih (List.not_mem_cons_of_ne_of_not_mem plain readFree) laterFree start ahead

/-- What stands in front of the first line becomes part of it. -/
theorem linesFrom_crlf_of_front {read cs : List Char} (readFree : '\r' ∉ read)
    (free : '\r' ∉ cs) {start : Nat} {l : Line} {ls : List Line}
    (cut : linesFrom start read cs = l :: ls) (front : List Char) :
    linesFrom start (read ++ front.reverse) (crlf cs) =
      ⟨l.start, front ++ l.text⟩ ::
        ls.mapIdx fun n l => ⟨l.start + (byteSize front + 1) + n, l.text⟩ := by
  induction cs generalizing read with
  | nil =>
    rw [linesFrom] at cut
    split at cut
    · cases cut
    · rename_i filled
      cases cut
      simp [linesFrom, List.isEmpty_iff.not.mp filled]
  | cons c cs ih =>
    obtain ⟨plain, laterFree⟩ := List.ne_and_not_mem_of_not_mem_cons free
    by_cases lineFeed : c = '\n'
    · subst lineFeed
      rw [linesFrom, if_pos rfl] at cut
      obtain ⟨rfl, rfl⟩ := List.cons.inj cut
      have later := linesFrom_crlf List.not_mem_nil laterFree (start + byteSize read + 1)
        (byteSize front + 1)
      have next : start + byteSize ('\r' :: (read ++ front.reverse)) + 1 =
          start + byteSize read + 1 + (byteSize front + 1) := by
        rw [byteSize_cons, byteSize_append, byteSize_reverse, show '\r'.utf8Size = 1 from rfl]
        omega
      rw [crlf_cons_lineFeed, linesFrom, if_neg (by decide), linesFrom, if_pos rfl, next, later,
        dropReturn_of_not_mem readFree, dropReturn, List.reverse_append, List.reverse_reverse]
    · rw [linesFrom, if_neg lineFeed] at cut
      rw [crlf_cons_of_ne lineFeed, linesFrom, if_neg lineFeed]
      exact ih (List.not_mem_cons_of_ne_of_not_mem plain readFree) laterFree cut

/-- A saved text has the lines of the text, the first of them behind the mark. -/
theorem exists_line_saved {cs : List Char} (free : '\r' ∉ cs) {n : Nat} {l : Line}
    (found : (lines cs)[n]? = some l) (marked : Bool) :
    let front := if n = 0 then mark marked else []
    ∃ l', (lines (saved marked cs))[n]? = some l' ∧ l'.text = front ++ l.text ∧
      l'.start + byteSize front = l.start + n + byteSize (mark marked) := by
  obtain ⟨first, later, cut⟩ : ∃ first later, lines cs = first :: later := by
    apply List.exists_cons_of_ne_nil
    rintro none
    rw [none] at found
    cases found
  have whole : lines (saved marked cs) = ⟨first.start, mark marked ++ first.text⟩ ::
      later.mapIdx fun n l => ⟨l.start + (byteSize (mark marked) + 1) + n, l.text⟩ := by
    rw [lines, saved, linesFrom_append (not_mem_mark (by decide) marked), List.append_nil]
    exact linesFrom_crlf_of_front List.not_mem_nil free cut (mark marked)
  rw [whole]
  rw [cut] at found
  cases n with
  | zero =>
    cases found
    exact ⟨_, rfl, rfl, rfl⟩
  | succ n =>
    rw [List.getElem?_cons_succ] at found
    refine ⟨⟨l.start + (byteSize (mark marked) + 1) + n, l.text⟩, ?_, rfl, ?_⟩
    · simp [found]
    · simp only [Nat.add_one_ne_zero, if_false, byteSize_nil]
      omega

end GlyphMachine.Text
