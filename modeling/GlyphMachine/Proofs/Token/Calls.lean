import GlyphMachine.Proofs.Token.Positions
import Mathlib.Logic.Function.Iterate
import Mathlib.Order.Monotone.Basic

/-!
# The lexer, call by call

The lexer is called again and again, also after it had nothing to give out.
`Lexer.call` is one call and `Lexer.afterCalls` the lexer after some of them.
`Lexer.next?_cases` says what a call that gives something out can do: it gives out
the stored operand and moves nothing, or it moves over at least one cluster and stores
an operand only together with its glyph. All else is carried along the calls from
there: where the lexer stands (`reaches_afterCalls`), what it gives out
(`given?_eq_getElem?_lexemes`) and for how long (`length_lexemes_le`).
-/

namespace GlyphMachine

open Text (Cluster)

/-! ## Calls -/

namespace Lexer

/-- One call: what it gives out, if anything, and the lexer after it. -/
def call (l : Lexer) : Option Lexeme × Lexer :=
  match l.next? with
  | some (lexeme, after) => (some lexeme, after)
  | none => (none, l.exhausted)

/-- The lexer after so many calls. -/
def afterCalls (l : Lexer) (n : Nat) : Lexer :=
  (fun l => l.call.2)^[n] l

/-- What the next call gives out after so many calls. -/
def given? (l : Lexer) (n : Nat) : Option Lexeme :=
  (l.afterCalls n).call.1

variable {l after : Lexer} {lexeme : Lexeme}

theorem call_of_next?_eq_some (given : l.next? = some (lexeme, after)) :
    l.call = (some lexeme, after) := by
  rw [call, given]

theorem call_of_next?_eq_none (ended : l.next? = none) : l.call = (none, l.exhausted) := by
  rw [call, ended]

theorem next?_of_call (given : l.call.1 = some lexeme) :
    l.next? = some (lexeme, l.call.2) := by
  rcases stepped : l.next? with _ | ⟨other, after⟩
  · rw [call_of_next?_eq_none stepped] at given
    cases given
  · rw [call_of_next?_eq_some stepped] at given ⊢
    rw [← Option.some.inj given]

theorem next?_eq_none_of_call (ended : l.call.1 = none) : l.next? = none := by
  rcases stepped : l.next? with _ | ⟨lexeme, after⟩
  · rfl
  · rw [call_of_next?_eq_some stepped] at ended
    cases ended

theorem afterCalls_succ (l : Lexer) (n : Nat) : l.afterCalls (n + 1) = (l.afterCalls n).call.2 :=
  Function.iterate_succ_apply' ..

theorem given?_succ (l : Lexer) (n : Nat) : l.given? (n + 1) = l.call.2.given? n := by
  rw [given?, afterCalls, Function.iterate_succ_apply]
  rfl

end Lexer

/-! ## What one call reads -/

/-- At least one cluster lies between the cursors. -/
def Cursor.Consumes (c d : Cursor) : Prop :=
  ∃ gs, gs ≠ [] ∧ c.Advances gs d

section Cursors

variable {c d e : Cursor}

theorem Cursor.Reaches.trans (first : c.Reaches d) (second : d.Reaches e) : c.Reaches e := by
  obtain ⟨gs, advances⟩ := first
  obtain ⟨hs, later⟩ := second
  exact ⟨gs ++ hs, advances.trans later⟩

theorem Cursor.reaches_skip (c : Cursor) : c.Reaches c.skip :=
  (Cursor.Reaches.refl c).skip rfl

theorem Cursor.Consumes.reaches (consumes : c.Consumes d) : c.Reaches d := by
  obtain ⟨gs, -, advances⟩ := consumes
  exact ⟨gs, advances⟩

theorem Cursor.Consumes.of_reaches (reached : c.Reaches d) (consumes : d.Consumes e) :
    c.Consumes e := by
  obtain ⟨gs, advances⟩ := reached
  obtain ⟨hs, nonempty, later⟩ := consumes
  exact ⟨gs ++ hs, List.append_ne_nil_of_right_ne_nil gs nonempty, advances.trans later⟩

/-- Reading on behind a cluster. -/
theorem Cursor.Consumes.of_past {p : Place} {g : Cluster} {rest : List Cluster}
    (reached : (⟨p.past g, rest⟩ : Cursor).Reaches d) :
    (⟨p, g :: rest⟩ : Cursor).Consumes d := by
  obtain ⟨gs, advances⟩ := reached
  exact ⟨g :: gs, List.cons_ne_nil g gs, .cons advances⟩

theorem Cursor.Consumes.of_word {w : List Char} (taken : c.word = (w, d)) (nonempty : w ≠ []) :
    c.Consumes d := by
  refine ⟨w.map fun e => [e], ?_, Cursor.advances_word taken⟩
  rw [ne_eq, List.map_eq_nil_iff]
  exact nonempty

theorem Cursor.Reaches.offset_le (reached : c.Reaches d) : c.place.offset ≤ d.place.offset := by
  obtain ⟨gs, advances⟩ := reached
  rw [advances.place_eq, Place.over_offset]
  exact Nat.le_add_right _ _

end Cursors

/-- The lexeme is the operand of the glyph at the span: the word behind it, read as the glyph
expects it, or a report that there is none. -/
inductive Lexeme.OperandFor (glyph : Glyph) (span : Span) : Lexeme → Prop
  | word {w : List Char} {place : Span} : w ≠ [] →
    OperandFor glyph span (.operand glyph.arity w place)
  | missing : OperandFor glyph span (.error ⟨.missingOperand glyph glyph.arity, span⟩)

/-- The lexeme is a glyph that expects an operand, and `operand` is what it has got. -/
def Lexeme.Takes (lexeme operand : Lexeme) : Prop :=
  ∃ glyph span, lexeme = .ok ⟨.ofGlyph glyph, span⟩ ∧ glyph.arity ≠ .none ∧
    operand.OperandFor glyph span

namespace Lexer

variable {l after : Lexer} {lexeme : Lexeme}

theorem readOperand_spec (glyph : Glyph) (span : Span) (c : Cursor) :
    (readOperand glyph span c).1.OperandFor glyph span ∧
      c.Reaches (readOperand glyph span c).2 := by
  rcases taken : c.skip.word with ⟨w, stop⟩
  simp only [readOperand, taken]
  split
  · exact ⟨.missing, c.reaches_skip⟩
  · rename_i nonempty
    exact ⟨.word nonempty, c.reaches_skip.word taken⟩

/-- A glyph is read, and its operand is stored along with it. -/
theorem readGlyph_spec (p : Place) (g : Cluster) (rest : List Cluster) :
    (⟨p, g :: rest⟩ : Cursor).Consumes (readGlyph p g rest).2.cursor ∧
      ∀ operand, (readGlyph p g rest).2.pending = some operand →
        (readGlyph p g rest).1.Takes operand := by
  have behind : (⟨p, g :: rest⟩ : Cursor).Consumes ⟨p.past g, rest⟩ := .of_past (.refl _)
  rcases named : Glyph.ofCluster? g with _ | glyph
  · simp only [readGlyph, named]
    exact ⟨behind, by simp⟩
  by_cases arity : glyph.arity = .none
  · simp only [readGlyph, named, arity, if_true]
    exact ⟨behind, by simp⟩
  · obtain ⟨isOperand, reached⟩ :=
      readOperand_spec glyph (p.spanTo (p.past g)) ⟨p.past g, rest⟩
    simp only [readGlyph, named, arity, if_false]
    refine ⟨.of_past reached, ?_⟩
    rintro operand ⟨⟩
    exact ⟨glyph, _, rfl, arity, isOperand⟩

/-- A call gives out what is stored and moves nothing, or it moves over at least one cluster
and stores nothing but the operand of the glyph it gives out. -/
theorem next?_cases (given : l.next? = some (lexeme, after)) :
    l.pending = some lexeme ∧ after = ⟨l.cursor, none⟩ ∨
      l.pending = none ∧ l.cursor.Consumes after.cursor ∧
        ∀ operand, after.pending = some operand → lexeme.Takes operand := by
  rcases l with ⟨cursor, _ | stored⟩
  · refine .inr ⟨rfl, ?_⟩
    rcases skipped : cursor.skip with ⟨p, _ | ⟨g, rest⟩⟩
    · simp [next?, skipped] at given
    by_cases noWord : cursor.skip.word.1 = []
    · rw [next?_of_word_eq_nil skipped noWord] at given
      obtain ⟨consumes, stores⟩ := readGlyph_spec p g rest
      rw [Option.some.inj given] at consumes stores
      rw [← skipped] at consumes
      exact ⟨.of_reaches cursor.reaches_skip consumes, stores⟩
    · rcases taken : cursor.skip.word with ⟨w, stop⟩
      rw [taken] at noWord
      have consumes := Cursor.Consumes.of_word taken noWord
      rw [skipped] at taken
      simp only [next?, skipped, taken, noWord, if_false, Option.some.injEq,
        Prod.mk.injEq] at given
      obtain ⟨-, rfl⟩ := given
      exact ⟨.of_reaches cursor.reaches_skip consumes, by simp⟩
  · obtain ⟨rfl, rfl⟩ := Prod.mk.inj (Option.some.inj given)
    exact .inl ⟨rfl, rfl⟩

/-- Nothing is given out where nothing is stored and only layout is left. -/
theorem next?_eq_none_iff : l.next? = none ↔ l.pending = none ∧ l.cursor.skip.rest = [] := by
  rcases l with ⟨cursor, _ | stored⟩
  · rcases ended : cursor.skip.rest with _ | ⟨g, rest⟩
    · simp [next?, ended]
    · simp only [next?, ended]
      split <;> simp
  · simp [next?]

/-! ## Call after call -/

/-- A lexer with nothing to give out stays so. -/
theorem next?_exhausted (ended : l.next? = none) : l.exhausted.next? = none := by
  obtain ⟨-, empty⟩ := next?_eq_none_iff.mp ended
  rw [next?_eq_none_iff, exhausted, Cursor.skip_skip]
  exact ⟨rfl, empty⟩

theorem reaches_call (l : Lexer) : l.cursor.Reaches l.call.2.cursor := by
  rcases stepped : l.next? with _ | ⟨lexeme, after⟩
  · rw [call_of_next?_eq_none stepped]
    exact l.cursor.reaches_skip
  · rw [call_of_next?_eq_some stepped]
    rcases next?_cases stepped with ⟨-, rfl⟩ | ⟨-, consumes, -⟩
    · exact .refl _
    · exact consumes.reaches

theorem reaches_afterCalls (l : Lexer) (n : Nat) : l.cursor.Reaches (l.afterCalls n).cursor := by
  induction n with
  | zero => exact .refl _
  | succ n ih =>
    rw [afterCalls_succ]
    exact ih.trans (reaches_call _)

/-- The calls give out the lexemes, one after the other, and nothing behind them. -/
theorem given?_eq_getElem?_lexemes (l : Lexer) (n : Nat) : l.given? n = l.lexemes[n]? := by
  induction n generalizing l with
  | zero =>
    rcases stepped : l.next? with _ | ⟨lexeme, after⟩
    · rw [lexemes_of_next?_eq_none stepped]
      exact congrArg Prod.fst (call_of_next?_eq_none stepped)
    · rw [lexemes_of_next?_eq_some stepped]
      exact congrArg Prod.fst (call_of_next?_eq_some stepped)
  | succ n ih =>
    rw [given?_succ, ih]
    rcases stepped : l.next? with _ | ⟨lexeme, after⟩
    · rw [call_of_next?_eq_none stepped, lexemes_of_next?_eq_none stepped,
        lexemes_of_next?_eq_none (next?_exhausted stepped)]
      rfl
    · rw [call_of_next?_eq_some stepped, lexemes_of_next?_eq_some stepped,
        List.getElem?_cons_succ]

/-- Every lexeme uses up some of the work. -/
theorem length_lexemes_le (l : Lexer) : l.lexemes.length ≤ l.workLeft := by
  induction work : l.workLeft using Nat.strongRecOn generalizing l with
  | ind n ih =>
    subst work
    rcases stepped : l.next? with _ | ⟨lexeme, after⟩
    · rw [lexemes_of_next?_eq_none stepped]
      exact Nat.zero_le _
    · have less := next?_workLeft_lt stepped
      have later := ih after.workLeft less after rfl
      rw [lexemes_of_next?_eq_some stepped, List.length_cons]
      exact Nat.lt_of_le_of_lt later less

/-- What is stored after a call belongs to the glyph that the call gave out. -/
theorem exists_given_of_pending {operand : Lexeme} (stored : l.call.2.pending = some operand) :
    ∃ lexeme, l.call.1 = some lexeme ∧ lexeme.Takes operand := by
  rcases stepped : l.next? with _ | ⟨lexeme, after⟩
  · rw [call_of_next?_eq_none stepped] at stored
    cases stored
  · rw [call_of_next?_eq_some stepped] at stored ⊢
    rcases next?_cases stepped with ⟨-, rfl⟩ | ⟨-, -, takes⟩
    · cases stored
    · exact ⟨lexeme, rfl, takes operand stored⟩

/-- The lexer never goes back. -/
theorem monotone_offset (l : Lexer) : Monotone fun k => (l.afterCalls k).offset := by
  apply monotone_nat_of_le_succ
  intro k
  rw [afterCalls_succ]
  exact (reaches_call _).offset_le

/-- A call gives out nothing only if it has read all there is. -/
theorem rest_afterCalls_succ {k : Nat} (ended : l.given? k = none) :
    (l.afterCalls (k + 1)).cursor.rest = [] := by
  have stopped := next?_eq_none_of_call ended
  rw [afterCalls_succ, call_of_next?_eq_none stopped]
  exact (next?_eq_none_iff.mp stopped).2

/-- From a lexer that has stored nothing on, a call that gives out something reads on, or gives
out the operand that was stored with the glyph of the call before. -/
theorem consumes_or_takes {k : Nat} (fresh : l.pending = none)
    (given : l.given? k = some lexeme) :
    (l.afterCalls k).cursor.Consumes (l.afterCalls (k + 1)).cursor ∨
      ∃ j glyph, k = j + 1 ∧ l.given? j = some glyph ∧ glyph.Takes lexeme ∧
        (l.afterCalls k).pending = some lexeme := by
  rw [afterCalls_succ]
  rcases next?_cases (next?_of_call given) with ⟨stored, -⟩ | ⟨-, consumes, -⟩
  · right
    rcases k with _ | j
    · cases fresh.symm.trans stored
    · have before := stored
      rw [afterCalls_succ] at before
      obtain ⟨glyph, gave, takes⟩ := exists_given_of_pending before
      exact ⟨j, glyph, rfl, gave, takes, stored⟩
  · exact .inl consumes

end Lexer

/-! ## Whole sources -/

section Sources

variable {source : String} {d : Cursor}

/-- A cursor with nothing behind it stands at the end of the source. -/
theorem offset_eq_of_reaches (reached : (Cursor.ofSource source).Reaches d) (ended : d.rest = []) :
    d.place.offset = source.utf8ByteSize := by
  obtain ⟨gs, advances⟩ := reached
  obtain ⟨cut, place_eq⟩ := ofSource_spec source
  have whole := Text.flatten_clusters source.toList
  rw [cut, advances.rest_eq, ended, List.append_nil, List.flatten_append] at whole
  calc d.place.offset
    _ = Text.byteSize (leadingMark source).flatten + Text.byteSize gs.flatten := by
      rw [advances.place_eq, Place.over_offset, place_eq]
    _ = Text.byteSize source.toList := by
      rw [← Text.byteSize_append, whole]
    _ = source.utf8ByteSize := by
      rw [← Text.utf8ByteSize_ofList, String.ofList_toList]

/-- The lexemes of a source are at most twice its clusters. -/
theorem length_lexemes_ofSource_le (source : String) :
    (Lexer.ofSource source).lexemes.length ≤ 2 * (Text.clusters source.toList).length := by
  obtain ⟨cut, -⟩ := ofSource_spec source
  have work := (Lexer.ofSource source).length_lexemes_le
  have start : (Lexer.ofSource source).workLeft = 2 * (Cursor.ofSource source).rest.length := rfl
  rw [cut, List.length_append]
  omega

/-- A glyph without its operand gives two lexemes for one cluster. -/
example : (Lexer.ofSource "📥").lexemes.length = 2 * (Text.clusters "📥".toList).length := by
  decide +kernel

end Sources

/-- What becomes of a lexer over a source of so many clusters and bytes when it is called
again and again. -/
structure Lexer.ReadsAll (l : Lexer) (clusters bytes : Nat) : Prop where
  /-- Some calls give out something, and all calls behind them nothing. -/
  ends : ∃ n ≤ 2 * clusters, ∀ k, (∃ lexeme, l.given? k = some lexeme) ↔ k < n
  monotone : Monotone fun k => (l.afterCalls k).offset
  /-- A call that gives out nothing leaves the lexer at the end of the source. -/
  atEnd : ∀ k, l.given? k = none →
    (l.afterCalls (k + 1)).offset = bytes ∧ (l.afterCalls (k + 1)).atEnd
  /-- A call that gives out something reads on, or gives out the operand that was stored with
  the glyph of the call before. -/
  progress : ∀ k lexeme, l.given? k = some lexeme →
    (l.afterCalls k).cursor.Consumes (l.afterCalls (k + 1)).cursor ∨
      ∃ j glyph, k = j + 1 ∧ l.given? j = some glyph ∧ glyph.Takes lexeme ∧
        (l.afterCalls k).pending = some lexeme

/-- The lexer comes to the end of every source. It gives out at most two lexemes for each
cluster and then nothing more, it never goes back, and it stops at the end only. -/
theorem lexer_reads_all (source : String) :
    (Lexer.ofSource source).ReadsAll (Text.clusters source.toList).length source.utf8ByteSize := by
  refine ⟨?_, Lexer.monotone_offset _, ?_, fun k lexeme => Lexer.consumes_or_takes rfl⟩
  · refine ⟨_, length_lexemes_ofSource_le source, ?_⟩
    intro k
    rw [Lexer.given?_eq_getElem?_lexemes, ← Option.ne_none_iff_exists', ne_eq,
      List.getElem?_eq_none_iff, Nat.not_le]
  · intro k ended
    have empty := Lexer.rest_afterCalls_succ ended
    have reached := (Lexer.ofSource source).reaches_afterCalls (k + 1)
    exact ⟨offset_eq_of_reaches reached empty, List.isEmpty_iff.mpr empty⟩

end GlyphMachine
