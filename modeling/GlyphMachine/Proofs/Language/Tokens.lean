import GlyphMachine.Proofs.Language.Words
import GlyphMachine.Proofs.Token.Reading

/-!
# Tokens of the language

The lexer cuts a source into the pieces the language asks for. `Ready` is what
`Pieces` says of clusters that start with a piece; `pieces_iff_ready_skip` shows
that skipping layout leads there. `TokensOf` gives the tokens of pieces, a glyph
together with its operand, and `tokenize_eq_ok_iff` says that a source has tokens
exactly if it falls into pieces that have them.
-/

namespace GlyphMachine.Language

open Text (Cluster)

/-! ## Words at a cursor -/

/-- The word taken at a place is the run of word characters there, and the cursor
after it stands where no word goes on. -/
theorem takeWord_spec (p : Place) (gs : List Cluster) :
    gs = (Cursor.takeWord p gs).1.map (fun c => [c]) ++ (Cursor.takeWord p gs).2.rest ∧
      (∀ c ∈ (Cursor.takeWord p gs).1, WordChar c) ∧
      ¬ StartsWord (Cursor.takeWord p gs).2.rest := by
  induction gs generalizing p with
  | nil => simp [Cursor.takeWord, StartsWord]
  | cons g rest ih =>
    rw [Cursor.takeWord]
    rcases isWord : wordChar? g with _ | c
    · refine ⟨by simp, by simp, ?_⟩
      intro starts
      obtain ⟨c, tail, split, wordChar⟩ := starts
      obtain ⟨rfl, rfl⟩ := List.cons.inj split
      rw [wordChar?_eq_some_iff.mpr ⟨rfl, wordChar⟩] at isWord
      cases isWord
    · obtain ⟨rfl, wordChar⟩ := wordChar?_eq_some_iff.mp isWord
      obtain ⟨text, chars, stopped⟩ := ih (p.past [c])
      refine ⟨?_, ?_, stopped⟩
      · dsimp only
        rw [List.map_cons, List.cons_append, ← text]
      · rintro d (_ | ⟨_, later⟩)
        · exact wordChar
        · exact chars d later

/-- A run of word characters is taken whole. -/
theorem takeWord_append {w : List Char} {rest : List Cluster} (p : Place)
    (chars : ∀ c ∈ w, WordChar c) (stopped : ¬ StartsWord rest) :
    ∃ q, Cursor.takeWord p (w.map (fun c => [c]) ++ rest) = (w, ⟨q, rest⟩) := by
  induction w generalizing p with
  | nil =>
    rcases rest with _ | ⟨g, tail⟩
    · exact ⟨p, rfl⟩
    · refine ⟨p, ?_⟩
      have noWord : wordChar? g = none := by
        rcases isWord : wordChar? g with _ | c
        · rfl
        · obtain ⟨rfl, wordChar⟩ := wordChar?_eq_some_iff.mp isWord
          exact (stopped ⟨c, tail, rfl, wordChar⟩).elim
      simp [Cursor.takeWord, noWord]
  | cons c cs ih =>
    obtain ⟨wordChar, later⟩ := List.forall_mem_cons.mp chars
    obtain ⟨q, taken⟩ := ih (p.past [c]) later
    refine ⟨q, ?_⟩
    rw [List.map_cons, List.cons_append, Cursor.takeWord,
      wordChar?_eq_some_iff.mpr ⟨rfl, wordChar⟩]
    dsimp only
    rw [taken]

/-- Where the first cluster is no word character, the word is empty. -/
theorem takeWord_cons_of_none {g : Cluster} {rest : List Cluster} (p : Place)
    (noWord : wordChar? g = none) : (Cursor.takeWord p (g :: rest)).1 = [] := by
  simp [Cursor.takeWord, noWord]

/-! ## Layout -/

/-- The clusters fall into these pieces and start with the first of them. -/
inductive Ready : List Cluster → List Piece → Prop
  | nil : Ready [] []
  | word {w : List Char} {gs : List Cluster} {ps : List Piece} :
    w ≠ [] → (∀ c ∈ w, WordChar c) → ¬ StartsWord gs → Pieces gs ps →
    Ready (w.map (fun c => [c]) ++ gs) (.word w :: ps)
  | glyph {g : Cluster} {glyph : Glyph} {gs : List Cluster} {ps : List Piece} :
    Names g glyph → Pieces gs ps → Ready (g :: gs) (.glyph glyph :: ps)

theorem Ready.pieces {gs : List Cluster} {ps : List Piece} (ready : Ready gs ps) :
    Pieces gs ps := by
  cases ready with
  | nil => exact .nil
  | word nonempty chars stopped tail => exact .word nonempty chars stopped tail
  | glyph named tail => exact .glyph named tail

/-- Inside a comment, skipping goes on at the place where the comment stops, which is on
the same line. -/
theorem skipLayout_comment {body gs : List Cluster} (p : Place)
    (unbroken : ∀ g ∈ body, '\n' ∉ g) (stops : StopsComment gs) :
    ∃ q, q.line = p.line ∧
      Cursor.skipLayout true p (body ++ gs) = Cursor.skipLayout false q gs := by
  induction body generalizing p with
  | nil =>
    refine ⟨p, rfl, ?_⟩
    rcases stops with rfl | ⟨g, rest, rfl, breaks⟩
    · rfl
    · simp [Cursor.skipLayout, isLineEnd_iff.mpr breaks]
  | cons g body ih =>
    obtain ⟨unended, later⟩ := List.forall_mem_cons.mp unbroken
    have goesOn : ¬ isLineEnd g := mt isLineEnd_iff.mp unended
    obtain ⟨q, line, skipped⟩ := ih (p.past g) later
    refine ⟨q, ?_, ?_⟩
    · rw [line, Place.past, if_neg goesOn]
    · rw [← skipped, List.cons_append, Cursor.skipLayout, if_pos ⟨rfl, goesOn⟩]

/-- A cluster that is neither white space nor the start of a comment is not
skipped. -/
theorem skipLayout_cons_of_not {g : Cluster} {rest : List Cluster} (p : Place)
    (notBlank : ¬ Blank g) (noComment : g ≠ [';']) :
    Cursor.skipLayout false p (g :: rest) = ⟨p, g :: rest⟩ := by
  have blank : isBlankCluster g = false := by
    rw [← Bool.not_eq_true, isBlankCluster_iff]
    exact notBlank
  simp [Cursor.skipLayout, blank, isCommentStart, noComment]

theorem skipLayout_cons_of_blank {g : Cluster} {rest : List Cluster} (p : Place)
    (blank : Blank g) :
    Cursor.skipLayout false p (g :: rest) = Cursor.skipLayout false (p.past g) rest := by
  simp [Cursor.skipLayout, isBlankCluster_iff.mpr blank]

theorem skipLayout_cons_semicolon {rest : List Cluster} (p : Place) :
    Cursor.skipLayout false p ([';'] :: rest) =
      Cursor.skipLayout true (p.past [';']) rest := by
  have notBlank : isBlankCluster [';'] = false := by decide
  simp [Cursor.skipLayout, notBlank, isCommentStart]

/-- The clusters begin with a comment that ends with its line, and go on with the others. -/
def CommentLine (gs rest : List Cluster) : Prop :=
  ∃ body lineEnd, gs = [';'] :: (body ++ lineEnd :: rest) ∧ (∀ g ∈ body, '\n' ∉ g) ∧
    '\n' ∈ lineEnd ∧ Blank lineEnd

/-- Behind a comment, reading goes on at the start of the next line. -/
theorem CommentLine.exists_skip {gs rest : List Cluster} (comment : CommentLine gs rest)
    (p : Place) : ∃ q, q.line = p.line + 1 ∧ q.column = 1 ∧
      (⟨p, gs⟩ : Cursor).skip = (⟨q, rest⟩ : Cursor).skip := by
  obtain ⟨body, lineEnd, rfl, unbroken, breaks, blank⟩ := comment
  have stops : StopsComment (lineEnd :: rest) := .inr ⟨lineEnd, rest, rfl, breaks⟩
  obtain ⟨q, line, inside⟩ := skipLayout_comment (p.past [';']) unbroken stops
  refine ⟨q.past lineEnd, ?_, ?_, ?_⟩
  · rw [Place.past, if_pos (isLineEnd_iff.mpr breaks), line]
    rfl
  · rw [Place.past, if_pos (isLineEnd_iff.mpr breaks)]
  · rw [Cursor.skip, skipLayout_cons_semicolon, inside, skipLayout_cons_of_blank q blank]
    rfl

/-- A comment whose line does not end is the end of the text. -/
theorem skip_lastComment {body : List Cluster} (unbroken : ∀ g ∈ body, '\n' ∉ g) (p : Place) :
    (⟨p, [';'] :: body⟩ : Cursor).skip.rest = [] := by
  obtain ⟨q, -, inside⟩ := skipLayout_comment (p.past [';']) unbroken (.inl rfl)
  rw [List.append_nil] at inside
  rw [Cursor.skip, skipLayout_cons_semicolon, inside]
  rfl

theorem Pieces.ready_skip {gs : List Cluster} {ps : List Piece} (pieces : Pieces gs ps)
    (p : Place) : Ready (Cursor.skipLayout false p gs).rest ps := by
  induction pieces generalizing p with
  | nil => exact .nil
  | @blank g gs ps blank _ ih =>
    rw [skipLayout_cons_of_blank p blank]
    exact ih (p.past g)
  | comment unbroken stops _ ih =>
    rw [skipLayout_cons_semicolon p]
    obtain ⟨q, -, skipped⟩ := skipLayout_comment (p.past [';']) unbroken stops
    rw [skipped]
    exact ih q
  | @word w gs ps nonempty chars stopped tail _ =>
    obtain ⟨c, cs, rfl⟩ := List.exists_cons_of_ne_nil nonempty
    have wordChar := chars c List.mem_cons_self
    rw [List.map_cons, List.cons_append, skipLayout_cons_of_not p
      (not_blank_of_wordChar wordChar) (ne_semicolon_of_wordChar wordChar)]
    exact Ready.word nonempty chars stopped tail
  | glyph named tail _ =>
    rw [skipLayout_cons_of_not p (not_blank_of_names named) (ne_semicolon_of_names named)]
    exact .glyph named tail

/-- The clusters go on a comment up to where it stops, and fall into these pieces
after it. -/
def ContinuesComment (gs : List Cluster) (ps : List Piece) : Prop :=
  ∃ body tail, gs = body ++ tail ∧ (∀ g ∈ body, '\n' ∉ g) ∧ StopsComment tail ∧ Pieces tail ps

/-- Pieces of what is left after skipping are pieces of the whole. -/
theorem pieces_of_skip (gs : List Cluster) (ps : List Piece) :
    (∀ p, Pieces (Cursor.skipLayout false p gs).rest ps → Pieces gs ps) ∧
      ∀ p, Pieces (Cursor.skipLayout true p gs).rest ps → ContinuesComment gs ps := by
  induction gs with
  | nil =>
    refine ⟨fun _ pieces => pieces, fun _ pieces => ?_⟩
    exact ⟨[], [], rfl, by simp, .inl rfl, pieces⟩
  | cons g rest ih =>
    obtain ⟨ihLayout, ihComment⟩ := ih
    have layout : ∀ p, Pieces (Cursor.skipLayout false p (g :: rest)).rest ps →
        Pieces (g :: rest) ps := by
      intro p pieces
      by_cases blank : Blank g
      · rw [skipLayout_cons_of_blank p blank] at pieces
        exact .blank blank (ihLayout _ pieces)
      by_cases comment : g = [';']
      · subst comment
        rw [skipLayout_cons_semicolon p] at pieces
        obtain ⟨body, tail, rfl, unbroken, stops, later⟩ := ihComment _ pieces
        exact .comment unbroken stops later
      · rw [skipLayout_cons_of_not p blank comment] at pieces
        exact pieces
    refine ⟨layout, fun p pieces => ?_⟩
    by_cases breaks : '\n' ∈ g
    · -- The comment is over here, so the text is skipped as outside of one.
      have stops : StopsComment (g :: rest) := .inr ⟨g, rest, rfl, breaks⟩
      obtain ⟨q, -, skipped⟩ := skipLayout_comment p (List.forall_mem_nil _) stops
      rw [List.nil_append] at skipped
      rw [skipped] at pieces
      exact ⟨[], g :: rest, rfl, List.forall_mem_nil _, stops, layout q pieces⟩
    · rw [Cursor.skipLayout, if_pos ⟨rfl, fun h => breaks (isLineEnd_iff.mp h)⟩] at pieces
      obtain ⟨body, tail, rfl, unbroken, stops, later⟩ := ihComment _ pieces
      refine ⟨g :: body, tail, rfl, ?_, stops, later⟩
      exact List.forall_mem_cons.mpr ⟨breaks, unbroken⟩

theorem pieces_iff_ready_skip {c : Cursor} {ps : List Piece} :
    Pieces c.rest ps ↔ Ready c.skip.rest ps := by
  constructor
  · intro pieces
    exact pieces.ready_skip c.place
  · intro ready
    exact (pieces_of_skip c.rest ps).1 c.place ready.pieces

/-! ## Operands -/

/-- After a glyph of this arity the word is this token. -/
inductive OperandOf : Arity → List Char → Token → Prop
  | number {w : List Char} {v : Word} :
    Word.ofText? w = some v → OperandOf .integer w (.literal v)
  | index {w : List Char} {v : Word} :
    Word.ofText? w = some v → OperandOf .target w (.literal v)
  | target {w : List Char} : Identifier w → OperandOf .target w (.label (String.ofList w))
  | name {w : List Char} : Identifier w → OperandOf .name w (.label (String.ofList w))

theorem literal_eq_ok_iff {w : List Char} {span : Span} {t : Located Token} :
    Lexeme.literal w span = .ok t ↔
      ∃ v, Word.ofText? w = some v ∧ t = ⟨.literal v, span⟩ := by
  unfold Lexeme.literal
  split
  · rename_i v read
    simp [read, eq_comm]
  · rename_i unread
    simp [unread]

theorem label_eq_ok_iff {w : List Char} {span : Span} {t : Located Token} :
    Lexeme.label w span = .ok t ↔ Identifier w ∧ t = ⟨.label (String.ofList w), span⟩ := by
  unfold Lexeme.label
  split
  · rename_i name
    simp [isLabelName_iff.mp name, eq_comm]
  · rename_i noName
    have : ¬ Identifier w := fun name => noName (isLabelName_iff.mpr name)
    simp [this]

/-- A word on its own reads as a jump target would. -/
theorem ofWord_eq_ok_iff {w : List Char} {span : Span} {t : Located Token} :
    Lexeme.ofWord w span = .ok t ↔ OperandOf .target w t.item ∧ t.span = span := by
  rcases t with ⟨item, place⟩
  constructor
  · intro read
    rw [Lexeme.ofWord] at read
    split at read
    · obtain ⟨v, value, ⟨rfl, rfl⟩⟩ := literal_eq_ok_iff.mp read
      exact ⟨.index value, rfl⟩
    · obtain ⟨name, ⟨rfl, rfl⟩⟩ := label_eq_ok_iff.mp read
      exact ⟨.target name, rfl⟩
  · intro accepted
    obtain ⟨operand, rfl⟩ := accepted
    cases operand with
    | index value =>
      obtain ⟨i, numeral, -, -, -⟩ := ofText?_eq_some_iff.mp value
      rw [Lexeme.ofWord, if_pos (looksNumeric_of_numeral numeral), literal_eq_ok_iff]
      exact ⟨_, value, rfl⟩
    | target name =>
      rw [Lexeme.ofWord, looksNumeric_of_identifier name, if_neg (by simp), label_eq_ok_iff]
      exact ⟨name, rfl⟩

theorem operand_eq_ok_iff {a : Arity} {w : List Char} {span : Span} {t : Located Token}
    (expected : a ≠ .none) :
    Lexeme.operand a w span = .ok t ↔ OperandOf a w t.item ∧ t.span = span := by
  rcases t with ⟨item, place⟩
  cases a with
  | none => exact (expected rfl).elim
  | integer =>
    rw [Lexeme.operand, literal_eq_ok_iff]
    constructor
    · intro read
      obtain ⟨v, value, ⟨rfl, rfl⟩⟩ := read
      exact ⟨.number value, rfl⟩
    · intro accepted
      obtain ⟨operand, rfl⟩ := accepted
      cases operand with
      | number value => exact ⟨_, value, rfl⟩
  | target => exact ofWord_eq_ok_iff
  | name =>
    rw [Lexeme.operand, label_eq_ok_iff]
    constructor
    · intro read
      obtain ⟨name, ⟨rfl, rfl⟩⟩ := read
      exact ⟨.name name, rfl⟩
    · intro accepted
      obtain ⟨operand, rfl⟩ := accepted
      cases operand with
      | name name => exact ⟨name, rfl⟩

/-! ## Tokens of pieces -/

/-- The tokens of the pieces. A word that no glyph takes is a token as well; that
it belongs nowhere is for the assembly to say. -/
inductive TokensOf : List Piece → List Token → Prop
  | nil : TokensOf [] []
  | stray {w : List Char} {t : Token} {ps : List Piece} {ts : List Token} :
    OperandOf .target w t → TokensOf ps ts → TokensOf (.word w :: ps) (t :: ts)
  | plain {glyph : Glyph} {ps : List Piece} {ts : List Token} :
    glyph.arity = .none → TokensOf ps ts →
    TokensOf (.glyph glyph :: ps) (.ofGlyph glyph :: ts)
  | operand {glyph : Glyph} {w : List Char} {t : Token} {ps : List Piece} {ts : List Token} :
    glyph.arity ≠ .none → OperandOf glyph.arity w t → TokensOf ps ts →
    TokensOf (.glyph glyph :: .word w :: ps) (.ofGlyph glyph :: t :: ts)

/-- The word at a cursor is a piece, if there is one and pieces follow it. -/
theorem pieces_of_word {c start stop : Cursor} {w : List Char} {ps : List Piece}
    (skipped : c.skip = start) (read : start.word = (w, stop)) (nonempty : w ≠ [])
    (pieces : Pieces stop.rest ps) : Pieces c.rest (.word w :: ps) := by
  rw [pieces_iff_ready_skip, skipped]
  obtain ⟨text, chars, stopped⟩ := takeWord_spec start.place start.rest
  rw [show Cursor.takeWord start.place start.rest = (w, stop) from read] at text chars stopped
  rw [text]
  exact .word nonempty chars stopped pieces

/-- The glyph at a cursor is a piece, if pieces follow it. -/
theorem pieces_of_glyph {c : Cursor} {p : Place} {g : Cluster} {rest : List Cluster}
    {glyph : Glyph} {ps : List Piece} (skipped : c.skip = ⟨p, g :: rest⟩)
    (named : Glyph.ofCluster? g = some glyph) (pieces : Pieces rest ps) :
    Pieces c.rest (.glyph glyph :: ps) := by
  rw [pieces_iff_ready_skip, skipped]
  exact .glyph (ofCluster?_eq_some_iff_names.mp named) pieces

/-- A reading without errors comes from pieces that have its tokens. -/
theorem pieces_of_reading {c : Cursor} {ls : List Lexeme} (reading : Reading c ls) :
    ∀ tokens : List (Located Token), ls = tokens.map .ok →
      ∃ ps, Pieces c.rest ps ∧ TokensOf ps (tokens.map (·.item)) := by
  induction reading with
  | @done c ended =>
    intro tokens given
    obtain rfl := List.map_eq_nil_iff.mp given.symm
    refine ⟨[], ?_, .nil⟩
    rw [pieces_iff_ready_skip, ended]
    exact .nil
  | word skipped read nonempty _ ih =>
    intro tokens given
    obtain ⟨token, later, rfl, first, rfl⟩ := List.map_eq_cons_iff.mp given.symm
    obtain ⟨ps, pieces, tokensOf⟩ := ih later rfl
    obtain ⟨operand, -⟩ := ofWord_eq_ok_iff.mp first.symm
    exact ⟨_, pieces_of_word skipped read nonempty pieces, .stray operand tokensOf⟩
  | unknown =>
    intro tokens given
    obtain ⟨token, later, rfl, first, -⟩ := List.map_eq_cons_iff.mp given.symm
    cases first
  | plain skipped _ named arity _ ih =>
    intro tokens given
    obtain ⟨token, later, rfl, first, rfl⟩ := List.map_eq_cons_iff.mp given.symm
    obtain ⟨ps, pieces, tokensOf⟩ := ih later rfl
    obtain rfl := Except.ok.inj first
    exact ⟨_, pieces_of_glyph skipped named pieces, .plain arity tokensOf⟩
  | missing =>
    intro tokens given
    obtain ⟨token, more, rfl, -, rest⟩ := List.map_eq_cons_iff.mp given.symm
    obtain ⟨operand, later, rfl, second, -⟩ := List.map_eq_cons_iff.mp rest
    cases second
  | operand skipped _ named arity after read nonempty _ ih =>
    intro tokens given
    obtain ⟨token, more, rfl, first, rest⟩ := List.map_eq_cons_iff.mp given.symm
    obtain ⟨operand, later, rfl, second, rfl⟩ := List.map_eq_cons_iff.mp rest
    obtain ⟨ps, pieces, tokensOf⟩ := ih later rfl
    obtain rfl := Except.ok.inj first
    obtain ⟨operandOf, -⟩ := (operand_eq_ok_iff arity).mp second.symm
    have behind := pieces_of_word after read nonempty pieces
    exact ⟨_, pieces_of_glyph skipped named behind, .operand arity operandOf tokensOf⟩

/-- Where the first piece is a word, the cursor reads it. -/
theorem word_of_pieces {c : Cursor} {w : List Char} {ps : List Piece}
    (pieces : Pieces c.rest (.word w :: ps)) :
    ∃ stop, c.skip.word = (w, stop) ∧ w ≠ [] ∧ Pieces stop.rest ps := by
  have ready := pieces_iff_ready_skip.mp pieces
  rcases skipped : c.skip with ⟨p, gs⟩
  rw [skipped] at ready
  cases ready with
  | @word _ rest _ nonempty chars stopped tail =>
    obtain ⟨q, taken⟩ := takeWord_append p chars stopped
    exact ⟨⟨q, rest⟩, taken, nonempty, tail⟩

/-- Where the first piece is a glyph, the cursor finds it and no word. -/
theorem glyph_of_pieces {c : Cursor} {glyph : Glyph} {ps : List Piece}
    (pieces : Pieces c.rest (.glyph glyph :: ps)) :
    ∃ p g rest, c.skip = ⟨p, g :: rest⟩ ∧ c.skip.word.1 = [] ∧
      Glyph.ofCluster? g = some glyph ∧ Pieces rest ps := by
  have ready := pieces_iff_ready_skip.mp pieces
  rcases skipped : c.skip with ⟨p, gs⟩
  rw [skipped] at ready
  cases ready with
  | @glyph g _ rest _ named tail =>
    have noWord := wordChar?_of_names named
    have found := ofCluster?_eq_some_iff_names.mpr named
    exact ⟨p, g, rest, rfl, takeWord_cons_of_none p noWord, found, tail⟩

/-- Pieces that have tokens are read as these tokens, wherever they stand. -/
theorem reading_of_tokensOf {ps : List Piece} {ts : List Token} (tokensOf : TokensOf ps ts) :
    ∀ c : Cursor, Pieces c.rest ps → ∃ tokens : List (Located Token),
      Reading c (tokens.map .ok) ∧ tokens.map (·.item) = ts := by
  induction tokensOf with
  | nil =>
    intro c pieces
    have ready := pieces_iff_ready_skip.mp pieces
    generalize rest : c.skip.rest = gs at ready
    cases ready
    exact ⟨[], .done rest, rfl⟩
  | @stray w t ps ts operand _ ih =>
    intro c pieces
    obtain ⟨stop, read, nonempty, tail⟩ := word_of_pieces pieces
    obtain ⟨tokens, reading, items⟩ := ih stop tail
    let span := c.skip.place.spanTo stop.place
    have first : Lexeme.ofWord w span = .ok ⟨t, span⟩ := ofWord_eq_ok_iff.mpr ⟨operand, rfl⟩
    refine ⟨⟨t, span⟩ :: tokens, ?_, by simp [items]⟩
    rw [List.map_cons, ← first]
    exact .word rfl read nonempty reading
  | @plain glyph ps ts arity _ ih =>
    intro c pieces
    obtain ⟨p, g, rest, skipped, noWord, named, tail⟩ := glyph_of_pieces pieces
    obtain ⟨tokens, reading, items⟩ := ih ⟨p.past g, rest⟩ tail
    refine ⟨⟨.ofGlyph glyph, p.spanTo (p.past g)⟩ :: tokens, ?_, by simp [items]⟩
    exact .plain skipped noWord named arity reading
  | @operand glyph w t ps ts arity operandOf _ ih =>
    intro c pieces
    obtain ⟨p, g, rest, skipped, noWord, named, tail⟩ := glyph_of_pieces pieces
    obtain ⟨stop, read, nonempty, later⟩ := word_of_pieces (c := ⟨p.past g, rest⟩) tail
    obtain ⟨tokens, reading, items⟩ := ih stop later
    let span := (⟨p.past g, rest⟩ : Cursor).skip.place.spanTo stop.place
    have second : Lexeme.operand glyph.arity w span = .ok ⟨t, span⟩ :=
      (operand_eq_ok_iff arity).mpr ⟨operandOf, rfl⟩
    refine ⟨⟨.ofGlyph glyph, p.spanTo (p.past g)⟩ :: ⟨t, span⟩ :: tokens, ?_, by simp [items]⟩
    rw [List.map_cons, List.map_cons, ← second]
    exact .operand skipped noWord named arity rfl read nonempty reading

/-! ## Tokens of a source -/

theorem ofSource_rest (source : String) :
    (Cursor.ofSource source).rest = sourceClusters source := by
  unfold Cursor.ofSource sourceClusters
  split
  · rename_i c rest cut
    split
    · rename_i mark
      subst mark
      simp [cut, Text.byteOrderMark]
    · rename_i noMark
      rw [cut]
      split
      · rename_i other
        exact (noMark (List.singleton_inj.mp (List.cons.inj other).1)).elim
      · rfl
  · rename_i noSingle
    split
    · rename_i rest cut
      exact (noSingle _ _ cut).elim
    · rfl

/-- A source has these tokens exactly if it falls into pieces that have them. -/
theorem tokenize_eq_ok_iff {source : String} {ts : List Token} :
    (∃ tokens, tokenize source = .ok tokens ∧ tokens.map (·.item) = ts) ↔
      ∃ ps, Pieces (sourceClusters source) ps ∧ TokensOf ps ts := by
  simp only [tokenize, gather_eq_ok_iff, Lexer.ofSource, ← reading_iff_lexemes,
    ← ofSource_rest]
  constructor
  · intro lexed
    obtain ⟨tokens, reading, rfl⟩ := lexed
    exact pieces_of_reading reading tokens rfl
  · intro cut
    obtain ⟨ps, pieces, tokensOf⟩ := cut
    exact reading_of_tokensOf tokensOf _ pieces

end GlyphMachine.Language
