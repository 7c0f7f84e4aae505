import GlyphMachine.Proofs.Program.Clauses
import GlyphMachine.Proofs.Token.Matching

/-!
# Matching assemblies

Tokens that are the same, at places that match, are assembled alike. The assembly looks
at places in one point only, the line where a label was first defined, so all that is
asked of matching places is that their lines agree. The clauses of the tokens match
(`clauses_matches`), each of them is added alike (`Assembly.Matches.add`), and what the
assembly ends in matches, program or errors (`Program.ofTokens_matches`).
-/

namespace GlyphMachine

variable {S : Span → Span → Prop} {s t : Span}

/-! ## Clauses -/

/-- The same draft, with its label at a place that matches. -/
inductive Draft.Matches (S : Span → Span → Prop) : Draft → Draft → Prop
  | ready (i : Instruction) : Matches S (.ready i) (.ready i)
  | jumpTo {x y : Located String} : x.Matches S y → Matches S (.jumpTo x) (.jumpTo y)
  | jumpIfTo {x y : Located String} : x.Matches S y → Matches S (.jumpIfTo x) (.jumpIfTo y)

/-- The same clause at places that match. -/
inductive Clause.Matches (S : Span → Span → Prop) : Clause → Clause → Prop
  | emit {d d' : Draft} {s t : Span} : d.Matches S d' → S s t →
    Matches S (.emit d s) (.emit d' t)
  | define {s t : Span} (name : String) : S s t → Matches S (.define name s) (.define name t)
  | report {s t : Span} (cause : Malformation) : S s t →
    Matches S (.report cause s) (.report cause t)

theorem opening_matches {x y : Located Token} (m : x.Matches S y) :
    (∃ c c', opening x = .inl c ∧ opening y = .inl c' ∧ c.Matches S c') ∨
      ∃ demand, opening x = .inr demand ∧ opening y = .inr demand := by
  obtain ⟨_, s⟩ := x
  obtain ⟨item, t⟩ := y
  obtain ⟨rfl, spans⟩ := m
  cases item with
  | labelDef => exact .inr ⟨_, rfl, rfl⟩
  | literal value => exact .inl ⟨_, _, rfl, rfl, .report _ spans⟩
  | label name => exact .inl ⟨_, _, rfl, rfl, .report _ spans⟩
  | opcode op =>
    cases op with
    | push | jump | jumpIf => exact .inr ⟨_, rfl, rfl⟩
    | print | halt | binary | dup | swap | drop =>
      exact .inl ⟨_, _, rfl, rfl, .emit (.ready _) spans⟩

theorem numericJump_matches (jump : Nat → Instruction) (spans : S s t) {x y : Located Word}
    (m : x.Matches S y) : (numericJump jump s x).Matches S (numericJump jump t y) := by
  unfold numericJump
  rw [m.item_eq]
  split
  · exact .report _ m.span
  · exact .emit (.ready _) spans

theorem completion_matches (demand : Demand) (spans : S s t) {x y : Located Token}
    (m : x.Matches S y) :
    (∃ c c', completion demand s x = some c ∧ completion demand t y = some c' ∧
      c.Matches S c') ∨ completion demand s x = none ∧ completion demand t y = none := by
  obtain ⟨_, s'⟩ := x
  obtain ⟨item, t'⟩ := y
  obtain ⟨rfl, spans'⟩ := m
  cases demand <;> cases item
  case value.literal value => exact .inl ⟨_, _, rfl, rfl, .emit (.ready _) spans⟩
  case jump.literal value | jumpIf.literal value =>
    exact .inl ⟨_, _, rfl, rfl, numericJump_matches _ spans ⟨rfl, spans'⟩⟩
  case jump.label name => exact .inl ⟨_, _, rfl, rfl, .emit (.jumpTo ⟨rfl, spans'⟩) spans⟩
  case jumpIf.label name => exact .inl ⟨_, _, rfl, rfl, .emit (.jumpIfTo ⟨rfl, spans'⟩) spans⟩
  case name.label name => exact .inl ⟨_, _, rfl, rfl, .define name spans'⟩
  all_goals exact .inr ⟨rfl, rfl⟩

/-- Tokens that match are cut into clauses that match. -/
theorem clauses_matches {tokens tokens' : List (Located Token)}
    (m : List.Forall₂ (Located.Matches S) tokens tokens') :
    List.Forall₂ (Clause.Matches S) (clauses tokens) (clauses tokens') := by
  fun_induction clauses tokens generalizing tokens' with
  | case1 =>
    obtain rfl := List.forall₂_nil_left_iff.mp m
    rw [clauses]
    exact .nil
  | case2 token rest clause alone ih =>
    obtain ⟨token', rest', first, later, rfl⟩ := List.forall₂_cons_left_iff.mp m
    rcases opening_matches first with ⟨c, c', opens, opens', same⟩ | ⟨demand, opens, -⟩
    · obtain rfl := Sum.inl.inj (alone.symm.trans opens)
      rw [clauses, opens']
      exact .cons same (ih later)
    · cases alone.symm.trans opens
  | case3 token demand waits =>
    obtain ⟨token', rest', first, later, rfl⟩ := List.forall₂_cons_left_iff.mp m
    obtain rfl := List.forall₂_nil_left_iff.mp later
    rcases opening_matches first with ⟨c, c', opens, -⟩ | ⟨demand', opens, opens'⟩
    · cases waits.symm.trans opens
    · obtain rfl := Sum.inr.inj (waits.symm.trans opens)
      rw [clauses, opens']
      exact .cons (.report _ first.span) .nil
  | case4 token demand waits operand later clause completes ih =>
    obtain ⟨token', _, first, rest, rfl⟩ := List.forall₂_cons_left_iff.mp m
    obtain ⟨operand', later', second, further, rfl⟩ := List.forall₂_cons_left_iff.mp rest
    rcases opening_matches first with ⟨c, c', opens, -⟩ | ⟨demand', opens, opens'⟩
    · cases waits.symm.trans opens
    · obtain rfl := Sum.inr.inj (waits.symm.trans opens)
      rcases completion_matches demand first.span second with
        ⟨c, c', completion, completion', same⟩ | ⟨misfit, -⟩
      · obtain rfl := Option.some.inj (completes.symm.trans completion)
        rw [clauses, opens']
        simp only [completion']
        exact .cons same (ih further)
      · cases completes.symm.trans misfit
  | case5 token demand waits operand later misfit ih =>
    obtain ⟨token', _, first, rest, rfl⟩ := List.forall₂_cons_left_iff.mp m
    obtain ⟨operand', later', second, further, rfl⟩ := List.forall₂_cons_left_iff.mp rest
    rcases opening_matches first with ⟨c, c', opens, -⟩ | ⟨demand', opens, opens'⟩
    · cases waits.symm.trans opens
    · obtain rfl := Sum.inr.inj (waits.symm.trans opens)
      rcases completion_matches demand first.span second with
        ⟨c, c', completion, -⟩ | ⟨-, misfit'⟩
      · cases misfit.symm.trans completion
      · have cut : clauses (token' :: operand' :: later') =
            .report demand.unmet token'.span :: clauses (operand' :: later') := by
          rw [clauses, opens']
          simp only [misfit']
        rw [cut]
        exact .cons (.report _ first.span) (ih rest)

/-! ## Assemblies -/

/-- A draft that is the same, at places that match. -/
def Draft.MatchesAt (S : Span → Span → Prop) (x y : Located Draft) : Prop :=
  x.item.Matches S y.item ∧ S x.span y.span

/-- Two assemblies know the same, at places that match. -/
structure Assembly.Matches (S : Span → Span → Prop) (a b : Assembly) : Prop where
  drafts : List.Forall₂ (Draft.MatchesAt S) a.drafts.toList b.drafts.toList
  definitions : b.definitions = a.definitions
  errors : List.Forall₂ (Located.Matches S) a.errors.toList b.errors.toList

namespace Assembly.Matches

variable {a b : Assembly}

theorem find?_eq (m : a.Matches S b) (name : String) : b.find? name = a.find? name := by
  rw [find?, find?, m.definitions]

theorem emit (m : a.Matches S b) {d d' : Draft} (same : d.Matches S d') (spans : S s t) :
    (a.emit d s).Matches S (b.emit d' t) where
  drafts := by
    simp only [Assembly.emit, Array.toList_push]
    exact List.rel_append m.drafts (.cons ⟨same, spans⟩ .nil)
  definitions := m.definitions
  errors := m.errors

theorem report (m : a.Matches S b) (error : AssemblyError) (spans : S s t) :
    (a.report error s).Matches S (b.report error t) where
  drafts := m.drafts
  definitions := m.definitions
  errors := by
    simp only [Assembly.report, Array.toList_push]
    exact List.rel_append m.errors (.cons ⟨rfl, spans⟩ .nil)

/-- A label is defined alike: its address counts the drafts before it, and of its place
only the line is kept. -/
theorem define (m : a.Matches S b) (name : String) (spans : S s t) (line_eq : t.line = s.line) :
    (a.define name s).Matches S (b.define name t) := by
  unfold Assembly.define
  rw [m.find?_eq]
  split
  · exact m.report _ spans
  · have size_eq : b.drafts.size = a.drafts.size := m.drafts.length_eq.symm
    exact ⟨m.drafts, by rw [m.definitions, size_eq, line_eq], m.errors⟩

theorem add (m : a.Matches S b) (line_eq : ∀ s t, S s t → t.line = s.line) {c c' : Clause}
    (same : c.Matches S c') : (a.add c).Matches S (b.add c') := by
  cases same with
  | emit same spans => exact m.emit same spans
  | define name spans => exact m.define name spans (line_eq _ _ spans)
  | report cause spans => exact m.report (.malformed cause) spans

theorem addressOf (m : a.Matches S b) {x y : Located String} (same : x.Matches S y) :
    ExceptMatches (Located.Matches S) Eq (a.addressOf x) (b.addressOf y) := by
  unfold Assembly.addressOf
  rw [same.item_eq, m.find?_eq]
  split
  · exact .ok rfl
  · exact .error ⟨rfl, same.span⟩

theorem resolve (m : a.Matches S b) {x y : Located Draft} (same : Draft.MatchesAt S x y) :
    ResultMatches S (a.resolve x) (b.resolve y) := by
  obtain ⟨d, s⟩ := x
  obtain ⟨d', t⟩ := y
  obtain ⟨drafts, spans⟩ := same
  cases drafts with
  | ready i => exact .ok ⟨rfl, spans⟩
  | jumpTo same =>
    apply (m.addressOf same).map
    intro target target' targets
    exact ⟨congrArg Instruction.jump targets.symm, spans⟩
  | jumpIfTo same =>
    apply (m.addressOf same).map
    intro target target' targets
    exact ⟨congrArg Instruction.jumpIf targets.symm, spans⟩

end Assembly.Matches

theorem Assembly.foldl_add_matches (line_eq : ∀ s t, S s t → t.line = s.line)
    {cs cs' : List Clause} (clauses : List.Forall₂ (Clause.Matches S) cs cs') {a b : Assembly}
    (m : a.Matches S b) : (cs.foldl add a).Matches S (cs'.foldl add b) := by
  induction clauses generalizing a b with
  | nil => exact m
  | cons first _ ih => exact ih (m.add line_eq first)

/-! ## Programs -/

/-- The same instructions at places that match, with the same labels. -/
structure Program.Matches (S : Span → Span → Prop) (p q : Program) : Prop where
  code : List.Forall₂ (Located.Matches S) p.code.toList q.code.toList
  labels : q.labels = p.labels

theorem Assembly.Matches.finish {a b : Assembly} (m : a.Matches S b) :
    ExceptMatches (List.Forall₂ (Located.Matches S)) (Program.Matches S) a.finish b.finish := by
  have resolved : List.Forall₂ (ResultMatches S) (a.drafts.toList.map a.resolve)
      (b.drafts.toList.map b.resolve) := by
    rw [List.forall₂_map_left_iff, List.forall₂_map_right_iff]
    exact m.drafts.imp fun _ _ same => m.resolve same
  have failed : List.Forall₂ (Located.Matches S)
      (a.errors.toList ++ failures (a.drafts.toList.map a.resolve))
      (b.errors.toList ++ failures (b.drafts.toList.map b.resolve)) :=
    List.rel_append m.errors (failures_matches resolved)
  have labels : b.labels = a.labels := by
    rw [Assembly.labels, Assembly.labels, m.definitions]
  unfold Assembly.finish
  dsimp only
  generalize a.errors.toList ++ failures (a.drafts.toList.map a.resolve) = es at failed ⊢
  generalize b.errors.toList ++ failures (b.drafts.toList.map b.resolve) = fs at failed ⊢
  cases failed with
  | nil => exact .ok ⟨successes_matches resolved, labels⟩
  | cons first later => exact .error (.cons first later)

/-- Tokens that match spell programs that match, or are kept from it by the same errors. -/
theorem Program.ofTokens_matches (line_eq : ∀ s t, S s t → t.line = s.line)
    {tokens tokens' : List (Located Token)}
    (m : List.Forall₂ (Located.Matches S) tokens tokens') :
    ExceptMatches (List.Forall₂ (Located.Matches S)) (Program.Matches S)
      (Program.ofTokens tokens) (Program.ofTokens tokens') := by
  have start : Assembly.empty.Matches S .empty := ⟨.nil, rfl, .nil⟩
  have all := Assembly.foldl_add_matches line_eq (clauses_matches m) start
  rw [← Assembly.ofTokens_eq_foldl, ← Assembly.ofTokens_eq_foldl] at all
  exact all.finish

/-! ## Programs on the screen -/

/-- The same program: its instructions at the same lines and columns, and its labels. -/
structure Program.SameOnScreen (p q : Program) : Prop where
  instructions_eq : q.instructions = p.instructions
  labels_eq : q.labels = p.labels
  places_eq : q.code.toList.map (fun i => (i.span.line, i.span.column)) =
    p.code.toList.map fun i => (i.span.line, i.span.column)

theorem Program.Matches.sameOnScreen {p q : Program} (m : p.Matches S q)
    (begins : ∀ s t, S s t → t.line = s.line ∧ t.column = s.column) : p.SameOnScreen q where
  instructions_eq := map_eq_of_matches (fun _ _ same => same.item_eq) m.code
  labels_eq := m.labels
  places_eq := by
    apply map_eq_of_matches ?_ m.code
    intro i j same
    obtain ⟨line, column⟩ := begins _ _ same.span
    rw [line, column]

end GlyphMachine
