import GlyphMachine.Proofs.Program.Complaints

/-!
# Blame

An assembly complains of a clause at one place only: the place of the token that is
stray, negative, defined again or jumped to in vain (`Clause.blamed?`). Clauses share no
tokens, so the places that some clauses can be blamed at are places of their tokens, in
order and each once (`blamed_sublist`). The complaints of an assembly come in two parts,
and each of them keeps to these places (`complaintsBehind_sublist`,
`unresolved_sublist`).
-/

namespace GlyphMachine

namespace Clause

/-- The one place at which there can be something to complain of. -/
def blamed? : Clause → Option Span
  | emit draft _ => draft.label?.map (·.span)
  | define _ span | report _ span => some span

/-- Whether the clause makes an instruction. -/
def isEmit : Clause → Bool
  | emit .. => true
  | define .. | report .. => false

end Clause

/-- The places at which there can be something to complain of. -/
def blamed (cs : List Clause) : List Span :=
  cs.filterMap Clause.blamed?

section Tokens

variable {token operand : Located Token} {demand : Demand} {clause : Clause} {span : Span}

theorem blamed?_of_opening (alone : opening token = .inl clause) :
    clause.blamed? = none ∨ clause.blamed? = some token.span := by
  unfold opening at alone
  split at alone <;> cases alone
  case h_1 | h_2 => exact .inr rfl
  all_goals exact .inl rfl

theorem blamed?_numericJump (jump : Nat → Instruction) (span : Span) (target : Located Word) :
    (numericJump jump span target).blamed? = none ∨
      (numericJump jump span target).blamed? = some target.span := by
  unfold numericJump
  split
  · exact .inr rfl
  · exact .inl rfl

/-- A glyph with its operand is blamed at the operand. -/
theorem blamed?_of_completion (completes : completion demand span operand = some clause) :
    clause.blamed? = none ∨ clause.blamed? = some operand.span := by
  unfold completion at completes
  split at completes
  case h_1 =>
    obtain rfl := Option.some.inj completes
    exact .inl rfl
  case h_2 | h_4 =>
    obtain rfl := Option.some.inj completes
    exact blamed?_numericJump _ _ _
  case h_3 | h_5 | h_6 =>
    obtain rfl := Option.some.inj completes
    exact .inr rfl
  case h_7 => cases completes

theorem blamed_cons_sublist {cs : List Clause} {spans : List Span}
    (here : clause.blamed? = none ∨ clause.blamed? = some span)
    (later : (blamed cs).Sublist spans) : (blamed (clause :: cs)).Sublist (span :: spans) := by
  unfold blamed at later ⊢
  rcases here with none | some
  · rw [List.filterMap_cons_none none]
    exact later.cons _
  · rw [List.filterMap_cons_some some]
    exact later.cons_cons _

/-- Clauses are blamed at their tokens, and no token is blamed twice. -/
theorem blamed_sublist (tokens : List (Located Token)) :
    (blamed (clauses tokens)).Sublist (tokens.map (·.span)) := by
  fun_induction clauses tokens with
  | case1 => exact List.Sublist.refl _
  | case2 token rest clause alone ih => exact blamed_cons_sublist (blamed?_of_opening alone) ih
  | case3 token demand waits => exact List.Sublist.refl _
  | case4 token demand waits operand later clause completes ih =>
    exact (blamed_cons_sublist (blamed?_of_completion completes) ih).cons _
  | case5 token demand waits operand later misfit ih => exact ih.cons_cons _

end Tokens

/-! ## The places of complaints -/

/-- Complaints of single clauses stand where these are blamed, jumps aside. -/
theorem complaintsBehind_sublist (earlier cs : List Clause) :
    ((complaintsBehind earlier cs).map (·.span)).Sublist
      (blamed (cs.filter fun clause => !clause.isEmit)) := by
  induction cs generalizing earlier with
  | nil => exact List.Sublist.refl _
  | cons clause cs ih =>
    have later := ih (earlier ++ [clause])
    cases clause with
    | emit => exact later
    | report => exact later.cons_cons _
    | define name span =>
      rw [complaintsBehind, Clause.complaint?, List.map_append]
      rcases firstLine? earlier name with _ | line
      · exact later.cons _
      · exact later.cons_cons _

/-- The labels that jumps ask for stand where these can be blamed. -/
theorem references_span (cs : List Clause) :
    (references cs).map (·.span) = blamed (cs.filter Clause.isEmit) := by
  induction cs with
  | nil => rfl
  | cons clause cs ih =>
    cases clause with
    | define | report => exact ih
    | emit draft span =>
      unfold references blamed at ih ⊢
      cases draft with
      | ready => exact ih
      | jumpTo label | jumpIfTo label => exact congrArg (label.span :: ·) ih

/-- Jumps to labels that are defined nowhere are blamed at the label. -/
theorem unresolved_sublist (cs : List Clause) :
    ((unresolved cs).map (·.span)).Sublist (blamed (cs.filter Clause.isEmit)) := by
  have spans : (unresolved cs).map (·.span) =
      ((references cs).filter fun label => firstLine? cs label.item = none).map (·.span) :=
    List.map_map
  rw [spans, ← references_span]
  exact List.filter_sublist.map _

/-- All complaints stand at places of tokens, and no two of them at the same. -/
theorem exists_complaints_sublist (tokens : List (Located Token)) :
    ∃ places : List Span, places.Perm (blamed (clauses tokens)) ∧
      ((complaints (clauses tokens)).map (·.span)).Sublist places := by
  have perm := List.filter_append_perm Clause.isEmit (clauses tokens)
  refine ⟨blamed ((clauses tokens).filter fun clause => !clause.isEmit) ++
    blamed ((clauses tokens).filter Clause.isEmit), ?_, ?_⟩
  · unfold blamed
    rw [← List.filterMap_append]
    exact (List.perm_append_comm.trans perm).filterMap _
  · rw [complaints, List.map_append]
    exact (complaintsBehind_sublist [] _).append (unresolved_sublist _)

end GlyphMachine
