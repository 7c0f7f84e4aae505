import GlyphMachine.Proofs.Program.Blame
import GlyphMachine.Proofs.SyntaxErrors.Snippets
import GlyphMachine.Proofs.Token.Tiling

/-!
# Issues in source order

What the lexer reports comes in source order by itself. The assembly reports jumps to
nowhere last, and sorting by the byte offset brings them to their place. No two issues
of a source begin at one offset, because no token is blamed twice (`blamed_sublist`), so
the order is strict (`pairwise_ofIssues`), and it is the order of lines and columns as
well (`Span.ComesBefore.of_start_lt`).
-/

namespace GlyphMachine

/-! ## Spans in the order of a source -/

/-- The span begins before the other, in bytes as well as in lines and columns. -/
structure Span.ComesBefore (s t : Span) : Prop where
  start_lt : s.start < t.start
  begins : s.BeginsBefore t

section Spans

variable {source : String} {spans : List Span} {s t : Span}

/-- Of two spans in a list that goes on strictly, the one that starts earlier comes
before the other. -/
theorem Span.ComesBefore.of_start_lt (ordered : spans.Pairwise Span.ComesBefore) (first : s ∈ spans)
    (second : t ∈ spans) (earlier : s.start < t.start) : s.ComesBefore t := by
  obtain ⟨i, hi, rfl⟩ := List.getElem_of_mem first
  obtain ⟨j, hj, rfl⟩ := List.getElem_of_mem second
  have inOrder := List.pairwise_iff_getElem.mp ordered
  rcases Nat.lt_trichotomy i j with before | rfl | behind
  · exact inOrder i j hi hj before
  · omega
  · have later := (inOrder j i hj hi behind).start_lt
    omega

theorem pairwise_comesBefore_takenSpans (source : String) :
    (takenSpans (Lexer.ofSource source).lexemes).Pairwise Span.ComesBefore := by
  apply (pairwise_precedes_takenSpans source).imp_of_mem
  intro s t among _ precedes
  have proper := start_lt_stop_of_mem_takenSpans among
  exact ⟨Nat.lt_of_lt_of_le proper precedes.apart, precedes.begins⟩

/-- The tokens of a source come in its order. -/
theorem pairwise_tokens {tokens : List (Located Token)}
    (tokenized : tokenize source = .ok tokens) :
    (tokens.map (·.span)).Pairwise Span.ComesBefore := by
  have ordered := pairwise_comesBefore_takenSpans source
  rw [gather_eq_ok_iff.mp tokenized] at ordered
  have all : takenSpans (tokens.map .ok) = tokens.map (·.span) := by
    rw [takenSpans, List.filter_eq_self.mpr, List.map_map]
    · rfl
    · intro l among
      obtain ⟨token, -, rfl⟩ := List.mem_map.mp among
      rfl
  rw [all] at ordered
  exact ordered

/-- The lexical errors of a source come in its order. -/
theorem pairwise_lexErrors {errors : List (Located LexError)}
    (failed : tokenize source = .error errors) :
    (errors.map (·.span)).Pairwise Span.ComesBefore := by
  have places := (reading_ofSource source).failures_sublist
  rw [failures_of_gather failed] at places
  exact (pairwise_comesBefore_takenSpans source).sublist places

end Spans

/-! ## Sorting by the start -/

/-- The issue starts at an earlier byte than the other. -/
abbrev StartsEarlier (i j : Located SyntaxIssue) : Prop :=
  i.span.start < j.span.start

section Sorting

variable {issues : List (Located SyntaxIssue)}

theorem perm_ofIssues (issues : List (Located SyntaxIssue)) :
    (SyntaxErrors.ofIssues issues).issues.Perm issues :=
  List.mergeSort_perm _ _

/-- Issues that are in order stay as they are. -/
theorem ofIssues_of_pairwise (ordered : issues.Pairwise StartsEarlier) :
    (SyntaxErrors.ofIssues issues).issues = issues := by
  apply List.mergeSort_of_pairwise
  exact ordered.imp fun earlier => decide_eq_true (Nat.le_of_lt earlier)

/-- Issues with different starts are put into strict order. -/
theorem pairwise_ofIssues (distinct : (issues.map (·.span.start)).Nodup) :
    (SyntaxErrors.ofIssues issues).issues.Pairwise StartsEarlier := by
  have sorted : (SyntaxErrors.ofIssues issues).issues.Pairwise
      fun i j => decide (i.span.start ≤ j.span.start) = true := by
    apply List.pairwise_mergeSort
    · intro i j k first second
      exact decide_eq_true (Nat.le_trans (of_decide_eq_true first) (of_decide_eq_true second))
    · intro i j
      simp only [Bool.or_eq_true, decide_eq_true_eq]
      exact Nat.le_total _ _
  have apart := ((perm_ofIssues issues).map (·.span.start)).nodup_iff.mpr distinct
  apply (sorted.and (List.pairwise_map.mp apart)).imp
  intro i j pair
  exact Nat.lt_of_le_of_ne (of_decide_eq_true pair.1) pair.2

/-- Sorting keeps the order of those issues that are in order among themselves. -/
theorem filter_ofIssues (distinct : (issues.map (·.span.start)).Nodup)
    (p : Located SyntaxIssue → Bool) (ordered : (issues.filter p).Pairwise StartsEarlier) :
    (SyntaxErrors.ofIssues issues).issues.filter p = issues.filter p := by
  refine List.Perm.eq_of_pairwise ?_ ((pairwise_ofIssues distinct).filter p) ordered
    ((perm_ofIssues issues).filter p)
  intro i j _ _ earlier later
  exact absurd earlier (Nat.lt_asymm later)

/-- Two lists that are each in order are told apart again after they are sorted as one. -/
theorem append_eq_of_sorted {front back : List (Located SyntaxIssue)}
    (distinct : ((front ++ back).map (·.span.start)).Nodup) {p : Located SyntaxIssue → Bool}
    (without : ∀ i ∈ front, p i = false) (holding : ∀ i ∈ back, p i = true)
    (frontOrdered : front.Pairwise StartsEarlier) (backOrdered : back.Pairwise StartsEarlier) :
    front ++ back =
      (SyntaxErrors.ofIssues (front ++ back)).issues.filter (fun i => !p i) ++
        (SyntaxErrors.ofIssues (front ++ back)).issues.filter p := by
  have first : (front ++ back).filter (fun i => !p i) = front := by
    rw [List.filter_append, List.filter_eq_self.mpr, List.filter_eq_nil_iff.mpr, List.append_nil]
    · intro i among
      rw [holding i among]
      exact Bool.false_ne_true
    · intro i among
      rw [without i among]
      rfl
  have second : (front ++ back).filter p = back := by
    rw [List.filter_append, List.filter_eq_nil_iff.mpr, List.filter_eq_self.mpr holding,
      List.nil_append]
    intro i among
    rw [without i among]
    exact Bool.false_ne_true
  rw [filter_ofIssues distinct _ (first.symm ▸ frontOrdered),
    filter_ofIssues distinct p (second.symm ▸ backOrdered), first, second]

end Sorting

/-! ## Issues of an assembly -/

/-- Whether the issue is a jump to a label that is defined nowhere. -/
def SyntaxIssue.isUnresolved : SyntaxIssue → Bool
  | assembly (.unresolvedLabel _) => true
  | _ => false

section Assembled

variable {tokens : List (Located Token)}

theorem pairwise_map_issue {α : Type} {xs : List (Located α)}
    (ordered : (xs.map (·.span)).Pairwise Span.ComesBefore) (f : α → SyntaxIssue) :
    (xs.map (Located.map f)).Pairwise fun i j => i.span.ComesBefore j.span :=
  List.pairwise_map.mpr (List.pairwise_map.mp ordered)

theorem nodup_map_issue {errors : List (Located AssemblyError)}
    (distinct : (errors.map (·.span.start)).Nodup) :
    ((errors.map (Located.map SyntaxIssue.assembly)).map (·.span.start)).Nodup := by
  rw [List.map_map]
  exact distinct

/-- No two complaints of tokens that go on strictly start at one offset. -/
theorem nodup_complaints (ordered : (tokens.map (·.span)).Pairwise Span.ComesBefore) :
    ((complaints (clauses tokens)).map (·.span.start)).Nodup := by
  obtain ⟨places, perm, within⟩ := exists_complaints_sublist tokens
  have distinct : ((blamed (clauses tokens)).map (·.start)).Nodup := by
    apply List.pairwise_map.mpr
    exact (ordered.sublist (blamed_sublist tokens)).imp fun before => Nat.ne_of_lt before.start_lt
  have all := (perm.map (·.start)).nodup_iff.mpr distinct
  have some := all.sublist (within.map (·.start))
  rw [List.map_map] at some
  exact some

/-- Complaints that stand at places of some of the clauses go on strictly. -/
theorem pairwise_complaints (ordered : (tokens.map (·.span)).Pairwise Span.ComesBefore)
    {errors : List (Located AssemblyError)} {p : Clause → Bool}
    (places : (errors.map (·.span)).Sublist (blamed ((clauses tokens).filter p))) :
    (errors.map (Located.map .assembly)).Pairwise StartsEarlier := by
  have within : (blamed ((clauses tokens).filter p)).Sublist (tokens.map (·.span)) :=
    (List.filter_sublist.filterMap _).trans (blamed_sublist tokens)
  have strict := pairwise_map_issue (ordered.sublist (places.trans within)) .assembly
  exact strict.imp Span.ComesBefore.start_lt

theorem isUnresolved_of_mem_complaintsBehind {earlier cs : List Clause}
    {e : Located AssemblyError} (among : e ∈ complaintsBehind earlier cs) :
    (SyntaxIssue.assembly e.item).isUnresolved = false := by
  obtain ⟨clause, -, before, complains⟩ := exists_of_mem_complaintsBehind among
  cases clause with
  | emit => cases complains
  | report =>
    cases complains
    rfl
  | define name span =>
    obtain ⟨line, -, rfl⟩ := Option.map_eq_some_iff.mp complains
    rfl

theorem isUnresolved_of_mem_unresolved {cs : List Clause} {e : Located AssemblyError}
    (among : e ∈ unresolved cs) : (SyntaxIssue.assembly e.item).isUnresolved = true := by
  obtain ⟨label, -, rfl⟩ := List.mem_map.mp among
  rfl

/-- The complaints are the sorted issues with the jumps to nowhere moved to the end. -/
theorem complaints_eq_of_sorted (ordered : (tokens.map (·.span)).Pairwise Span.ComesBefore) :
    (complaints (clauses tokens)).map (Located.map .assembly) =
      (SyntaxErrors.ofAssemblyErrors (complaints (clauses tokens))).issues.filter
          (fun i => !i.item.isUnresolved) ++
        (SyntaxErrors.ofAssemblyErrors (complaints (clauses tokens))).issues.filter
          (·.item.isUnresolved) := by
  have distinct := nodup_map_issue (nodup_complaints ordered)
  rw [SyntaxErrors.ofAssemblyErrors]
  rw [complaints, List.map_append] at distinct ⊢
  apply append_eq_of_sorted distinct
  · intro i among
    obtain ⟨e, found, rfl⟩ := List.mem_map.mp among
    exact isUnresolved_of_mem_complaintsBehind found
  · intro i among
    obtain ⟨e, found, rfl⟩ := List.mem_map.mp among
    exact isUnresolved_of_mem_unresolved found
  · exact pairwise_complaints ordered (complaintsBehind_sublist [] (clauses tokens))
  · exact pairwise_complaints ordered (unresolved_sublist (clauses tokens))

end Assembled

/-! ## The issues of a source -/

section Issues

variable {source : String} {e : SyntaxErrors}

/-- Lexical errors are reported as the lexer lists them. -/
theorem issues_ofLexErrors {errors : List (Located LexError)}
    (failed : tokenize source = .error errors) :
    (SyntaxErrors.ofLexErrors errors).issues = errors.map (Located.map .lexical) := by
  apply ofIssues_of_pairwise
  exact (pairwise_map_issue (pairwise_lexErrors failed) .lexical).imp Span.ComesBefore.start_lt

/-- Complaints of an assembly are reported in the order of its tokens. -/
theorem pairwise_ofAssemblyErrors {tokens : List (Located Token)}
    {errors : List (Located AssemblyError)} (tokenized : tokenize source = .ok tokens)
    (failed : Program.ofTokens tokens = .error errors) :
    (SyntaxErrors.ofAssemblyErrors errors).issues.Pairwise
      fun i j => i.span.ComesBefore j.span := by
  have ordered := pairwise_tokens tokenized
  have sorted : (SyntaxErrors.ofAssemblyErrors errors).issues.Pairwise StartsEarlier := by
    rw [(ofTokens_eq_error_iff.mp failed).1]
    exact pairwise_ofIssues (nodup_map_issue (nodup_complaints ordered))
  have within : ∀ i ∈ (SyntaxErrors.ofAssemblyErrors errors).issues,
      i.span ∈ tokens.map (·.span) := by
    intro i among
    obtain ⟨error, reported, rfl⟩ := List.mem_map.mp (mem_ofIssues_iff.mp among)
    obtain ⟨token, inTokens, span_eq⟩ := token_of_mem_errors failed error reported
    exact List.mem_map.mpr ⟨token, inTokens, span_eq⟩
  apply sorted.imp_of_mem
  intro i j first second earlier
  exact Span.ComesBefore.of_start_lt ordered (within i first) (within j second) earlier

theorem ne_nil_of_gather {ε α : Type} {rs : List (Except ε α)} {es : List ε}
    (failed : gather rs = .error es) : es ≠ [] := by
  unfold gather at failed
  split at failed
  · cases failed
  · rename_i some
    exact Except.error.inj failed ▸ some

/-- A source is refused for what the lexer finds, or else for what the assembly finds. -/
theorem parse_eq_error_cases (failed : Program.parse source = .error e) :
    (∃ errors, tokenize source = .error errors ∧ e = .ofLexErrors errors) ∨
      ∃ tokens errors, tokenize source = .ok tokens ∧ Program.ofTokens tokens = .error errors ∧
        e = .ofAssemblyErrors errors := by
  unfold Program.parse at failed
  split at failed
  case h_1 errors tokenized => exact .inl ⟨errors, tokenized, (Except.error.inj failed).symm⟩
  case h_2 tokens tokenized =>
    split at failed
    case h_1 errors assembled =>
      exact .inr ⟨tokens, errors, tokenized, assembled, (Except.error.inj failed).symm⟩
    case h_2 => cases failed

/-- A refused source has issues, and no two of them begin at one place: they go on strictly,
in bytes as well as in lines and columns. They are the errors that the lexer has found, in
its order. If it has found none, they are the complaints of the assembly, where only the
jumps to nowhere change their place: these stand last in the complaints. -/
theorem issues_are_complete_and_ordered (failed : Program.parse source = .error e) :
    e.issues ≠ [] ∧
      ((∃ errors, tokenize source = .error errors ∧
          errors = failures (Lexer.ofSource source).lexemes ∧
          e.issues = errors.map (Located.map .lexical)) ∨
        ∃ tokens errors, tokenize source = .ok tokens ∧
          Program.ofTokens tokens = .error errors ∧
          e.issues.Perm (errors.map (Located.map .assembly)) ∧
          errors.map (Located.map .assembly) =
            e.issues.filter (fun i => !i.item.isUnresolved) ++
              e.issues.filter (·.item.isUnresolved) ∧
          e.hasLexical = false) ∧
      e.issues.Pairwise (fun i j => i.span.start < j.span.start) ∧
      e.issues.Pairwise (fun i j => i.span.BeginsBefore j.span) := by
  obtain ⟨errors, tokenized, rfl⟩ | ⟨tokens, errors, tokenized, assembled, rfl⟩ :=
    parse_eq_error_cases failed
  · have ordered := pairwise_map_issue (pairwise_lexErrors tokenized) .lexical
    have listed := (failures_of_gather tokenized).symm
    rw [issues_ofLexErrors tokenized]
    refine ⟨?_, .inl ⟨errors, tokenized, listed, rfl⟩,
      ordered.imp Span.ComesBefore.start_lt, ordered.imp Span.ComesBefore.begins⟩
    exact fun none => ne_nil_of_gather tokenized (List.map_eq_nil_iff.mp none)
  · have ordered := pairwise_ofAssemblyErrors tokenized assembled
    have perm := perm_ofIssues (errors.map (Located.map .assembly))
    obtain ⟨all, nonempty⟩ := ofTokens_eq_error_iff.mp assembled
    refine ⟨?_, .inr ⟨tokens, errors, tokenized, assembled, perm, ?_, ?_⟩,
      ordered.imp Span.ComesBefore.start_lt, ordered.imp Span.ComesBefore.begins⟩
    · exact fun none => nonempty (List.map_eq_nil_iff.mp (none ▸ perm).nil_eq.symm)
    · rw [all]
      exact complaints_eq_of_sorted (pairwise_tokens tokenized)
    · apply List.any_eq_false.mpr
      intro i among
      obtain ⟨error, -, rfl⟩ := List.mem_map.mp (mem_ofIssues_iff.mp among)
      exact Bool.false_ne_true

end Issues

/-- A jump to nowhere stands before a label that is defined twice. The assembly finds it
last, and it is reported first. -/
theorem issues_are_complete_and_ordered_jump :
    ∃ e, Program.parse "🦘 no\n🏷 a\n🏷 a" = .error e ∧
      e.issues.map (·.item) =
        [.assembly (.unresolvedLabel "no"), .assembly (.duplicateLabel "a" 2)] ∧
      e.issues.Pairwise (fun i j => i.span.start < j.span.start) ∧
      e.issues.Pairwise (fun i j => i.span.BeginsBefore j.span) := by
  have tokenized : tokenize "🦘 no\n🏷 a\n🏷 a" =
      .ok [⟨.opcode .jump, ⟨0, 4, 1, 1⟩⟩, ⟨.label "no", ⟨5, 7, 1, 3⟩⟩,
        ⟨.labelDef, ⟨8, 12, 2, 1⟩⟩, ⟨.label "a", ⟨13, 14, 2, 3⟩⟩,
        ⟨.labelDef, ⟨15, 19, 3, 1⟩⟩, ⟨.label "a", ⟨20, 21, 3, 3⟩⟩] := by
    decide +kernel
  have assembled : Program.ofTokens [⟨.opcode .jump, ⟨0, 4, 1, 1⟩⟩, ⟨.label "no", ⟨5, 7, 1, 3⟩⟩,
      ⟨.labelDef, ⟨8, 12, 2, 1⟩⟩, ⟨.label "a", ⟨13, 14, 2, 3⟩⟩,
      ⟨.labelDef, ⟨15, 19, 3, 1⟩⟩, ⟨.label "a", ⟨20, 21, 3, 3⟩⟩] =
      .error [⟨.duplicateLabel "a" 2, ⟨20, 21, 3, 3⟩⟩, ⟨.unresolvedLabel "no", ⟨5, 7, 1, 3⟩⟩] := by
    decide +kernel
  have sorted : SyntaxErrors.ofAssemblyErrors
      [⟨.duplicateLabel "a" 2, ⟨20, 21, 3, 3⟩⟩, ⟨.unresolvedLabel "no", ⟨5, 7, 1, 3⟩⟩] =
      ⟨[⟨.assembly (.unresolvedLabel "no"), ⟨5, 7, 1, 3⟩⟩,
        ⟨.assembly (.duplicateLabel "a" 2), ⟨20, 21, 3, 3⟩⟩]⟩ := by
    simp [SyntaxErrors.ofAssemblyErrors, SyntaxErrors.ofIssues, Located.map, List.mergeSort]
  have failed : Program.parse "🦘 no\n🏷 a\n🏷 a" =
      .error ⟨[⟨.assembly (.unresolvedLabel "no"), ⟨5, 7, 1, 3⟩⟩,
        ⟨.assembly (.duplicateLabel "a" 2), ⟨20, 21, 3, 3⟩⟩]⟩ := by
    simp only [Program.parse, tokenized, assembled, sorted]
  obtain ⟨-, -, starts, begins⟩ := issues_are_complete_and_ordered failed
  exact ⟨_, failed, rfl, starts, begins⟩

end GlyphMachine
