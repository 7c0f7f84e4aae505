/-!
Lists of results, gathered so that every failure is kept and not only the first.
-/

namespace GlyphMachine

/-- The failures among results. -/
def failures {ε α : Type} (rs : List (Except ε α)) : List ε :=
  rs.filterMap fun
    | .ok _ => none
    | .error e => some e

/-- The successes among results. -/
def successes {ε α : Type} (rs : List (Except ε α)) : List α :=
  rs.filterMap fun
    | .ok a => some a
    | .error _ => none

/-- All successes, or all failures if there are any. -/
def gather {ε α : Type} (rs : List (Except ε α)) : Except (List ε) (List α) :=
  match failures rs with
  | [] => .ok (successes rs)
  | es => .error es

theorem mem_failures_iff {ε α : Type} {rs : List (Except ε α)} {e : ε} :
    e ∈ failures rs ↔ .error e ∈ rs := by
  induction rs with
  | nil => simp [failures]
  | cons r rs ih =>
    simp only [failures] at ih
    cases r with
    | ok a => simp [failures, ih]
    | error e' => simp [failures, ih]

/-- Gathering succeeds exactly on lists of successes. -/
theorem gather_eq_ok_iff {ε α : Type} {rs : List (Except ε α)} {as : List α} :
    gather rs = .ok as ↔ rs = as.map .ok := by
  induction rs generalizing as with
  | nil => cases as <;> simp [gather, failures, successes]
  | cons r rs ih =>
    cases r with
    | error e => cases as <;> simp [gather, failures]
    | ok a =>
      cases as with
      | nil =>
        simp only [gather, failures, successes, List.filterMap_cons_none]
        split <;> simp
      | cons b bs =>
        have rest := @ih bs
        simp only [gather, failures, successes, List.filterMap_cons_none,
          List.map_cons, List.cons.injEq, Except.ok.injEq] at rest ⊢
        rw [← rest]
        split <;> simp

end GlyphMachine
