import GlyphMachine.Text.Blank
import GlyphMachine.Text.Quoted
import GlyphMachine.Text.Search
import GlyphMachine.SyntaxErrors
import GlyphMachine.Trace

/-!
Expectations: what a lesson step asks of a run, and the verdict on a run. Only a run that halted
can pass, and the reason of a failure keeps its kind, so that a run that was stopped can be told
from one with a wrong answer.
-/

namespace GlyphMachine

/-- What a lesson step asks of the printed lines. -/
inductive Expectation where
  /-- joined by line breaks they equal the text, trailing white space aside -/
  | exact (text : String)
  /-- joined by line breaks they contain the text -/
  | contains (text : String)
  /-- they are these lines, one by one -/
  | lines (expected : List String)
  /-- the trace satisfies the check of a lesson author, which may refuse it with a message -/
  | custom (check : Trace → Except String Unit)

namespace Expectation

/-- The expectation as configuration dumps show it. -/
def describe : Expectation → String
  | exact text => "ExactOutput(" ++ Text.quoted text ++ ")"
  | contains text => "OutputContains(" ++ Text.quoted text ++ ")"
  | lines expected => "OutputLines(" ++ Text.quotedList expected ++ ")"
  | custom _ => "Custom(..)"

end Expectation

/-- Coarse kind of a failure. -/
inductive FailureClass where
  | badSource
  | runtime
  | budget
  | mismatch
deriving DecidableEq, Repr

/-- Why a step was not passed. -/
inductive FailureReason where
  | badSource (errors : SyntaxErrors)
  | fault (fault : Fault)
  | budgetExceeded (breach : Breach)
  | mismatch (expected observed : String)
  | rejected (message : String)
deriving DecidableEq

namespace FailureReason

def failureClass : FailureReason → FailureClass
  | badSource _ => .badSource
  | fault _ => .runtime
  | budgetExceeded _ => .budget
  | mismatch .. | rejected _ => .mismatch

def message : FailureReason → String
  | badSource errors => "your program has a syntax error: " ++ errors.message
  | fault f => "your program crashed: " ++ f.message
  | budgetExceeded breach => breach.message
  | mismatch expected observed =>
    "expected " ++ Text.quoted expected ++ " but your program printed " ++ Text.quoted observed
  | rejected remark => remark

end FailureReason

/-- The verdict on a step: it is passed if there is no reason against it. -/
structure Verdict where
  /-- the lines that were printed -/
  observed : List String
  reason : Option FailureReason
deriving DecidableEq

namespace Verdict

def passed (v : Verdict) : Bool :=
  v.reason.isNone

/-- The printed lines as one text. -/
def text (v : Verdict) : String :=
  "\n".intercalate v.observed

end Verdict

namespace Expectation

/-- What the expectation holds against a run that halted. -/
def objection? (e : Expectation) (t : Trace) : Option FailureReason :=
  match e with
  | exact text =>
    if Text.trimEnd t.text.toList = Text.trimEnd text.toList then none
    else some (.mismatch text t.text)
  | contains text =>
    if Text.occursIn text.toList t.text.toList then none
    else some (.mismatch ("output containing `" ++ text ++ "`") t.text)
  | lines expected =>
    if t.output = expected then none
    else some (.mismatch ("\n".intercalate expected) t.text)
  | custom check =>
    match check t with
    | .ok () => none
    | .error message => some (.rejected message)

/-- The verdict on a run. -/
def judge (e : Expectation) (t : Trace) : Verdict where
  observed := t.output
  reason := match t.status with
    | .halted => e.objection? t
    | .faulted fault => some (.fault fault)
    | .stopped breach => some (.budgetExceeded breach)

end Expectation

end GlyphMachine
