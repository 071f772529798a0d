import Logo.Evaluation.Step

/-!
# Evaluation

A program may run forever, so that evaluation has a bound: `eval fuel` does every job in which jobs
nest at most `fuel` deep, and gives up on all others. A larger bound never changes a result.

The remaining functions are the entries from outside. Those that take a position work on the token
there, and what stands before it stays as it is.
-/

namespace Logo

variable {κ : Type} [Commands κ]

/-- Does a job in which jobs nest at most `fuel` deep. -/
def eval : Nat → Evaluator κ
  | 0 => fun _ _ => none
  | fuel + 1 => Job.step (eval fuel)

/-- A bound that no program of practical size reaches. -/
def ampleFuel : Nat :=
  1000000000000000000

namespace Workspace

/-- Carries out all statements of a sequence. -/
def execute (w : Workspace κ) (fuel : Nat) (lenient : Bool) (tokens : List Token) :
    Option (Result κ) :=
  eval fuel (.sequence lenient tokens) w

/-- Does a job on the rest of a sequence from a position on. -/
def evaluateAt (w : Workspace κ) (fuel : Nat) (job : List Token → Job κ) (position : Nat)
    (tokens : List Token) : Option (Result κ) :=
  (eval fuel (job (tokens.drop position)) w).map (·.after (tokens.take position))

/-- Reduces the expression at a position. A token of another kind is left alone. -/
def reduceAt (w : Workspace κ) (fuel : Nat) (position : Nat) (tokens : List Token) :
    Option (Result κ) :=
  match tokens.drop position with
  | .expression _ :: _ => w.evaluateAt fuel (.token false) position tokens
  | _ => some ⟨.complete, tokens, w⟩

/-- Runs the items of a list as statements, and gives the last value that they leave. -/
def runList (w : Workspace κ) (fuel : Nat) (items : List Token) : Option (Result κ) :=
  runItems (eval fuel) items w

/-- Calls a procedure. -/
def invoke (w : Workspace κ) (fuel : Nat) (p : Procedure κ) (inputs : List Value) :
    Option (Result κ) :=
  eval fuel (.invoke p inputs) w

end Workspace

end Logo
