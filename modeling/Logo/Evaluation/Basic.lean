import Logo.Workspace

/-!
# Jobs and results of evaluation

Evaluation goes through a sequence of tokens from left to right, and puts values in place of calls
until only values are left. A job works on the rest of a sequence, from the token that it is about
to the end; what stands before that token plays no part. A result says how the job ended and what
became of the sequence.

* `Job` lists the kinds of work, and `Evaluator` is the type of a function that does them.
* `Commands` gives codes of commands their meaning.
-/

namespace Logo

/-- How a piece of work ended. -/
inductive Outcome where
  /-- It is done. -/
  | complete
  /-- The sequence ends before a call has its inputs. -/
  | incomplete
  /-- It cannot be carried out. -/
  | failed (cause : RuntimeError)
  deriving DecidableEq, Repr

/-- What a command asks for once it has looked at its inputs. -/
inductive Action where
  /-- The call is over, and the token takes its place if there is one. -/
  | produce (token : Option Token)
  /-- The call fails. -/
  | fail (cause : RuntimeError)
  /-- The items are run, and the last value that they leave takes the place of the call. -/
  | run (items : List Token)
  /-- The items are run a number of times. -/
  | iterate (times : Nat) (items : List Token)

/-- The meaning of commands: what they do to the workspace, given their inputs, and what they ask
for then. -/
class Commands (κ : Type) where
  /-- Performs a command. -/
  perform : κ → Workspace κ → List Value → Workspace κ × Action

/-- A piece of work. A flag `lenient` says that an unknown word counts as text. -/
inductive Job (κ : Type) where
  /-- Carries out all statements of a sequence. -/
  | sequence (lenient : Bool) (tokens : List Token)
  /-- Carries out the statement at the head. -/
  | statement (lenient : Bool) (tokens : List Token)
  /-- Evaluates the token at the head. -/
  | token (lenient : Bool) (tokens : List Token)
  /-- Calls the word at the head. As an operand a call without a result leaves an unknown value,
  otherwise it leaves nothing. -/
  | word (lenient operand : Bool) (tokens : List Token)
  /-- Brings what stands at the head to one value, with the infix operators that follow it. -/
  | argument (tokens : List Token)
  /-- Goes on with `window`, a value or a run of values and operators, and what follows it. -/
  | chain (window rest : List Token)
  /-- Reduces an expression with the text `source` to one value. -/
  | expression (source : String) (children rest : List Token)
  /-- Calls a procedure. What it produces, if anything, is the sequence of the result. -/
  | invoke (procedure : Procedure κ) (inputs : List Value)

/-- How a job ended. -/
structure Result (κ : Type) where
  /-- Whether it is done. -/
  outcome : Outcome
  /-- What is left of the sequence. -/
  tokens : List Token
  /-- The workspace afterwards. -/
  workspace : Workspace κ

/-- A function that does jobs. It may give up, and has no result then. -/
abbrev Evaluator (κ : Type) :=
  Job κ → Workspace κ → Option (Result κ)

variable {κ : Type}

/-- The result with tokens put in front that the job did not look at. -/
def Result.after (done : List Token) (r : Result κ) : Result κ :=
  { r with tokens := done ++ r.tokens }

/-- The text of the first token that is not a value: the call that waits for inputs. -/
def pendingWord (tokens : List Token) : String :=
  match tokens.find? (!·.isLiteral) with
  | some token => token.text
  | none => ""

/-- The last value of a sequence, as it stands there. -/
def lastLiteral? (tokens : List Token) : Option Token :=
  tokens.reverse.find? Token.isLiteral

end Logo
