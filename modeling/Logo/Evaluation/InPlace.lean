import Logo.Evaluation.Run

/-!
# Evaluation in place

The same work as that of `eval`, done on one sequence that is changed where it stands. A task knows
a position in the whole sequence and not only the rest from there on. It looks at tokens by their
positions, and what it takes out or puts in moves all that follows.

* `splice` is the one way in which a sequence is changed.
* `Task.step` does any task, given a function for the tasks that it consists of, and `edit` does
  tasks that nest at most as deep as a bound says.
* `Workspace.enterAt` and `Workspace.enterInPlace` are the entries at a position, on the rest of the
  sequence and in place.
-/

namespace Logo

namespace InPlace

/-- A piece of work on a sequence, from a position on. -/
inductive Task (κ : Type) where
  /-- Carries out all statements. -/
  | sequence (lenient : Bool)
  /-- Carries out the statement at a position. -/
  | statement (lenient : Bool) (position : Nat)
  /-- Evaluates the token at a position. -/
  | token (lenient : Bool) (position : Nat)
  /-- Calls the word at a position. -/
  | word (lenient operand : Bool) (position : Nat)
  /-- Brings what stands at a position to one value, with the infix operators that follow it. -/
  | argument (position : Nat)
  /-- Goes on with the run of `count` values and operators from a position on. -/
  | chain (position count : Nat)
  /-- Reduces the children of the expression at a position, which were taken out of it. -/
  | expression (source : String) (children : List Token) (position : Nat)
  /-- Calls a procedure, whatever the sequence is. -/
  | invoke (procedure : Procedure κ) (inputs : List Value)

/-- A function that does tasks on a sequence. The tokens of the result are the whole sequence. -/
abbrev Editor (κ : Type) :=
  Task κ → List Token → Workspace κ → Option (Result κ)

variable {κ : Type}

/-- The editor does a job on a sequence of its own, from the front on. -/
def Editor.evaluator (edit : Editor κ) : Evaluator κ
  | .sequence lenient tokens, w => edit (.sequence lenient) tokens w
  | .statement lenient tokens, w => edit (.statement lenient 0) tokens w
  | .token lenient tokens, w => edit (.token lenient 0) tokens w
  | .word lenient operand tokens, w => edit (.word lenient operand 0) tokens w
  | .argument tokens, w => edit (.argument 0) tokens w
  | .chain window rest, w => edit (.chain 0 window.length) (window ++ rest) w
  | .expression source children rest, w =>
    edit (.expression source children 0) (.expression [] :: rest) w
  | .invoke p inputs, w => edit (.invoke p inputs) [] w

/-- The sequence with `new` in place of the `count` tokens from `position` on. -/
def splice (tokens : List Token) (position count : Nat) (new : List Token) : List Token :=
  tokens.take position ++ new ++ tokens.drop (position + count)

/-- The `count` tokens from `position` on. -/
def slice (tokens : List Token) (position count : Nat) : List Token :=
  (tokens.drop position).take count

/-! ## Statements and tokens -/

/-- Carries out the first statement and then all statements again, while there is one. -/
def stepSequence (edit : Editor κ) (lenient : Bool) (tokens : List Token) (w : Workspace κ) :
    Option (Result κ) :=
  if w.isUnwinding then some ⟨.complete, tokens, w⟩
  else
    match tokens.findIdx? (!·.isLiteral) with
    | none => some ⟨.complete, tokens, w⟩
    | some position => do
      let r ← edit (.statement lenient position) tokens w
      match r.outcome with
      | .complete => edit (.sequence lenient) r.tokens r.workspace
      | _ => return r

/-- Carries out the statement at a position. -/
def stepStatement (edit : Editor κ) (lenient : Bool) (position : Nat) (tokens : List Token)
    (w : Workspace κ) : Option (Result κ) :=
  match tokens[position]? with
  | none => some ⟨.incomplete, tokens, w⟩
  | some (.comment _) => some ⟨.complete, splice tokens position 1 [], w⟩
  | some (.list children) =>
    some ⟨.failed (.bareContainer (Token.list children).text), tokens, w⟩
  | some (.expression children) =>
    some ⟨.failed (.bareContainer (Token.expression children).text), tokens, w⟩
  | some (.operator op) => some ⟨.failed (.missingOperand op.text), tokens, w⟩
  | some _ => edit (.token lenient position) tokens w

/-- Evaluates the token at a position. The children of an expression are taken out of it first. -/
def stepToken (edit : Editor κ) (lenient : Bool) (position : Nat) (tokens : List Token)
    (w : Workspace κ) : Option (Result κ) :=
  match tokens[position]? with
  | none => some ⟨.incomplete, tokens, w⟩
  | some (.word _) => edit (.word lenient false position) tokens w
  | some (.expression children) =>
    edit (.expression (Token.expression children).text children position)
      (splice tokens position 1 [.expression []]) w
  | some (.list children) =>
    some ⟨.complete, splice tokens position 1 [.ofValue (.list children)], w⟩
  | some (.reference text) =>
    let (v, w) := w.getVariable ((Token.reference text).variableName?.getD "")
    some ⟨.complete, splice tokens position 1 [.ofValue v], w⟩
  | some (.comment _) => some ⟨.complete, splice tokens position 1 [], w⟩
  | some _ => some ⟨.complete, tokens, w⟩

/-- Evaluates the token at a position, which stands for a value. -/
def operand (edit : Editor κ) (lenient : Bool) (position : Nat) (tokens : List Token)
    (w : Workspace κ) : Option (Result κ) :=
  match tokens[position]? with
  | some (.word _) => edit (.word lenient true position) tokens w
  | _ => edit (.token lenient position) tokens w

/-! ## Calls -/

/-- How the places for the inputs of a call were filled. -/
inductive Filled (κ : Type) where
  /-- There is a value in each of them. -/
  | ready (tokens : List Token) (w : Workspace κ)
  /-- An input asked to leave the procedure. -/
  | unwound (tokens : List Token) (w : Workspace κ)
  /-- An input is missing, or failed. -/
  | halted (r : Result κ)

/-- Brings the inputs from a position on to values, one after the other. -/
def fill (edit : Editor κ) : Nat → Nat → List Token → Workspace κ → Option (Filled κ)
  | 0, _, tokens, w => some (.ready tokens w)
  | count + 1, position, tokens, w => do
    let r ← edit (.argument position) tokens w
    match r.outcome with
    | .complete =>
      if r.workspace.isUnwinding then return .unwound r.tokens r.workspace
      else fill edit count (position + 1) r.tokens r.workspace
    | _ => return .halted r

/-- Calls the procedures of the name at a position. The inputs behind the name are taken out, and
what was produced is put in place of the name. -/
def callWord (edit : Editor κ) (operand : Bool) (position : Nat) (first : Procedure κ)
    (others : List (Procedure κ)) (tokens : List Token) (w : Workspace κ) :
    Option (Result κ) := do
  match ← fill edit first.inputs (position + 1) tokens w with
  | .halted r => return r
  | .unwound tokens w => return ⟨.complete, splice tokens position 1 (replacement operand none), w⟩
  | .ready tokens w =>
    let inputs := (slice tokens (position + 1) first.inputs).filterMap Token.value?
    let tokens := splice tokens (position + 1) first.inputs []
    let r ← callAll edit.evaluator inputs (first :: others) none w
    match r.outcome with
    | .complete =>
      return ⟨.complete, splice tokens position 1 (replacement operand r.tokens.head?), r.workspace⟩
    | outcome => return ⟨outcome, tokens, r.workspace⟩

/-- Calls the word at a position. -/
def stepWord (edit : Editor κ) (lenient operand : Bool) (position : Nat) (tokens : List Token)
    (w : Workspace κ) : Option (Result κ) :=
  match tokens[position]? with
  | none => some ⟨.incomplete, tokens, w⟩
  | some token =>
    let text := token.text
    if Text.equalsIgnoringCase text "true" then
      some ⟨.complete, splice tokens position 1 [.literal text (.bool true)], w⟩
    else if Text.equalsIgnoringCase text "false" then
      some ⟨.complete, splice tokens position 1 [.literal text (.bool false)], w⟩
    else
      match w.lookup text with
      | first :: others => callWord edit operand position first others tokens w
      | [] =>
        if lenient then some ⟨.complete, splice tokens position 1 [.literal text (.text text)], w⟩
        else some ⟨.failed (.undefinedProcedure text), tokens, w⟩

/-! ## Operands and operators -/

/-- Evaluates the operand at a position and goes on with the task `next`, unless the operand waits,
fails, or leaves the procedure. -/
def throughOperand (edit : Editor κ) (lenient : Bool) (position : Nat) (next : Task κ)
    (tokens : List Token) (w : Workspace κ) : Option (Result κ) := do
  let r ← operand edit lenient position tokens w
  match r.outcome with
  | .complete => if r.workspace.isUnwinding then return r else edit next r.tokens r.workspace
  | _ => return r

/-- Brings what stands at a position to one value. -/
def stepArgument (edit : Editor κ) (position : Nat) (tokens : List Token) (w : Workspace κ) :
    Option (Result κ) :=
  match tokens[position]? with
  | none => some ⟨.incomplete, tokens, w⟩
  | some (.literal _ _) => edit (.chain position 1) tokens w
  | some (.operator op) => some ⟨.failed (.missingOperand op.text), tokens, w⟩
  | some _ => throughOperand edit true position (.argument position) tokens w

/-- The value of a run takes its place. A run that fails is taken out. -/
def closeChain (position count : Nat) (tokens : List Token) (w : Workspace κ) : Result κ :=
  let window := slice tokens position count
  if window.length ≤ 1 then ⟨.complete, tokens, w⟩
  else
    match (reduce window).1 with
    | .ok v => ⟨.complete, splice tokens position count [.ofValue v], w⟩
    | .error e => ⟨.failed e, splice tokens position count [], w⟩

/-- Goes on with a run. The operator that follows it is looked for right behind its last value, and
the operand right behind the operator. -/
def stepChain (edit : Editor κ) (position count : Nat) (tokens : List Token) (w : Workspace κ) :
    Option (Result κ) :=
  match tokens[position + count]? with
  | some (.operator op) =>
    match tokens[position + count + 1]? with
    | none => some ⟨.incomplete, tokens, w⟩
    | some (.literal _ _) => edit (.chain position (count + 2)) tokens w
    | some (.operator _) => some ⟨.failed (.missingOperand op.text), tokens, w⟩
    | some _ => throughOperand edit false (position + count + 1) (.chain position count) tokens w
  | _ => some (closeChain position count tokens w)

/-- Puts the value of an expression in its place. -/
def closeExpression (source : String) (children : List Token) (position : Nat)
    (tokens : List Token) (w : Workspace κ) : Result κ :=
  if children.isEmpty then ⟨.failed (.malformedExpression source), tokens, w⟩
  else
    match (reduce children).1 with
    | .ok v => ⟨.complete, splice tokens position 1 [.ofValue v], w⟩
    | .error e => ⟨.failed e, tokens, w⟩

/-- Evaluates the children of an expression, which are a sequence of their own, and reduces them. -/
def stepExpression (edit : Editor κ) (source : String) (children : List Token) (position : Nat)
    (tokens : List Token) (w : Workspace κ) : Option (Result κ) :=
  match children.findIdx? (!isSettled ·) with
  | none => some (closeExpression source children position tokens w)
  | some child => do
    let r ← operand edit false child children w
    match r.outcome with
    | .complete =>
      if r.workspace.isUnwinding then return ⟨.complete, tokens, r.workspace⟩
      else edit (.expression source r.tokens position) tokens r.workspace
    | .incomplete =>
      let e := RuntimeError.notEnoughInputs (pendingWord (r.tokens.drop child))
      return ⟨.failed e, tokens, r.workspace⟩
    | .failed e => return ⟨.failed e, tokens, r.workspace⟩

/-! ## All tasks -/

variable [Commands κ]

/-- Does a task, with `edit` for the tasks that it consists of. -/
def Task.step (edit : Editor κ) : Editor κ
  | .sequence lenient, tokens, w => stepSequence edit lenient tokens w
  | .statement lenient position, tokens, w => stepStatement edit lenient position tokens w
  | .token lenient position, tokens, w => stepToken edit lenient position tokens w
  | .word lenient operand position, tokens, w => stepWord edit lenient operand position tokens w
  | .argument position, tokens, w => stepArgument edit position tokens w
  | .chain position count, tokens, w => stepChain edit position count tokens w
  | .expression source children position, tokens, w =>
    stepExpression edit source children position tokens w
  | .invoke p inputs, _, w => stepInvoke edit.evaluator p inputs w

/-- Does a task in which tasks nest at most `fuel` deep. -/
def edit : Nat → Editor κ
  | 0 => fun _ _ _ => none
  | fuel + 1 => Task.step (edit fuel)

end InPlace

/-! ## Entries at a position -/

/-- What can be asked for at a position. -/
inductive EntryPoint where
  /-- To carry out the statement there. -/
  | statement (lenient : Bool)
  /-- To evaluate the token there. -/
  | token (lenient : Bool)
  /-- To call the word there. -/
  | word (lenient : Bool)
  /-- To reduce the expression there. -/
  | expression

namespace Workspace

variable {κ : Type} [Commands κ]

/-- Does what is asked for at a position, on the rest of the sequence. -/
def enterAt (w : Workspace κ) (fuel : Nat) :
    EntryPoint → Nat → List Token → Option (Result κ)
  | .statement lenient => w.evaluateAt fuel (.statement lenient)
  | .token lenient => w.evaluateAt fuel (.token lenient)
  | .word lenient => w.evaluateAt fuel (.word lenient false)
  | .expression => w.reduceAt fuel

/-- Reduces the expression at a position, in place. A token of another kind is left alone. -/
def reduceInPlace (w : Workspace κ) (fuel : Nat) (position : Nat) (tokens : List Token) :
    Option (Result κ) :=
  match tokens[position]? with
  | some (.expression _) => InPlace.edit fuel (.token false position) tokens w
  | _ => some ⟨.complete, tokens, w⟩

/-- Does what is asked for at a position, in place. -/
def enterInPlace (w : Workspace κ) (fuel : Nat) :
    EntryPoint → Nat → List Token → Option (Result κ)
  | .statement lenient, position, tokens => InPlace.edit fuel (.statement lenient position) tokens w
  | .token lenient, position, tokens => InPlace.edit fuel (.token lenient position) tokens w
  | .word lenient, position, tokens => InPlace.edit fuel (.word lenient false position) tokens w
  | .expression, position, tokens => w.reduceInPlace fuel position tokens

end Workspace

end Logo
