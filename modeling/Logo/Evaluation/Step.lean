import Logo.Evaluation.Basic
import Logo.Operator.Reduce

/-!
# One step of evaluation

What each kind of job does, given a function `eval` for the jobs that it consists of. Nothing here
recurs through `eval`, so that a bound on the nesting of jobs is all that evaluation needs to end.

* `Job.step` does any job.
-/

namespace Logo

variable {κ : Type}

/-! ## Statements -/

/-- Carries out statement after statement. Values at the head stay where they are. Nothing is done
while a procedure is being left. -/
def stepSequence (eval : Evaluator κ) (lenient : Bool) (tokens : List Token) (w : Workspace κ) :
    Option (Result κ) :=
  if w.isUnwinding then some ⟨.complete, tokens, w⟩
  else
    match tokens.dropWhile Token.isLiteral with
    | [] => some ⟨.complete, tokens, w⟩
    | token :: rest => do
      let values := tokens.takeWhile Token.isLiteral
      let r ← eval (.statement lenient (token :: rest)) w
      match r.outcome with
      | .complete => return (← eval (.sequence lenient r.tokens) r.workspace).after values
      | _ => return r.after values

/-- Carries out the statement at the head. Comments are dropped. Brackets and operators do not begin
a statement. -/
def stepStatement (eval : Evaluator κ) (lenient : Bool) (tokens : List Token) (w : Workspace κ) :
    Option (Result κ) :=
  match tokens with
  | [] => some ⟨.incomplete, [], w⟩
  | .comment _ :: rest => some ⟨.complete, rest, w⟩
  | .list children :: _ =>
    some ⟨.failed (.bareContainer (Token.list children).text), tokens, w⟩
  | .expression children :: _ =>
    some ⟨.failed (.bareContainer (Token.expression children).text), tokens, w⟩
  | .operator op :: _ => some ⟨.failed (.missingOperand op.text), tokens, w⟩
  | _ => eval (.token lenient tokens) w

/-! ## Tokens -/

/-- Evaluates the token at the head. -/
def stepToken (eval : Evaluator κ) (lenient : Bool) (tokens : List Token) (w : Workspace κ) :
    Option (Result κ) :=
  match tokens with
  | [] => some ⟨.incomplete, [], w⟩
  | .word _ :: _ => eval (.word lenient false tokens) w
  | .expression children :: rest =>
    eval (.expression (Token.expression children).text children rest) w
  | .list children :: rest => some ⟨.complete, .ofValue (.list children) :: rest, w⟩
  | .reference text :: rest =>
    let (v, w) := w.getVariable ((Token.reference text).variableName?.getD "")
    some ⟨.complete, .ofValue v :: rest, w⟩
  | .comment _ :: rest => some ⟨.complete, rest, w⟩
  | _ => some ⟨.complete, tokens, w⟩

/-- Evaluates the token at the head, which stands for a value. -/
def operand (eval : Evaluator κ) (lenient : Bool) (tokens : List Token) (w : Workspace κ) :
    Option (Result κ) :=
  match tokens with
  | .word _ :: _ => eval (.word lenient true tokens) w
  | _ => eval (.token lenient tokens) w

/-! ## Calls -/

/-- The inputs of a call, as far as they were found. -/
inductive Gathered (κ : Type) where
  /-- All of them, what follows them, and the workspace then. -/
  | ready (slots rest : List Token) (w : Workspace κ)
  /-- An input asked to leave the procedure. -/
  | unwound (tokens : List Token) (w : Workspace κ)
  /-- An input is missing, or failed. -/
  | halted (r : Result κ)

/-- The inputs with one more in front. -/
def Gathered.push (slot : List Token) : Gathered κ → Gathered κ
  | ready slots rest w => ready (slot ++ slots) rest w
  | unwound tokens w => unwound (slot ++ tokens) w
  | halted r => halted (r.after slot)

/-- Evaluates the inputs at the head of a sequence. -/
def gather (eval : Evaluator κ) : Nat → List Token → Workspace κ → Option (Gathered κ)
  | 0, tokens, w => some (.ready [] tokens w)
  | count + 1, tokens, w => do
    let r ← eval (.argument tokens) w
    match r.outcome with
    | .complete =>
      if r.workspace.isUnwinding then return .unwound r.tokens r.workspace
      else return (← gather eval count (r.tokens.drop 1) r.workspace).push (r.tokens.take 1)
    | _ => return .halted r

/-- Calls procedures with the same inputs, one after the other. The last token that one of them
produces counts. -/
def callAll (eval : Evaluator κ) (inputs : List Value) :
    List (Procedure κ) → Option Token → Workspace κ → Option (Result κ)
  | [], produced, w => some ⟨.complete, produced.toList, w⟩
  | p :: rest, produced, w => do
    let r ← eval (.invoke p inputs) w
    match r.outcome with
    | .complete =>
      let produced := r.tokens.head?.or produced
      if r.workspace.isUnwinding then return ⟨.complete, produced.toList, r.workspace⟩
      else callAll eval inputs rest produced r.workspace
    | _ => return r

/-- What takes the place of a call. -/
def replacement (operand : Bool) (produced : Option Token) : List Token :=
  match produced with
  | some token => [token]
  | none => if operand then [.ofValue .unknown] else []

/-- Calls the procedures of a name with the inputs that follow it. The first of them says how many
there are. -/
def callWord (eval : Evaluator κ) (operand : Bool) (token : Token) (first : Procedure κ)
    (others : List (Procedure κ)) (rest : List Token) (w : Workspace κ) : Option (Result κ) := do
  match ← gather eval first.inputs rest w with
  | .halted r => return r.after [token]
  | .unwound rest w => return ⟨.complete, replacement operand none ++ rest, w⟩
  | .ready slots rest w =>
    let r ← callAll eval (slots.filterMap Token.value?) (first :: others) none w
    match r.outcome with
    | .complete => return ⟨.complete, replacement operand r.tokens.head? ++ rest, r.workspace⟩
    | outcome => return ⟨outcome, token :: rest, r.workspace⟩

/-- Calls the word at the head. The words `true` and `false` are truth values in any case. -/
def stepWord (eval : Evaluator κ) (lenient operand : Bool) (tokens : List Token)
    (w : Workspace κ) : Option (Result κ) :=
  match tokens with
  | [] => some ⟨.incomplete, [], w⟩
  | token :: rest =>
    let text := token.text
    if Text.equalsIgnoringCase text "true" then
      some ⟨.complete, .literal text (.bool true) :: rest, w⟩
    else if Text.equalsIgnoringCase text "false" then
      some ⟨.complete, .literal text (.bool false) :: rest, w⟩
    else
      match w.lookup text with
      | first :: others => callWord eval operand token first others rest w
      | [] =>
        if lenient then some ⟨.complete, .literal text (.text text) :: rest, w⟩
        else some ⟨.failed (.undefinedProcedure text), tokens, w⟩

/-! ## Operands and operators -/

/-- Brings what stands at the head to one value. -/
def stepArgument (eval : Evaluator κ) (tokens : List Token) (w : Workspace κ) :
    Option (Result κ) :=
  match tokens with
  | [] => some ⟨.incomplete, [], w⟩
  | .literal text v :: rest => eval (.chain [.literal text v] rest) w
  | .operator op :: _ => some ⟨.failed (.missingOperand op.text), tokens, w⟩
  | _ => do
    let r ← operand eval true tokens w
    match r.outcome with
    | .complete =>
      if r.workspace.isUnwinding then return r else eval (.argument r.tokens) r.workspace
    | _ => return r

/-- The value of a run of values and operators takes its place. A run without operators stays as it
is. -/
def closeChain (window rest : List Token) (w : Workspace κ) : Result κ :=
  if window.length ≤ 1 then ⟨.complete, window ++ rest, w⟩
  else
    match (reduce window).1 with
    | .ok v => ⟨.complete, .ofValue v :: rest, w⟩
    | .error e => ⟨.failed e, rest, w⟩

/-- Goes on with a run of values and operators. While an operator follows, the operand behind it is
brought to a value; the value of the run is taken at the end. -/
def stepChain (eval : Evaluator κ) (window rest : List Token) (w : Workspace κ) :
    Option (Result κ) :=
  match rest with
  | .operator op :: tokens =>
    match tokens with
    | [] => some ⟨.incomplete, window ++ rest, w⟩
    | .literal text v :: after => eval (.chain (window ++ [.operator op, .literal text v]) after) w
    | .operator _ :: _ => some ⟨.failed (.missingOperand op.text), window ++ rest, w⟩
    | _ => do
      let r ← operand eval false tokens w
      match r.outcome with
      | .complete =>
        if r.workspace.isUnwinding then return r.after (window ++ [.operator op])
        else eval (.chain window (.operator op :: r.tokens)) r.workspace
      | _ => return r.after (window ++ [.operator op])
  | _ => some (closeChain window rest w)

/-- Whether a child of an expression needs no evaluation. -/
def isSettled (token : Token) : Bool :=
  token.isLiteral || token.isOperator

/-- Reduces an expression whose children are values and operators. -/
def closeExpression (source : String) (children rest : List Token) (w : Workspace κ) : Result κ :=
  if children.isEmpty then ⟨.failed (.malformedExpression source), .expression [] :: rest, w⟩
  else
    match (reduce children).1 with
    | .ok v => ⟨.complete, .ofValue v :: rest, w⟩
    | .error e => ⟨.failed e, .expression [] :: rest, w⟩

/-- Evaluates the children of an expression from left to right and reduces them. An expression that
fails, or in which a procedure is being left, has lost its children. -/
def stepExpression (eval : Evaluator κ) (source : String) (children rest : List Token)
    (w : Workspace κ) : Option (Result κ) :=
  match children.dropWhile isSettled with
  | [] => some (closeExpression source children rest w)
  | child :: more => do
    let r ← operand eval false (child :: more) w
    match r.outcome with
    | .complete =>
      if r.workspace.isUnwinding then return ⟨.complete, .expression [] :: rest, r.workspace⟩
      else eval (.expression source (children.takeWhile isSettled ++ r.tokens) rest) r.workspace
    | .incomplete =>
      let e := RuntimeError.notEnoughInputs (pendingWord r.tokens)
      return ⟨.failed e, .expression [] :: rest, r.workspace⟩
    | .failed e => return ⟨.failed e, .expression [] :: rest, r.workspace⟩

/-! ## Procedures -/

/-- Runs the items of a list as statements. The last value that they leave is produced. -/
def runItems (eval : Evaluator κ) (items : List Token) (w : Workspace κ) : Option (Result κ) := do
  let r ← eval (.sequence false items) w
  match r.outcome with
  | .complete =>
    let value := (lastLiteral? r.tokens).bind Token.value?
    return ⟨.complete, (value.map Token.ofValue).toList, r.workspace⟩
  | .incomplete => return ⟨.failed (.notEnoughInputs (pendingWord r.tokens)), [], r.workspace⟩
  | .failed e => return ⟨.failed e, [], r.workspace⟩

/-- Runs the items of a list `times` times, from iteration `number` on, unless a procedure is being
left. Nothing is produced. -/
def iterate (eval : Evaluator κ) (items : List Token) :
    Nat → Nat → Workspace κ → Option (Result κ)
  | 0, _, w => some ⟨.complete, [], w⟩
  | times + 1, number, w =>
    match runItems eval items (w.pushRepeat number) with
    | none => none
    | some r =>
      let w := r.workspace.popRepeat
      match r.outcome with
      | .complete =>
        if w.isUnwinding then some ⟨.complete, [], w⟩
        else iterate eval items times (number + 1) w
      | outcome => some ⟨outcome, [], w⟩

/-- Does what a command asks for. -/
def carryOut (eval : Evaluator κ) (action : Action) (w : Workspace κ) : Option (Result κ) :=
  match action with
  | .produce token => some ⟨.complete, token.toList, w⟩
  | .fail e => some ⟨.failed e, [], w⟩
  | .run items => runItems eval items w
  | .iterate times items => iterate eval items times 1 w

/-- What a definition produces when its body has run: the value of the request to leave it, or the
last value that the body left. -/
def bodyResult (r : Result κ) : Result κ :=
  let (signal, w) := r.workspace.popFrame.takeSignal
  match r.outcome, signal with
  | .failed e, _ => ⟨.failed e, [], w⟩
  | .incomplete, _ => ⟨.failed (.notEnoughInputs (pendingWord r.tokens)), [], w⟩
  | .complete, some (.output v) => ⟨.complete, [.ofValue v], w⟩
  | .complete, some .stop => ⟨.complete, [], w⟩
  | .complete, none => ⟨.complete, (lastLiteral? r.tokens).toList, w⟩

/-- Calls a procedure, in a frame of its own. -/
def stepInvoke [Commands κ] (eval : Evaluator κ) (p : Procedure κ) (inputs : List Value)
    (w : Workspace κ) : Option (Result κ) :=
  match p.kind with
  | .command code => do
    let (w, action) := Commands.perform code (w.pushFrame none) inputs
    let r ← carryOut eval action w
    return { r with workspace := r.workspace.popFrame }
  | .definition d => do
    return bodyResult (← eval (.sequence false d.body) (w.pushFrame (some (d.bind inputs))))

/-- Does a job, with `eval` for the jobs that it consists of. -/
def Job.step [Commands κ] (eval : Evaluator κ) : Evaluator κ
  | .sequence lenient tokens, w => stepSequence eval lenient tokens w
  | .statement lenient tokens, w => stepStatement eval lenient tokens w
  | .token lenient tokens, w => stepToken eval lenient tokens w
  | .word lenient operand tokens, w => stepWord eval lenient operand tokens w
  | .argument tokens, w => stepArgument eval tokens w
  | .chain window rest, w => stepChain eval window rest w
  | .expression source children rest, w => stepExpression eval source children rest w
  | .invoke p inputs, w => stepInvoke eval p inputs w

end Logo
