import Logo.Evaluation.Run
import Logo.Host
import Logo.Token.Reader

/-!
# Sessions

A session takes line after line. Definitions from `to` to `end` are captured, and everything else is
carried out. What is not finished at the end of a line waits for the next: the inside of brackets, a
definition, or a call that lacks inputs.

* `Session.tryInterpretBy` takes a line, with any evaluator. After an error the session has
  forgotten all unfinished input and all running calls, and has kept variables and procedures.
* `Session.tryInterpret` takes a line with the evaluator of a bound.
* `Session.interpret` also writes the message of the error.
-/

namespace Logo

/-- Whether all input was carried out. -/
inductive Status where
  /-- Everything was. -/
  | complete
  /-- Something waits for more input. -/
  | incomplete
  deriving DecidableEq, Repr

/-- What became of a line. -/
inductive Interpretation where
  /-- Everything was carried out. -/
  | complete
  /-- Something waits for more input. -/
  | incomplete
  /-- There was an error, and its message was written. -/
  | failure
  deriving DecidableEq, Repr

/-- A session, whose commands are given by codes of type `κ`. -/
structure Session (κ : Type) where
  /-- Variables, procedures and what was written. -/
  workspace : Workspace κ
  /-- The reader, with the inside of brackets that are not closed. -/
  reader : Reader := {}
  /-- Tokens that wait for more input. -/
  buffer : List Token := []
  /-- The tokens of an unfinished definition, from `to` on. -/
  capture : Option (List Token) := none

variable {κ : Type}

/-! ## Definitions -/

/-- The name after `to`, if it may not be defined. -/
def forbiddenName? (w : Workspace κ) : List Token → Option String
  | _ :: .word text :: _ =>
    if Text.equalsIgnoringCase text "to" || w.registry.isFixed text then some text else none
  | _ => none

/-- Registers the procedure of a captured definition. A name that may not be defined is reported,
and a definition without a body is passed over. -/
def compileDefinition (w : Workspace κ) (captured : List Token) :
    Except RuntimeError (Workspace κ) :=
  match forbiddenName? w captured with
  | some text => .ok (w.report (.nonRedefinable (Text.lowercase text)))
  | none =>
    if captured.length ≤ 2 then .ok w
    else do
      let p ← Procedure.define captured
      return (w.register p).narrate (.defined p.name)

/-- What is left of the buffered tokens when the definitions at their head are captured. -/
inductive Captured (κ : Type) where
  /-- A definition is not finished. -/
  | waiting (w : Workspace κ) (definition : List Token)
  /-- Tokens that do not begin with a definition. -/
  | ready (w : Workspace κ) (tokens : List Token)
  /-- A definition has no name. -/
  | failed (w : Workspace κ) (cause : RuntimeError)

/-- What follows the first token that a search finds is shorter than the sequence. -/
theorem length_lt_of_dropWhile_eq {p : Token → Bool} {tokens rest : List Token} {token : Token}
    (h : tokens.dropWhile p = token :: rest) : rest.length < tokens.length := by
  have hle : (tokens.dropWhile p).length ≤ tokens.length := (List.dropWhile_suffix p).length_le
  rw [h, List.length_cons] at hle
  omega

/-- Captures the definitions at the head of a sequence. Values and comments before a definition are
dropped. `capture` holds the tokens of a definition that was begun before. -/
def captureDefinitions (w : Workspace κ) (capture : Option (List Token)) (tokens : List Token) :
    Captured κ :=
  match capture with
  | some definition =>
    match _h : tokens.dropWhile fun t => !t.isWordNamed "end" with
    | [] => .waiting w (definition ++ tokens)
    | _ :: rest =>
      match compileDefinition w
          (definition ++ tokens.takeWhile fun t => !t.isWordNamed "end") with
      | .ok w => captureDefinitions w none rest
      | .error e => .failed w e
  | none =>
    match _h : tokens.dropWhile fun t => t.isLiteral || t.isComment with
    | [] => .ready w tokens
    | token :: rest =>
      if token.isWordNamed "to" then captureDefinitions w (some [token]) rest
      else .ready w tokens
termination_by tokens.length
decreasing_by
  · exact length_lt_of_dropWhile_eq _h
  · exact length_lt_of_dropWhile_eq _h

namespace Session

/-! ## Lines -/

/-- Whether earlier input waits to be finished. -/
def isPending (s : Session κ) : Bool :=
  s.reader.isPending || s.capture.isSome || !s.buffer.isEmpty

/-- Forgets all unfinished input and all running calls. -/
def reset (s : Session κ) : Session κ :=
  { workspace := s.workspace.resetExecution }

/-- Loads a module. -/
def load (s : Session κ) (m : Module κ) : Session κ :=
  { s with workspace := s.workspace.load m }

/-- Carries out tokens that do not begin with a definition. They are kept if they lack inputs. -/
def runTokens (s : Session κ) (eval : Evaluator κ) (tokens : List Token) :
    Option (Except InterpretError Status × Session κ) :=
  if tokens.isEmpty then some (.ok .complete, s)
  else do
    let r ← eval (.sequence false tokens) (s.workspace.narrate (.running tokens))
    match r.outcome with
    | .complete => return (.ok .complete, { s with workspace := r.workspace })
    | .incomplete =>
      return (.ok .incomplete, { s with workspace := r.workspace, buffer := r.tokens })
    | .failed e => return (.error (.runtime e), { s with workspace := r.workspace })

/-- Captures the definitions at the head of the buffered tokens and carries out the rest. -/
def process (s : Session κ) (eval : Evaluator κ) :
    Option (Except InterpretError Status × Session κ) :=
  match captureDefinitions s.workspace s.capture s.buffer with
  | .waiting w definition =>
    some (.ok .incomplete, { s with workspace := w, buffer := [], capture := some definition })
  | .failed w e => some (.error (.runtime e), { s with workspace := w })
  | .ready w tokens =>
    { s with workspace := w, buffer := [], capture := none }.runTokens eval tokens

/-- Takes a line, and leaves everything as it is after an error. -/
def feed (s : Session κ) (eval : Evaluator κ) (line : String) :
    Option (Except InterpretError Status × Session κ) :=
  let (result, reader) := s.reader.read line
  let s := { s with reader, workspace := s.workspace.narrate (.scanned result) }
  match result with
  | .complete tokens => { s with buffer := s.buffer ++ tokens }.process eval
  | .incomplete tokens _ => some (.ok .incomplete, { s with buffer := s.buffer ++ tokens })
  | .failure e => some (.error (.scan e), s)

/-- Takes a line, of which `eval` does the jobs. After an error nothing is pending. -/
def tryInterpretBy (s : Session κ) (eval : Evaluator κ) (line : String) :
    Option (Except InterpretError Status × Session κ) := do
  match ← s.feed eval line with
  | (.ok status, s) => return (.ok status, s)
  | (.error e, s) => return (.error e, s.reset)

variable [Commands κ]

/-- Takes a line, by evaluation with the bound `fuel`. After an error nothing is pending. -/
def tryInterpret (s : Session κ) (fuel : Nat) (line : String) :
    Option (Except InterpretError Status × Session κ) :=
  s.tryInterpretBy (eval fuel) line

/-- Writes the message of an error that a line gave rise to. -/
def conclude : Except InterpretError Status × Session κ → Interpretation × Session κ
  | (.ok .complete, s) => (.complete, s)
  | (.ok .incomplete, s) => (.incomplete, s)
  | (.error e, s) => (.failure, { s with workspace := s.workspace.write e.message })

/-- Takes a line, and writes the message if there is an error. -/
def interpret (s : Session κ) (fuel : Nat) (line : String) :
    Option (Interpretation × Session κ) :=
  (s.tryInterpret fuel line).map conclude

end Session

/-! ## New sessions -/

/-- A workspace with the primitives. -/
def Workspace.withPrimitives {H : Type} (verbosity : Verbosity) : Workspace (Command H) :=
  ({ verbosity } : Workspace (Command H)).load (Primitive.asModule .primitive)

/-- A session with the primitives. -/
def Session.start {H : Type} (verbosity : Verbosity) : Session (Command H) :=
  { workspace := .withPrimitives verbosity }

end Logo
