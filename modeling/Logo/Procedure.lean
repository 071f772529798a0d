import Logo.Error
import Logo.Table
import Logo.Text.Blank
import Logo.Token

/-!
# Procedures

A procedure has a name, perhaps aliases, and a fixed number of inputs. It is a command, which is
given by a code of type `κ`, or it is defined by the program.

* `Procedure.define` makes a procedure of the tokens from `to` on, up to `end`.
-/

namespace Logo

/-- What happens when a name is taken that a procedure already has. -/
inductive Redefinability where
  /-- The name stays with the procedure. -/
  | fixed
  /-- The procedure is called after those that have the name already. -/
  | alongside
  /-- The procedure takes the name over. -/
  | replace
  deriving DecidableEq, Repr

/-- What a program says about a procedure of its own. -/
structure Definition where
  /-- Names of the inputs, without colons. -/
  params : List String
  /-- What is carried out. -/
  body : List Token
  /-- The text of the definition. -/
  source : String

/-- How a procedure is carried out. -/
inductive ProcedureKind (κ : Type) where
  /-- By a command. -/
  | command (code : κ)
  /-- By the statements of a definition. -/
  | definition (d : Definition)

/-- A procedure. -/
structure Procedure (κ : Type) where
  /-- The first name, in lowercase. -/
  name : String
  /-- Further names, in lowercase. -/
  aliases : List String := []
  /-- The number of inputs. -/
  inputs : Nat
  /-- What happens when its name is taken. -/
  redefinability : Redefinability := .fixed
  /-- What it does, in one line. -/
  help : String := ""
  /-- Inputs to show how it is called. -/
  sample : String := ""
  /-- How it is carried out. -/
  kind : ProcedureKind κ

variable {κ : Type}

/-- The values of a definition's inputs; of two inputs with the same name the later counts. -/
def Definition.bind (d : Definition) (inputs : List Value) : Table Value :=
  .ofList (d.params.zip inputs)

/-- The text of a comment without its semicolons and the blanks behind them. -/
def commentText (comment : String) : String :=
  Text.trimLeft (String.ofList (comment.toList.dropWhile (· == ';')))

namespace Procedure

/-- A command that keeps its name, written in any case. -/
def command (name : String) (inputs : Nat) (code : κ) : Procedure κ :=
  { name := Text.lowercase name, inputs, kind := .command code }

/-- The procedure with further names. -/
def withAliases (p : Procedure κ) (aliases : List String) : Procedure κ :=
  { p with aliases := p.aliases ++ aliases.map Text.lowercase }

/-- The procedure with a description and inputs to show. -/
def withHelp (p : Procedure κ) (help sample : String) : Procedure κ :=
  { p with help, sample }

/-- All names. -/
def names (p : Procedure κ) : List String :=
  p.name :: p.aliases

/-- The definition of a procedure of the program. -/
def definition? (p : Procedure κ) : Option Definition :=
  match p.kind with
  | .definition d => some d
  | .command _ => none

/-- The name in a definition, which is the word after `to`. -/
def definedName : List Token → Except RuntimeError String
  | _ :: .word text :: _ => .ok (Text.lowercase text)
  | _ :: other :: _ => .error (.missingProcedureName other.text)
  | _ => .error (.missingProcedureName "")

/-- The references at the head of a sequence, as names in lowercase, and what follows. -/
def splitParams : List Token → List String × List Token
  | [] => ([], [])
  | token :: rest =>
    match token.variableName? with
    | some name =>
      let (params, body) := splitParams rest
      (Text.lowercase name :: params, body)
    | none => ([], token :: rest)

/-- The statements of a body, which may stand in one pair of brackets. -/
def bodyStatements : List Token → List Token
  | [.list children] => children
  | body => body

/-- Makes a procedure of a definition. `tokens` begins with `to` and lacks the `end`. The name
follows, then the inputs, then a comment that says what the procedure does, if there is one. -/
def define (tokens : List Token) : Except RuntimeError (Procedure κ) := do
  let name ← definedName tokens
  let (params, rest) := splitParams (tokens.drop 2)
  let source := joinTokens tokens ++ " end"
  let (help, sample, body) := match rest with
    | .comment text :: body => (commentText text, " ".intercalate params, body)
    | body => ("", "", body)
  return {
    name, help, sample
    inputs := params.length
    redefinability := .replace
    kind := .definition ⟨params, bodyStatements body, source⟩ }

end Procedure

end Logo
