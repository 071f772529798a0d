/-!
# Errors

What can go wrong, as causes. The wording of each cause stands in one function per type.

* `ScanError`: a text cannot be split into tokens.
* `RuntimeError`: a statement cannot be carried out.
* `InterpretError`: either of them, or a script that ends too early.
-/

namespace Logo

/-- Why a text cannot be split into tokens. -/
inductive ScanError where
  /-- A closing bracket without its opening one. -/
  | unexpectedClose (symbol : Char)
  /-- A list inside another bracket that is not closed there. The text starts at its bracket. -/
  | unterminatedList (text : String)
  /-- An expression inside another bracket that is not closed there. -/
  | unterminatedExpression (text : String)
  deriving DecidableEq, Repr

/-- Why a statement cannot be carried out. -/
inductive RuntimeError where
  /-- A word that names no procedure. -/
  | undefinedProcedure (name : String)
  /-- A list or an expression where a statement should begin. -/
  | bareContainer (text : String)
  /-- An expression that does not come down to one value. -/
  | malformedExpression (text : String)
  /-- An operator without a value on one of its sides. -/
  | missingOperand (operator : String)
  /-- A value of a kind that a procedure or an operator does not take. -/
  | typeMismatch (procedure value : String)
  /-- A division by zero. -/
  | divisionByZero
  /-- A call inside a list or an expression that ends before the call has its inputs. -/
  | notEnoughInputs (procedure : String)
  /-- An input of the right kind that cannot be used. -/
  | invalidInput (procedure details : String)
  /-- A command that leaves a procedure, outside of any. -/
  | outputOutsideProcedure (procedure : String)
  /-- A definition over a name that cannot be redefined. -/
  | nonRedefinable (name : String)
  /-- A definition without a word for its name. -/
  | missingProcedureName (found : String)
  /-- A command that was handed fewer inputs than it reads. -/
  | missingInput (procedure : String)
  /-- The request to end the session. -/
  | quit
  deriving DecidableEq, Repr

/-- Why a line or a script fails. -/
inductive InterpretError where
  /-- The text cannot be split into tokens. -/
  | scan (cause : ScanError)
  /-- A statement cannot be carried out. -/
  | runtime (cause : RuntimeError)
  /-- A script ends in the middle of a list, an expression, a definition or a call. -/
  | unexpectedEnd
  deriving DecidableEq, Repr

/-- The message of a cause. -/
def ScanError.message : ScanError → String
  | unexpectedClose symbol =>
    "Unexpected '" ++ String.singleton symbol ++ "' without a matching opening bracket."
  | unterminatedList text => "List is missing its closing ']': " ++ text
  | unterminatedExpression text => "Expression is missing its closing ')': " ++ text

/-- The message of a cause. -/
def RuntimeError.message : RuntimeError → String
  | undefinedProcedure name => "I don't know how to " ++ name ++ "."
  | bareContainer text => "You don't say what to do with " ++ text ++ "."
  | malformedExpression text => "Malformed expression: " ++ text ++ "."
  | missingOperand operator => "Operator '" ++ operator ++ "' is missing an operand."
  | typeMismatch procedure value => procedure ++ " doesn't like " ++ value ++ " as input."
  | divisionByZero => "Division by zero."
  | notEnoughInputs procedure => "Not enough inputs to " ++ procedure ++ "."
  | invalidInput procedure details => procedure ++ " can't use that input: " ++ details ++ "."
  | outputOutsideProcedure procedure => procedure ++ " can only be used inside a procedure."
  | nonRedefinable name => name ++ " is a primitive and cannot be redefined."
  | missingProcedureName found =>
    if found.isEmpty then "to needs a procedure name."
    else "to doesn't like " ++ found ++ " as a procedure name."
  | missingInput procedure => procedure ++ " was called without one of its inputs."
  | quit => ""

/-- The message of a cause. -/
def InterpretError.message : InterpretError → String
  | scan cause => cause.message
  | runtime cause => cause.message
  | unexpectedEnd => "Unexpected end of input."

end Logo
