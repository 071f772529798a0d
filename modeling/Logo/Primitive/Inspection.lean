import Logo.Primitive.Basic

/-!
# Primitives on procedures

Help about procedures, their definitions, and the list of their names.
-/

namespace Logo.Primitive

variable {κ : Type}

/-- Goes on with the procedure that the input names. An unknown name is reported. -/
def withNamed (p : Primitive) (w : Workspace κ) (inputs : List Value)
    (next : Procedure κ → Effect κ) : Effect κ :=
  p.withInput w inputs 0 fun v =>
    match v.text? with
    | none => p.refuse w v
    | some name =>
      match w.lookup name with
      | procedure :: _ => next procedure
      | [] => finish (w.report (.undefinedProcedure name))

/-- How a procedure is called, under each of its names. -/
def usage (p : Procedure κ) : String :=
  ", ".intercalate (p.names.map fun name =>
    if p.sample.isEmpty then name else name ++ " " ++ p.sample)

/-- The command `help name`: writes how a procedure is called, and what it does. -/
def performHelp (w : Workspace κ) (inputs : List Value) : Effect κ :=
  help.withNamed w inputs fun p =>
    let w := w.write (usage p)
    finish (if p.help.isEmpty then w else w.write p.help)

/-- The command `po name`: writes the definition of a procedure. -/
def performPrintOut (w : Workspace κ) (inputs : List Value) : Effect κ :=
  printOut.withNamed w inputs fun p =>
    finish (w.write (match p.definition? with
      | some d => d.source
      | none => p.name ++ " is a primitive."))

/-- The command `procedures`: the names of all procedures that can be called. -/
def performProcedures (w : Workspace κ) : Effect κ :=
  answer w (.list (w.registry.names.map Token.word))

end Logo.Primitive
