import Logo.Primitive.Basic

/-!
# Primitives on variables

Any text can name a variable that is read or removed, and any but the empty one can be set.
-/

namespace Logo.Primitive

variable {κ : Type}

/-- The command `make name value`: gives a variable a value. -/
def performMake (w : Workspace κ) (inputs : List Value) : Effect κ :=
  make.withInput w inputs 0 fun name =>
    match name.text? with
    | none => make.refuse w name
    | some "" => make.refuse w name
    | some text => make.withInput w inputs 1 fun v => finish (w.setVariable text v)

/-- The command `thing name`: the value of a variable. -/
def performThing (w : Workspace κ) (inputs : List Value) : Effect κ :=
  thing.withInput w inputs 0 fun name =>
    match name.text? with
    | none => thing.refuse w name
    | some text =>
      let (v, w) := w.getVariable text
      answer w v

/-- The command `erase name`: removes a variable. -/
def performErase (w : Workspace κ) (inputs : List Value) : Effect κ :=
  erase.withInput w inputs 0 fun name =>
    match name.text? with
    | none => erase.refuse w name
    | some text => finish (w.clearVariable text)

end Logo.Primitive
