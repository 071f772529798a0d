import Logo.Primitive.Basic

/-!
# Primitives of control

Conditions and repetitions, and the two ways to leave a procedure.
-/

namespace Logo.Primitive

variable {κ : Type}

/-- Goes on with the list at an index; another value is refused. -/
def withList (p : Primitive) (w : Workspace κ) (inputs : List Value) (index : Nat)
    (next : List Token → Effect κ) : Effect κ :=
  p.withInput w inputs index fun v =>
    match v.list? with
    | some items => next items
    | none => p.refuse w v

/-- Goes on with the truth value at the first place; another value is refused. -/
def withCondition (p : Primitive) (w : Workspace κ) (inputs : List Value)
    (next : Bool → Effect κ) : Effect κ :=
  p.withInput w inputs 0 fun v =>
    match v.bool? with
    | some b => next b
    | none => p.refuse w v

/-- Goes on with the count at the first place; another value is refused. -/
def withCount (p : Primitive) (w : Workspace κ) (inputs : List Value)
    (next : Nat → Effect κ) : Effect κ :=
  p.withInput w inputs 0 fun v =>
    match v.number?.bind Decimal.count? with
    | some n => next n
    | none => p.refuse w v

/-- The command `repeat count list`: runs the list that many times. -/
def performLoop (w : Workspace κ) (inputs : List Value) : Effect κ :=
  loop.withCount w inputs fun times =>
    loop.withList w inputs 1 fun items => (w, .iterate times items)

/-- The command `repcount`: the number of the innermost iteration, or `-1` outside of any. -/
def performIteration (w : Workspace κ) : Effect κ :=
  answer w (.number (match w.repeats with
    | number :: _ => .ofNat number
    | [] => ⟨-1, 0⟩))

/-- The command `run list`: runs the list once. -/
def performRun (w : Workspace κ) (inputs : List Value) : Effect κ :=
  run.withList w inputs 0 fun items => (w, .run items)

/-- The command `if condition list`: runs the list if the condition is true. -/
def performIfTrue (w : Workspace κ) (inputs : List Value) : Effect κ :=
  ifTrue.withCondition w inputs fun condition =>
    ifTrue.withList w inputs 1 fun items =>
      if condition then (w, .run items) else finish w

/-- The command `ifelse condition list list`: runs the first list if the condition is true, and the
second one otherwise. -/
def performIfElse (w : Workspace κ) (inputs : List Value) : Effect κ :=
  ifElse.withCondition w inputs fun condition =>
    ifElse.withList w inputs 1 fun yes =>
      ifElse.withList w inputs 2 fun no => (w, .run (if condition then yes else no))

/-- The command `output value`: leaves the running definition with a value. -/
def performOutput (w : Workspace κ) (inputs : List Value) : Effect κ :=
  if w.scope.inProcedure then
    output.withInput w inputs 0 fun v => finish (w.raise (.output v))
  else (w, .fail (.outputOutsideProcedure output.name))

/-- The command `stop`: leaves the running definition without a value. -/
def performStop (w : Workspace κ) : Effect κ :=
  if w.scope.inProcedure then finish (w.raise .stop)
  else (w, .fail (.outputOutsideProcedure stop.name))

end Logo.Primitive
