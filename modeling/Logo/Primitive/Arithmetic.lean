import Logo.Operator.Apply
import Logo.Primitive.Basic

/-!
# Primitives of arithmetic and logic

Numbers are added, subtracted, multiplied, divided and compared; truth values are combined. Values
of another kind are refused, the first of them first.
-/

namespace Logo.Primitive

variable {κ : Type}

/-- Applies an operation to two numbers. -/
def performNumeric (p : Primitive) (f : Decimal → Decimal → Except RuntimeError Value)
    (w : Workspace κ) (inputs : List Value) : Effect κ :=
  p.withInput w inputs 0 fun a =>
    p.withInput w inputs 1 fun b =>
      match a.number?, b.number? with
      | some x, some y =>
        match f x y with
        | .ok v => answer w v
        | .error e => (w, .fail e)
      | none, _ => p.refuse w a
      | _, none => p.refuse w b

/-- The truth values of the inputs, or the first input that is none. -/
def flags : List Value → Except Value (List Bool)
  | [] => .ok []
  | v :: rest =>
    match v.bool? with
    | some b => (flags rest).map (b :: ·)
    | none => .error v

/-- Combines truth values. -/
def performLogical (p : Primitive) (f : List Bool → Effect κ) (w : Workspace κ)
    (inputs : List Value) : Effect κ :=
  match flags inputs with
  | .ok bs => f bs
  | .error v => p.refuse w v

/-- The command `sum a b`. -/
def performSum (w : Workspace κ) (inputs : List Value) : Effect κ :=
  sum.performNumeric (fun x y => .ok (.number (x + y))) w inputs

/-- The command `difference a b`. -/
def performDifference (w : Workspace κ) (inputs : List Value) : Effect κ :=
  difference.performNumeric (fun x y => .ok (.number (x - y))) w inputs

/-- The command `product a b`. -/
def performProduct (w : Workspace κ) (inputs : List Value) : Effect κ :=
  product.performNumeric (fun x y => .ok (.number (x * y))) w inputs

/-- The command `quotient a b`, which fails for a divisor zero. -/
def performQuotient (w : Workspace κ) (inputs : List Value) : Effect κ :=
  quotient.performNumeric (fun x y => (Operator.divideNumbers x y).map .number) w inputs

/-- The command `equalp a b`: whether two values count as equal. -/
def performEqual (w : Workspace κ) (inputs : List Value) : Effect κ :=
  equal.withInput w inputs 0 fun a =>
    equal.withInput w inputs 1 fun b => answer w (.bool (a.equals b))

/-- The command `lessp a b`: whether the first number is smaller. -/
def performLess (w : Workspace κ) (inputs : List Value) : Effect κ :=
  less.performNumeric (fun x y => .ok (.bool (x.less y))) w inputs

/-- The command `greaterp a b`: whether the first number is larger. -/
def performGreater (w : Workspace κ) (inputs : List Value) : Effect κ :=
  greater.performNumeric (fun x y => .ok (.bool (y.less x))) w inputs

/-- The command `not a`. -/
def performNegation (w : Workspace κ) (inputs : List Value) : Effect κ :=
  negation.performLogical (fun bs => match bs with
    | b :: _ => answer w (.bool !b)
    | [] => (w, .fail (.missingInput negation.name))) w inputs

/-- The command `and a b`. -/
def performConjunction (w : Workspace κ) (inputs : List Value) : Effect κ :=
  conjunction.performLogical (fun bs => answer w (.bool (bs.all id))) w inputs

/-- The command `or a b`. -/
def performDisjunction (w : Workspace κ) (inputs : List Value) : Effect κ :=
  disjunction.performLogical (fun bs => answer w (.bool (bs.any id))) w inputs

end Logo.Primitive
