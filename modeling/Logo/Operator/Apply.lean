import Logo.Decimal.Division
import Logo.Error
import Logo.Token
import Logo.Value.Equality

/-!
# Operators on values

What an infix operator makes of its two operands. An operand that was never set counts as the empty
value of the other operand's kind.
-/

namespace Logo.Operator

/-- The complaint of an operator about an operand. -/
def mismatch (op : Operator) (v : Value) : RuntimeError :=
  .typeMismatch op.text v.describe

/-- Adds numbers and joins text. Beside text a number counts as its numeral. -/
def addValues (a b : Value) : Except RuntimeError Value :=
  match a.number?, a.text?, b.number?, b.text? with
  | some x, _, some y, _ => .ok (.number (x + y))
  | some x, _, _, some t => .ok (.text (x.render ++ t))
  | _, some s, some y, _ => .ok (.text (s ++ y.render))
  | _, some s, _, some t => .ok (.text (s ++ t))
  | none, none, _, _ => .error (add.mismatch a)
  | _, _, _, _ => .error (add.mismatch b)

/-- Applies an operation on numbers to two values. -/
def onNumbers (op : Operator) (f : Decimal → Decimal → Except RuntimeError Decimal) (a b : Value) :
    Except RuntimeError Value :=
  match a.number?, b.number? with
  | some x, some y => (f x y).map .number
  | some _, none => .error (op.mismatch b)
  | none, _ => .error (op.mismatch a)

/-- The quotient of two numbers. -/
def divideNumbers (x y : Decimal) : Except RuntimeError Decimal :=
  match x.divide? y with
  | some q => .ok q
  | none => .error .divisionByZero

/-- Applies an operator to operands that are set. -/
def applySet (op : Operator) (a b : Value) : Except RuntimeError Value :=
  match op with
  | .equals => .ok (.bool (a.equals b))
  | .add => addValues a b
  | .subtract => onNumbers .subtract (fun x y => .ok (x - y)) a b
  | .multiply => onNumbers .multiply (fun x y => .ok (x * y)) a b
  | .divide => onNumbers .divide divideNumbers a b

/-- Applies an operator. -/
def apply (op : Operator) (a b : Value) : Except RuntimeError Value :=
  let a := if a.isUnknown then b.defaultLike else a
  let b := if b.isUnknown then a.defaultLike else b
  op.applySet a b

end Logo.Operator
