/-!
# Infix operators

The five operators that stand between two operands. `Operator.precedence` lists them in the order in
which they are applied: each operator has a tier of its own.
-/

namespace Logo

/-- An infix operator. -/
inductive Operator where
  /-- The operator `*`. -/
  | multiply
  /-- The operator `/`. -/
  | divide
  /-- The operator `+`. -/
  | add
  /-- The operator `-`. -/
  | subtract
  /-- The operator `=`. -/
  | equals
  deriving DecidableEq, Repr, Inhabited

namespace Operator

/-- All operators, from the first applied to the last. -/
def precedence : List Operator :=
  [multiply, divide, add, subtract, equals]

/-- The character that an operator is written as. -/
def symbol : Operator → Char
  | multiply => '*'
  | divide => '/'
  | add => '+'
  | subtract => '-'
  | equals => '='

/-- The operator that a character stands for. -/
def ofSymbol? : Char → Option Operator
  | '*' => some multiply
  | '/' => some divide
  | '+' => some add
  | '-' => some subtract
  | '=' => some equals
  | _ => none

/-- The operator as text. -/
def text (op : Operator) : String :=
  String.singleton op.symbol

@[simp]
theorem ofSymbol?_symbol (op : Operator) : ofSymbol? op.symbol = some op := by
  cases op <;> rfl

end Operator

end Logo
