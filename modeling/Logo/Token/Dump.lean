import Logo.Text.Quoted
import Logo.Token

/-!
# Structural form of tokens

Every token and value with all its parts, for the narration of what is about to run.
-/

namespace Logo

/-- Joins texts with a comma and a blank. -/
def commaList (texts : List String) : String :=
  "[" ++ ", ".intercalate texts ++ "]"

/-- The digits of `n` to the base `2 ^ 64`, the lowest first. -/
def limbs (n : Nat) : List Nat :=
  if _h : n = 0 then [] else n % 18446744073709551616 :: limbs (n / 18446744073709551616)
termination_by n
decreasing_by omega

/-- The name of an integer's sign. -/
def signName : Int → String
  | .ofNat 0 => "NoSign"
  | .ofNat _ => "Plus"
  | .negSucc _ => "Minus"

/-- The parts of a decimal. -/
def Decimal.dump (d : Decimal) : String :=
  "BigDecimal(sign=" ++ signName d.digits ++ ", scale=" ++ toString d.scale ++ ", digits=" ++
    commaList ((limbs d.digits.natAbs).map toString) ++ ")"

/-- The name of an operator. -/
def Operator.dump : Operator → String
  | multiply => "Multiply"
  | divide => "Divide"
  | add => "Add"
  | subtract => "Subtract"
  | equals => "Equals"

/-- A kind of token with one named part. -/
def dumpPart (kind part text : String) : String :=
  kind ++ " \x7b " ++ part ++ ": " ++ text ++ " \x7d"

mutual

/-- The parts of a value. -/
def Value.dump : Value → String
  | .unknown => "Unknown"
  | .bool true => "Bool(true)"
  | .bool false => "Bool(false)"
  | .text s => "Text(" ++ Text.quote s ++ ")"
  | .number n => "Number(" ++ n.dump ++ ")"
  | .word s => "Word(" ++ Text.quote s ++ ")"
  | .list items => "List(" ++ commaList (dumpTokens items) ++ ")"
  | .parcel _ => "Parcel(Parcel(..))"

/-- The parts of a token. -/
def Token.dump : Token → String
  | .literal text value => dumpPart "Literal" "text" (Text.quote text ++ ", value: " ++ value.dump)
  | .word text => dumpPart "Word" "text" (Text.quote text)
  | .reference text => dumpPart "Variable" "text" (Text.quote text)
  | .operator op => dumpPart "Operator" "op" op.dump
  | .comment text => dumpPart "Comment" "text" (Text.quote text)
  | .list children => dumpPart "List" "children" (commaList (dumpTokens children))
  | .expression children => dumpPart "Expression" "children" (commaList (dumpTokens children))

/-- The parts of each token of a sequence. -/
def dumpTokens : List Token → List String
  | [] => []
  | token :: rest => token.dump :: dumpTokens rest

end

end Logo
