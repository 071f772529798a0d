import Logo.Decimal.Numeral
import Logo.Operator
import Logo.Text.Lowercase

/-!
# Tokens and values

Source text is a sequence of tokens, and a program's data are values. The two types refer to each
other: a list value holds tokens, which are its items, and evaluation turns a token into a literal,
which holds a value.

* `Token.text` is the source text of a token, and `joinTokens` that of a sequence.
* `Value.render` is the text of a value.
* `Token.datum` is the value that a token stands for as an item of a list.
-/

namespace Logo

/-- A reference to an object of the host. The language stores, copies and compares parcels, and
never looks inside. -/
inductive Parcel where
  /-- An object that the host knows by name. -/
  | named (name : String)
  /-- An object made while a program runs, by its serial number. -/
  | made (serial : Nat)
  deriving DecidableEq, Repr

mutual

/-- What a program computes with. -/
inductive Value where
  /-- The value of a variable that was never set. -/
  | unknown
  /-- A truth value. -/
  | bool (b : Bool)
  /-- Text that a program made. -/
  | text (s : String)
  /-- A number. -/
  | number (n : Decimal)
  /-- A word that was quoted in the source. -/
  | word (s : String)
  /-- A list of items. -/
  | list (items : List Token)
  /-- An object of the host. -/
  | parcel (p : Parcel)

/-- A piece of source text. -/
inductive Token where
  /-- A value, with the text that it was written as. -/
  | literal (text : String) (value : Value)
  /-- The name of a procedure, or plain text where an input is expected. -/
  | word (text : String)
  /-- A reference to a variable, with its colon. -/
  | reference (text : String)
  /-- An infix operator. -/
  | operator (op : Operator)
  /-- A comment, with its semicolon. -/
  | comment (text : String)
  /-- What stands between square brackets. -/
  | list (children : List Token)
  /-- What stands between parentheses. -/
  | expression (children : List Token)

end

instance : Inhabited Value := ⟨.unknown⟩
instance : Inhabited Token := ⟨.word ""⟩

mutual

/-- The source text of a token. -/
def Token.text : Token → String
  | .literal text _ => text
  | .word text => text
  | .reference text => text
  | .operator op => op.text
  | .comment text => text
  | .list children => "[" ++ joinTokens children ++ "]"
  | .expression children => "(" ++ joinTokens children ++ ")"

/-- The source text of a sequence. One space separates two tokens. A comment reaches to the end of
its line, so that a line feed follows it, also at the end. -/
def joinTokens : List Token → String
  | [] => ""
  | .comment text :: rest => text ++ "\n" ++ joinTokens rest
  | [token] => token.text
  | token :: rest => token.text ++ " " ++ joinTokens rest

end

namespace Value

/-- The text of a value. -/
def render : Value → String
  | unknown => ""
  | bool true => "true"
  | bool false => "false"
  | text s => s
  | number n => n.render
  | word s => s
  | list items => "[" ++ joinTokens items ++ "]"
  | parcel _ => "<parcel>"

/-- The text that `print` shows: a list loses its outer brackets. -/
def printed : Value → String
  | list items => joinTokens items
  | v => v.render

/-- The text of a value in a message, where a value without any text is named. -/
def describe : Value → String
  | unknown => "nothing"
  | text "" => "the empty word"
  | word "" => "the empty word"
  | v => v.render

/-- Whether the value is that of a variable that was never set. -/
def isUnknown : Value → Bool
  | unknown => true
  | _ => false

/-- The number, if the value is one. -/
def number? : Value → Option Decimal
  | number n => some n
  | _ => none

/-- The truth value, if the value is one. -/
def bool? : Value → Option Bool
  | bool b => some b
  | _ => none

/-- The items, if the value is a list. -/
def list? : Value → Option (List Token)
  | list items => some items
  | _ => none

/-- The characters of text or of a quoted word. Only these can be names. -/
def text? : Value → Option String
  | text s => some s
  | word s => some s
  | _ => none

/-- Whether the value is text or a quoted word. -/
def isTextual (v : Value) : Bool :=
  v.text?.isSome

/-- What an operand that was never set counts as beside this value. -/
def defaultLike : Value → Value
  | number _ => number ⟨0, 0⟩
  | text _ => text ""
  | word _ => word ""
  | bool _ => bool false
  | list _ => list []
  | unknown => unknown
  | parcel _ => unknown

end Value

namespace Token

/-- The literal of a value, written as the value's text. -/
def ofValue (v : Value) : Token :=
  literal v.render v

/-- Whether the token is a value. -/
def isLiteral : Token → Bool
  | literal _ _ => true
  | _ => false

/-- Whether the token is an operator. -/
def isOperator : Token → Bool
  | operator _ => true
  | _ => false

/-- Whether the token is a comment. -/
def isComment : Token → Bool
  | comment _ => true
  | _ => false

/-- The operator, if the token is one. -/
def operator? : Token → Option Operator
  | operator op => some op
  | _ => none

/-- The value of a literal. -/
def value? : Token → Option Value
  | literal _ v => some v
  | _ => none

/-- The name of a variable, without its colon. -/
def variableName? : Token → Option String
  | reference text =>
    match text.toList with
    | ':' :: name => some (String.ofList name)
    | _ => some text
  | _ => none

/-- Whether the token is the word `name`, up to the case of the letters `A` to `Z`. -/
def isWordNamed (name : String) : Token → Bool
  | word text => Text.equalsIgnoringCase text name
  | _ => false

/-- The value that a token stands for as an item of a list: a literal's value, a list, or a word
with the token's text. -/
def datum : Token → Value
  | literal _ v => v
  | list children => .list children
  | t => .word t.text

end Token

end Logo
