import Logo.Token

/-!
# Words of the source

A run of characters without blanks and brackets is a word, and its shape decides its token: a
numeral, a quoted word and a reference to a variable are recognized when the whole word has their
shape. Every other word names a procedure.
-/

namespace Logo

/-- Characters that end a quoted word or a reference. -/
def isWordBreak (c : Char) : Bool :=
  c == ' ' || c == '\t' || c == '\r' || c == '\n'

/-- Whether the characters are a numeral: an optional minus sign, then digits, or digits with a
point and digits behind it, where the digits before the point may be missing. -/
def isNumeral (cs : List Char) : Bool :=
  let unsigned := match cs with
    | '-' :: rest => rest
    | _ => cs
  match unsigned.dropWhile Char.isDigit with
  | [] => !unsigned.isEmpty
  | '.' :: fraction => !fraction.isEmpty && fraction.all Char.isDigit
  | _ => false

/-- The name in a quoted word. -/
def quotedName? : List Char → Option (List Char)
  | '"' :: name => if name.any isWordBreak then none else some name
  | _ => none

/-- Whether the characters are a colon and the name of a variable. -/
def isReference : List Char → Bool
  | ':' :: name => !name.isEmpty && !name.any isWordBreak
  | _ => false

/-- The token of a word, given by its characters. -/
def Token.ofChars (cs : List Char) : Token :=
  let text := String.ofList cs
  match quotedName? cs with
  | some name => .literal text (.word (String.ofList name))
  | none =>
    if isReference cs then .reference text
    else if isNumeral cs then
      match Decimal.parseChars? cs with
      | some n => .literal text (.number n)
      | none => .word text
    else .word text

/-- The token of a word. -/
def Token.ofWord (word : String) : Token :=
  Token.ofChars word.toList

end Logo
