import Logo.Token

/-!
# Equality of values

Two relations between values.

* `Value.same` tells values apart by kind and content. Items of lists count with their text, numbers
  by the number that they denote, parcels by their identity.
* `Value.equals` is what programs see: text and quoted words are compared by their characters, and
  lists by the values that their items stand for.
-/

namespace Logo

mutual

/-- Whether two values have the same kind and content. -/
def Value.same : Value → Value → Bool
  | .unknown, .unknown => true
  | .bool a, .bool b => a == b
  | .text a, .text b => a == b
  | .number a, .number b => a.agrees b
  | .word a, .word b => a == b
  | .list a, .list b => sameTokens a b
  | .parcel a, .parcel b => a == b
  | _, _ => false

/-- Whether two tokens have the same kind and content. -/
def Token.same : Token → Token → Bool
  | .literal s v, .literal t w => s == t && v.same w
  | .word s, .word t => s == t
  | .reference s, .reference t => s == t
  | .operator a, .operator b => a == b
  | .comment s, .comment t => s == t
  | .list a, .list b => sameTokens a b
  | .expression a, .expression b => sameTokens a b
  | _, _ => false

/-- Whether two sequences have the same tokens in the same order. -/
def sameTokens : List Token → List Token → Bool
  | [], [] => true
  | a :: as, b :: bs => a.same b && sameTokens as bs
  | _, _ => false

end

mutual

/-- Whether a program sees two values as equal. -/
def Value.equals : Value → Value → Bool
  | .unknown, .unknown => true
  | .bool a, .bool b => a == b
  | .text a, .text b => a == b
  | .text a, .word b => a == b
  | .word a, .text b => a == b
  | .word a, .word b => a == b
  | .number a, .number b => a.agrees b
  | .list a, .list b => equalItems a b
  | .parcel a, .parcel b => a == b
  | _, _ => false

/-- Whether the value that a token stands for is equal to `v`. -/
def Token.standsFor : Token → Value → Bool
  | .literal _ w, v => w.equals v
  | .list children, .list items => equalItems children items
  | .list _, _ => false
  | t, v => v.text? == some t.text

/-- Whether two lists stand for equal values, item by item. -/
def equalItems : List Token → List Token → Bool
  | [], [] => true
  | a :: as, b :: bs => a.standsFor b.datum && equalItems as bs
  | _, _ => false

end

end Logo
