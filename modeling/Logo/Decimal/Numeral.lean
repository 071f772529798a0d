import Logo.Decimal.Digits

/-!
# Numerals

Reading and writing of decimals.

* `Decimal.parse?` reads a sign, digits with at most one point, and an exponent. Underscores may
  stand between and after the digits.
* `Decimal.render` writes a number in plain notation: no exponent, no zeros at the end of the
  fraction, and no sign on zero.
-/

namespace Logo.Decimal

/-- The number that a text of digits denotes; underscores are passed over. The text must begin with
a digit. -/
def parseDigits? : List Char → Option Nat
  | [] => none
  | c :: cs =>
    if c.isDigit && cs.all (fun d => d.isDigit || d == '_') then
      some (Nat.ofDigitChars 10 ((c :: cs).filter Char.isDigit) 0)
    else none

/-- The number that a text of digits denotes, with an optional sign in front. -/
def parseSigned? : List Char → Option Int
  | '-' :: cs => (parseDigits? cs).map fun n => -(n : Int)
  | '+' :: cs => (parseDigits? cs).map Int.ofNat
  | cs => (parseDigits? cs).map Int.ofNat

/-- An exponent is an optional sign and digits, without underscores. -/
def parseExponent? (cs : List Char) : Option Int :=
  if cs.all (· != '_') then parseSigned? cs else none

/-- Whether a scale is in the range of scales, which are those of a signed 64-bit word. -/
def isScale (scale : Int) : Bool :=
  -9223372036854775808 ≤ scale && scale < 9223372036854775808

/-- Splits a text before the first character that satisfies `p`. -/
def splitBefore (p : Char → Bool) (cs : List Char) : List Char × List Char :=
  (cs.takeWhile fun c => !p c, cs.dropWhile fun c => !p c)

/-- The digits of a text with at most one point, and how many of them stand behind it. The scale
counts every character behind the point but underscores. -/
def splitPoint (base : List Char) : List Char × Nat :=
  match splitBefore (· == '.') base with
  | (lead, []) => (lead, 0)
  | (lead, _ :: trail) => (lead ++ trail, (trail.filter (· != '_')).length)

/-- Reads a decimal from a list of characters. -/
def parseChars? (cs : List Char) : Option Decimal := do
  let (base, tail) := splitBefore (fun c => c == 'e' || c == 'E') cs
  let exponent ← match tail with
    | [] => some 0
    | _ :: exponent => parseExponent? exponent
  let (digits, places) := splitPoint base
  let value ← parseSigned? digits
  let scale := (places : Int) - exponent
  if isScale scale then some ⟨value, scale⟩ else none

/-- Reads a decimal. -/
def parse? (s : String) : Option Decimal :=
  parseChars? s.toList

/-- The digits of `n`, with zeros in front if they are fewer than `places`. -/
def paddedDigits (places n : Nat) : List Char :=
  (digitChars n).leftpad places '0'

/-- Plain notation of `n · 10 ^ (-places)`, for a positive number of places. -/
def renderPlaces (n places : Nat) : List Char :=
  digitChars (n / tenPow places) ++ '.' :: paddedDigits places (n % tenPow places)

/-- Plain notation of an integer. -/
def renderInt : Int → List Char
  | .ofNat n => digitChars n
  | .negSucc n => '-' :: digitChars (n + 1)

/-- Plain notation of a number, as a list of characters. -/
def renderChars (d : Decimal) : List Char :=
  match d.toInt? with
  | some n => renderInt n
  | none =>
    let e := d.normalize
    (if e.digits < 0 then ['-'] else []) ++ renderPlaces e.digits.natAbs e.scale.toNat

/-- Plain notation of a number. -/
def render (d : Decimal) : String :=
  String.ofList d.renderChars

end Logo.Decimal
