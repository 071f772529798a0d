/-!
# Decimal numbers

Every number of the language is a decimal: an integer of `digits` and a `scale`, which is the number
of digits behind the point. A negative scale stands for zeros before the point. Sums, differences
and products are exact, and two decimals agree when they denote the same number, whatever their
scales are.

In the interpreter that is modelled here a scale is a signed 64-bit word. A numeral whose scale does
not fit is refused (`Logo.Decimal.Numeral`). From there on a scale is any integer: that the scale of
a sum, a difference or a product can overflow the word is left out. It takes numbers with about
`2 ^ 63` places before or behind the point to get there.

* `Decimal.toInt?` gives the integer that a decimal denotes, if it denotes one.
* `Decimal.count?` gives the number of times or the position that a decimal can stand for.
* `Decimal.normalize` drops the trailing zeros, which is the shortest form of the same number.
-/

namespace Logo

/-- The number `digits · 10 ^ (-scale)`. -/
structure Decimal where
  /-- All digits, with the sign. -/
  digits : Int
  /-- How many of the digits stand behind the point. -/
  scale : Int
  deriving DecidableEq, Repr, Inhabited

namespace Decimal

/-- The decimal of a natural number. -/
def ofNat (n : Nat) : Decimal :=
  ⟨n, 0⟩

/-- The power `10 ^ k`. -/
def tenPow (k : Nat) : Nat :=
  Nat.pow 10 k

/-- The digits that `d` has when it is written with `scale` digits behind the point, for a `scale`
that is not below its own. A zero stays as it is, however far its scale is away. -/
def digitsAt (d : Decimal) (scale : Int) : Int :=
  if d.digits = 0 then 0 else d.digits * tenPow (scale - d.scale).toNat

/-- The larger of two scales: both numbers can be written with it. -/
def commonScale (a b : Decimal) : Int :=
  if a.scale ≤ b.scale then b.scale else a.scale

/-- How often ten divides a positive number, and what is left of it then. -/
def stripZeros (n : Nat) : Nat × Nat :=
  if _h : n ≠ 0 ∧ n % 10 = 0 then
    let (count, rest) := stripZeros (n / 10)
    (count + 1, rest)
  else (0, n)
termination_by n
decreasing_by omega

/-- The same number without trailing zeros; the zero has scale `0`. -/
def normalize (d : Decimal) : Decimal :=
  if d.digits = 0 then ⟨0, 0⟩
  else
    let (count, rest) := stripZeros d.digits.natAbs
    ⟨d.digits.sign * rest, d.scale - count⟩

/-! ## Arithmetic -/

/-- How many digits a number takes on at most when a zero with a larger scale is added. -/
def zeroReach : Int :=
  15

/-- The sum of `d` and a zero with scale `scale`: the same number, written with up to `zeroReach` of
the digits that the zero has more behind the point. -/
def addZero (d : Decimal) (scale : Int) : Decimal :=
  let wider :=
    if scale ≤ d.scale then d.scale
    else if scale ≤ d.scale + zeroReach then scale
    else d.scale + zeroReach
  ⟨d.digitsAt wider, wider⟩

/-- Exact sum. It has the larger scale, or is close to it where one of the numbers is zero. -/
def add (a b : Decimal) : Decimal :=
  if b.digits = 0 then a.addZero b.scale
  else if a.digits = 0 then b.addZero a.scale
  else ⟨a.digitsAt (commonScale a b) + b.digitsAt (commonScale a b), commonScale a b⟩

/-- Exact difference. -/
def sub (a b : Decimal) : Decimal :=
  ⟨a.digitsAt (commonScale a b) - b.digitsAt (commonScale a b), commonScale a b⟩

/-- The largest scale with which the number one is recognised. -/
def unitScale : Int :=
  38

/-- Whether `d` is the number one, with a scale up to `unitScale`. -/
def isUnit (d : Decimal) : Bool :=
  0 ≤ d.scale && d.scale ≤ unitScale && d.digits == tenPow d.scale.toNat

/-- Exact product. A factor that is recognised as one leaves the other factor in its shortest form;
otherwise the scales are added. -/
def mul (a b : Decimal) : Decimal :=
  if a.isUnit then b.normalize
  else if b.isUnit then a.normalize
  else ⟨a.digits * b.digits, a.scale + b.scale⟩

instance : Add Decimal := ⟨add⟩
instance : Sub Decimal := ⟨sub⟩
instance : Mul Decimal := ⟨mul⟩

/-! ## Comparison -/

/-- Whether two decimals denote the same number. -/
def agrees (a b : Decimal) : Bool :=
  a.digitsAt (commonScale a b) == b.digitsAt (commonScale a b)

/-- Whether `a` denotes a smaller number than `b`. -/
def less (a b : Decimal) : Bool :=
  a.digitsAt (commonScale a b) < b.digitsAt (commonScale a b)

/-- The integer that `d` denotes, if it denotes one. -/
def toInt? (d : Decimal) : Option Int :=
  if d.digits = 0 then some 0
  else if d.scale ≤ 0 then some (d.digitsAt 0)
  else if d.digits % tenPow d.scale.toNat = 0 then some (d.digits / tenPow d.scale.toNat)
  else none

/-- Counts and positions are below this bound. -/
def countBound : Nat :=
  18446744073709551616

/-- The count that `d` denotes: a natural number below `countBound`. -/
def count? (d : Decimal) : Option Nat :=
  match d.toInt? with
  | some (.ofNat n) => if n < countBound then some n else none
  | _ => none

end Decimal

end Logo
