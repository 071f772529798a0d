import Logo.Decimal.Digits

/-!
# Division

A quotient is computed to `workingDigits` significant digits and then cut to `quotientDigits`. The
first step rounds its last digit half up on absolute values. The second rounds half up where the
quotient is positive and drops the surplus digits where it is negative.

The scale of a quotient is any integer, as it is for sums and products (`Logo.Decimal.Basic`). The
overflow of the signed 64-bit word that the interpreter has for it is left out here, too.

* `Decimal.divide?` is the quotient, which a divisor of zero does not have.
-/

namespace Logo.Decimal

/-- Significant digits of a quotient while it is computed. -/
def workingDigits : Nat :=
  100

/-- Significant digits that a quotient keeps. -/
def quotientDigits : Nat :=
  28

/-- The number of decimal digits of `n`. -/
def digitCount (n : Nat) : Nat :=
  (digitChars n).length

/-- The least `k` for which `n · 10 ^ k` reaches `m`, for positive `n`. -/
def leadingShift (n m : Nat) : Nat :=
  let k := digitCount m - digitCount n
  if n * tenPow k < m then k + 1 else k

/-- The quotient `n / m` rounded half up, by the digit that follows. -/
def roundedQuotient (n m : Nat) : Nat :=
  if (n % m) * 10 / m < 5 then n / m else n / m + 1

/-- The quotient `n / m` with `workingDigits` significant digits, or all digits of its integer part
if they are more: the digits and how many of them stand behind the point. -/
def workingQuotient (n m : Nat) : Nat × Nat :=
  let k := leadingShift n m
  let places := k + (workingDigits - digitCount (n * tenPow k / m))
  (roundedQuotient (n * tenPow places) m, places)

/-- The quotient to `workingDigits` significant digits, for a divisor other than zero. A divisor
that is recognised as one leaves all digits of the dividend. -/
def quotient (a b : Decimal) : Decimal :=
  if a.digits = 0 || b.isUnit then a
  else
    let (q, places) := workingQuotient a.digits.natAbs b.digits.natAbs
    ⟨a.digits.sign * b.digits.sign * q, a.scale - b.scale + places⟩

/-- Keeps `quotientDigits` significant digits of `d`. A positive number is rounded half up, a
negative one is cut. -/
def shorten (d : Decimal) : Decimal :=
  let surplus := digitCount d.digits.natAbs - quotientDigits
  let unit := tenPow surplus
  let kept := d.digits.tdiv unit
  let rest := d.digits.tmod unit
  ⟨if 0 < surplus && unit ≤ 2 * rest then kept + 1 else kept, d.scale - surplus⟩

/-- The quotient of two numbers, without trailing zeros. -/
def divide? (a b : Decimal) : Option Decimal :=
  if b.digits = 0 then none else some (quotient a b).shorten.normalize

end Logo.Decimal
