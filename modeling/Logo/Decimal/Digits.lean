import Logo.Decimal.Basic

/-!
# Digits

The digits of a natural number. Long numbers are taken apart in blocks of digits, so that few
divisions of long numbers are needed.

* `digitChars_eq`: the digits are those of the number in base ten.
-/

namespace Logo.Decimal

/-- The last `count` digits of `n`, in front of `rest`. -/
def lastDigits : Nat → Nat → List Char → List Char
  | 0, _, rest => rest
  | count + 1, n, rest => lastDigits count (n / 10) (Nat.digitChar (n % 10) :: rest)

/-- The number of digits in a block. -/
def blockLength : Nat :=
  18

/-- A block is too short for numbers from this bound on. -/
def blockBound : Nat :=
  1000000000000000000

/-- The digits of `n`, in front of `rest`. -/
def digitsBefore (n : Nat) (rest : List Char) : List Char :=
  if _h : n < blockBound then Nat.toDigits 10 n ++ rest
  else digitsBefore (n / blockBound) (lastDigits blockLength (n % blockBound) rest)
termination_by n
decreasing_by
  exact Nat.div_lt_self (by unfold blockBound at _h; omega) (by decide)

/-- The digits of `n`. -/
def digitChars (n : Nat) : List Char :=
  digitsBefore n []

/-- Digits that follow the digits of `m` are those of a number with `m` in front. -/
theorem toDigits_append_lastDigits {m : Nat} (hm : 0 < m) (count n : Nat) (rest : List Char)
    (hn : n < tenPow count) :
    Nat.toDigits 10 m ++ lastDigits count n rest =
      Nat.toDigits 10 (m * tenPow count + n) ++ rest := by
  induction count generalizing n rest with
  | zero =>
    have h1 : tenPow 0 = 1 := rfl
    have h0 : n = 0 := by omega
    rw [lastDigits, h0, h1, Nat.mul_one, Nat.add_zero]
  | succ count ih =>
    have hp : tenPow (count + 1) = tenPow count * 10 := rfl
    have hq : n / 10 < tenPow count := by omega
    have hpos : 0 < m * tenPow count + n / 10 :=
      Nat.add_pos_left (Nat.mul_pos hm (Nat.pow_pos (by decide))) _
    have hd : n % 10 < 10 := Nat.mod_lt n (by decide)
    have hs : 10 * (m * tenPow count + n / 10) + n % 10 = m * tenPow (count + 1) + n := by
      rw [hp, ← Nat.mul_assoc]
      omega
    rw [lastDigits, ih (n / 10) _ hq, ← hs,
      ← Nat.toDigits_append_toDigits (by decide) hpos hd, Nat.toDigits_of_lt_base hd]
    simp

/-- What is put in front of `rest` are the digits in base ten. -/
theorem digitsBefore_eq (n : Nat) (rest : List Char) :
    digitsBefore n rest = Nat.toDigits 10 n ++ rest := by
  induction n using Nat.strongRecOn generalizing rest with
  | ind n ih =>
    rw [digitsBefore]
    split
    · rfl
    · rename_i h
      have hb : blockBound = tenPow blockLength := by decide
      have hle : blockBound ≤ n := Nat.le_of_not_lt h
      have hpos : 0 < blockBound := by decide
      have hlt : n / blockBound < n := Nat.div_lt_self (Nat.lt_of_lt_of_le hpos hle) (by decide)
      have hmod : n % blockBound < tenPow blockLength := hb ▸ Nat.mod_lt n hpos
      have hsum : n / blockBound * tenPow blockLength + n % blockBound = n := by
        rw [← hb, Nat.mul_comm]
        exact Nat.div_add_mod n blockBound
      rw [ih _ hlt, toDigits_append_lastDigits (Nat.div_pos hle hpos) _ _ _ hmod, hsum]

/-- The digits are those of the number in base ten. -/
theorem digitChars_eq (n : Nat) : digitChars n = Nat.toDigits 10 n := by
  rw [digitChars, digitsBefore_eq, List.append_nil]

end Logo.Decimal
