import Logo.Proofs.Decimal.Rounding

/-!
# Accuracy of quotients

A quotient is first computed to `workingDigits` digits or more and then cut to `quotientDigits`.
Both steps are faithful, so that their composition is: a quotient is exact where it can be, has the
right sign, and is off by less than one unit in its last digit (`divide_accurate`).

The second step treats the signs in different ways, and a quotient and the quotient of the negative
dividend need not cancel. They do exactly if the digits that the second step drops do not round up
(`divide_neg_iff`).

* `faithful_quotient`: the first step is a faithful rounding.
* `toRat_of_divide`: the number that a quotient denotes.
-/

namespace Logo.Decimal

variable {a b d q : Decimal} {k n m : ℕ}

/-! ## The first step -/

/-- The digit that follows decides whether the quotient is rounded up. -/
theorem cast_roundedQuotient (n : ℕ) (hm : 0 < m) :
    ((roundedQuotient n m : ℕ) : ℤ) = round (n / m : ℚ) := by
  have hhalf : (1 / 2 : ℚ) ≤ Int.fract (n / m : ℚ) ↔ ¬ (n % m) * 10 / m < 5 := by
    have hfract : Int.fract (n / m : ℚ) = (n % m : ℕ) / m := by
      have hmod := Int.fract_div_intCast_eq_div_intCast_mod (k := ℚ) (m := n) (n := m)
      rwa [Int.cast_natCast, ← Int.natCast_mod, Int.cast_natCast] at hmod
    rw [hfract, div_le_div_iff₀ two_pos (by exact_mod_cast hm), Nat.div_lt_iff_lt_mul hm, not_lt]
    norm_cast
    omega
  have hfloor : ⌊(n / m : ℚ)⌋ = (n / m : ℕ) := by
    have hdiv := Rat.floor_intCast_div_natCast n m
    rwa [Int.cast_natCast, ← Int.natCast_div] at hdiv
  rw [round_eq_ite, hfloor, roundedQuotient]
  simp only [hhalf, ite_not]
  split <;> push_cast <;> rfl

/-- A shift by the leading shift makes the dividend reach the divisor. -/
theorem le_mul_leadingShift (hn : 0 < n) (m : ℕ) : m ≤ n * tenPow (leadingShift n m) := by
  unfold leadingShift
  simp only
  split
  · -- one digit more than the divisor has is enough
    have hlead := pow_le_of_lt_digitCount hn (Nat.sub_one_lt (digitCount_pos n).ne')
    have hdivisor := (digitCount_le_iff (digitCount_pos m)).1 (le_refl (digitCount m))
    have hcount := digitCount_pos n
    calc m ≤ 10 ^ digitCount m := hdivisor.le
      _ ≤ 10 ^ (digitCount n - 1 + (digitCount m - digitCount n + 1)) :=
        Nat.pow_le_pow_right (by decide) (by omega)
      _ ≤ n * tenPow (digitCount m - digitCount n + 1) := by
        rw [pow_add]
        exact Nat.mul_le_mul_right _ hlead
  · omega

/-- The quotient that is rounded has `workingDigits` digits before the point, or more. -/
theorem pow_mul_le_shifted (hn : 0 < n) (hm : 0 < m) :
    10 ^ (workingDigits - 1) * m ≤ n * tenPow (workingQuotient n m).2 := by
  have hreach := le_mul_leadingShift hn m
  have hcount := digitCount_pos (n * tenPow (leadingShift n m) / m)
  have hlead := pow_le_of_lt_digitCount (Nat.div_pos hreach hm) (Nat.sub_one_lt hcount.ne')
  -- the places are the leading shift and as many more as digits are missing
  have hplaces : tenPow (workingQuotient n m).2 = tenPow (leadingShift n m) *
      10 ^ (workingDigits - digitCount (n * tenPow (leadingShift n m) / m)) :=
    pow_add 10 _ _
  rw [hplaces, ← Nat.mul_assoc]
  generalize n * tenPow (leadingShift n m) = shifted at *
  calc 10 ^ (workingDigits - 1) * m
      ≤ 10 ^ (digitCount (shifted / m) - 1 + (workingDigits - digitCount (shifted / m))) * m :=
        Nat.mul_le_mul_right _ (Nat.pow_le_pow_right (by decide) (by omega))
    _ = 10 ^ (digitCount (shifted / m) - 1) * m *
        10 ^ (workingDigits - digitCount (shifted / m)) := by rw [pow_add]; ring
    _ ≤ shifted * 10 ^ (workingDigits - digitCount (shifted / m)) :=
        Nat.mul_le_mul_right _ ((Nat.mul_le_mul_right _ hlead).trans (Nat.div_mul_le_self _ _))

/-- The quotient of positive numbers, with any scale, is rounded faithfully. -/
theorem faithful_workingQuotient (hn : 0 < n) (hm : 0 < m) (scale : ℤ) :
    Faithful workingDigits (n / m * 10 ^ (-scale))
      ((workingQuotient n m).1 * 10 ^ (-(scale + (workingQuotient n m).2))) := by
  have hm' : (0 : ℚ) < m := by exact_mod_cast hm
  have hx : (0 : ℚ) < n / m * 10 ^ (-scale) :=
    mul_pos (div_pos (by exact_mod_cast hn) hm') (ten_zpow_pos _)
  have hcut : (n / m * 10 ^ (-scale) : ℚ) / 10 ^ (-(scale + (workingQuotient n m).2)) =
      (n * tenPow (workingQuotient n m).2 : ℕ) / m := by
    rw [neg_add, ten_zpow_add, zpow_neg _ ((workingQuotient n m).2 : ℤ), zpow_natCast]
    have hscale := (ten_zpow_pos (-scale)).ne'
    push_cast
    rw [cast_tenPow]
    field_simp
  have hdigits : ((workingQuotient n m).1 : ℤ) =
      round ((n / m * 10 ^ (-scale) : ℚ) / 10 ^ (-(scale + (workingQuotient n m).2))) := by
    rw [hcut]
    exact cast_roundedQuotient _ hm
  have hlead : (10 : ℚ) ^ ((workingDigits : ℤ) - 1 + -(scale + (workingQuotient n m).2)) ≤
      |(n / m * 10 ^ (-scale) : ℚ)| := by
    have hreach :
        (10 ^ (workingDigits - 1) * m : ℚ) ≤ (n * tenPow (workingQuotient n m).2 : ℕ) := by
      exact_mod_cast pow_mul_le_shifted hn hm
    rw [abs_of_pos hx, ten_zpow_add, ← le_div_iff₀ (ten_zpow_pos _), hcut, le_div_iff₀ hm']
    exact hreach
  rw [← Int.cast_natCast (workingQuotient n m).1, hdigits]
  exact faithful_of_floor_le (by decide) hlead (floor_le_round _) (round_le_ceil _)

/-! ## Signs -/

/-- The number with the other sign. -/
def neg (d : Decimal) : Decimal :=
  ⟨-d.digits, d.scale⟩

theorem toRat_neg (d : Decimal) : d.neg.toRat = -d.toRat := by
  simp [neg, toRat]

theorem digits_neg_eq_zero_iff : d.neg.digits = 0 ↔ d.digits = 0 :=
  neg_eq_zero

/-- The shortest form is the same for both signs. -/
theorem normalize_neg (d : Decimal) : d.neg.normalize = d.normalize.neg := by
  unfold normalize
  simp only [digits_neg_eq_zero_iff]
  split
  · rfl
  · simp [neg]

theorem sign_eq_one_or {z : ℤ} (h : z ≠ 0) : z.sign = 1 ∨ z.sign = -1 :=
  Int.natAbs_eq_iff.1 (Int.natAbs_sign_of_ne_zero h)

/-- The sign of a number and its absolute value. -/
theorem toRat_eq_sign_mul (d : Decimal) :
    d.toRat = d.digits.sign * (d.digits.natAbs * 10 ^ (-d.scale)) := by
  rw [toRat, ← mul_assoc, ← Int.cast_natCast, ← Int.cast_mul, Int.sign_mul_natAbs]

/-- The quotient of two numbers by their signs and absolute values. -/
theorem toRat_div_toRat (a : Decimal) (hb : b.digits ≠ 0) :
    a.toRat / b.toRat = (a.digits.sign * b.digits.sign : ℤ) *
      (a.digits.natAbs / b.digits.natAbs * 10 ^ (-(a.scale - b.scale))) := by
  have hscale : (10 : ℚ) ^ (-(a.scale - b.scale)) = 10 ^ (-a.scale) / 10 ^ (-b.scale) := by
    rw [neg_sub, sub_eq_neg_add, ten_zpow_add, zpow_neg _ b.scale, div_inv_eq_mul]
  rw [toRat_eq_sign_mul a, toRat_eq_sign_mul b, hscale]
  rcases sign_eq_one_or hb with hsign | hsign
  · rw [hsign]
    push_cast
    ring
  · rw [hsign]
    push_cast
    ring

/-- A divisor that is recognised as one is one. -/
theorem toRat_of_isUnit (h : d.isUnit = true) : d.toRat = 1 := by
  simp only [isUnit, Bool.and_eq_true, decide_eq_true_eq, beq_iff_eq] at h
  obtain ⟨⟨hscale, -⟩, hdigits⟩ := h
  have hone := (toRat_eq_intCast_iff hscale 1).2 (by rw [one_mul]; exact hdigits)
  exact_mod_cast hone

/-- Nothing is computed for a dividend of zero or a divisor that is recognised as one. -/
theorem quotient_of_trivial (h : a.digits = 0 ∨ b.isUnit = true) : quotient a b = a := by
  unfold quotient
  rw [if_pos (by simpa using h)]

/-- In all other cases the digits are those of the quotient of the absolute values, with the sign of
the exact quotient. -/
theorem quotient_of_computed (ha : a.digits ≠ 0) (hb : b.isUnit = false) :
    quotient a b = ⟨a.digits.sign * b.digits.sign *
        (workingQuotient a.digits.natAbs b.digits.natAbs).1,
      a.scale - b.scale + (workingQuotient a.digits.natAbs b.digits.natAbs).2⟩ := by
  unfold quotient
  rw [if_neg (by simp [ha, hb])]

/-- **The first step of a division is a faithful rounding.** -/
theorem faithful_quotient (a : Decimal) (hb : b.digits ≠ 0) :
    Faithful workingDigits (a.toRat / b.toRat) (quotient a b).toRat := by
  by_cases h : a.digits = 0 ∨ b.isUnit = true
  · have hexact : a.toRat / b.toRat = a.toRat := by
      rcases h with ha | hunit
      · rw [toRat_eq_zero_iff.2 ha, zero_div]
      · rw [toRat_of_isUnit hunit, div_one]
    rw [quotient_of_trivial h, hexact]
    exact .refl _ _
  · obtain ⟨ha, hunit⟩ := not_or.1 h
    have hfaithful := faithful_workingQuotient (Int.natAbs_pos.2 ha) (Int.natAbs_pos.2 hb)
      (a.scale - b.scale)
    have hsign : a.digits.sign * b.digits.sign = 1 ∨ a.digits.sign * b.digits.sign = -1 := by
      rcases sign_eq_one_or ha with ha | ha <;> rcases sign_eq_one_or hb with hb | hb <;>
        simp [ha, hb]
    rw [toRat_div_toRat a hb, quotient_of_computed ha (by simpa using hunit), toRat]
    -- the signs only mirror the quotient of the absolute values
    rcases hsign with hsign | hsign
    · simpa only [hsign, Int.cast_one, one_mul, Int.cast_natCast] using hfaithful
    · simpa only [hsign, Int.cast_neg, Int.cast_one, neg_mul, one_mul,
        Int.cast_natCast] using hfaithful.neg

/-! ## Both steps -/

theorem divide?_eq_none_iff : a.divide? b = none ↔ b.toRat = 0 := by
  rw [toRat_eq_zero_iff, divide?]
  split <;> simp_all

/-- The number that a quotient denotes. -/
theorem toRat_of_divide (h : a.divide? b = some q) :
    q.toRat = roundTo quotientDigits (quotient a b).toRat := by
  unfold divide? at h
  split at h
  · cases h
  · cases h
    rw [toRat_normalize, toRat_shorten]

/-- The quotient is a faithful rounding of the exact one. -/
theorem faithful_divide (hb : b.digits ≠ 0) (h : a.divide? b = some q) :
    Faithful quotientDigits (a.toRat / b.toRat) q.toRat := by
  rw [toRat_of_divide h]
  exact (faithful_quotient a hb).trans (faithful_roundTo (by decide) _) (by decide)

/-- A number with few significant digits has few digits in its shortest form. -/
theorem digitCount_normalize_le (hk : 0 < k) (h : HasDigits k d.toRat) :
    digitCount d.normalize.digits.natAbs ≤ k := by
  rw [digitCount_le_iff hk]
  by_cases hzero : d.digits = 0
  · rw [normalize, if_pos hzero]
    exact Nat.pow_pos (by decide)
  · obtain ⟨n, j, hn, hd⟩ := h
    have hsame : d.normalize.toRat = toRat ⟨n, -j⟩ := by
      rw [toRat_normalize, hd, toRat, neg_neg]
    -- no other digits of the same number are fewer
    have hscale := scale_le_of_toRat_eq (not_ten_dvd_normalize hzero) hsame
    have hdigits : d.normalize.digitsAt (-j) = n := by
      have hcast := cast_digitsAt hscale
      rw [hsame, toRat, mul_assoc, ← ten_zpow_add, neg_add_cancel, zpow_zero, mul_one] at hcast
      exact_mod_cast hcast
    have hle : d.normalize.digits.natAbs ≤ n.natAbs := by
      rw [← hdigits, digitsAt]
      split
      · rename_i hnormal
        rw [hnormal]
      · rw [Int.natAbs_mul, Int.natAbs_natCast]
        exact Nat.le_mul_of_pos_right _ (tenPow_pos _)
    rw [Int.abs_eq_natAbs] at hn
    exact hle.trans_lt (by exact_mod_cast hn)

/-- **Quotients are accurate.** There is a quotient exactly if the divisor is not zero. It has at
most 28 digits, is zero for a dividend of zero only, has the sign of the exact quotient and differs
from it by less than one unit in the 28th significant digit. If the exact quotient can be written
with 28 digits, it is that quotient. -/
theorem divide_accurate (a b : Decimal) :
    (a.divide? b = none ↔ b.toRat = 0) ∧
    (b.toRat ≠ 0 → ∃ q, a.divide? b = some q ∧ digitCount q.digits.natAbs ≤ 28 ∧
      (q.toRat = 0 → a.toRat = 0) ∧
      SignType.sign q.toRat = SignType.sign (a.toRat / b.toRat) ∧
      |q.toRat - a.toRat / b.toRat| < lastUnit 28 (a.toRat / b.toRat) ∧
      (HasDigits 28 (a.toRat / b.toRat) → q.toRat = a.toRat / b.toRat)) := by
  refine ⟨divide?_eq_none_iff, fun hb => ?_⟩
  have hb' : b.digits ≠ 0 := fun h => hb (toRat_eq_zero_iff.2 h)
  have hq : a.divide? b = some (quotient a b).shorten.normalize := if_neg hb'
  have hfaithful := faithful_divide hb' hq
  have hsign := hfaithful.sign_eq (by decide)
  refine ⟨_, hq, ?_, fun hzero => ?_, hsign, hfaithful.abs_sub_lt (by decide),
    hfaithful.eq_of_hasDigits⟩
  · refine digitCount_normalize_le (by decide) ?_
    rw [toRat_shorten]
    exact hasDigits_roundTo (by decide) _
  · rw [hzero, sign_zero, eq_comm, sign_eq_zero_iff, div_eq_zero_iff] at hsign
    exact hsign.resolve_right hb

/-- The reciprocal of a negative power of two whose digits end exactly at the cut. -/
theorem divide_accurate_reciprocal :
    toRat ⟨-549755813888, 0⟩ ≠ 0 ∧
    HasDigits 28 (toRat ⟨1, 0⟩ / toRat ⟨-549755813888, 0⟩) ∧
    ∃ q, divide? ⟨1, 0⟩ ⟨-549755813888, 0⟩ = some q ∧ q = ⟨-1818989403545856475830078125, 39⟩ ∧
      digitCount q.digits.natAbs ≤ 28 ∧ q.toRat = toRat ⟨1, 0⟩ / toRat ⟨-549755813888, 0⟩ := by
  have hb : toRat ⟨-549755813888, 0⟩ ≠ 0 := mt toRat_eq_zero_iff.1 (by decide)
  have hdigits : HasDigits 28 (toRat ⟨1, 0⟩ / toRat ⟨-549755813888, 0⟩) :=
    ⟨-1818989403545856475830078125, -39, by decide, by norm_num [toRat]⟩
  have hvalue : divide? ⟨1, 0⟩ ⟨-549755813888, 0⟩ = some ⟨-1818989403545856475830078125, 39⟩ := by
    decide +kernel
  obtain ⟨q, hq, hcount, -, -, -, hexact⟩ :=
    (divide_accurate ⟨1, 0⟩ ⟨-549755813888, 0⟩).2 hb
  exact ⟨hb, hdigits, q, hq, Option.some_injective _ (hq.symm.trans hvalue), hcount, hexact hdigits⟩

/-! ## Opposite signs -/

/-- The first step treats both signs of the dividend alike. -/
theorem quotient_neg_left (a b : Decimal) : quotient a.neg b = (quotient a b).neg := by
  by_cases h : a.digits = 0 ∨ b.isUnit = true
  · have hneg : a.neg.digits = 0 ∨ b.isUnit = true := by rwa [digits_neg_eq_zero_iff]
    rw [quotient_of_trivial h, quotient_of_trivial hneg]
  · obtain ⟨ha, hunit⟩ := not_or.1 h
    have hunit : b.isUnit = false := by simpa using hunit
    rw [quotient_of_computed ha hunit, quotient_of_computed (mt digits_neg_eq_zero_iff.1 ha) hunit]
    simp [neg]

/-- Neither the divisor nor its negative is recognised as one, or the dividend is not too long for
the first step. -/
def IsRegular (a b : Decimal) : Prop :=
  b.isUnit = false ∧ b.neg.isUnit = false ∨ HasDigits 100 a.toRat

/-- The first step is exact for a divisor of one, if it can be. -/
theorem toRat_quotient_of_one (ha : HasDigits 100 a.toRat) (hb : b.toRat = 1 ∨ b.toRat = -1) :
    (quotient a b).toRat = a.toRat / b.toRat := by
  have hne : b.digits ≠ 0 := by
    intro hzero
    rw [toRat_eq_zero_iff.2 hzero] at hb
    norm_num at hb
  refine (faithful_quotient a hne).eq_of_hasDigits ?_
  rcases hb with hb | hb <;> rw [hb]
  · rwa [div_one]
  · rw [div_neg, div_one]
    exact ha.neg

/-- The first step treats both signs of the divisor alike, in the cases of `IsRegular`. A divisor of
one is not computed with, and its negative is: only a dividend that is too long for the first step
tells the two apart. -/
theorem toRat_quotient_neg_right (h : IsRegular a b) :
    (quotient a b.neg).toRat = -(quotient a b).toRat := by
  by_cases ha : a.digits = 0
  · -- a dividend of zero is its own quotient
    rw [quotient_of_trivial (.inl ha), quotient_of_trivial (.inl ha), toRat_eq_zero_iff.2 ha,
      neg_zero]
  by_cases hunit : b.isUnit = false ∧ b.neg.isUnit = false
  · rw [quotient_of_computed ha hunit.1, quotient_of_computed ha hunit.2, ← toRat_neg]
    simp [neg]
  · -- one of the divisors is one and the other minus one, and both quotients are exact
    have hdigits : HasDigits 100 a.toRat := h.resolve_left hunit
    have hone : b.toRat = 1 ∨ b.toRat = -1 := by
      rw [not_and_or, Bool.not_eq_false, Bool.not_eq_false] at hunit
      rcases hunit with hunit | hunit
      · exact .inl (toRat_of_isUnit hunit)
      · have hneg := toRat_of_isUnit hunit
        rw [toRat_neg] at hneg
        exact .inr (neg_eq_iff_eq_neg.1 hneg)
    have hone' : b.neg.toRat = 1 ∨ b.neg.toRat = -1 := by
      rw [toRat_neg, neg_inj, neg_eq_iff_eq_neg]
      exact hone.symm
    rw [toRat_quotient_of_one hdigits hone, toRat_quotient_of_one hdigits hone', toRat_neg, div_neg]

/-- A quotient is in its shortest form. -/
theorem normalize_of_divide (h : a.divide? b = some q) : q.normalize = q := by
  unfold divide? at h
  split at h
  · cases h
  · cases h
    exact normalize_eq_iff.2 (toRat_normalize _)

section Compared

variable {a' b' p : Decimal} (hq : a.divide? b = some q) (hp : a'.divide? b' = some p)

include hq hp

theorem eq_iff_of_divide : p = q ↔ p.toRat = q.toRat := by
  rw [← normalize_eq_iff, normalize_of_divide hp, normalize_of_divide hq]

theorem eq_neg_iff_of_divide : p = q.neg ↔ p.toRat = -q.toRat := by
  rw [← toRat_neg, ← normalize_eq_iff, normalize_neg, normalize_of_divide hp,
    normalize_of_divide hq]

/-- A quotient and one whose first step has the opposite value. -/
theorem divide_opposite (h : (quotient a' b').toRat = -(quotient a b).toRat) :
    q.toRat + p.toRat = (if RoundsUp quotientDigits (quotient a b).toRat
      then lastUnit quotientDigits (quotient a b).toRat else 0) ∧
    (p = q.neg ↔ ¬ RoundsUp quotientDigits (quotient a b).toRat) := by
  have hsum := roundTo_add_roundTo_neg quotientDigits (quotient a b).toRat
  rw [← h, ← toRat_of_divide hq, ← toRat_of_divide hp] at hsum
  refine ⟨hsum, ?_⟩
  rw [eq_neg_iff_of_divide hq hp, ← add_eq_zero_iff_eq_neg', hsum]
  have hpos := (lastUnit_pos quotientDigits (quotient a b).toRat).ne'
  split <;> simp_all

end Compared

/-- **Opposite quotients cancel unless a digit is rounded up.** The quotient of `-a` by `b` is the
negative of the quotient of `a` by `b` exactly if the digits that the last step drops do not amount
to half a unit. Otherwise the negative one of the two is cut where the positive one is rounded up,
so that they differ by one unit in the 28th digit. The quotient of `a` by `-b` is that of `-a` by
`b` where `IsRegular` holds. A quotient that can be written with 28 digits cancels with both. -/
theorem divide_neg_iff (a b : Decimal) (hb : b.toRat ≠ 0) :
    ∃ q p r, a.divide? b = some q ∧ a.neg.divide? b = some p ∧ a.divide? b.neg = some r ∧
      q.toRat + p.toRat = (if RoundsUp 28 (quotient a b).toRat
        then lastUnit 28 (quotient a b).toRat else 0) ∧
      (p = q.neg ↔ ¬ RoundsUp 28 (quotient a b).toRat) ∧
      (IsRegular a b → r = p) ∧
      (HasDigits 28 (a.toRat / b.toRat) → p = q.neg ∧ r = q.neg) := by
  have hb' : b.digits ≠ 0 := fun h => hb (toRat_eq_zero_iff.2 h)
  have hq : a.divide? b = some (quotient a b).shorten.normalize := if_neg hb'
  have hp : a.neg.divide? b = some (quotient a.neg b).shorten.normalize := if_neg hb'
  have hr : a.divide? b.neg = some (quotient a b.neg).shorten.normalize :=
    if_neg (mt digits_neg_eq_zero_iff.1 hb')
  have hopposite : (quotient a.neg b).toRat = -(quotient a b).toRat := by
    rw [quotient_neg_left, toRat_neg]
  obtain ⟨hsum, hcancel⟩ := divide_opposite hq hp hopposite
  refine ⟨_, _, _, hq, hp, hr, hsum, hcancel, fun hregular => ?_, fun hdigits => ?_⟩
  · rw [eq_iff_of_divide hp hr, toRat_of_divide hr, toRat_of_divide hp,
      toRat_quotient_neg_right hregular, hopposite]
  · -- all three quotients are exact
    have hq' := (faithful_divide hb' hq).eq_of_hasDigits hdigits
    have hp' := (faithful_divide hb' hp).eq_of_hasDigits
      (by rw [toRat_neg, neg_div]; exact hdigits.neg)
    have hr' := (faithful_divide (mt digits_neg_eq_zero_iff.1 hb') hr).eq_of_hasDigits
      (by rw [toRat_neg, div_neg]; exact hdigits.neg)
    rw [eq_neg_iff_of_divide hq hp, eq_neg_iff_of_divide hq hr, hq', hp', hr', toRat_neg, toRat_neg,
      neg_div, div_neg]
    exact ⟨rfl, rfl⟩

/-- A divisor whose negative is recognised as one. -/
theorem divide_neg_iff_half :
    toRat ⟨-10, 1⟩ ≠ 0 ∧ IsRegular ⟨5, 1⟩ ⟨-10, 1⟩ ∧
    HasDigits 28 (toRat ⟨5, 1⟩ / toRat ⟨-10, 1⟩) ∧
    ∃ q p r, divide? ⟨5, 1⟩ ⟨-10, 1⟩ = some q ∧ divide? (neg ⟨5, 1⟩) ⟨-10, 1⟩ = some p ∧
      divide? ⟨5, 1⟩ (neg ⟨-10, 1⟩) = some r ∧ q = ⟨-5, 1⟩ ∧ p = q.neg ∧ r = p ∧
      ¬ RoundsUp 28 (quotient ⟨5, 1⟩ ⟨-10, 1⟩).toRat := by
  have hb : toRat ⟨-10, 1⟩ ≠ 0 := mt toRat_eq_zero_iff.1 (by decide)
  have hregular : IsRegular ⟨5, 1⟩ ⟨-10, 1⟩ := .inr ⟨5, -1, by decide, rfl⟩
  have hdigits : HasDigits 28 (toRat ⟨5, 1⟩ / toRat ⟨-10, 1⟩) :=
    ⟨-5, -1, by decide, by norm_num [toRat]⟩
  have hvalue : divide? ⟨5, 1⟩ ⟨-10, 1⟩ = some ⟨-5, 1⟩ := by
    decide +kernel
  obtain ⟨q, p, r, hq, hp, hr, -, hcancel, hsame, hexact⟩ := divide_neg_iff ⟨5, 1⟩ ⟨-10, 1⟩ hb
  have hpq := (hexact hdigits).1
  exact ⟨hb, hregular, hdigits, q, p, r, hq, hp, hr,
    Option.some_injective _ (hq.symm.trans hvalue), hpq, hsame hregular, hcancel.1 hpq⟩

/-- Two thirds are rounded up, and minus two thirds are cut. -/
theorem two_thirds_cut_if_negative :
    divide? ⟨2, 0⟩ ⟨3, 0⟩ = some ⟨6666666666666666666666666667, 28⟩ ∧
    divide? ⟨-2, 0⟩ ⟨3, 0⟩ = some ⟨-6666666666666666666666666666, 28⟩ ∧
    divide? ⟨2, 0⟩ ⟨-3, 0⟩ = some ⟨-6666666666666666666666666666, 28⟩ ∧
    ¬ ∀ a b : Decimal, b.toRat ≠ 0 → a.neg.divide? b = (a.divide? b).map neg := by
  have hpositive : divide? ⟨2, 0⟩ ⟨3, 0⟩ = some ⟨6666666666666666666666666667, 28⟩ := by
    decide +kernel
  have hnegative : divide? ⟨-2, 0⟩ ⟨3, 0⟩ = some ⟨-6666666666666666666666666666, 28⟩ := by
    decide +kernel
  refine ⟨hpositive, hnegative, by decide +kernel, fun h => ?_⟩
  have hneg := h ⟨2, 0⟩ ⟨3, 0⟩ (mt toRat_eq_zero_iff.1 (by decide))
  rw [hpositive] at hneg
  exact absurd (hnegative.symm.trans hneg) (by decide)

end Logo.Decimal
