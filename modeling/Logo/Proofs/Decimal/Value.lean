import Logo.Decimal.Basic
import Mathlib

/-!
# The number that a decimal denotes

A decimal with `digits` and a `scale` denotes the rational number `digits · 10 ^ (-scale)`
(`Decimal.toRat`). What the library computes from a decimal without regard to its scale depends on
that number alone.

* `agrees_iff`: two decimals agree exactly if they denote the same number.
* `toInt?_eq_some_iff`, `count?_eq_some_iff`: the integer and the count of a decimal are the number
  that it denotes.
* `normalize_eq_iff`: two decimals have the same shortest form exactly if they denote the same
  number.
-/

namespace Logo.Decimal

/-- The number that a decimal denotes. -/
def toRat (d : Decimal) : ℚ :=
  d.digits * 10 ^ (-d.scale)

variable {a b d : Decimal}

theorem ten_zpow_pos (k : ℤ) : (0 : ℚ) < 10 ^ k :=
  zpow_pos (by norm_num) k

theorem ten_zpow_add (j k : ℤ) : (10 : ℚ) ^ (j + k) = 10 ^ j * 10 ^ k :=
  zpow_add₀ (by norm_num) j k

theorem cast_tenPow (k : ℕ) : ((tenPow k : ℕ) : ℚ) = 10 ^ k := by
  unfold tenPow
  exact_mod_cast rfl

theorem tenPow_pos (k : ℕ) : 0 < tenPow k :=
  Nat.pow_pos (by decide)

theorem toRat_eq_zero_iff : d.toRat = 0 ↔ d.digits = 0 := by
  unfold toRat
  rw [mul_eq_zero, or_iff_left (ten_zpow_pos _).ne', Int.cast_eq_zero]

/-! ## Comparison -/

/-- The digits of a number at a scale, as a rational number. -/
theorem cast_digitsAt {scale : ℤ} (h : d.scale ≤ scale) :
    (d.digitsAt scale : ℚ) = d.toRat * 10 ^ scale := by
  unfold digitsAt
  split
  · rename_i hzero
    rw [toRat_eq_zero_iff.2 hzero, Int.cast_zero, zero_mul]
  · have hshift : ((scale - d.scale).toNat : ℤ) = -d.scale + scale := by omega
    rw [toRat, mul_assoc, ← ten_zpow_add, ← hshift, zpow_natCast, Int.cast_mul, Int.cast_natCast,
      cast_tenPow]

theorem le_commonScale (a b : Decimal) : a.scale ≤ commonScale a b ∧ b.scale ≤ commonScale a b := by
  unfold commonScale
  split <;> omega

/-- **Two decimals agree exactly if they denote the same number.** -/
theorem agrees_iff : a.agrees b = true ↔ a.toRat = b.toRat := by
  obtain ⟨ha, hb⟩ := le_commonScale a b
  have hpos := (ten_zpow_pos (commonScale a b)).ne'
  unfold agrees
  rw [beq_iff_eq, ← Int.cast_inj (α := ℚ), cast_digitsAt ha, cast_digitsAt hb,
    mul_left_inj' hpos]

/-! ## Integers -/

/-- A number with digits behind the point is an integer if that many zeros end its digits. -/
theorem toRat_eq_intCast_iff (h : 0 ≤ d.scale) (n : ℤ) :
    d.toRat = n ↔ d.digits = n * tenPow d.scale.toNat := by
  have hscale : ((d.scale.toNat : ℕ) : ℤ) = d.scale := by omega
  have hpow : (10 : ℚ) ^ (-d.scale) * (tenPow d.scale.toNat : ℕ) = 1 := by
    rw [cast_tenPow, ← zpow_natCast, hscale, ← ten_zpow_add, neg_add_cancel, zpow_zero]
  have hne : ((tenPow d.scale.toNat : ℕ) : ℚ) ≠ 0 := by
    exact_mod_cast (tenPow_pos _).ne'
  rw [← mul_left_inj' hne, toRat, mul_assoc, hpow, mul_one]
  exact_mod_cast Iff.rfl

/-- **The integer of a decimal is the number that it denotes.** -/
theorem toInt?_eq_some_iff (n : ℤ) : d.toInt? = some n ↔ d.toRat = n := by
  unfold toInt?
  split
  · rename_i hzero
    rw [toRat_eq_zero_iff.2 hzero, Option.some.injEq]
    exact_mod_cast Iff.rfl
  split
  · -- without digits behind the point, the zeros before it are filled in
    rename_i hscale
    have hcast := cast_digitsAt hscale
    rw [zpow_zero, mul_one] at hcast
    rw [Option.some.injEq, ← hcast, Int.cast_inj]
  rename_i hscale
  have hpos : ((tenPow d.scale.toNat : ℕ) : ℤ) ≠ 0 := by
    exact_mod_cast (tenPow_pos _).ne'
  rw [toRat_eq_intCast_iff (by omega)]
  split
  · -- otherwise the digits behind the point have to be zeros
    rename_i hmod
    rw [Option.some.injEq]
    exact Int.ediv_eq_iff_eq_mul_left hpos (Int.dvd_of_emod_eq_zero hmod)
  · rename_i hmod
    refine ⟨fun h => (by cases h), fun h => absurd ?_ hmod⟩
    rw [h, Int.mul_emod_left]

theorem toInt?_congr (h : a.toRat = b.toRat) : a.toInt? = b.toInt? := by
  refine Option.ext fun n => ?_
  rw [toInt?_eq_some_iff, toInt?_eq_some_iff, h]

theorem count?_congr (h : a.toRat = b.toRat) : a.count? = b.count? := by
  unfold count?
  rw [toInt?_congr h]

/-- **The count of a decimal is the number that it denotes**, if that is below the bound. -/
theorem count?_eq_some_iff {n : ℕ} : d.count? = some n ↔ d.toRat = n ∧ n < countBound := by
  have hint := toInt?_eq_some_iff (d := d) n
  rw [Int.cast_natCast] at hint
  rw [← hint]
  unfold count?
  split
  · rename_i m hm
    have hsame : some (Int.ofNat m) = some (n : ℤ) ↔ m = n := by
      rw [Option.some.injEq]
      exact Int.ofNat_inj
    rw [hm, hsame]
    split
    · rename_i hlt
      rw [Option.some.injEq]
      exact ⟨fun h => ⟨h, h ▸ hlt⟩, And.left⟩
    · rename_i hge
      exact ⟨fun h => (by cases h), fun h => absurd (h.1 ▸ h.2) hge⟩
  · rename_i hnot
    exact ⟨fun h => (by cases h), fun h => absurd h.1 (hnot n)⟩

/-! ## The shortest form -/

/-- What is left behind the zeros does not end in a zero, and gives the number back with them. -/
theorem stripZeros_spec {n : ℕ} (hn : n ≠ 0) :
    (stripZeros n).2 * tenPow (stripZeros n).1 = n ∧ (stripZeros n).2 % 10 ≠ 0 := by
  induction n using Nat.strongRecOn with
  | ind n ih =>
    rw [stripZeros]
    split
    · rename_i h
      obtain ⟨hprod, hlast⟩ := ih (n / 10) (by omega) (by omega)
      refine ⟨?_, hlast⟩
      have hpow : tenPow ((stripZeros (n / 10)).1 + 1) = tenPow (stripZeros (n / 10)).1 * 10 := rfl
      simp only [hpow]
      rw [← Nat.mul_assoc, hprod]
      omega
    · rename_i h
      have hone : tenPow 0 = 1 := rfl
      exact ⟨by rw [hone, Nat.mul_one], by omega⟩

/-- The shortest form denotes the same number. -/
theorem toRat_normalize (d : Decimal) : d.normalize.toRat = d.toRat := by
  unfold normalize
  split
  · rename_i hzero
    rw [toRat_eq_zero_iff.2 hzero, toRat_eq_zero_iff]
  · rename_i hne
    obtain ⟨hprod, -⟩ := stripZeros_spec (Int.natAbs_ne_zero.2 hne)
    generalize stripZeros d.digits.natAbs = stripped at hprod
    obtain ⟨count, rest⟩ := stripped
    have hdigits : (d.digits : ℚ) = d.digits.sign * (rest * 10 ^ (count : ℤ)) := by
      rw [zpow_natCast, ← cast_tenPow, ← Nat.cast_mul, hprod, ← Int.cast_natCast, ← Int.cast_mul,
        Int.sign_mul_natAbs]
    calc ((d.digits.sign * rest : ℤ) : ℚ) * 10 ^ (-(d.scale - count))
        = d.digits.sign * (rest * 10 ^ (count : ℤ)) * 10 ^ (-d.scale) := by
          rw [neg_sub, sub_eq_add_neg, ten_zpow_add]
          push_cast
          ring
      _ = d.toRat := by rw [← hdigits, toRat]

/-- The shortest form of a number other than zero does not end in a zero. -/
theorem not_ten_dvd_normalize (h : d.digits ≠ 0) : ¬ (10 : ℤ) ∣ d.normalize.digits := by
  obtain ⟨-, hlast⟩ := stripZeros_spec (Int.natAbs_ne_zero.2 h)
  unfold normalize
  rw [if_neg h]
  intro hdvd
  have hnat := Int.natAbs_dvd_natAbs.2 hdvd
  simp only [Int.natAbs_mul, Int.natAbs_sign_of_ne_zero h, one_mul, Int.natAbs_natCast] at hnat
  exact hlast (Nat.mod_eq_zero_of_dvd hnat)

/-- A number whose digits do not end in a zero cannot be written with a smaller scale. -/
theorem scale_le_of_toRat_eq (ha : ¬ (10 : ℤ) ∣ a.digits) (h : a.toRat = b.toRat) :
    a.scale ≤ b.scale := by
  by_contra hlt
  -- with a smaller scale for `b`, the digits of `a` are those of `b` with zeros behind them
  obtain ⟨k, hk⟩ : ∃ k : ℕ, a.scale = b.scale + (k + 1) := ⟨(a.scale - b.scale - 1).toNat, by omega⟩
  have hdigits : (a.digits : ℚ) = b.digits * 10 ^ (k + 1) := by
    have hpos := (ten_zpow_pos a.scale).ne'
    have hcancel : (10 : ℚ) ^ (-b.scale) * 10 ^ a.scale = 10 ^ (k + 1) := by
      rw [← ten_zpow_add, hk, neg_add_cancel_left]
      exact_mod_cast rfl
    calc (a.digits : ℚ) = a.toRat * 10 ^ a.scale := by
          rw [toRat, mul_assoc, ← ten_zpow_add, neg_add_cancel, zpow_zero, mul_one]
      _ = b.digits * 10 ^ (k + 1) := by rw [h, toRat, mul_assoc, hcancel]
  have hint : a.digits = b.digits * 10 ^ (k + 1) := by exact_mod_cast hdigits
  exact ha ⟨b.digits * 10 ^ k, by rw [hint]; ring⟩

/-- **Two decimals have the same shortest form exactly if they denote the same number.** -/
theorem normalize_eq_iff : a.normalize = b.normalize ↔ a.toRat = b.toRat := by
  constructor
  · intro h
    rw [← toRat_normalize a, ← toRat_normalize b, h]
  intro h
  -- zero has a form of its own, as its scale says nothing
  by_cases hzero : a.digits = 0
  · have hb : b.digits = 0 := toRat_eq_zero_iff.1 (h ▸ toRat_eq_zero_iff.2 hzero)
    unfold normalize
    rw [if_pos hzero, if_pos hb]
  · have hb : b.digits ≠ 0 := fun hb => hzero (toRat_eq_zero_iff.1 (h ▸ toRat_eq_zero_iff.2 hb))
    have hnormal : a.normalize.toRat = b.normalize.toRat := by
      rw [toRat_normalize, toRat_normalize, h]
    have hscale : a.normalize.scale = b.normalize.scale :=
      le_antisymm (scale_le_of_toRat_eq (not_ten_dvd_normalize hzero) hnormal)
        (scale_le_of_toRat_eq (not_ten_dvd_normalize hb) hnormal.symm)
    have hdigits : a.normalize.digits = b.normalize.digits := by
      unfold toRat at hnormal
      rw [hscale, mul_left_inj' (ten_zpow_pos _).ne'] at hnormal
      exact_mod_cast hnormal
    cases ha' : a.normalize
    cases hb' : b.normalize
    simp only [ha', hb'] at hscale hdigits
    rw [hscale, hdigits]

end Logo.Decimal
