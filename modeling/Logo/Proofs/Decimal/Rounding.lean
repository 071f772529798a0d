import Logo.Decimal.Division
import Logo.Proofs.Decimal.Value

/-!
# Rounding to significant digits

A quotient is rounded twice, to different numbers of digits. What the two steps have in common is
that no number with few digits gets to the other side (`Faithful`): a number up to such a number is
rounded to one up to it, and a number from such a number on to one from it on. This is kept when
roundings follow each other (`Faithful.trans`), and it is all that accuracy needs.

* `Faithful.eq_of_hasDigits`, `Faithful.sign_eq`, `Faithful.abs_sub_lt`: a faithful rounding is
  exact where it can be, keeps the sign, and is off by less than a unit in the last digit.
* `faithful_of_floor_le`: a number that is cut behind a digit, up or down, is rounded faithfully.
* `toRat_shorten`: `shorten` rounds a positive number half up and cuts a negative one.
-/

namespace Logo.Decimal

variable {k l : ℕ} {x y z : ℚ}

/-- The number can be written with at most `k` significant digits. -/
def HasDigits (k : ℕ) (x : ℚ) : Prop :=
  ∃ n j : ℤ, |n| < 10 ^ k ∧ x = n * 10 ^ j

theorem hasDigits_zero : HasDigits k 0 :=
  ⟨0, 0, by rw [abs_zero]; positivity, by rw [Int.cast_zero, zero_mul]⟩

theorem HasDigits.neg (h : HasDigits k x) : HasDigits k (-x) := by
  obtain ⟨n, j, hn, rfl⟩ := h
  exact ⟨-n, j, by rwa [abs_neg], by push_cast; ring⟩

theorem HasDigits.mono (h : HasDigits k x) (hkl : k ≤ l) : HasDigits l x := by
  obtain ⟨n, j, hn, hx⟩ := h
  exact ⟨n, j, hn.trans_le (pow_le_pow_right₀ (by decide) hkl), hx⟩

/-- The digits may be nines that were rounded up: a power of ten has one digit only. -/
theorem hasDigits_of_abs_le (hk : 0 < k) {n : ℤ} (hn : |n| ≤ 10 ^ k) (j : ℤ) :
    HasDigits k (n * 10 ^ j) := by
  rcases hn.lt_or_eq with hlt | heq
  · exact ⟨n, j, hlt, rfl⟩
  · have hone : HasDigits k (10 ^ (k + j)) :=
      ⟨1, k + j, by rw [abs_one]; exact one_lt_pow₀ (by decide) hk.ne', by
        rw [Int.cast_one, one_mul]⟩
    have hpow : (10 : ℚ) ^ ((k : ℤ) + j) = 10 ^ k * 10 ^ j := by
      rw [ten_zpow_add, zpow_natCast]
    rw [hpow] at hone
    rcases eq_or_eq_neg_of_abs_eq heq with rfl | rfl
    · exact_mod_cast hone
    · have hneg := hone.neg
      rw [← neg_mul] at hneg
      exact_mod_cast hneg

/-! ## Faithful roundings -/

/-- The number `y` is a rounding of `x` to `k` digits: no number with `k` digits comes between. -/
def Faithful (k : ℕ) (x y : ℚ) : Prop :=
  ∀ z, HasDigits k z → (z ≤ x → z ≤ y) ∧ (x ≤ z → y ≤ z)

theorem Faithful.refl (k : ℕ) (x : ℚ) : Faithful k x x :=
  fun _ _ => ⟨id, id⟩

/-- A rounding may follow one to more digits. -/
theorem Faithful.trans (h : Faithful l x y) (h' : Faithful k y z) (hkl : k ≤ l) :
    Faithful k x z := by
  intro t ht
  obtain ⟨hbelow, habove⟩ := h t (ht.mono hkl)
  obtain ⟨hbelow', habove'⟩ := h' t ht
  exact ⟨hbelow' ∘ hbelow, habove' ∘ habove⟩

theorem Faithful.neg (h : Faithful k x y) : Faithful k (-x) (-y) := by
  intro t ht
  obtain ⟨hbelow, habove⟩ := h (-t) ht.neg
  exact ⟨fun hle => le_neg.1 (habove (le_neg.1 hle)), fun hle => neg_le.1 (hbelow (neg_le.1 hle))⟩

/-- **A rounding is exact where it can be.** -/
theorem Faithful.eq_of_hasDigits (h : Faithful k x y) (hx : HasDigits k x) : y = x :=
  le_antisymm ((h x hx).2 le_rfl) ((h x hx).1 le_rfl)

/-- One unit in the `k`-th significant digit of a number. -/
def lastUnit (k : ℕ) (x : ℚ) : ℚ :=
  10 ^ (Int.log 10 |x| + 1 - k)

theorem lastUnit_pos (k : ℕ) (x : ℚ) : 0 < lastUnit k x :=
  ten_zpow_pos _

theorem lastUnit_neg (k : ℕ) (x : ℚ) : lastUnit k (-x) = lastUnit k x := by
  rw [lastUnit, abs_neg, lastUnit]

/-- A unit of the `k`-th digit is `k` places behind the leading power of ten. -/
theorem pow_mul_lastUnit (k : ℕ) (x : ℚ) : 10 ^ k * lastUnit k x = 10 ^ (Int.log 10 |x| + 1) := by
  rw [lastUnit, ← zpow_natCast, ← ten_zpow_add, add_sub_cancel]

/-- A number other than zero has a digit before its `k`-th one that is no zero. -/
theorem zpow_le_abs (hx : x ≠ 0) : (10 : ℚ) ^ ((k : ℤ) - 1 + (Int.log 10 |x| + 1 - k)) ≤ |x| := by
  have hlog := Int.zpow_log_le_self (b := 10) (by decide) (abs_pos.2 hx)
  rwa [show (k : ℤ) - 1 + (Int.log 10 |x| + 1 - k) = Int.log 10 |x| by ring]

/-- A number is below the power of ten that is `k` places before the unit of its `k`-th digit. -/
theorem abs_lt_pow_mul_lastUnit (k : ℕ) (x : ℚ) : |x| < 10 ^ k * lastUnit k x := by
  rw [pow_mul_lastUnit]
  exact Int.lt_zpow_succ_log_self (b := 10) (by decide) |x|

/-- **A rounding keeps the sign.** -/
theorem Faithful.sign_eq (h : Faithful k x y) (hk : 0 < k) :
    SignType.sign y = SignType.sign x := by
  -- the leading digit of a positive number, with zeros behind it, is below its rounding
  have hpos {x y : ℚ} (h : Faithful k x y) (hx : 0 < x) : 0 < y := by
    have hlead : HasDigits k (10 ^ Int.log 10 x) :=
      ⟨1, Int.log 10 x, by rw [abs_one]; exact one_lt_pow₀ (by decide) hk.ne', by
        rw [Int.cast_one, one_mul]⟩
    exact (ten_zpow_pos _).trans_le ((h _ hlead).1 (Int.zpow_log_le_self (b := 10) (by decide) hx))
  rcases lt_trichotomy x 0 with hx | rfl | hx
  · have hy := hpos h.neg (neg_pos.2 hx)
    rw [sign_neg hx, sign_neg (neg_pos.1 hy)]
  · rw [h.eq_of_hasDigits hasDigits_zero]
  · rw [sign_pos hx, sign_pos (hpos h hx)]

/-- The digits of a number up to the `k`-th one, as an integer. -/
theorem abs_div_lastUnit_lt (k : ℕ) (x : ℚ) : |x / lastUnit k x| < 10 ^ k := by
  rw [abs_div, abs_of_pos (lastUnit_pos k x), div_lt_iff₀ (lastUnit_pos k x)]
  exact abs_lt_pow_mul_lastUnit k x

/-- **A rounding is off by less than one unit in the last digit.** -/
theorem Faithful.abs_sub_lt (h : Faithful k x y) (hk : 0 < k) : |y - x| < lastUnit k x := by
  have hu := lastUnit_pos k x
  obtain ⟨hlow, hhigh⟩ := abs_lt.1 (abs_div_lastUnit_lt k x)
  -- `x` lies between two neighbours with `k` digits, and so does its rounding
  have hfloor : (⌊x / lastUnit k x⌋ : ℚ) * lastUnit k x ≤ x :=
    (le_div_iff₀ hu).1 (Int.floor_le _)
  have hceil : x < (⌊x / lastUnit k x⌋ + 1 : ℤ) * lastUnit k x := by
    rw [← div_lt_iff₀ hu, Int.cast_add, Int.cast_one]
    exact Int.lt_floor_add_one _
  have hbelow : -10 ^ k ≤ ⌊x / lastUnit k x⌋ := Int.le_floor.2 (by exact_mod_cast hlow.le)
  have habove : ⌊x / lastUnit k x⌋ < 10 ^ k := Int.floor_lt.2 (by exact_mod_cast hhigh)
  have hdigits : HasDigits k (⌊x / lastUnit k x⌋ * lastUnit k x) :=
    hasDigits_of_abs_le hk (abs_le.2 ⟨hbelow, habove.le⟩) _
  have hnext : HasDigits k ((⌊x / lastUnit k x⌋ + 1 : ℤ) * lastUnit k x) :=
    hasDigits_of_abs_le hk (abs_le.2 ⟨by omega, by omega⟩) _
  have hy := (h _ hdigits).1 hfloor
  have hy' := (h _ hnext).2 hceil.le
  rcases hfloor.eq_or_lt with hexact | hlt
  · rw [h.eq_of_hasDigits (hexact ▸ hdigits), sub_self, abs_zero]
    exact hu
  · push_cast at hy' hceil
    rw [abs_lt]
    constructor <;> linarith

/-! ## Cutting behind a digit -/

/-- A number with `k` digits that is not above `x` is not above what is left of `x` when it is cut
behind its `k`-th digit or a later one. -/
theorem le_of_floor_le (hk : 0 < k) (hz : HasDigits k z) {i n : ℤ}
    (hx : (10 : ℚ) ^ ((k : ℤ) - 1 + i) ≤ |x|) (hn : ⌊x / 10 ^ i⌋ ≤ n) (h : z ≤ x) :
    z ≤ n * 10 ^ i := by
  obtain ⟨m, j, hm, rfl⟩ := hz
  have hi := ten_zpow_pos i
  -- it is enough to compare with a multiple of the unit at which `x` is cut
  have hmultiple {p : ℤ} (hp : (p : ℚ) * 10 ^ i ≤ x) : (p : ℚ) * 10 ^ i ≤ n * 10 ^ i := by
    have hfloor : p ≤ ⌊x / 10 ^ i⌋ := Int.le_floor.2 ((le_div_iff₀ hi).2 hp)
    have hle : (p : ℚ) ≤ n := by exact_mod_cast hfloor.trans hn
    exact mul_le_mul_of_nonneg_right hle hi.le
  rcases le_or_gt i j with hij | hij
  · obtain ⟨p, rfl⟩ := Int.le.dest hij
    have hmul : (m : ℚ) * 10 ^ (i + (p : ℤ)) = (m * 10 ^ p : ℤ) * 10 ^ i := by
      rw [ten_zpow_add, zpow_natCast]
      push_cast
      ring
    rw [hmul] at h ⊢
    exact hmultiple h
  · -- the number does not reach the leading digit of `x`
    have hsmall : |(m : ℚ) * 10 ^ j| < 10 ^ ((k : ℤ) - 1 + i) := by
      have hm' : |(m : ℚ)| < 10 ^ k := by exact_mod_cast hm
      have hj := ten_zpow_pos j
      calc |(m : ℚ) * 10 ^ j| = |(m : ℚ)| * 10 ^ j := by rw [abs_mul, abs_of_pos hj]
        _ < 10 ^ k * 10 ^ j := mul_lt_mul_of_pos_right hm' hj
        _ = 10 ^ ((k : ℤ) + j) := by rw [ten_zpow_add, zpow_natCast]
        _ ≤ 10 ^ ((k : ℤ) - 1 + i) := zpow_le_zpow_right₀ (by norm_num) (by omega)
    rcases le_or_gt 0 x with hpos | hneg
    · rw [abs_of_nonneg hpos] at hx
      have hlead : (10 : ℚ) ^ ((k : ℤ) - 1 + i) = (10 ^ (k - 1) : ℤ) * 10 ^ i := by
        rw [ten_zpow_add, show (k : ℤ) - 1 = (k - 1 : ℕ) by omega, zpow_natCast]
        push_cast
        rfl
      rw [hlead] at hx hsmall
      exact (le_abs_self _).trans (hsmall.le.trans (hmultiple hx))
    · rw [abs_of_neg hneg] at hx
      have hz := neg_abs_le ((m : ℚ) * 10 ^ j)
      linarith

/-- **A number that is cut behind its `k`-th digit or a later one, up or down, is rounded
faithfully.** -/
theorem faithful_of_floor_le (hk : 0 < k) {i n : ℤ} (hx : (10 : ℚ) ^ ((k : ℤ) - 1 + i) ≤ |x|)
    (hfloor : ⌊x / 10 ^ i⌋ ≤ n) (hceil : n ≤ ⌈x / 10 ^ i⌉) : Faithful k x (n * 10 ^ i) := by
  intro z hz
  refine ⟨le_of_floor_le hk hz hx hfloor, fun h => ?_⟩
  -- seen from the other side, the ceiling is a floor
  have hmirror : ⌊-x / 10 ^ i⌋ ≤ -n := by
    rw [neg_div, Int.floor_neg]
    omega
  have hle := le_of_floor_le hk hz.neg (by rwa [abs_neg]) hmirror (neg_le_neg h)
  push_cast at hle
  linarith

/-! ## Half up for positive numbers, towards zero for negative ones -/

/-- The digits that are dropped amount to half a unit or more. -/
def RoundsUp (k : ℕ) (x : ℚ) : Prop :=
  1 / 2 ≤ Int.fract (|x| / lastUnit k x)

instance (k : ℕ) (x : ℚ) : Decidable (RoundsUp k x) :=
  inferInstanceAs (Decidable (_ ≤ _))

/-- Rounds a positive number half up to `k` digits, and cuts a negative one behind the `k`-th
digit. -/
def roundTo (k : ℕ) (x : ℚ) : ℚ :=
  (if x < 0 then ⌈x / lastUnit k x⌉ else round (x / lastUnit k x) : ℤ) * lastUnit k x

/-- Rounding half up, by the digits behind the point. -/
theorem round_eq_ite (x : ℚ) : round x = if 1 / 2 ≤ Int.fract x then ⌊x⌋ + 1 else ⌊x⌋ := by
  have hfract := Int.fract_lt_one x
  have hsum := Int.floor_add_fract x
  have hnonneg := Int.fract_nonneg x
  rw [round_eq, Int.floor_eq_iff]
  split
  · push_cast
    constructor <;> linarith
  · rename_i hlt
    constructor <;> linarith

theorem floor_le_round (x : ℚ) : ⌊x⌋ ≤ round x := by
  rw [round_eq_ite]
  split <;> omega

theorem round_le_ceil (x : ℚ) : round x ≤ ⌈x⌉ := by
  rw [round_eq_ite]
  split
  · rename_i hhalf
    -- a number with digits behind the point is below its ceiling
    have hlt : (⌊x⌋ : ℚ) < x := by
      have hsum := Int.floor_add_fract x
      linarith
    exact Int.lt_ceil.2 hlt
  · exact Int.floor_le_ceil x

theorem roundTo_zero (k : ℕ) : roundTo k 0 = 0 := by
  rw [roundTo, if_neg (lt_irrefl _), zero_div, round_zero, Int.cast_zero, zero_mul]

/-- The digits that are kept, rounded or cut, lie between floor and ceiling. -/
theorem exists_roundTo_eq (k : ℕ) (x : ℚ) : ∃ n : ℤ, roundTo k x = n * lastUnit k x ∧
    ⌊x / lastUnit k x⌋ ≤ n ∧ n ≤ ⌈x / lastUnit k x⌉ := by
  refine ⟨_, rfl, ?_⟩
  split
  · exact ⟨Int.floor_le_ceil _, le_rfl⟩
  · exact ⟨floor_le_round _, round_le_ceil _⟩

/-- Both ways of rounding to `k` digits are faithful. -/
theorem faithful_roundTo (hk : 0 < k) (x : ℚ) : Faithful k x (roundTo k x) := by
  by_cases hx : x = 0
  · rw [hx, roundTo_zero]
    exact .refl k 0
  · obtain ⟨n, hn, hfloor, hceil⟩ := exists_roundTo_eq k x
    rw [hn]
    exact faithful_of_floor_le hk (zpow_le_abs hx) hfloor hceil

/-- Its result has no more digits than were asked for. -/
theorem hasDigits_roundTo (hk : 0 < k) (x : ℚ) : HasDigits k (roundTo k x) := by
  obtain ⟨n, hn, hfloor, hceil⟩ := exists_roundTo_eq k x
  obtain ⟨hlow, hhigh⟩ := abs_lt.1 (abs_div_lastUnit_lt k x)
  have hbelow : -10 ^ k ≤ ⌊x / lastUnit k x⌋ := Int.le_floor.2 (by exact_mod_cast hlow.le)
  have habove : ⌈x / lastUnit k x⌉ ≤ 10 ^ k := Int.ceil_le.2 (by exact_mod_cast hhigh.le)
  rw [hn]
  exact hasDigits_of_abs_le hk (abs_le.2 ⟨hbelow.trans hfloor, hceil.trans habove⟩) _

theorem roundsUp_neg (k : ℕ) (x : ℚ) : RoundsUp k (-x) ↔ RoundsUp k x := by
  rw [RoundsUp, RoundsUp, abs_neg, lastUnit_neg]

theorem not_roundsUp_zero (k : ℕ) : ¬ RoundsUp k 0 := by
  rw [RoundsUp, abs_zero, zero_div, Int.fract_zero]
  norm_num

/-- **A number and its negative are rounded to numbers that cancel**, unless the digits that are
dropped round up: then one unit in the last digit is left. -/
theorem roundTo_add_roundTo_neg (k : ℕ) (x : ℚ) :
    roundTo k x + roundTo k (-x) = if RoundsUp k x then lastUnit k x else 0 := by
  have hpositive {x : ℚ} (hx : 0 < x) :
      roundTo k x + roundTo k (-x) = if RoundsUp k x then lastUnit k x else 0 := by
    have hup : RoundsUp k x ↔ 1 / 2 ≤ Int.fract (x / lastUnit k x) := by
      rw [RoundsUp, abs_of_pos hx]
    rw [roundTo, roundTo, if_neg hx.le.not_gt, if_pos (neg_lt_zero.2 hx), lastUnit_neg, neg_div,
      Int.ceil_neg, round_eq_ite]
    simp only [hup]
    split <;> push_cast <;> ring
  -- a negative number is seen from the other side
  rcases lt_trichotomy x 0 with hx | rfl | hx
  · have hmirror := hpositive (neg_pos.2 hx)
    simp only [roundsUp_neg, neg_neg, lastUnit_neg] at hmirror
    rw [add_comm, hmirror]
  · rw [neg_zero, roundTo_zero, if_neg (not_roundsUp_zero k), add_zero]
  · exact hpositive hx

/-! ## The last step of a division -/

/-- A number has at most `k` digits exactly if it is below the power `10 ^ k`. -/
theorem digitCount_le_iff {n : ℕ} (hk : 0 < k) : digitCount n ≤ k ↔ n < 10 ^ k := by
  rw [digitCount, digitChars_eq]
  exact Nat.length_toDigits_le_iff (by decide) hk

/-- Every number has a digit; zero is written with one. -/
theorem digitCount_pos (n : ℕ) : 0 < digitCount n := by
  rw [digitCount, digitChars_eq]
  exact Nat.length_toDigits_pos

/-- The digits of a positive number as a bound from below. -/
theorem pow_le_of_lt_digitCount {n : ℕ} (hn : 0 < n) (h : k < digitCount n) : 10 ^ k ≤ n := by
  rcases Nat.eq_zero_or_pos k with rfl | hk
  · rwa [pow_zero]
  · rwa [← not_lt, ← digitCount_le_iff hk, not_le]

variable {d : Decimal}

/-- The digits of a number and its scale tell where its leading digit stands. -/
theorem log_abs_toRat (h : d.digits ≠ 0) :
    Int.log 10 |d.toRat| = digitCount d.digits.natAbs - 1 - d.scale := by
  have hpos : 0 < |d.toRat| := abs_pos.2 (mt toRat_eq_zero_iff.1 h)
  have hcount := digitCount_pos d.digits.natAbs
  have habs : |d.toRat| = d.digits.natAbs * 10 ^ (-d.scale) := by
    rw [toRat, abs_mul, abs_of_pos (ten_zpow_pos _), Nat.cast_natAbs, Int.cast_abs]
  have hscale := ten_zpow_pos (-d.scale)
  -- the digits give a bound from above and one from below, and both are powers of ten
  apply le_antisymm
  · have hlt := (digitCount_le_iff hcount).1 le_rfl
    refine Int.lt_add_one_iff.1 ((Int.lt_zpow_iff_log_lt (b := 10) (by decide) hpos).1 ?_)
    rw [habs, show (digitCount d.digits.natAbs : ℤ) - 1 - d.scale + 1 =
      digitCount d.digits.natAbs + -d.scale by ring, Nat.cast_ofNat, ten_zpow_add, zpow_natCast]
    exact mul_lt_mul_of_pos_right (by exact_mod_cast hlt) hscale
  · have hle := pow_le_of_lt_digitCount (Int.natAbs_pos.2 h) (Nat.sub_one_lt hcount.ne')
    refine (Int.zpow_le_iff_le_log (b := 10) (by decide) hpos).1 ?_
    rw [habs, show (digitCount d.digits.natAbs : ℤ) - 1 - d.scale =
      (digitCount d.digits.natAbs - 1 : ℕ) + -d.scale by omega, Nat.cast_ofNat, ten_zpow_add,
      zpow_natCast]
    exact mul_le_mul_of_nonneg_right (by exact_mod_cast hle) hscale.le

/-- Integer division rounds as the quotient of rationals does. -/
theorem tdiv_rounded (n : ℤ) {v : ℕ} (hv : 0 < v) :
    (if (v : ℤ) ≤ 2 * n.tmod v then n.tdiv v + 1 else n.tdiv v) =
      if n < 0 then ⌈(n / v : ℚ)⌉ else round (n / v : ℚ) := by
  rcases le_or_gt 0 n with hn | hn
  · have hhalf : (1 / 2 : ℚ) ≤ Int.fract (n / v : ℚ) ↔ (v : ℤ) ≤ 2 * (n % v) := by
      rw [Int.fract_div_intCast_eq_div_intCast_mod, div_le_div_iff₀ two_pos (by exact_mod_cast hv),
        one_mul, mul_comm]
      exact_mod_cast Iff.rfl
    rw [if_neg hn.not_gt, round_eq_ite, Rat.floor_intCast_div_natCast,
      Int.tdiv_eq_ediv_of_nonneg hn, Int.tmod_eq_emod_of_nonneg hn]
    simp only [hhalf]
  · -- what is left of a negative number is negative
    have hrest : n.tmod v ≤ 0 := by
      rw [← neg_neg n, Int.neg_tmod, Int.tmod_eq_emod_of_nonneg (by omega), neg_nonpos]
      exact Int.emod_nonneg _ (by omega)
    rw [if_neg (by omega), if_pos hn, Rat.ceil_intCast_div_natCast, ← neg_neg n, Int.neg_tdiv,
      Int.tdiv_eq_ediv_of_nonneg (by omega), neg_neg n]

/-- The digits that are left when the surplus is dropped. -/
theorem shorten_eq {surplus : ℕ} (h : digitCount d.digits.natAbs - quotientDigits = surplus) :
    d.shorten = ⟨if d.digits < 0 then ⌈(d.digits / tenPow surplus : ℚ)⌉
      else round (d.digits / tenPow surplus : ℚ), d.scale - surplus⟩ := by
  rw [← tdiv_rounded d.digits (tenPow_pos surplus), shorten, h]
  rcases Nat.eq_zero_or_pos surplus with rfl | hpos
  · simp [tenPow]
  · simp [hpos]

/-- The sign of a number is that of its digits. -/
theorem toRat_lt_zero_iff : d.toRat < 0 ↔ d.digits < 0 := by
  rw [toRat, mul_neg_iff, or_iff_right (fun h => (ten_zpow_pos _).not_gt h.2),
    and_iff_left (ten_zpow_pos _), Int.cast_lt_zero]

/-- The unit of the last digit that is kept, where there is a surplus. -/
theorem lastUnit_toRat {surplus : ℕ} (hne : d.digits ≠ 0)
    (h : digitCount d.digits.natAbs = k + surplus) :
    lastUnit k d.toRat = tenPow surplus * 10 ^ (-d.scale) := by
  rw [lastUnit, log_abs_toRat hne, h, cast_tenPow, ← zpow_natCast, ← ten_zpow_add]
  congr 1
  push_cast
  ring

/-- **The last step of a division rounds a positive number half up and cuts a negative one.** -/
theorem toRat_shorten (d : Decimal) : d.shorten.toRat = roundTo quotientDigits d.toRat := by
  rcases le_or_gt (digitCount d.digits.natAbs) quotientDigits with h | h
  · -- a number with few digits is left as it is by both
    have hdigits : HasDigits quotientDigits d.toRat := by
      refine ⟨d.digits, -d.scale, ?_, rfl⟩
      rw [digitCount_le_iff (by decide)] at h
      rw [Int.abs_eq_natAbs]
      exact_mod_cast h
    rw [shorten_eq (Nat.sub_eq_zero_of_le h),
      (faithful_roundTo (by decide) _).eq_of_hasDigits hdigits]
    simp [toRat, tenPow]
  · have hne : d.digits ≠ 0 := by
      intro hzero
      rw [hzero, ← not_le, digitCount_le_iff (by decide)] at h
      exact h (by decide)
    -- otherwise both cut at the same unit, that of the last digit which is kept
    obtain ⟨surplus, hsurplus⟩ := Nat.exists_eq_add_of_le h.le
    have hunit := lastUnit_toRat hne hsurplus
    have hkept : d.toRat / lastUnit quotientDigits d.toRat = d.digits / tenPow surplus := by
      rw [hunit, toRat, mul_div_mul_right _ _ (ten_zpow_pos _).ne']
    have hscale : (10 : ℚ) ^ (-(d.scale - surplus)) = tenPow surplus * 10 ^ (-d.scale) := by
      rw [neg_sub, sub_eq_add_neg, ten_zpow_add, zpow_natCast, cast_tenPow]
    rw [shorten_eq (Nat.sub_eq_of_eq_add' hsurplus), roundTo, hkept, hunit, ← hscale]
    simp only [toRat_lt_zero_iff]
    rfl

end Logo.Decimal
