import Logo.Proofs.Decimal.Value
import Logo.Proofs.Scan.RoundTrip
import Mathlib

/-!
# Printed numbers read back

A number is written in plain notation: a sign if it is negative, digits, and perhaps a point with
further digits. That form is `PlainNumeral`, and everything that reads numerals is looked at on it
alone.

* `PlainNumeral.parseChars?_chars`, `PlainNumeral.ofChars_chars`, `PlainNumeral.isSpelledWord`: a
  plain numeral is read as the number that it denotes, as a text of its own and as a word of the
  source.
* `Decimal.exists_numeral`: what is written for a number is a plain numeral that denotes it.
* `Decimal.render_reads_back`: the round trip, and equal texts for equal numbers only.
-/

namespace Logo

/-- A numeral in plain notation. -/
structure PlainNumeral where
  negative : Bool
  /-- The digits before the point. -/
  whole : List Char
  /-- The digits behind the point; there is no point if there are none. -/
  fraction : List Char
  whole_ne_nil : whole ≠ []
  isDigit : ∀ c ∈ whole ++ fraction, c.isDigit = true

namespace PlainNumeral

/-- The minus sign, if the numeral has one. -/
def sign (p : PlainNumeral) : List Char :=
  if p.negative then ['-'] else []

/-- The point and the digits behind it. -/
def tail (p : PlainNumeral) : List Char :=
  if p.fraction.isEmpty then [] else '.' :: p.fraction

/-- The text of the numeral. -/
def chars (p : PlainNumeral) : List Char :=
  p.sign ++ (p.whole ++ p.tail)

/-- The number that its digits denote without the sign and the point. -/
def magnitude (p : PlainNumeral) : ℕ :=
  Nat.ofDigitChars 10 (p.whole ++ p.fraction) 0

/-- The decimal that the numeral denotes. -/
def decimal (p : PlainNumeral) : Decimal :=
  ⟨if p.negative then -p.magnitude else p.magnitude, p.fraction.length⟩

variable (p : PlainNumeral)

/-! ## Characters -/

theorem ne_of_isDigit {c d : Char} (hc : c.isDigit = true) (hd : d.isDigit = false) : c ≠ d := by
  rintro rfl
  rw [hc] at hd
  cases hd

theorem isDigit_whole {c : Char} (h : c ∈ p.whole) : c.isDigit = true :=
  p.isDigit c (List.mem_append_left _ h)

theorem isDigit_fraction {c : Char} (h : c ∈ p.fraction) : c.isDigit = true :=
  p.isDigit c (List.mem_append_right _ h)

theorem tail_of_nil (h : p.fraction = []) : p.tail = [] := by
  rw [tail, h, List.isEmpty_nil, if_pos rfl]

theorem tail_of_ne_nil (h : p.fraction ≠ []) : p.tail = '.' :: p.fraction := by
  rw [tail, List.isEmpty_eq_false_iff.2 h, if_neg Bool.false_ne_true]

/-- There is a digit before the point. -/
theorem exists_whole_eq : ∃ c rest, p.whole = c :: rest ∧ c.isDigit = true := by
  obtain ⟨c, rest, hwhole⟩ := List.exists_cons_of_ne_nil p.whole_ne_nil
  exact ⟨c, rest, hwhole, p.isDigit_whole (hwhole ▸ List.mem_cons_self)⟩

/-- A plain numeral begins with a minus sign or with a digit. -/
theorem exists_chars_eq : ∃ c rest, p.chars = c :: rest ∧ (c = '-' ∨ c.isDigit = true) := by
  unfold chars sign
  split
  · exact ⟨'-', _, rfl, Or.inl rfl⟩
  · obtain ⟨c, rest, hwhole, hc⟩ := p.exists_whole_eq
    exact ⟨c, rest ++ p.tail, by rw [hwhole]; rfl, Or.inr hc⟩

theorem mem_sign {c : Char} (h : c ∈ p.sign) : c = '-' := by
  unfold sign at h
  split at h
  · exact List.mem_singleton.1 h
  · cases h

theorem mem_tail {c : Char} (h : c ∈ p.tail) : c = '.' ∨ c.isDigit = true := by
  unfold tail at h
  split at h
  · cases h
  · rcases List.mem_cons.1 h with h | h
    · exact Or.inl h
    · exact Or.inr (p.isDigit_fraction h)

/-- Signs, points and digits are all that a plain numeral has in it. -/
theorem mem_chars {c : Char} (h : c ∈ p.chars) : c = '-' ∨ c = '.' ∨ c.isDigit = true := by
  rcases List.mem_append.1 h with h | h
  · exact Or.inl (p.mem_sign h)
  · rcases List.mem_append.1 h with h | h
    · exact Or.inr (Or.inr (p.isDigit_whole h))
    · exact Or.inr (p.mem_tail h)

/-! ## Reading the text of a number -/

/-- A text is split where the first of the characters in question stands, or at its end. -/
theorem splitBefore_append {q : Char → Bool} {lead rest : List Char}
    (hlead : ∀ c ∈ lead, q c = false) (hrest : ∀ c ∈ rest.head?, q c = true) :
    Decimal.splitBefore q (lead ++ rest) = (lead, rest) := by
  have hnot : ∀ c ∈ lead, (!q c) = true := fun c hc => by rw [hlead c hc]; rfl
  unfold Decimal.splitBefore
  rw [List.takeWhile_append_of_pos hnot, List.dropWhile_append_of_pos hnot]
  cases rest with
  | nil => rw [List.takeWhile_nil, List.dropWhile_nil, List.append_nil]
  | cons c rest =>
    have hc : ¬ (!q c) = true := by rw [hrest c rfl]; decide
    rw [List.takeWhile_cons_of_neg (p := fun a => !q a) hc,
      List.dropWhile_cons_of_neg (p := fun a => !q a) hc, List.append_nil]

/-- The point is dropped, and the digits behind it are counted. -/
theorem splitPoint_chars : Decimal.splitPoint p.chars =
    (p.sign ++ (p.whole ++ p.fraction), p.fraction.length) := by
  have hlead : ∀ c ∈ p.sign ++ p.whole, (c == '.') = false := by
    intro c hc
    rcases List.mem_append.1 hc with hc | hc
    · rw [p.mem_sign hc]; rfl
    · exact beq_eq_false_iff_ne.2 (ne_of_isDigit (p.isDigit_whole hc) rfl)
  have htail : ∀ c ∈ p.tail.head?, (c == '.') = true := by
    intro c hc
    unfold tail at hc
    split at hc
    · cases hc
    · cases hc; rfl
  have hsplit := splitBefore_append hlead htail
  -- underscores behind the point do not count, and there are none
  have hfilter : p.fraction.filter (· != '_') = p.fraction := by
    refine List.filter_eq_self.2 fun c hc => ?_
    exact bne_iff_ne.2 (ne_of_isDigit (p.isDigit_fraction hc) rfl)
  unfold Decimal.splitPoint chars
  rw [← List.append_assoc, hsplit, ← List.append_assoc]
  by_cases hempty : p.fraction = []
  · simp only [p.tail_of_nil hempty, hempty, List.append_nil, List.length_nil]
  · simp only [p.tail_of_ne_nil hempty, hfilter]

/-- The digits of a numeral, without the sign and the point, are read as its magnitude. -/
theorem parseDigits?_digits : Decimal.parseDigits? (p.whole ++ p.fraction) = some p.magnitude := by
  obtain ⟨c, rest, hwhole, hc⟩ := p.exists_whole_eq
  have hall : ∀ d ∈ c :: (rest ++ p.fraction), d.isDigit = true := by
    intro d hd
    refine p.isDigit d ?_
    rwa [hwhole, List.cons_append]
  have hrest : (rest ++ p.fraction).all (fun d => d.isDigit || d == '_') = true := by
    refine List.all_eq_true.2 fun d hd => ?_
    rw [hall d (List.mem_cons_of_mem _ hd), Bool.true_or]
  unfold magnitude
  rw [hwhole, List.cons_append, Decimal.parseDigits?, hc, hrest, Bool.true_and, if_pos rfl,
    List.filter_eq_self.2 hall]

/-- With the sign they are read as the digits of its decimal. -/
theorem parseSigned?_digits :
    Decimal.parseSigned? (p.sign ++ (p.whole ++ p.fraction)) = some p.decimal.digits := by
  have hdigits := p.parseDigits?_digits
  unfold sign decimal
  cases p.negative with
  | true =>
    simp only [if_true, List.singleton_append, Decimal.parseSigned?, hdigits]
    rfl
  | false =>
    obtain ⟨c, rest, hwhole, hc⟩ := p.exists_whole_eq
    rw [hwhole, List.cons_append] at hdigits ⊢
    simp only [Bool.false_eq_true, if_false, List.nil_append]
    unfold Decimal.parseSigned?
    split
    · rename_i heq
      exact absurd (List.cons.inj heq).1 (ne_of_isDigit hc rfl)
    · rename_i heq
      exact absurd (List.cons.inj heq).1 (ne_of_isDigit hc rfl)
    · rw [hdigits]
      rfl

/-- A text without an exponent is read by its digits and its point. -/
theorem parseChars?_of_splitPoint {cs digits : List Char} {places : ℕ} {n : ℤ}
    (h : ∀ c ∈ cs, c = '-' ∨ c = '.' ∨ c.isDigit = true)
    (hpoint : Decimal.splitPoint cs = (digits, places)) (hn : Decimal.parseSigned? digits = some n) :
    Decimal.parseChars? cs = if Decimal.isScale places then some ⟨n, places⟩ else none := by
  have hplain : ∀ c ∈ cs, (c == 'e' || c == 'E') = false := by
    intro c hc
    rcases h c hc with rfl | rfl | hc
    · decide
    · decide
    · rw [beq_eq_false_iff_ne.2 (ne_of_isDigit hc rfl), beq_eq_false_iff_ne.2 (ne_of_isDigit hc rfl)]
      rfl
  have hsplit : Decimal.splitBefore (fun c => c == 'e' || c == 'E') (cs ++ []) = (cs, []) :=
    splitBefore_append hplain (by simp)
  rw [List.append_nil] at hsplit
  unfold Decimal.parseChars?
  rw [hsplit]
  dsimp only
  rw [hpoint]
  dsimp only
  -- by rewriting only: a step by definition would compute with the bounds of the range of scales
  rw [hn, Option.bind_eq_bind, Option.bind_some, Option.bind_some, Int.sub_zero]

/-- **A plain numeral is read as the number that it denotes.** -/
theorem parseChars?_chars (h : Decimal.isScale p.fraction.length = true) :
    Decimal.parseChars? p.chars = some p.decimal := by
  rw [parseChars?_of_splitPoint (fun c => p.mem_chars) p.splitPoint_chars p.parseSigned?_digits,
    if_pos h]
  rfl

/-- Numerals with the same text denote the same number. -/
theorem decimal_eq_of_chars_eq {p q : PlainNumeral} (h : p.chars = q.chars) :
    p.decimal = q.decimal := by
  have hpoint := p.splitPoint_chars.symm.trans ((congrArg _ h).trans q.splitPoint_chars)
  obtain ⟨htext, hlength⟩ := Prod.mk.inj hpoint
  have hdigits : p.decimal.digits = q.decimal.digits := by
    have hread := p.parseSigned?_digits
    rw [htext, q.parseSigned?_digits] at hread
    exact (Option.some.inj hread).symm
  have hscale : p.decimal.scale = q.decimal.scale := congrArg Int.ofNat hlength
  cases hp : p.decimal
  cases hq : q.decimal
  simp_all

/-! ## Reading a word of the source -/

/-- One minus sign in front makes no difference to whether a word is a numeral. -/
theorem isNumeral_minus {cs : List Char} (h : cs.head? ≠ some '-') :
    isNumeral ('-' :: cs) = isNumeral cs := by
  unfold isNumeral
  split
  · rename_i rest heq
    cases heq
    cases cs with
    | nil => rfl
    | cons c rest =>
      have hc : c ≠ '-' := by simpa using h
      simp [hc]
  · simp_all

/-- Without its sign a plain numeral is a numeral word. -/
theorem isNumeral_unsigned : isNumeral (p.whole ++ p.tail) = true := by
  obtain ⟨c, rest, hwhole, hc⟩ := p.exists_whole_eq
  have hminus : c ≠ '-' := ne_of_isDigit hc rfl
  have hfraction : p.fraction.all Char.isDigit = true :=
    List.all_eq_true.2 fun c hc => p.isDigit_fraction hc
  -- the digits before the point end at the point, or where the word ends
  have hdrop : (c :: (rest ++ p.tail)).dropWhile Char.isDigit = p.tail := by
    rw [← List.cons_append, ← hwhole, List.dropWhile_append_of_pos fun c hc => p.isDigit_whole hc]
    unfold tail
    split
    · rfl
    · exact List.dropWhile_cons_of_neg (by decide)
  unfold isNumeral
  rw [hwhole, List.cons_append]
  split
  · rename_i heq
    exact absurd (List.cons.inj heq).1 hminus
  · dsimp only
    rw [hdrop]
    by_cases hempty : p.fraction = []
    · rw [p.tail_of_nil hempty]
      rfl
    · simp only [p.tail_of_ne_nil hempty, hfraction, List.isEmpty_eq_false_iff.2 hempty,
        Bool.not_false, Bool.and_true]

/-- With its sign a plain numeral is a numeral word, too. -/
theorem isNumeral_chars : isNumeral p.chars = true := by
  obtain ⟨c, rest, hwhole, hc⟩ := p.exists_whole_eq
  have hhead : (p.whole ++ p.tail).head? ≠ some '-' := by
    rw [hwhole]
    simpa using ne_of_isDigit hc rfl
  unfold chars sign
  split
  · rw [List.singleton_append, isNumeral_minus hhead, p.isNumeral_unsigned]
  · rw [List.nil_append, p.isNumeral_unsigned]

theorem continuesWord_point : continuesWord false '.' = true := by decide

/-- **The scanner finds a plain numeral as one word.** -/
theorem isSpelledWord : IsSpelledWord p.chars := by
  obtain ⟨c, rest, hwhole, hc⟩ := p.exists_whole_eq
  have hword : ∀ d ∈ rest ++ p.tail, continuesWord false d = true := by
    intro d hd
    rcases List.mem_append.1 hd with hd | hd
    · exact continuesWord_of_isDigit (p.isDigit_whole (hwhole ▸ List.mem_cons_of_mem _ hd))
    · rcases p.mem_tail hd with rfl | hd
      · exact continuesWord_point
      · exact continuesWord_of_isDigit hd
  unfold chars sign
  rw [hwhole, List.cons_append]
  cases p.negative with
  -- the scanner takes the minus sign for the beginning of a number, because a digit follows
  | true =>
    refine ⟨by decide, ?_, ?_⟩
    · simp [leadingOperator?, beginsNumeral, hc]
    · intro d hd
      rcases List.mem_cons.1 hd with rfl | hd
      · exact continuesWord_of_isDigit hc
      · exact hword d hd
  | false =>
    have hquote : decide (c = '"') = false := decide_eq_false (ne_of_isDigit hc rfl)
    have hop : Operator.ofSymbol? c = none := by
      have hcontinues : continuesWord false c = true := continuesWord_of_isDigit hc
      simp only [continuesWord, Bool.and_eq_true, Bool.false_or] at hcontinues
      simpa using hcontinues.2
    refine ⟨continuesWord_of_isDigit hc, ?_, ?_⟩
    · unfold leadingOperator?
      rw [hop, ite_self]
    · rw [hquote]
      exact hword

/-- **A plain numeral is the literal of the number that it denotes.** -/
theorem ofChars_chars (h : Decimal.isScale p.fraction.length = true) :
    Token.ofChars p.chars = .literal (String.ofList p.chars) (.number p.decimal) := by
  obtain ⟨c, rest, hchars, hc⟩ := p.exists_chars_eq
  have hquote : c ≠ '"' := by
    rcases hc with rfl | hc
    · decide
    · exact ne_of_isDigit hc rfl
  have hcolon : c ≠ ':' := by
    rcases hc with rfl | hc
    · decide
    · exact ne_of_isDigit hc rfl
  have hquoted : quotedName? p.chars = none := by
    rw [hchars]
    unfold quotedName?
    split
    · rename_i heq
      exact absurd (List.cons.inj heq).1 hquote
    · rfl
  have hreference : isReference p.chars = false := by
    rw [hchars]
    unfold isReference
    split
    · rename_i heq
      exact absurd (List.cons.inj heq).1 hcolon
    · rfl
  unfold Token.ofChars
  simp only [hquoted, hreference, p.isNumeral_chars, p.parseChars?_chars h, if_true,
    Bool.false_eq_true, if_false]

end PlainNumeral

namespace Decimal

/-! ## What is written for a number -/

theorem isDigit_of_mem_digitChars {n : ℕ} {c : Char} (h : c ∈ digitChars n) : c.isDigit = true := by
  rw [digitChars_eq] at h
  exact Nat.isDigit_of_mem_toDigits (by decide) (by decide) h

theorem digitChars_ne_nil (n : ℕ) : digitChars n ≠ [] := by
  rw [digitChars_eq]
  exact Nat.toDigits_ne_nil

theorem ofDigitChars_digitChars (n : ℕ) : Nat.ofDigitChars 10 (digitChars n) 0 = n := by
  rw [digitChars_eq, Nat.ofDigitChars_ten_toDigits]

theorem isDigit_of_mem_paddedDigits {places n : ℕ} {c : Char} (h : c ∈ paddedDigits places n) :
    c.isDigit = true := by
  unfold paddedDigits List.leftpad at h
  rcases List.mem_append.1 h with h | h
  · rw [(List.mem_replicate.1 h).2]
    rfl
  · exact isDigit_of_mem_digitChars h

/-- Padding fills exactly the places behind the point, if the digits fit there. -/
theorem length_paddedDigits {places n : ℕ} (hplaces : 0 < places) (hn : n < tenPow places) :
    (paddedDigits places n).length = places := by
  have hlength : (digitChars n).length ≤ places := by
    rw [digitChars_eq]
    exact (Nat.length_toDigits_le_iff (by decide) hplaces).2 hn
  unfold paddedDigits
  rw [List.length_leftpad]
  omega

theorem ofDigitChars_paddedDigits (places n : ℕ) :
    Nat.ofDigitChars 10 (paddedDigits places n) 0 = n := by
  unfold paddedDigits List.leftpad
  rw [Nat.ofDigitChars_append, Nat.ofDigitChars_replicate_zero, Nat.mul_zero,
    ofDigitChars_digitChars]

/-- Digits before and behind a point, without the point. -/
theorem ofDigitChars_places {places n : ℕ} (hplaces : 0 < places) :
    Nat.ofDigitChars 10
      (digitChars (n / tenPow places) ++ paddedDigits places (n % tenPow places)) 0 = n := by
  have hrest := Nat.mod_lt n (tenPow_pos places)
  rw [Nat.ofDigitChars_append, ofDigitChars_digitChars, Nat.ofDigitChars_eq_ofDigitChars_zero,
    ofDigitChars_paddedDigits, length_paddedDigits hplaces hrest]
  exact Nat.div_add_mod n (tenPow places)

/-- The numeral of an integer. -/
def integerNumeral (n : ℤ) : PlainNumeral where
  negative := n < 0
  whole := digitChars n.natAbs
  fraction := []
  whole_ne_nil := digitChars_ne_nil _
  isDigit c hc := isDigit_of_mem_digitChars (by simpa using hc)

/-- The numeral of a number with `places` digits behind the point. -/
def fractionNumeral (digits : ℤ) (places : ℕ) : PlainNumeral where
  negative := digits < 0
  whole := digitChars (digits.natAbs / tenPow places)
  fraction := paddedDigits places (digits.natAbs % tenPow places)
  whole_ne_nil := digitChars_ne_nil _
  isDigit c hc := by
    rcases List.mem_append.1 hc with hc | hc
    · exact isDigit_of_mem_digitChars hc
    · exact isDigit_of_mem_paddedDigits hc

theorem signed_natAbs (n : ℤ) : (if n < 0 then -(n.natAbs : ℤ) else n.natAbs) = n := by
  split <;> omega

theorem chars_integerNumeral (n : ℤ) : (integerNumeral n).chars = renderInt n := by
  unfold PlainNumeral.chars PlainNumeral.sign PlainNumeral.tail integerNumeral
  cases n with
  | ofNat n => simp [renderInt]
  | negSucc n => simp [renderInt, Int.negSucc_lt_zero]

/-- The numeral of an integer denotes it. -/
theorem toRat_integerNumeral (n : ℤ) : (integerNumeral n).decimal.toRat = n := by
  have hmagnitude : (integerNumeral n).magnitude = n.natAbs := by
    simp [PlainNumeral.magnitude, integerNumeral, ofDigitChars_digitChars]
  have hsigned := signed_natAbs n
  simp only [PlainNumeral.decimal, hmagnitude]
  simp only [integerNumeral, decide_eq_true_eq, hsigned, toRat, List.length_nil, Nat.cast_zero,
    neg_zero, zpow_zero, mul_one]

/-- The numeral of a number with places behind the point denotes that number, digit by digit. -/
theorem decimal_fractionNumeral (digits : ℤ) {places : ℕ} (hplaces : 0 < places) :
    (fractionNumeral digits places).decimal = ⟨digits, places⟩ := by
  have hmagnitude : (fractionNumeral digits places).magnitude = digits.natAbs :=
    ofDigitChars_places hplaces
  have hlength : (fractionNumeral digits places).fraction.length = places :=
    length_paddedDigits hplaces (Nat.mod_lt _ (tenPow_pos places))
  have hsigned := signed_natAbs digits
  simp only [PlainNumeral.decimal, hmagnitude, hlength]
  simp only [fractionNumeral, decide_eq_true_eq, hsigned]

/-- A number with places behind the point is written as its numeral. -/
theorem chars_fractionNumeral (digits : ℤ) {places : ℕ} (hplaces : 0 < places) :
    (fractionNumeral digits places).chars =
      (if digits < 0 then ['-'] else []) ++ renderPlaces digits.natAbs places := by
  have hlength : (fractionNumeral digits places).fraction.length = places :=
    length_paddedDigits hplaces (Nat.mod_lt _ (tenPow_pos places))
  have hne : (fractionNumeral digits places).fraction.isEmpty = false := by
    rw [List.isEmpty_eq_false_iff, ← List.length_pos_iff]
    omega
  unfold PlainNumeral.chars PlainNumeral.sign PlainNumeral.tail renderPlaces
  rw [hne]
  simp [fractionNumeral]

/-- **What is written for a number is a plain numeral that denotes it.** It has no more digits
behind the point than the number has. -/
theorem exists_numeral (d : Decimal) : ∃ p : PlainNumeral, d.renderChars = p.chars ∧
    p.decimal.toRat = d.toRat ∧ p.fraction.length ≤ d.scale.toNat := by
  unfold renderChars
  cases hint : d.toInt? with
  | some n =>
    refine ⟨integerNumeral n, (chars_integerNumeral n).symm, ?_, Nat.zero_le _⟩
    rw [toRat_integerNumeral, (toInt?_eq_some_iff n).1 hint]
  | none =>
    have hne : d.digits ≠ 0 := by
      intro hzero
      rw [toInt?, if_pos hzero] at hint
      cases hint
    have hnormal : d.normalize.toRat = d.toRat := toRat_normalize d
    -- an integer without digits behind the point would have been written as one
    have hpos : 0 < d.normalize.scale := by
      by_contra hle
      have hinteger : d.normalize.toInt? = none := by rw [toInt?_congr hnormal, hint]
      unfold toInt? at hinteger
      split at hinteger
      · cases hinteger
      · rw [if_pos (by omega)] at hinteger
        cases hinteger
    have hscale : d.normalize.scale ≤ d.scale :=
      scale_le_of_toRat_eq (not_ten_dvd_normalize hne) hnormal
    have hplaces : 0 < d.normalize.scale.toNat := by omega
    refine ⟨fractionNumeral d.normalize.digits d.normalize.scale.toNat,
      (chars_fractionNumeral _ hplaces).symm, ?_, ?_⟩
    · have hcast : ((d.normalize.scale.toNat : ℕ) : ℤ) = d.normalize.scale := by omega
      rw [decimal_fractionNumeral _ hplaces, hcast, hnormal]
    · have hlength : (fractionNumeral d.normalize.digits d.normalize.scale.toNat).fraction.length =
          d.normalize.scale.toNat :=
        length_paddedDigits hplaces (Nat.mod_lt _ (tenPow_pos _))
      omega

/-- Numbers that are equal are written alike. -/
theorem renderChars_congr {a b : Decimal} (h : a.toRat = b.toRat) :
    a.renderChars = b.renderChars := by
  unfold renderChars
  rw [toInt?_congr h, normalize_eq_iff.2 h]

theorem isScale_of_le {d : Decimal} {places : ℕ} (hscale : isScale d.scale = true)
    (h : places ≤ d.scale.toNat) : isScale places = true := by
  simp only [isScale, Bool.and_eq_true, decide_eq_true_eq] at hscale ⊢
  omega

/-- **Printed numbers read back exactly.** Every number whose scale is in the range of scales is
written as a text that is read as the same number, and that is split into one literal of the same
number. Two numbers are written alike exactly if they are equal. -/
theorem render_reads_back :
    (∀ d : Decimal, isScale d.scale = true →
      (∃ e, parse? d.render = some e ∧ e.toRat = d.toRat) ∧
      ∃ e, tokenize d.render = .complete [.literal d.render (.number e)] ∧ e.toRat = d.toRat) ∧
    ∀ a b : Decimal, a.render = b.render ↔ a.toRat = b.toRat := by
  refine ⟨fun d hscale => ?_, fun a b => ⟨fun h => ?_, fun h => ?_⟩⟩
  · obtain ⟨p, hchars, hvalue, hlength⟩ := d.exists_numeral
    have hrange := isScale_of_le hscale hlength
    have htext : d.render.toList = p.chars := by
      rw [render, String.toList_ofList, hchars]
    refine ⟨⟨p.decimal, ?_, hvalue⟩, p.decimal, ?_, hvalue⟩
    · rw [parse?, htext, p.parseChars?_chars hrange]
    · have hscan := scan_text_of_spelled (.word p.isSpelledWord)
      rw [text_ofChars, String.toList_ofList, p.ofChars_chars hrange] at hscan
      rw [tokenize, htext, hscan, render, hchars]
  · obtain ⟨p, hp, hpvalue, -⟩ := a.exists_numeral
    obtain ⟨q, hq, hqvalue, -⟩ := b.exists_numeral
    have hchars : p.chars = q.chars := by
      rw [← hp, ← hq]
      exact String.ofList_injective h
    rw [← hpvalue, ← hqvalue, PlainNumeral.decimal_eq_of_chars_eq hchars]
  · rw [render, render, renderChars_congr h]

/-- A small negative fraction, once with zeros behind its last digit. -/
theorem render_reads_back_fraction :
    isScale 7 = true ∧
      (∃ e, parse? "-0.00125" = some e ∧ e.toRat = toRat ⟨-12500, 7⟩) ∧
      (∃ e, tokenize "-0.00125" = .complete [.literal "-0.00125" (.number e)] ∧
        e.toRat = toRat ⟨-12500, 7⟩) ∧
      toRat ⟨-125, 5⟩ = toRat ⟨-12500, 7⟩ ∧ render ⟨-125, 5⟩ = "-0.00125" := by
  have hscale : isScale 7 = true := by decide
  have hinteger : toInt? ⟨-12500, 7⟩ = none := by decide
  have hnormal : normalize ⟨-12500, 7⟩ = ⟨-125, 5⟩ := by simp [normalize, stripZeros]
  have htext : render ⟨-12500, 7⟩ = "-0.00125" := by
    rw [render, renderChars, hinteger]
    simp only [hnormal, renderPlaces, paddedDigits, digitChars_eq]
    rfl
  have hequal : toRat ⟨-125, 5⟩ = toRat ⟨-12500, 7⟩ := by norm_num [toRat]
  -- the text is that of both decimals, so that the number is read from it without its zeros
  obtain ⟨hread, hscan⟩ := render_reads_back.1 ⟨-12500, 7⟩ hscale
  rw [htext] at hread hscan
  refine ⟨hscale, hread, hscan, hequal, ?_⟩
  rw [← htext]
  exact (render_reads_back.2 ⟨-125, 5⟩ ⟨-12500, 7⟩).2 hequal

end Decimal

end Logo
