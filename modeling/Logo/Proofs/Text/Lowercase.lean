import Logo.Text.Lowercase

/-!
# Lowercase text stays as it is

A text that is folded to lowercase once is not changed by folding it again, so that a name in
lowercase is found under itself. No small letter of the table of capitals is a capital of the table,
or one of the letters that are folded by a rule of their own (`smallLetters_avoid_capitals`); that
is checked for runs of letters, and not letter by letter.

* `lowercase_lowercase`: folding twice is folding once.
* `lowercase_eq_iff`: where no character beyond the first 128 is folded to a letter of a name, the
  texts that are folded to it are those that equal it up to the case of `A` to `Z`.
-/

namespace Logo.Text

/-- A character that stays as it is, wherever it stands. -/
def IsSmall (c : Char) : Prop :=
  c ≠ 'Σ' ∧ lowerChar c = [c]

instance (c : Char) : Decidable (IsSmall c) :=
  inferInstanceAs (Decidable (_ ∧ _))

/-! ## The table of capitals -/

/-- All characters that are folded: the letters `A` to `Z`, the dotted capital `İ`, and the capitals
of the table. -/
def foldedRuns : List CaseRun :=
  ⟨0x41, 0x5A, 1, 32⟩ :: ⟨0x130, 0x130, 1, 0⟩ :: capitals

namespace CaseRun

/-- The code point of the first small letter. -/
def low (r : CaseRun) : Nat :=
  (r.first + r.shift).toNat

/-- The code point of the last small letter. -/
def high (r : CaseRun) : Nat :=
  (r.last + r.shift).toNat

/-- Whether all small letters of the run are characters. -/
def isValid (r : CaseRun) : Bool :=
  Nat.ble 1 r.low && Nat.ble r.low r.high &&
    (Nat.blt r.high 0xD800 || (Nat.blt 0xDFFF r.low && Nat.blt r.high 0x110000))

/-- Whether no small letter of the first run is covered by the second one: it lies before or behind
it, or falls into its gaps. -/
def avoids (r s : CaseRun) : Bool :=
  Nat.blt r.high s.first || Nat.blt s.last r.low ||
    ((Nat.beq r.step 2 || Nat.beq r.low r.high) && Nat.beq s.step 2 &&
      Nat.beq ((r.low + s.first) % 2) 1)

variable {r s : CaseRun} {n : Nat}

/-- A small letter stands as far behind the first one as its capital does. -/
theorem shifted_eq (hvalid : r.isValid = true) (h : r.covers n = true) :
    ((n : Int) + r.shift).toNat = r.low + (n - r.first) ∧ r.low + (n - r.first) ≤ r.high ∧
      (n - r.first) % r.step = 0 := by
  simp only [covers, Bool.and_eq_true, decide_eq_true_eq, beq_iff_eq] at h
  simp only [isValid, Bool.and_eq_true, Nat.ble_eq, low, high] at hvalid
  obtain ⟨⟨hfirst, hlast⟩, hstep⟩ := h
  refine ⟨?_, ?_, hstep⟩
  · unfold low
    omega
  · unfold low high
    omega

/-- **A small letter of a run is not covered by a run that it avoids.** -/
theorem not_covers_of_avoids (hvalid : r.isValid = true) (h : r.covers n = true)
    (havoids : r.avoids s = true) : s.covers ((n : Int) + r.shift).toNat = false := by
  obtain ⟨heq, hle, hstep⟩ := shifted_eq hvalid h
  rw [heq, Bool.eq_false_iff]
  intro hcovers
  simp only [covers, Bool.and_eq_true, decide_eq_true_eq, beq_iff_eq] at hcovers
  simp only [avoids, Bool.or_eq_true, Bool.and_eq_true, Nat.blt_eq, Nat.beq_eq] at havoids
  rcases havoids with (hbefore | hbehind) | ⟨⟨hparity, hgap⟩, hodd⟩
  · omega
  · omega
  · -- the distance from the first capital of the second run is odd
    rw [hgap] at hcovers
    rcases hparity with htwo | hone
    · rw [htwo] at hstep
      omega
    · omega

/-- A small letter of a run is a character with that code point. -/
theorem toNat_ofNat_shifted (hvalid : r.isValid = true) (h : r.covers n = true) :
    (Char.ofNat ((n : Int) + r.shift).toNat).toNat = ((n : Int) + r.shift).toNat := by
  obtain ⟨heq, hle, -⟩ := shifted_eq hvalid h
  rw [heq]
  simp only [isValid, Bool.and_eq_true, Bool.or_eq_true, Nat.ble_eq, Nat.blt_eq] at hvalid
  have hchar : (r.low + (n - r.first)).isValidChar := by
    rcases hvalid.2 with hbelow | ⟨habove, hmax⟩
    · exact Or.inl (by omega)
    · exact Or.inr ⟨by omega, by omega⟩
  rw [Char.ofNat, dif_pos hchar]
  rfl

end CaseRun

/-- **No small letter of the table is folded again.** -/
theorem smallLetters_avoid_capitals :
    ∀ r ∈ capitals, r.isValid = true ∧ ∀ s ∈ foldedRuns, r.avoids s = true := by
  have hall : (capitals.all fun r => r.isValid && foldedRuns.all r.avoids) = true := by
    decide +kernel
  intro r hr
  have hr := List.all_eq_true.1 hall r hr
  rw [Bool.and_eq_true] at hr
  exact ⟨hr.1, List.all_eq_true.1 hr.2⟩

/-! ## Characters -/

/-- Only the letters `A` to `Z` are folded among the first characters. -/
theorem toLower_ascii : ∀ n < 0x80, (Char.ofNat n).toLower =
    if 0x41 ≤ n ∧ n ≤ 0x5A then Char.ofNat (n + 32) else Char.ofNat n := by
  decide +kernel

/-- A character that no run covers is small. -/
theorem isSmall_of_not_covers {c : Char} (h : ∀ r ∈ foldedRuns, r.covers c.toNat = false) :
    IsSmall c := by
  simp only [foldedRuns, List.forall_mem_cons] at h
  obtain ⟨hascii, hdotted, hcapitals⟩ := h
  -- no run of capitals has the character, so that the table leaves it alone
  have hfind : capitals.find? (·.covers c.toNat) = none :=
    List.find?_eq_none.2 fun r hr => by simp [hcapitals r hr]
  refine ⟨?_, ?_⟩
  · rintro rfl
    exact absurd hfind (by decide +kernel)
  · unfold lowerChar
    split
    · rename_i hlt
      have hlower := toLower_ascii c.toNat hlt
      rw [Char.ofNat_toNat, if_neg] at hlower
      · rw [hlower]
      · rintro ⟨hfirst, hlast⟩
        simp [CaseRun.covers, hfirst, hlast, Nat.mod_one] at hascii
    · have hne : c ≠ 'İ' := by
        rintro rfl
        exact absurd hdotted (by decide)
      rw [if_neg hne, hfind]

theorem isSmall_ascii : ∀ n < 0x80, IsSmall (Char.ofNat n).toLower := by
  decide +kernel

/-- **What a character is folded to is small.** -/
theorem isSmall_lowerChar {c d : Char} (h : d ∈ lowerChar c) : IsSmall d := by
  unfold lowerChar at h
  split at h
  · rename_i hlt
    rw [List.mem_singleton.1 h, ← c.ofNat_toNat]
    exact isSmall_ascii c.toNat hlt
  split at h
  · have hdotted : IsSmall 'i' ∧ IsSmall '\u0307' := by decide +kernel
    rw [List.mem_cons, List.mem_singleton] at h
    rcases h with rfl | rfl
    · exact hdotted.1
    · exact hdotted.2
  split at h
  · -- a capital of the table: its small letter is no capital itself
    rename_i r hfind
    rw [List.mem_singleton.1 h]
    have hr : r ∈ capitals := List.mem_of_find?_eq_some hfind
    have hcovers : r.covers c.toNat = true :=
      List.find?_some (p := fun r : CaseRun => r.covers c.toNat) hfind
    obtain ⟨hvalid, havoids⟩ := smallLetters_avoid_capitals r hr
    refine isSmall_of_not_covers fun s hs => ?_
    rw [r.toNat_ofNat_shifted hvalid hcovers]
    exact r.not_covers_of_avoids hvalid hcovers (havoids s hs)
  · rename_i hascii hdot _ hfind
    rw [List.mem_singleton.1 h]
    refine ⟨?_, ?_⟩
    · rintro rfl
      exact absurd hfind (by decide +kernel)
    · unfold lowerChar
      rw [if_neg hascii, if_neg hdot, hfind]

/-! ## Texts -/

/-- A text in lowercase has small characters only. -/
theorem isSmall_lowerChars (before : List Char) {cs : List Char} {d : Char}
    (h : d ∈ lowerChars before cs) : IsSmall d := by
  induction cs generalizing before with
  | nil => cases h
  | cons c cs ih =>
    rcases List.mem_append.1 h with h | h
    · split at h
      · -- both small sigmas are small
        have hsigma : IsSmall 'ς' ∧ IsSmall 'σ' := by decide +kernel
        rw [List.mem_singleton.1 h]
        split
        · exact hsigma.1
        · exact hsigma.2
      · exact isSmall_lowerChar h
    · exact ih _ h

/-- Small characters are left as they are. -/
theorem lowerChars_of_isSmall (before : List Char) {cs : List Char} (h : ∀ c ∈ cs, IsSmall c) :
    lowerChars before cs = cs := by
  induction cs generalizing before with
  | nil => rfl
  | cons c cs ih =>
    obtain ⟨⟨hsigma, hlower⟩, hcs⟩ := List.forall_mem_cons.1 h
    rw [lowerChars, if_neg hsigma, hlower, ih _ hcs]
    rfl

/-- **Folding a text twice is folding it once.** -/
theorem lowercase_lowercase (s : String) : lowercase (lowercase s) = lowercase s := by
  unfold lowercase
  rw [String.toList_ofList, lowerChars_of_isSmall [] fun c hc => isSmall_lowerChars [] hc]

/-! ## Letters that only ASCII capitals are folded to -/

/-- A small character that no character beyond the first ones is folded to. -/
structure IsPlain (d : Char) : Prop where
  lt : d.toNat < 0x80
  small : d.toLower = d
  ne : d ≠ 'i'
  avoided : ∀ r ∈ capitals, d.toNat < r.low ∨ r.high < d.toNat

theorem isPlain_to : ∀ d ∈ "to".toList, IsPlain d := by
  have hall : (∀ r ∈ capitals, 't'.toNat < r.low ∨ r.high < 't'.toNat) ∧
      ∀ r ∈ capitals, 'o'.toNat < r.low ∨ r.high < 'o'.toNat := by
    decide +kernel
  intro d hd
  have hcases : d = 't' ∨ d = 'o' := by simpa using hd
  rcases hcases with rfl | rfl
  · exact ⟨by decide, by decide, by decide, hall.1⟩
  · exact ⟨by decide, by decide, by decide, hall.2⟩

/-- The ASCII characters have their own rule. -/
theorem lowerChar_of_lt {c : Char} (h : c.toNat < 0x80) : lowerChar c = [c.toLower] :=
  if_pos h

/-- A character that is folded to plain letters is one of the first characters. -/
theorem toNat_lt_of_isPlain {c : Char} (h : ∀ d ∈ lowerChar c, IsPlain d) : c.toNat < 0x80 := by
  refine Decidable.byContradiction fun hge => ?_
  unfold lowerChar at h
  rw [if_neg hge] at h
  split at h
  · exact (h 'i' List.mem_cons_self).ne rfl
  split at h
  · -- a capital of the table is folded to a letter that is not plain
    rename_i r hfind
    have hcovers : r.covers c.toNat = true :=
      List.find?_some (p := fun r : CaseRun => r.covers c.toNat) hfind
    have hr : r ∈ capitals := List.mem_of_find?_eq_some hfind
    obtain ⟨hvalid, -⟩ := smallLetters_avoid_capitals r hr
    obtain ⟨heq, hle, -⟩ := r.shifted_eq hvalid hcovers
    have havoided := (h _ List.mem_cons_self).avoided r hr
    rw [r.toNat_ofNat_shifted hvalid hcovers, heq] at havoided
    omega
  · exact hge (h c List.mem_cons_self).lt

/-- Only an ASCII character is folded to one. -/
theorem toNat_lt_of_toLower {c : Char} (h : c.toLower.toNat < 0x80) : c.toNat < 0x80 := by
  unfold Char.toLower at h
  split at h
  · rename_i hupper
    have hle : c.toNat ≤ 90 := UInt32.le_iff_toNat_le.1 hupper.2
    omega
  · exact h

/-- Characters are folded to plain ones exactly if they are the same up to the case of the letters
`A` to `Z`. -/
theorem lowerChars_eq_iff (before : List Char) {cs ds : List Char} (h : ∀ d ∈ ds, IsPlain d) :
    lowerChars before cs = ds ↔ cs.map Char.toLower = ds := by
  induction cs generalizing before ds with
  | nil => exact Iff.rfl
  | cons c cs ih =>
    by_cases hc : c.toNat < 0x80
    · have hsigma : c ≠ 'Σ' := by
        rintro rfl
        exact absurd hc (by decide)
      rw [lowerChars, if_neg hsigma, lowerChar_of_lt hc, List.map_cons, List.singleton_append]
      cases ds with
      | nil => simp
      | cons d ds =>
        rw [List.cons.injEq, List.cons.injEq, ih _ fun d hd => h d (List.mem_cons_of_mem _ hd)]
    · constructor
      · rintro rfl
        rw [lowerChars] at h
        split at h
        · -- neither small sigma is plain
          have hlt := (h _ (List.mem_append_left _ List.mem_cons_self)).lt
          split at hlt
          · exact absurd hlt (by decide)
          · exact absurd hlt (by decide)
        · exact absurd (toNat_lt_of_isPlain fun d hd => h d (List.mem_append_left _ hd)) hc
      · rintro rfl
        exact absurd (toNat_lt_of_toLower (h _ List.mem_cons_self).lt) hc

/-- **Plain letters are what a text is folded to exactly if it equals them up to case.** -/
theorem lowercase_eq_iff {s t : String} (h : ∀ d ∈ t.toList, IsPlain d) :
    lowercase s = t ↔ equalsIgnoringCase s t = true := by
  have hself : t.toList.map Char.toLower = t.toList :=
    (List.map_congr_left (g := id) fun d hd => (h d hd).small).trans (List.map_id _)
  rw [equalsIgnoringCase, beq_iff_eq, hself, ← lowerChars_eq_iff [] h, ← String.toList_inj,
    lowercase, String.toList_ofList]

end Logo.Text
