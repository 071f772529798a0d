import Logo.Proofs.Scan.Cases

/-!
# Texts that go on

What the scan of a text says about a longer text. A failure is final, and open brackets are scanned
again from the opening one on. A complete scan goes on behind its tokens, provided that what follows
cannot become part of the last of them (`Scan.Separates`): it begins with a blank, and with a line
feed if the last token is a comment.

* `scan_append`: the scan of a longer text is the scan of the shorter one, resumed.
* `remainder_of_scan`: what is scanned again begins with an opening bracket.
-/

namespace Logo

/-- The scan of a text resumed with the text `more` behind it. -/
def Scan.resume (more : List Char) : Scan → Scan
  | complete tokens => (scan none more).prepend tokens
  | incomplete tokens remainder => (scan none (remainder.toList ++ more)).prepend tokens
  | failure cause => failure cause

/-- What follows a complete scan stands apart from its last token. -/
def Scan.Separates (s : Scan) (more : List Char) : Prop :=
  ∀ tokens, s = complete tokens → ∃ c rest, more = c :: rest ∧ Text.isBlank c = true ∧
    (c = '\n' ∨ ∀ t ∈ tokens.getLast?, t.isComment = false)

namespace Scan

variable {s : Scan} {more : List Char} {t : Token}

theorem resume_push : (s.push t).resume more = (s.resume more).push t := by
  cases s with
  | complete tokens => rw [push, resume, resume, push_prepend]
  | incomplete tokens remainder => rw [push, resume, resume, push_prepend]
  | failure cause => rfl

/-- What separates more text from a scan looks at its last token only. -/
theorem Separates.of_push (h : (s.push t).Separates more) : s.Separates more := by
  intro tokens hs
  subst hs
  obtain ⟨c, rest, hm, hb, hc⟩ := h (t :: tokens) rfl
  refine ⟨c, rest, hm, hb, hc.imp_right fun hlast u hu => hlast u ?_⟩
  cases tokens with
  | nil => cases hu
  | cons v vs => rwa [List.getLast?_cons_cons]

/-- A text that stands apart from the last token begins with a blank. -/
theorem Separates.isBlank_head (h : (s.push t).Separates more) (hs : s = complete []) :
    ∀ c ∈ more.head?, Text.isBlank c = true := by
  subst hs
  obtain ⟨c, rest, rfl, hb, -⟩ := h [t] rfl
  intro d hd
  cases hd
  exact hb

end Scan

/-! ## The helpers of the scanner on a longer text -/

/-- A stretch of characters that has ended, or that the new text does not prolong, is the same in
the longer text. -/
theorem takeWhile_append_of_stop {α : Type} {p : α → Bool} {cs more : List α}
    (h : cs.dropWhile p = [] → ∀ c ∈ more.head?, p c = false) :
    (cs ++ more).takeWhile p = cs.takeWhile p ∧
      (cs ++ more).dropWhile p = cs.dropWhile p ++ more := by
  induction cs with
  | nil =>
    cases more with
    | nil => exact ⟨rfl, rfl⟩
    | cons c more => simp [h rfl c rfl]
  | cons c cs ih =>
    by_cases hc : p c = true
    · simp only [List.dropWhile_cons_of_pos hc] at h
      simp [hc, ih h]
    · simp [hc]

/-- The bracket that closes is found at the same place in a longer text. -/
theorem Bracket.split_append (b : Bracket) {depth : Nat} {inComment : Bool}
    {cs inside rest : List Char} (h : b.split depth inComment cs = some (inside, rest))
    (more : List Char) : b.split depth inComment (cs ++ more) = some (inside, rest ++ more) := by
  induction cs generalizing depth inComment inside rest with
  | nil => simp [split] at h
  | cons c cs ih =>
    -- whatever is put in front of the inside, the rest grows by the same text
    have step {depth' : Nat} {inComment' : Bool}
        {f : List Char × List Char → List Char × List Char}
        (hf : ∀ i r, f (i, r ++ more) = ((f (i, r)).1, (f (i, r)).2 ++ more))
        (h : (b.split depth' inComment' cs).map f = some (inside, rest)) :
        (b.split depth' inComment' (cs ++ more)).map f = some (inside, rest ++ more) := by
      obtain ⟨⟨i, r⟩, hi, he⟩ := Option.map_eq_some_iff.1 h
      rw [ih hi, Option.map_some, hf, he]
    rw [List.cons_append]
    unfold split at h ⊢
    split at h
    · rename_i hcom
      rw [if_pos hcom]
      exact step (fun _ _ => rfl) h
    rename_i hcom
    rw [if_neg hcom]
    split at h
    · rename_i hc
      rw [if_pos hc]
      cases depth with
      | zero => cases h; rfl
      | succ depth => exact step (fun _ _ => rfl) h
    · rename_i hc
      rw [if_neg hc]
      exact step (fun _ _ => rfl) h

/-- A minus sign looks at the character behind it only. -/
theorem leadingOperator?_append {previous : Option Char} {c : Char} {rest more : List Char}
    (h : rest = [] → ∀ d ∈ more.head?, d.isDigit = false) :
    leadingOperator? previous c (rest ++ more) = leadingOperator? previous c rest := by
  unfold leadingOperator? beginsNumeral
  cases rest with
  | nil =>
    cases more with
    | nil => rfl
    | cons d more => simp [h rfl d rfl]
  | cons d rest => rfl

theorem isDigit_eq_false_of_isBlank {c : Char} (h : Text.isBlank c = true) : c.isDigit = false := by
  simp only [Text.isBlank, Text.blanks, Text.CodePoints.contains, List.any_cons, List.any_nil,
    Bool.or_eq_true, Bool.and_eq_true, decide_eq_true_eq, Bool.false_eq_true, or_false] at h
  rw [Bool.eq_false_iff]
  intro hd
  have hrange : 48 ≤ c.toNat ∧ c.toNat ≤ 57 := Char.isDigit_iff_toNat.1 hd
  omega

theorem continuesWord_eq_false_of_isBlank {quoted : Bool} {c : Char} (h : Text.isBlank c = true) :
    continuesWord quoted c = false := by
  simp [continuesWord, h]

/-! ## Longer texts -/

/-- **The scan of a longer text** is the scan of the shorter one, resumed. -/
theorem scan_append (previous : Option Char) (cs more : List Char)
    (h : (scan previous cs).Separates more) :
    scan previous (cs ++ more) = (scan previous cs).resume more := by
  induction previous, cs using scan_induction with
  | nil previous =>
    rw [scan_nil] at h ⊢
    obtain ⟨c, rest, rfl, hb, -⟩ := h [] rfl
    rw [List.nil_append, scan_blank hb, Scan.resume, scan_blank hb, Scan.prepend_nil]
  | blank previous c rest hb ih =>
    rw [scan_blank hb] at h ⊢
    rw [List.cons_append, scan_blank hb, ih h]
  | comment previous rest ih =>
    rw [scan_comment] at h ⊢
    -- an open comment is the last token, so that a line feed ends it
    have hstop : rest.dropWhile (· != '\n') = [] → ∀ c ∈ more.head?, (c != '\n') = false := by
      intro hnil c hc
      rw [hnil, scan_nil] at h
      obtain ⟨d, more', rfl, -, hd⟩ := h _ rfl
      cases hc
      rcases hd with rfl | hd
      · rfl
      · exact absurd (hd _ rfl) (by simp [Token.isComment])
    obtain ⟨htake, hdrop⟩ := takeWhile_append_of_stop hstop
    rw [List.cons_append, scan_comment, htake, hdrop, ih h.of_push, Scan.resume_push]
  | close previous c rest hc => rw [List.cons_append, scan_close hc, scan_close hc, Scan.resume]
  | unclosed previous b rest hs =>
    rw [scan_unclosed hs, Scan.resume, Scan.prepend_nil, String.toList_ofList, List.cons_append,
      scan_opening, scan_opening]
  | closed previous b rest inside after hs _ ih =>
    rw [scan_closed hs] at h ⊢
    rw [List.cons_append, scan_closed (b.split_append hs more)]
    cases hi : scan none inside with
    | complete children =>
      rw [hi] at h
      rw [Bracket.scanClosed, ih h.of_push, Bracket.scanClosed, Scan.resume_push]
    | incomplete tokens remainder => rfl
    | failure cause => rfl
  | operator previous c rest op hc hop ih =>
    rw [scan_operator hc hop] at h ⊢
    have hdigit : rest = [] → ∀ d ∈ more.head?, d.isDigit = false := by
      rintro rfl d hd
      exact isDigit_eq_false_of_isBlank (h.isBlank_head scan_nil d hd)
    rw [List.cons_append, scan_operator hc (by rw [leadingOperator?_append hdigit, hop]),
      ih h.of_push, Scan.resume_push]
  | word previous c rest hc hop ih =>
    rw [scan_word hc hop] at h ⊢
    have hstop : rest.dropWhile (continuesWord (c = '"')) = [] →
        ∀ d ∈ more.head?, continuesWord (c = '"') d = false := by
      intro hnil d hd
      have hblank := h.isBlank_head (by rw [hnil, scan_nil]) d hd
      exact continuesWord_eq_false_of_isBlank hblank
    have hdigit : rest = [] → ∀ d ∈ more.head?, d.isDigit = false := by
      rintro rfl d hd
      exact isDigit_eq_false_of_isBlank (h.isBlank_head scan_nil d hd)
    obtain ⟨htake, hdrop⟩ := takeWhile_append_of_stop hstop
    rw [List.cons_append, scan_word hc (by rw [leadingOperator?_append hdigit, hop]), htake, hdrop,
      ih h.of_push, Scan.resume_push]

/-- **Open brackets are handed back** from the opening one on. -/
theorem remainder_of_scan {previous : Option Char} {cs : List Char} {tokens : List Token}
    {remainder : String} (h : scan previous cs = .incomplete tokens remainder) :
    ∃ (b : Bracket) (rest : List Char), remainder = String.ofList (b.opening :: rest) := by
  induction previous, cs using scan_induction generalizing tokens with
  | nil previous => rw [scan_nil] at h; cases h
  | blank previous c rest hb ih => rw [scan_blank hb] at h; exact ih h
  | comment previous rest ih =>
    rw [scan_comment] at h
    obtain ⟨us, hus, -⟩ := Scan.push_eq_incomplete.1 h
    exact ih hus
  | close previous c rest hc => rw [scan_close hc] at h; cases h
  | unclosed previous b rest hs => rw [scan_unclosed hs] at h; cases h; exact ⟨b, rest, rfl⟩
  -- inside brackets that are closed nothing may stay open, so that the open one comes behind
  | closed previous b rest inside after hs _ ih =>
    rw [scan_closed hs] at h
    cases hi : scan none inside with
    | complete children =>
      rw [hi, Bracket.scanClosed] at h
      obtain ⟨us, hus, -⟩ := Scan.push_eq_incomplete.1 h
      exact ih hus
    | incomplete us r => rw [hi] at h; cases h
    | failure cause => rw [hi] at h; cases h
  | operator previous c rest op hc hop ih =>
    rw [scan_operator hc hop] at h
    obtain ⟨us, hus, -⟩ := Scan.push_eq_incomplete.1 h
    exact ih hus
  | word previous c rest hc hop ih =>
    rw [scan_word hc hop] at h
    obtain ⟨us, hus, -⟩ := Scan.push_eq_incomplete.1 h
    exact ih hus

end Logo
