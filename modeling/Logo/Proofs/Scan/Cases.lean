import Logo.Token.Scan

/-!
# The scanner, head by head

The first character of a text decides what the scanner does. There is one equation for each kind of
first character (`scan_blank`, `scan_comment`, `scan_close`, `scan_unclosed`, `scan_closed`,
`scan_operator`, `scan_word`), and `scan_induction` is the induction that goes along with them.
Later proofs use these and do not open `scan`.
-/

namespace Logo

/-! ## Kinds of characters -/

/-- The scan with tokens in front. -/
def Scan.prepend (tokens : List Token) : Scan → Scan
  | complete more => complete (tokens ++ more)
  | incomplete more remainder => incomplete (tokens ++ more) remainder
  | failure cause => failure cause

@[simp]
theorem Scan.prepend_nil (s : Scan) : s.prepend [] = s := by
  cases s <;> rfl

@[simp]
theorem Scan.push_prepend (t : Token) (ts : List Token) (s : Scan) :
    (s.prepend ts).push t = s.prepend (t :: ts) := by
  cases s <;> rfl

theorem Scan.push_eq_complete {t : Token} {s : Scan} {ts : List Token} :
    s.push t = .complete ts ↔ ∃ us, s = .complete us ∧ ts = t :: us := by
  cases s <;> simp [push, eq_comm]

theorem Scan.push_eq_incomplete {t : Token} {s : Scan} {ts : List Token} {remainder : String} :
    s.push t = .incomplete ts remainder ↔ ∃ us, s = .incomplete us remainder ∧ ts = t :: us := by
  constructor
  · intro h
    cases s <;> cases h
    exact ⟨_, rfl, rfl⟩
  · rintro ⟨us, rfl, rfl⟩
    rfl

theorem Scan.prepend_eq_complete {s : Scan} {ts us : List Token} :
    s.prepend ts = .complete us ↔ ∃ vs, s = .complete vs ∧ us = ts ++ vs := by
  cases s <;> simp [prepend, eq_comm]

/-- A character that can stand in a quoted word is no blank, no bracket and no semicolon. -/
theorem continuesWord_true_iff {c : Char} : continuesWord true c = true ↔
    Text.isBlank c = false ∧ c ≠ '[' ∧ c ≠ ']' ∧ c ≠ '(' ∧ c ≠ ')' ∧ c ≠ ';' := by
  simp [continuesWord, and_assoc]

/-- A quoted word may have more characters in it than another one. -/
theorem continuesWord_of_quoted {quoted : Bool} {c : Char} (h : continuesWord quoted c = true) :
    continuesWord true c = true := by
  simp only [continuesWord, Bool.and_eq_true] at h ⊢
  exact ⟨h.1, by simp⟩

theorem Bracket.ofOpening?_opening (b : Bracket) : ofOpening? b.opening = some b := by
  cases b <;> rfl

theorem Bracket.ofOpening?_eq_none {c : Char} (h : continuesWord true c = true) :
    ofOpening? c = none := by
  obtain ⟨-, h1, -, h2, -⟩ := continuesWord_true_iff.1 h
  unfold ofOpening?
  split <;> simp_all

/-- Every character is a blank, a semicolon, a bracket, or one that can stand in a word. -/
theorem head_cases (c : Char) :
    Text.isBlank c = true ∨ c = ';' ∨ (c = ']' ∨ c = ')') ∨ (∃ b : Bracket, c = b.opening) ∨
      continuesWord true c = true := by
  -- what is none of the others can stand in a word
  by_cases hb : Text.isBlank c = true
  · exact Or.inl hb
  by_cases h1 : c = '['
  · exact Or.inr (Or.inr (Or.inr (Or.inl ⟨.square, h1⟩)))
  by_cases h2 : c = '('
  · exact Or.inr (Or.inr (Or.inr (Or.inl ⟨.round, h2⟩)))
  by_cases h3 : c = ']'
  · exact Or.inr (Or.inr (Or.inl (Or.inl h3)))
  by_cases h4 : c = ')'
  · exact Or.inr (Or.inr (Or.inl (Or.inr h4)))
  by_cases h5 : c = ';'
  · exact Or.inr (Or.inl h5)
  exact Or.inr (Or.inr (Or.inr (Or.inr
    (continuesWord_true_iff.2 ⟨by simpa using hb, h1, h3, h2, h4, h5⟩))))

/-! ## The search for a closing bracket -/

namespace Bracket

variable (b : Bracket) (depth : Nat) (cs : List Char)

/-- In a comment brackets do not count, up to the end of its line. -/
theorem split_inComment_cons (c : Char) : b.split depth true (c :: cs) =
    (b.split depth (c != '\n') cs).map fun (inside, after) => (c :: inside, after) := by
  rw [split.eq_def]
  rfl

theorem split_closing_zero : b.split 0 false (b.closing :: cs) = some ([], cs) := by
  simp [split]

/-- A closing bracket closes the innermost one of its kind. -/
theorem split_closing_succ : b.split (depth + 1) false (b.closing :: cs) =
    (b.split depth false cs).map fun (inside, after) => (b.closing :: inside, after) := by
  simp [split]

/-- An opening bracket has to be closed first. -/
theorem split_opening : b.split depth false (b.opening :: cs) =
    (b.split (depth + 1) false cs).map fun (inside, after) => (b.opening :: inside, after) := by
  cases b <;> simp [split, opening, closing]

/-- Any other character stands inside; a semicolon begins a comment. -/
theorem split_other {c : Char} (hopen : c ≠ b.opening) (hclose : c ≠ b.closing) :
    b.split depth false (c :: cs) =
      (b.split depth (c == ';') cs).map fun (inside, after) => (c :: inside, after) := by
  simp [split, hopen, hclose]

end Bracket

/-! ## One equation for each kind of head -/

variable {previous : Option Char} {c : Char} {rest : List Char}

@[simp]
theorem scan_nil : scan previous [] = .complete [] := by
  rw [scan]

theorem scan_blank (h : Text.isBlank c = true) : scan previous (c :: rest) = scan (some c) rest := by
  rw [scan, if_pos h]

/-- A comment goes to the end of its line. -/
theorem scan_comment : scan previous (';' :: rest) =
    (scan (some ';') (rest.dropWhile (· != '\n'))).push
      (.comment (String.ofList (';' :: rest.takeWhile (· != '\n')))) := by
  rw [scan, if_neg (by decide), if_pos rfl]

theorem scan_close (h : c = ']' ∨ c = ')') :
    scan previous (c :: rest) = .failure (.unexpectedClose c) := by
  rcases h with rfl | rfl <;> rw [scan] <;> simp [show Text.isBlank ']' = false by decide,
    show Text.isBlank ')' = false by decide]

/-- What closed brackets and the text behind them come to, given the scan of their inside. -/
def Bracket.scanClosed (b : Bracket) (inside after : Scan) : Scan :=
  match inside with
  | .complete children => after.push (b.token children)
  | .incomplete _ remainder => .failure (unterminated remainder)
  | .failure cause => .failure cause

/-- The character before an opening bracket plays no part. -/
theorem scan_opening (b : Bracket) : scan previous (b.opening :: rest) =
    match b.split 0 false rest with
    | none => .incomplete [] (String.ofList (b.opening :: rest))
    | some (inside, after) => b.scanClosed (scan none inside) (scan (some b.closing) after) := by
  have hblank : Text.isBlank b.opening = false := by cases b <;> decide
  have hsemi : b.opening ≠ ';' := by cases b <;> decide
  have hclose : (decide (b.opening = ']') || decide (b.opening = ')')) = false := by
    cases b <;> decide
  -- an opening bracket is neither blank nor a comment nor a closing one
  rw [scan, if_neg (by simp [hblank]), if_neg hsemi, if_neg (by simp [hclose])]
  split
  · rename_i b' hb'
    rw [b.ofOpening?_opening, Option.some.injEq] at hb'
    subst hb'
    split
    · rename_i h
      rw [h]
    · rename_i inside after h
      rw [h]
      cases hi : scan none inside <;> simp [Bracket.scanClosed, hi]
  · rename_i hb'
    rw [b.ofOpening?_opening] at hb'
    cases hb'

/-- From a bracket that is not closed on, the text is left for later. -/
theorem scan_unclosed {b : Bracket} (h : b.split 0 false rest = none) :
    scan previous (b.opening :: rest) = .incomplete [] (String.ofList (b.opening :: rest)) := by
  rw [scan_opening, h]

/-- The inside of brackets is scanned on its own, and then the text behind them. -/
theorem scan_closed {b : Bracket} {inside after : List Char}
    (h : b.split 0 false rest = some (inside, after)) :
    scan previous (b.opening :: rest) =
      b.scanClosed (scan none inside) (scan (some b.closing) after) := by
  rw [scan_opening, h]

/-- A word or an operator at the head. -/
theorem scan_plain (h : continuesWord true c = true) : scan previous (c :: rest) =
    match leadingOperator? previous c rest with
    | some op => (scan (some c) rest).push (.operator op)
    | none =>
      (scan (c :: rest.takeWhile (continuesWord (c = '"'))).getLast?
        (rest.dropWhile (continuesWord (c = '"')))).push
        (.ofChars (c :: rest.takeWhile (continuesWord (c = '"')))) := by
  obtain ⟨hblank, -, h1, -, h2, h3⟩ := continuesWord_true_iff.1 h
  rw [scan, if_neg (by simp [hblank]), if_neg h3, if_neg (by simp [h1, h2])]
  split
  · rename_i b hb
    rw [Bracket.ofOpening?_eq_none h] at hb
    cases hb
  · rfl

theorem scan_operator {op : Operator} (h : continuesWord true c = true)
    (hop : leadingOperator? previous c rest = some op) :
    scan previous (c :: rest) = (scan (some c) rest).push (.operator op) := by
  rw [scan_plain h, hop]

/-- A word ends where a character cannot go on with it. -/
theorem scan_word (h : continuesWord true c = true)
    (hop : leadingOperator? previous c rest = none) : scan previous (c :: rest) =
      (scan (c :: rest.takeWhile (continuesWord (c = '"'))).getLast?
        (rest.dropWhile (continuesWord (c = '"')))).push
        (.ofChars (c :: rest.takeWhile (continuesWord (c = '"')))) := by
  rw [scan_plain h, hop]

/-- A blank before a text is as good as nothing before it. -/
theorem scan_after_blank (h : Text.isBlank c = true) (cs : List Char) :
    scan (some c) cs = scan none cs := by
  cases cs with
  | nil => rw [scan_nil, scan_nil]
  | cons d rest =>
    rcases head_cases d with hd | rfl | hd | ⟨b, rfl⟩ | hd
    · rw [scan_blank hd, scan_blank hd]
    · rw [scan_comment, scan_comment]
    · rw [scan_close hd, scan_close hd]
    · rw [scan_opening, scan_opening]
    · have hop : leadingOperator? (some c) d rest = leadingOperator? none d rest := by
        simp [leadingOperator?, beginsNumeral, h]
      rw [scan_plain hd, scan_plain hd, hop]

/-! ## Induction along the scanner -/

/-- **Induction along the scanner**, with one case for each kind of head. Closed brackets give two
hypotheses, for their inside and for what follows them. -/
theorem scan_induction {motive : Option Char → List Char → Prop}
    (nil : ∀ previous, motive previous [])
    (blank : ∀ previous c rest, Text.isBlank c = true → motive (some c) rest →
      motive previous (c :: rest))
    (comment : ∀ previous rest, motive (some ';') (rest.dropWhile (· != '\n')) →
      motive previous (';' :: rest))
    (close : ∀ previous c rest, c = ']' ∨ c = ')' → motive previous (c :: rest))
    (unclosed : ∀ previous (b : Bracket) rest, b.split 0 false rest = none →
      motive previous (b.opening :: rest))
    (closed : ∀ previous (b : Bracket) rest inside after,
      b.split 0 false rest = some (inside, after) → motive none inside →
      motive (some b.closing) after → motive previous (b.opening :: rest))
    (operator : ∀ previous c rest op, continuesWord true c = true →
      leadingOperator? previous c rest = some op → motive (some c) rest →
      motive previous (c :: rest))
    (word : ∀ previous c rest, continuesWord true c = true →
      leadingOperator? previous c rest = none →
      motive (c :: rest.takeWhile (continuesWord (c = '"'))).getLast?
        (rest.dropWhile (continuesWord (c = '"'))) → motive previous (c :: rest))
    (previous : Option Char) (cs : List Char) : motive previous cs := by
  -- the inside of brackets is no suffix of the text, so the induction is on the length
  induction hn : cs.length using Nat.strongRecOn generalizing previous cs with
  | ind n ih =>
    subst hn
    cases cs with
    | nil => exact nil previous
    | cons c rest =>
      have hdrop (p : Char → Bool) : (rest.dropWhile p).length < (c :: rest).length :=
        Nat.lt_succ_of_le (List.dropWhile_suffix p).length_le
      rcases head_cases c with h | rfl | h | ⟨b, rfl⟩ | h
      · exact blank previous c rest h (ih _ (Nat.lt_succ_self _) _ _ rfl)
      · exact comment previous rest (ih _ (hdrop _) _ _ rfl)
      · exact close previous c rest h
      · cases hs : b.split 0 false rest with
        | none => exact unclosed previous b rest hs
        | some parts =>
          obtain ⟨inside, after⟩ := parts
          have hlen : rest.length = inside.length + (after.length + 1) := by
            rw [b.eq_of_split hs, List.length_append, List.length_cons]
          refine closed previous b rest inside after hs (ih _ ?_ _ _ rfl) (ih _ ?_ _ _ rfl)
          · rw [List.length_cons]; omega
          · rw [List.length_cons]; omega
      · cases hop : leadingOperator? previous c rest with
        | none => exact word previous c rest h hop (ih _ (hdrop _) _ _ rfl)
        | some op => exact operator previous c rest op h hop (ih _ (Nat.lt_succ_self _) _ _ rfl)

end Logo
