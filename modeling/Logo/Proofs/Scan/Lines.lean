import Logo.Proofs.Scan.Append
import Logo.Token.Reader
import Mathlib

/-!
# Line after line and all at once

A reader that is given a text line by line finds the same tokens as one scan of the whole text. At
each line feed the scan of the text is resumed with the next line, and that is what the reader does
with the text that it carries over.

* `Reader.tokenize_join_lineFeed`: the step. One line is read, and the rest of the text is left to
  the reader as it is then.
* `readAll_agrees_tokenize`: the whole, for all lines.
* `tokenize_append_of_incomplete`: a text that is cut inside brackets, at any character.
* `tokenize_append_of_failure`: a text that cannot be split, whatever follows it.
-/

namespace Logo

namespace Scan

/-- The tokens of a scan. A failure has none. -/
def tokens : Scan → List Token
  | complete tokens => tokens
  | incomplete tokens _ => tokens
  | failure _ => []

/-- Whether the text cannot be split. -/
def isFailure : Scan → Bool
  | failure _ => true
  | _ => false

/-- Whether the text ends inside brackets. -/
def isIncomplete : Scan → Bool
  | incomplete _ _ => true
  | _ => false

/-- The text from the opening bracket on, empty if there is none. -/
def remainder : Scan → String
  | incomplete _ remainder => remainder
  | _ => ""

/-- The same scan with other tokens. -/
def withTokens (tokens : List Token) : Scan → Scan
  | complete _ => complete tokens
  | incomplete _ remainder => incomplete tokens remainder
  | failure cause => failure cause

@[simp]
theorem withTokens_tokens (s : Scan) : s.withTokens s.tokens = s := by
  cases s <;> rfl

theorem prepend_withTokens (ts us : List Token) (s : Scan) :
    (s.withTokens us).prepend ts = s.withTokens (ts ++ us) := by
  cases s <;> rfl

end Scan

namespace Reader

/-- What a reader answers to each of several lines, with the reader after it. -/
def readAll (r : Reader) : List String → List (Scan × Reader)
  | [] => []
  | line :: rest => r.read line :: (r.read line).2.readAll rest

variable (r : Reader) (line : String)

/-- A reader scans what it carries over with the line behind it, and carries over what is left. -/
theorem read_eq : r.read line =
    (tokenize (r.join line), ⟨(tokenize (r.join line)).remainder⟩) := by
  unfold read
  cases tokenize (r.join line) <;> rfl

theorem join_append (text : String) : r.join (line ++ text) = r.join line ++ text := by
  unfold join
  split
  · rfl
  · rw [← String.append_assoc]

variable {r} in
/-- Where nothing is carried over, a line stands alone. -/
theorem join_of_not_pending (h : r.isPending = false) (text : String) : r.join text = text := by
  rw [join, if_pos (by simpa [isPending] using h)]

theorem join_empty (text : String) : join ⟨""⟩ text = text := by
  simp [join]

/-- What is carried over is never empty. -/
theorem remainder_isEmpty_eq_false {text remainder : String} {tokens : List Token}
    (h : tokenize text = .incomplete tokens remainder) : remainder.isEmpty = false := by
  obtain ⟨b, rest, rfl⟩ := remainder_of_scan h
  rw [Bool.eq_false_iff, ne_eq, String.isEmpty_iff, ← String.toList_inj]
  simp

/-- **After a line something is carried over exactly if the line ended inside brackets.** -/
theorem isPending_read : (r.read line).2.isPending = (r.read line).1.isIncomplete := by
  rw [read_eq]
  cases hs : tokenize (r.join line) with
  | complete tokens => rfl
  | incomplete tokens remainder =>
    simp [isPending, Scan.remainder, Scan.isIncomplete, remainder_isEmpty_eq_false hs]
  | failure cause => rfl

/-- **A line, and the text behind its line feed.** Unless the line fails, the rest of the text is
left to the reader as it is after the line. -/
theorem tokenize_join_lineFeed (text : String) :
    tokenize (r.join (line ++ "\n" ++ text)) =
      if (r.read line).1.isFailure then (r.read line).1
      else (tokenize ((r.read line).2.join text)).prepend (r.read line).1.tokens := by
  have hsep : (tokenize (r.join line)).Separates ('\n' :: text.toList) :=
    fun _ _ => ⟨'\n', text.toList, rfl, by decide, Or.inl rfl⟩
  have hscan : tokenize (r.join (line ++ "\n" ++ text)) =
      (tokenize (r.join line)).resume ('\n' :: text.toList) := by
    rw [String.append_assoc, join_append, tokenize, String.toList_append, String.toList_append]
    exact scan_append none _ _ hsep
  rw [hscan, read_eq]
  cases hs : tokenize (r.join line) with
  -- nothing is open: the line feed is a blank, and the text behind it begins afresh
  | complete tokens =>
    rw [Scan.resume, scan_blank (by decide), scan_after_blank (by decide)]
    simp [Scan.isFailure, Scan.remainder, Scan.tokens, join_empty, tokenize]
  -- a bracket is open: the scan goes on from it, and so does the reader
  | incomplete tokens remainder =>
    have hne := remainder_isEmpty_eq_false hs
    have hjoin : join ⟨remainder⟩ text = remainder ++ "\n" ++ text := by
      rw [join, if_neg (by simp only [hne, Bool.false_eq_true, not_false_eq_true])]
    simp [Scan.resume, Scan.isFailure, Scan.remainder, Scan.tokens, hjoin, tokenize]
  | failure cause => rfl

variable {r}

/-! ## All lines -/

/-- Lines without a failure come to what the last of them came to, with the tokens of all. -/
theorem tokenize_of_readAll {lines : List String} (hne : lines ≠ [])
    (h : ∀ step ∈ r.readAll lines, step.1.isFailure = false) :
    ∃ last, (r.readAll lines).getLast? = some last ∧
      tokenize (r.join ("\n".intercalate lines)) =
        last.1.withTokens ((r.readAll lines).flatMap (·.1.tokens)) := by
  -- on the lines; each one hands its open bracket over to the next
  induction lines generalizing r with
  | nil => exact absurd rfl hne
  | cons line rest ih =>
    simp only [readAll, List.forall_mem_cons] at h
    cases rest with
    | nil =>
      refine ⟨r.read line, rfl, ?_⟩
      simp [readAll, read_eq]
    | cons line' rest =>
      obtain ⟨last, hlast, heq⟩ := ih (List.cons_ne_nil _ _) h.2
      refine ⟨last, ?_, ?_⟩
      · rw [readAll, readAll, List.getLast?_cons_cons]
        exact hlast
      · rw [String.intercalate_cons_cons, tokenize_join_lineFeed, if_neg (by simp [h.1]), heq,
          Scan.prepend_withTokens]
        rfl

/-- The first line that fails decides, whatever follows it. -/
theorem tokenize_of_failure {lines : List String} {before after : List (Scan × Reader)}
    {cause : ScanError} {r' : Reader}
    (hsplit : r.readAll lines = before ++ (.failure cause, r') :: after)
    (h : ∀ step ∈ before, step.1.isFailure = false) :
    tokenize (r.join ("\n".intercalate lines)) = .failure cause := by
  induction lines generalizing r before with
  | nil => cases before <;> cases hsplit
  | cons line rest ih =>
    have hfirst : rest = [] →
        tokenize (r.join ("\n".intercalate (line :: rest))) = (r.read line).1 := by
      rintro rfl
      rw [String.intercalate_singleton, read_eq]
    -- the failure is in the first line, or further on
    cases before with
    | nil =>
      obtain ⟨hread, -⟩ := List.cons.inj hsplit
      cases rest with
      | nil => rw [hfirst rfl, hread]
      | cons line' rest =>
        rw [String.intercalate_cons_cons, tokenize_join_lineFeed, hread]
        rfl
    | cons step before =>
      obtain ⟨hread, htail⟩ := List.cons.inj hsplit
      simp only [List.forall_mem_cons] at h
      cases rest with
      | nil => cases before <;> cases htail
      | cons line' rest =>
        rw [String.intercalate_cons_cons, tokenize_join_lineFeed, hread, if_neg (by simp [h.1]),
          ← hread, ih htail h.2, Scan.prepend]

/-- After each line the reader carries something over exactly if the line is left open. -/
theorem isPending_of_mem_readAll {lines : List String} {step : Scan × Reader}
    (h : step ∈ r.readAll lines) : step.2.isPending = step.1.isIncomplete := by
  induction lines generalizing r with
  | nil => cases h
  | cons line rest ih =>
    rcases List.mem_cons.1 h with rfl | h
    · exact isPending_read r line
    · exact ih h

end Reader

/-- **Line after line is as good as all at once.** Without a failure the whole text comes to what the
last line came to, with the tokens of all lines; else it fails like the first line that failed. After
each line something is carried over exactly if the line ended inside brackets. -/
theorem readAll_agrees_tokenize (line : String) (rest : List String) :
    ((∀ step ∈ Reader.readAll {} (line :: rest), step.1.isFailure = false) →
      ∃ last, (Reader.readAll {} (line :: rest)).getLast? = some last ∧
        tokenize ("\n".intercalate (line :: rest)) =
          last.1.withTokens ((Reader.readAll {} (line :: rest)).flatMap (·.1.tokens))) ∧
    (∀ before cause r after,
      Reader.readAll {} (line :: rest) = before ++ (.failure cause, r) :: after →
      (∀ step ∈ before, step.1.isFailure = false) →
      tokenize ("\n".intercalate (line :: rest)) = .failure cause) ∧
    ∀ step ∈ Reader.readAll {} (line :: rest), step.2.isPending = step.1.isIncomplete := by
  have hjoin (text : String) : Reader.join {} text = text := Reader.join_empty text
  refine ⟨fun h => ?_, fun before cause r after hsplit h => ?_, fun step hstep => ?_⟩
  · have hall := Reader.tokenize_of_readAll (List.cons_ne_nil line rest) h
    rwa [hjoin] at hall
  · have hfail := Reader.tokenize_of_failure hsplit h
    rwa [hjoin] at hfail
  · exact Reader.isPending_of_mem_readAll hstep

/-- A list that is closed on the second line, and an expression that is not closed inside a list. -/
theorem readAll_agrees_tokenize_brackets :
    ((∀ step ∈ Reader.readAll {} ["print [1", "2] ("], step.1.isFailure = false) ∧
      ∃ last, (Reader.readAll {} ["print [1", "2] ("]).getLast? = some last ∧
        tokenize ("\n".intercalate ["print [1", "2] ("]) = last.1.withTokens
          ((Reader.readAll {} ["print [1", "2] ("]).flatMap (·.1.tokens))) ∧
    Reader.readAll {} ["a [", "(]", "b"] = [(.incomplete [.word "a"] "[", ⟨"["⟩)] ++
        (.failure (.unterminatedExpression "("), ⟨""⟩) :: [(.complete [.word "b"], ⟨""⟩)] ∧
    tokenize ("\n".intercalate ["a [", "(]", "b"]) = .failure (.unterminatedExpression "(") := by
  have hall : ∀ step ∈ Reader.readAll {} ["print [1", "2] ("], step.1.isFailure = false := by
    decide +kernel
  have hsplit : Reader.readAll {} ["a [", "(]", "b"] = [(.incomplete [.word "a"] "[", ⟨"["⟩)] ++
      (.failure (.unterminatedExpression "("), ⟨""⟩) :: [(.complete [.word "b"], ⟨""⟩)] := by
    cbv
  exact ⟨⟨hall, (readAll_agrees_tokenize "print [1" ["2] ("]).1 hall⟩, hsplit,
    (readAll_agrees_tokenize "a [" ["(]", "b"]).2.1 _ _ _ _ hsplit (by simp [Scan.isFailure])⟩

/-! ## Texts that are cut inside brackets -/

/-- **A text that is cut inside brackets** goes on from the opening bracket, wherever the cut is: it
may be in the middle of a word, of a number or of a comment. The tokens before the bracket stand in
front of what is found then, and a failure is the same one. -/
theorem tokenize_append_of_incomplete (text more remainder : String) (tokens : List Token)
    (h : tokenize text = .incomplete tokens remainder) :
    (∀ later, tokenize (remainder ++ more) = .complete later →
      tokenize (text ++ more) = .complete (tokens ++ later)) ∧
    (∀ later rest, tokenize (remainder ++ more) = .incomplete later rest →
      tokenize (text ++ more) = .incomplete (tokens ++ later) rest) ∧
    ∀ cause, tokenize (remainder ++ more) = .failure cause →
      tokenize (text ++ more) = .failure cause := by
  -- only a complete scan can be joined to what follows it
  have hsep : (tokenize text).Separates more.toList := by
    intro later hlater
    rw [h] at hlater
    cases hlater
  have hscan : tokenize (text ++ more) = (tokenize (remainder ++ more)).prepend tokens := by
    calc tokenize (text ++ more)
      _ = (tokenize text).resume more.toList := by
        rw [tokenize, String.toList_append]
        exact scan_append none _ _ hsep
      _ = (tokenize (remainder ++ more)).prepend tokens := by
        rw [h, Scan.resume, tokenize, String.toList_append]
  refine ⟨fun later hlater => ?_, fun later rest hlater => ?_, fun cause hcause => ?_⟩
  · rw [hscan, hlater, Scan.prepend]
  · rw [hscan, hlater, Scan.prepend]
  · rw [hscan, hcause, Scan.prepend]

/-- A cut inside a comment, before a bracket that belongs to the comment. -/
theorem tokenize_append_of_incomplete_comment :
    tokenize "a [b ;c" = .incomplete [.word "a"] "[b ;c" ∧
    tokenize ("a [b ;c" ++ "]\n] d") =
      .complete ([.word "a"] ++ [.list [.word "b", .comment ";c]"], .word "d"]) ∧
    tokenize ("a [b ;c" ++ "]\n] (d") =
      .incomplete ([.word "a"] ++ [.list [.word "b", .comment ";c]"]]) "(d" ∧
    tokenize ("a [b ;c" ++ "\n(]") = .failure (.unterminatedExpression "(") := by
  have h : tokenize "a [b ;c" = .incomplete [.word "a"] "[b ;c" := by cbv
  refine ⟨h, ?_, ?_, ?_⟩
  · exact (tokenize_append_of_incomplete _ _ _ _ h).1 _ (by cbv)
  · exact (tokenize_append_of_incomplete _ _ _ _ h).2.1 _ _ (by cbv)
  · exact (tokenize_append_of_incomplete _ _ _ _ h).2.2 _ (by cbv)

/-! ## Texts that cannot be split -/

/-- **A failure is final.** Whatever is put behind a text that cannot be split, it fails for the same
cause: a fault shows at a closing bracket, and nothing behind that bracket is looked at for it. -/
theorem tokenize_append_of_failure (text more : String) (cause : ScanError)
    (h : tokenize text = .failure cause) : tokenize (text ++ more) = .failure cause := by
  have hsep : (tokenize text).Separates more.toList := by
    intro later hlater
    rw [h] at hlater
    cases hlater
  calc tokenize (text ++ more)
    _ = (tokenize text).resume more.toList := by
      rw [tokenize, String.toList_append]
      exact scan_append none _ _ hsep
    _ = .failure cause := by rw [h, Scan.resume]

/-- An expression that a list cuts off is not mended by brackets behind the list, and neither is a
bracket that closes nothing. -/
theorem tokenize_append_of_failure_brackets :
    tokenize "a [b (1 -]" = .failure (.unterminatedExpression "(1 -") ∧
    tokenize ("a [b (1 -]" ++ "2)]") = .failure (.unterminatedExpression "(1 -") ∧
    tokenize "[c] )" = .failure (.unexpectedClose ')') ∧
    tokenize ("[c] )" ++ " (") = .failure (.unexpectedClose ')') := by
  have hcut : tokenize "a [b (1 -]" = .failure (.unterminatedExpression "(1 -") := by cbv
  have hclose : tokenize "[c] )" = .failure (.unexpectedClose ')') := by cbv
  exact ⟨hcut, tokenize_append_of_failure _ _ _ hcut, hclose,
    tokenize_append_of_failure _ _ _ hclose⟩

end Logo
