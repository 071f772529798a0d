import Logo.Proofs.Scan.Append
import Mathlib

/-!
# Tokens back to text and to tokens again

The text of scanned tokens is not the text that they came from: blanks are lost, and others are put
in. Still it is split into the same tokens.

* `Token.Spelled`: the tokens that come from a text, said without the scanner. Every token of a
  complete scan is one (`spelled_of_scan`), and so are the tokens inside its brackets.
* `Bracket.Passes`: a text in which the search for a closing bracket changes nothing. The text of
  spelled tokens is one (`passes_joinTokens`), so that brackets around it close where they must.
* `scan_joinTokens`: tokens that are found in their own texts are found in the joined text.
* `tokenize_joinTokens`: the round trip.
-/

namespace Logo

/-! ## Spelled tokens -/

/-- The characters of a word: none of them ends it, and the first is no operator. -/
def IsSpelledWord : List Char → Prop
  | [] => False
  | c :: rest => continuesWord true c = true ∧ leadingOperator? none c rest = none ∧
      ∀ d ∈ rest, continuesWord (c = '"') d = true

/-- Tokens that come from a text. A comment ends before a line feed. -/
inductive Token.Spelled : Token → Prop where
  | word {cs : List Char} (h : IsSpelledWord cs) : Spelled (.ofChars cs)
  | operator (op : Operator) : Spelled (.operator op)
  | comment {cs : List Char} (h : '\n' ∉ cs) : Spelled (.comment (String.ofList (';' :: cs)))
  | bracketed (b : Bracket) {children : List Token} (h : ∀ t ∈ children, Spelled t) :
    Spelled (b.token children)

/-- A digit goes on with any word. -/
theorem continuesWord_of_isDigit {quoted : Bool} {c : Char} (h : c.isDigit = true) :
    continuesWord quoted c = true := by
  have hne (d : Char) (hd : d.isDigit = false) : c ≠ d := by
    rintro rfl
    rw [h] at hd
    cases hd
  have hblank : Text.isBlank c = false := by
    rw [Bool.eq_false_iff]
    intro hb
    rw [isDigit_eq_false_of_isBlank hb] at h
    cases h
  have hop : Operator.ofSymbol? c = none := by
    unfold Operator.ofSymbol?
    split <;> first | rfl | exact absurd h (by decide)
  simp [continuesWord, hblank, hop, hne '[' (by decide), hne ']' (by decide), hne '(' (by decide),
    hne ')' (by decide), hne ';' (by decide)]

/-- A word of the scanner is spelled, whatever stood before it. -/
theorem isSpelledWord_of_leadingOperator? {previous : Option Char} {c : Char} {rest : List Char}
    (hc : continuesWord true c = true) (hop : leadingOperator? previous c rest = none) :
    IsSpelledWord (c :: rest.takeWhile (continuesWord (c = '"'))) := by
  refine ⟨hc, ?_, List.all_eq_true.1 List.all_takeWhile⟩
  unfold leadingOperator? at hop ⊢
  split at hop
  · -- a minus sign: the digit behind it belongs to the word
    rename_i hminus
    simp only [Bool.and_eq_true, decide_eq_true_eq, beginsNumeral] at hminus
    obtain ⟨rfl, hdigit, -⟩ := hminus
    rw [if_pos]
    cases rest with
    | nil => cases hdigit
    | cons d rest =>
      have hd : d.isDigit = true := by simpa using hdigit
      simp [beginsNumeral, continuesWord_of_isDigit hd, hd]
  · rw [hop, ite_self]

/-- **Every token of a complete scan is spelled.** -/
theorem spelled_of_scan {previous : Option Char} {cs : List Char} {ts : List Token}
    (h : scan previous cs = .complete ts) : ∀ t ∈ ts, t.Spelled := by
  induction previous, cs using scan_induction generalizing ts with
  | nil previous => rw [scan_nil] at h; cases h; intro t ht; cases ht
  | blank previous c rest hb ih => rw [scan_blank hb] at h; exact ih h
  | comment previous rest ih =>
    rw [scan_comment] at h
    obtain ⟨us, hus, rfl⟩ := Scan.push_eq_complete.1 h
    refine List.forall_mem_cons.2 ⟨.comment fun hmem => ?_, ih hus⟩
    -- a comment was read up to a line feed, so that there is none in it
    have hlf := List.all_eq_true.1 List.all_takeWhile _ hmem
    cases hlf
  | close previous c rest hc => rw [scan_close hc] at h; cases h
  | unclosed previous b rest hs => rw [scan_unclosed hs] at h; cases h
  | closed previous b rest inside after hs ihInside ihAfter =>
    rw [scan_closed hs] at h
    cases hi : scan none inside with
    | complete children =>
      rw [hi, Bracket.scanClosed] at h
      obtain ⟨us, hus, rfl⟩ := Scan.push_eq_complete.1 h
      exact List.forall_mem_cons.2 ⟨.bracketed b (ihInside hi), ihAfter hus⟩
    | incomplete us r => rw [hi] at h; cases h
    | failure cause => rw [hi] at h; cases h
  | operator previous c rest op hc hop ih =>
    rw [scan_operator hc hop] at h
    obtain ⟨us, hus, rfl⟩ := Scan.push_eq_complete.1 h
    exact List.forall_mem_cons.2 ⟨.operator op, ih hus⟩
  | word previous c rest hc hop ih =>
    rw [scan_word hc hop] at h
    obtain ⟨us, hus, rfl⟩ := Scan.push_eq_complete.1 h
    exact List.forall_mem_cons.2 ⟨.word (isSpelledWord_of_leadingOperator? hc hop), ih hus⟩

/-! ## Texts of tokens -/

/-- A word is written as it was spelled, whatever it is read as. -/
theorem text_ofChars (cs : List Char) : (Token.ofChars cs).text = String.ofList cs := by
  unfold Token.ofChars
  repeat' split
  all_goals rfl

theorem isComment_ofChars (cs : List Char) : (Token.ofChars cs).isComment = false := by
  unfold Token.ofChars
  repeat' split
  all_goals rfl

theorem Bracket.toList_text_token (b : Bracket) (children : List Token) :
    (b.token children).text.toList =
      b.opening :: ((joinTokens children).toList ++ [b.closing]) := by
  cases b <;> simp [token, Token.text, opening, closing]

theorem Bracket.isComment_token (b : Bracket) (children : List Token) :
    (b.token children).isComment = false := by
  cases b <;> rfl

theorem joinTokens_singleton {t : Token} (h : t.isComment = false) : joinTokens [t] = t.text := by
  cases t <;> first | rfl | cases h

theorem joinTokens_cons_cons {t : Token} (h : t.isComment = false) (u : Token) (ts : List Token) :
    joinTokens (t :: u :: ts) = t.text ++ " " ++ joinTokens (u :: ts) := by
  cases t <;> first | rfl | cases h

/-! ## Brackets around the text of tokens -/

/-- In the text `u` the search for a closing bracket ends at the depth at which it began. -/
def Bracket.Passes (b : Bracket) (u : List Char) : Prop :=
  ∀ depth rest, b.split depth false (u ++ rest) =
    (b.split depth false rest).map fun (inside, after) => (u ++ inside, after)

namespace Bracket

variable {b : Bracket} {u v : List Char}

theorem passes_nil : b.Passes [] := by
  intro depth rest
  simp

/-- The search passes over one text and then over the other. -/
theorem Passes.append (hu : b.Passes u) (hv : b.Passes v) : b.Passes (u ++ v) := by
  intro depth rest
  rw [List.append_assoc, hu, hv, Option.map_map]
  congr 1
  funext ⟨inside, after⟩
  simp

theorem passes_singleton {c : Char} (hopen : c ≠ b.opening) (hclose : c ≠ b.closing)
    (hsemi : c ≠ ';') : b.Passes [c] := by
  intro depth rest
  rw [List.singleton_append, b.split_other depth rest hopen hclose, beq_eq_false_iff_ne.2 hsemi]
  rfl

/-- A text without brackets and semicolons. -/
theorem passes_of_continuesWord (h : ∀ c ∈ u, continuesWord true c = true) : b.Passes u := by
  induction u with
  | nil => exact passes_nil
  | cons c u ih =>
    obtain ⟨hc, hu⟩ := List.forall_mem_cons.1 h
    obtain ⟨-, h1, h2, h3, h4, h5⟩ := continuesWord_true_iff.1 hc
    have hone : b.Passes [c] := by
      cases b
      · exact passes_singleton h1 h2 h5
      · exact passes_singleton h3 h4 h5
    exact hone.append (ih hu)

/-- The inside of a comment is not looked at. -/
theorem split_inComment {cs : List Char} (h : '\n' ∉ cs) (depth : Nat) (rest : List Char) :
    b.split depth true (cs ++ '\n' :: rest) =
      (b.split depth false rest).map fun (inside, after) => (cs ++ '\n' :: inside, after) := by
  induction cs with
  | nil => exact b.split_inComment_cons depth rest '\n'
  | cons c cs ih =>
    obtain ⟨hc, hcs⟩ := not_or.1 (List.mem_cons.not.1 h)
    rw [List.cons_append, split_inComment_cons, bne_iff_ne.2 (Ne.symm hc), ih hcs, Option.map_map]
    rfl

/-- The search passes over a comment, up to the end of its line, whatever stands in it. -/
theorem passes_comment {cs : List Char} (h : '\n' ∉ cs) : b.Passes (';' :: cs ++ ['\n']) := by
  intro depth rest
  have hclose : ';' ≠ b.closing := by cases b <;> decide
  have hopen : ';' ≠ b.opening := by cases b <;> decide
  rw [List.append_assoc, List.cons_append, List.singleton_append,
    b.split_other depth _ hopen hclose, beq_self_eq_true, split_inComment h, Option.map_map]
  congr 1
  funext ⟨inside, after⟩
  simp

/-- Brackets of one kind are counted up and down again, and those of the other are not counted. -/
theorem Passes.bracketed (h : b.Passes u) (b' : Bracket) :
    b.Passes (b'.opening :: (u ++ [b'.closing])) := by
  -- brackets of the same kind are counted in and out, and those of the other kind are not counted
  by_cases hb : b' = b
  · subst hb
    intro depth rest
    rw [List.cons_append, split_opening, List.append_assoc, h, List.singleton_append,
      split_closing_succ, Option.map_map, Option.map_map]
    congr 1
    funext ⟨inside, after⟩
    simp
  · have hopen : b.Passes [b'.opening] := by
      cases b <;> cases b' <;>
        first | exact absurd rfl hb | exact passes_singleton (by decide) (by decide) (by decide)
    have hclose : b.Passes [b'.closing] := by
      cases b <;> cases b' <;>
        first | exact absurd rfl hb | exact passes_singleton (by decide) (by decide) (by decide)
    exact hopen.append (h.append hclose)

end Bracket

/-- Where a closing bracket is searched for in the text of tokens, a comment has its line feed. -/
theorem passes_joinTokens_of_text {b : Bracket} {ts : List Token}
    (h : ∀ t ∈ ts, b.Passes (joinTokens [t]).toList) : b.Passes (joinTokens ts).toList := by
  induction ts with
  | nil => exact Bracket.passes_nil
  | cons t ts ih =>
    obtain ⟨ht, hts⟩ := List.forall_mem_cons.1 h
    have hspace : b.Passes [' '] := by
      cases b <;> exact Bracket.passes_singleton (by decide) (by decide) (by decide)
    cases ts with
    | nil => exact ht
    | cons u ts =>
      by_cases hc : t.isComment = true
      · cases t <;> cases hc
        simpa [joinTokens] using ht.append (ih hts)
      · rw [Bool.not_eq_true] at hc
        rw [joinTokens_singleton hc] at ht
        rw [joinTokens_cons_cons hc]
        simpa using (ht.append hspace).append (ih hts)

/-- **Brackets around the text of spelled tokens close behind it.** -/
theorem passes_of_spelled {b : Bracket} {t : Token} (h : t.Spelled) :
    b.Passes (joinTokens [t]).toList := by
  induction h with
  | word hcs =>
    rename_i cs
    rw [joinTokens_singleton (isComment_ofChars cs), text_ofChars, String.toList_ofList]
    cases cs with
    | nil => exact hcs.elim
    | cons c rest =>
      obtain ⟨hc, -, hrest⟩ := hcs
      exact Bracket.passes_of_continuesWord
        (List.forall_mem_cons.2 ⟨hc, fun d hd => continuesWord_of_quoted (hrest d hd)⟩)
  | operator op =>
    refine Bracket.passes_of_continuesWord fun c hc => ?_
    cases op <;> simp [joinTokens, Token.text, Operator.text, Operator.symbol] at hc <;>
      subst hc <;> decide
  | comment hcs => simpa [joinTokens] using Bracket.passes_comment hcs
  | bracketed b' _ ih =>
    rw [joinTokens_singleton (b'.isComment_token _), b'.toList_text_token]
    exact (passes_joinTokens_of_text ih).bracketed b'

/-- The search for a closing bracket passes over the text of tokens that can be spelled. -/
theorem passes_joinTokens {b : Bracket} {ts : List Token} (h : ∀ t ∈ ts, t.Spelled) :
    b.Passes (joinTokens ts).toList :=
  passes_joinTokens_of_text fun t ht => passes_of_spelled (h t ht)

/-! ## The round trip -/

/-- A blank separates a token from the rest, and behind a comment a line feed does. -/
theorem scan_text_append {t : Token} (ht : scan none t.text.toList = .complete [t]) {c : Char}
    (hb : Text.isBlank c = true) (hc : c = '\n' ∨ t.isComment = false) (cs : List Char) :
    scan none (t.text.toList ++ c :: cs) = (scan none cs).push t := by
  have hsep : (scan none t.text.toList).Separates (c :: cs) := by
    intro tokens htokens
    rw [ht] at htokens
    cases htokens
    refine ⟨c, _, rfl, hb, hc.imp_right fun hcomment u hu => ?_⟩
    cases hu
    exact hcomment
  rw [scan_append none _ _ hsep, ht, Scan.resume, scan_blank hb, scan_after_blank hb,
    ← Scan.push_prepend, Scan.prepend_nil]

/-- Tokens that are found in their own texts are found in the joined text. -/
theorem scan_joinTokens {ts : List Token} (h : ∀ t ∈ ts, scan none t.text.toList = .complete [t]) :
    scan none (joinTokens ts).toList = .complete ts := by
  induction ts with
  | nil => exact scan_nil
  | cons t ts ih =>
    obtain ⟨ht, hts⟩ := List.forall_mem_cons.1 h
    -- a comment brings its own line feed along
    by_cases hc : t.isComment = true
    · cases t <;> cases hc
      simpa [joinTokens, Token.text, ih hts, Scan.push] using
        scan_text_append ht (by decide) (Or.inl rfl) (joinTokens ts).toList
    · rw [Bool.not_eq_true] at hc
      cases ts with
      | nil => rw [joinTokens_singleton hc, ht]
      | cons u ts =>
        rw [joinTokens_cons_cons hc]
        simpa [ih hts, Scan.push] using scan_text_append ht
          (by decide : Text.isBlank ' ' = true) (Or.inr hc) (joinTokens (u :: ts)).toList

/-- Behind the joined text of tokens the scan goes on after any blank: a comment at its end has its
own line feed. -/
theorem scan_joinTokens_append {ts : List Token}
    (h : ∀ t ∈ ts, scan none t.text.toList = .complete [t]) {c : Char}
    (hb : Text.isBlank c = true) (cs : List Char) :
    scan none ((joinTokens ts).toList ++ c :: cs) = (scan none cs).prepend ts := by
  induction ts with
  | nil => simp [joinTokens, scan_blank hb, scan_after_blank hb]
  | cons t ts ih =>
    obtain ⟨ht, hts⟩ := List.forall_mem_cons.1 h
    rw [← Scan.push_prepend, ← ih hts]
    by_cases hc : t.isComment = true
    · cases t <;> cases hc
      simpa [joinTokens, Token.text] using
        scan_text_append ht (by decide) (Or.inl rfl) ((joinTokens ts).toList ++ c :: cs)
    · rw [Bool.not_eq_true] at hc
      cases ts with
      | nil =>
        rw [joinTokens_singleton hc, scan_text_append ht hb (Or.inr hc)]
        simp [joinTokens, scan_blank hb, scan_after_blank hb]
      | cons u ts =>
        rw [joinTokens_cons_cons hc]
        simpa using scan_text_append ht (by decide : Text.isBlank ' ' = true) (Or.inr hc)
          ((joinTokens (u :: ts)).toList ++ c :: cs)

/-- **A spelled token is found in its own text.** -/
theorem scan_text_of_spelled {t : Token} (h : t.Spelled) :
    scan none t.text.toList = .complete [t] := by
  induction h with
  | word hcs =>
    rename_i cs
    rw [text_ofChars, String.toList_ofList]
    cases cs with
    | nil => exact hcs.elim
    | cons c rest =>
      obtain ⟨hc, hop, hrest⟩ := hcs
      rw [scan_word hc hop, List.takeWhile_eq_self_iff.2 hrest, List.dropWhile_eq_nil_iff.2 hrest,
        scan_nil]
      rfl
  | operator op =>
    have hc : continuesWord true op.symbol = true := by cases op <;> decide
    have hop : leadingOperator? none op.symbol [] = some op := by cases op <;> rfl
    rw [Token.text, Operator.text, String.toList_singleton, scan_operator hc hop, scan_nil]
    rfl
  | comment hcs =>
    rename_i cs
    have hne : ∀ c ∈ cs, (c != '\n') = true := by
      intro c hc
      rw [bne_iff_ne]
      rintro rfl
      exact hcs hc
    rw [Token.text, String.toList_ofList, scan_comment, List.takeWhile_eq_self_iff.2 hne,
      List.dropWhile_eq_nil_iff.2 hne, scan_nil]
    rfl
  -- the brackets are found again, and the inside is scanned to the children
  | bracketed b hchildren ih =>
    rename_i children
    have hsplit : b.split 0 false ((joinTokens children).toList ++ [b.closing]) =
        some ((joinTokens children).toList, []) := by
      rw [passes_joinTokens hchildren, b.split_closing_zero]
      simp
    rw [b.toList_text_token, scan_closed hsplit, scan_joinTokens ih, scan_nil]
    rfl

/-- **The round trip.** The text of completely scanned tokens is split into the same tokens, at the
top and inside all brackets. -/
theorem tokenize_joinTokens (text : String) (ts : List Token) (h : tokenize text = .complete ts) :
    tokenize (joinTokens ts) = .complete ts :=
  scan_joinTokens fun t ht => scan_text_of_spelled (spelled_of_scan h t ht)

/-- A numeral with a minus sign behind an operator, an operator in a quoted word, and a bracket in a
comment. -/
theorem tokenize_joinTokens_nested :
    ∃ ts, tokenize "(3--2)[\"b+c ;]\n:x]; end" = .complete ts ∧
      ts = [.expression [.literal "3" (.number ⟨3, 0⟩), .operator .subtract,
          .literal "-2" (.number ⟨-2, 0⟩)],
        .list [.literal "\"b+c" (.word "b+c"), .comment ";]", .reference ":x"],
        .comment "; end"] ∧
      tokenize (joinTokens ts) = .complete ts := by
  refine ⟨_, ?h, rfl, tokenize_joinTokens _ _ ?h⟩
  cbv

end Logo
