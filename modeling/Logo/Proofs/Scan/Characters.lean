import Logo.Proofs.Scan.RoundTrip
import Mathlib

/-!
# No character is lost

The scanner drops blanks and nothing else. What it has split into tokens, written out again, and what
it hands back have the same characters in the same order as the text, up to blanks.

* `solid`: the characters of a text that are no blanks.
* `Scan.AccountsFor`: a scan has all solid characters of a text, and hands back the end of it.
* `accountsFor_scan`: the scan of a text accounts for it.
-/

namespace Logo

/-- The characters that are no blanks. -/
def solid (cs : List Char) : List Char :=
  cs.filter fun c => !Text.isBlank c

@[simp]
theorem solid_nil : solid [] = [] := rfl

@[simp]
theorem solid_append (cs ds : List Char) : solid (cs ++ ds) = solid cs ++ solid ds :=
  List.filter_append cs ds

theorem solid_cons (c : Char) (cs : List Char) : solid (c :: cs) = solid [c] ++ solid cs :=
  solid_append [c] cs

theorem solid_blank {c : Char} (h : Text.isBlank c = true) (cs : List Char) :
    solid (c :: cs) = solid cs := by
  simp [solid, h]

/-- A line feed or a space between two tokens leaves no trace. -/
theorem solid_joinTokens_cons (t : Token) (ts : List Token) :
    solid (joinTokens (t :: ts)).toList = solid t.text.toList ++ solid (joinTokens ts).toList := by
  by_cases hc : t.isComment = true
  · cases t <;> cases hc
    have hlf := solid_blank (c := '\n') (by decide)
    simp [joinTokens, Token.text, hlf]
  · rw [Bool.not_eq_true] at hc
    cases ts with
    | nil => simp [joinTokens_singleton hc, joinTokens]
    | cons u ts =>
      have hspace := solid_blank (c := ' ') (by decide)
      simp [joinTokens_cons_cons hc, hspace]

/-! ## What a scan has of a text -/

/-- The scan has all solid characters of the text, in its tokens and in what it hands back, which is
the end of the text. -/
def Scan.AccountsFor (cs : List Char) : Scan → Prop
  | complete tokens => solid (joinTokens tokens).toList = solid cs
  | incomplete tokens remainder =>
    solid (joinTokens tokens).toList ++ solid remainder.toList = solid cs ∧ remainder.toList <:+ cs
  | failure _ => True

namespace Scan.AccountsFor

variable {s : Scan} {cs rest : List Char}

/-- Characters before the text that are blanks need not be found again. -/
theorem skip (h : s.AccountsFor rest) (hsolid : solid cs = solid rest) (hrest : rest <:+ cs) :
    s.AccountsFor cs := by
  cases s with
  | complete tokens => exact h.trans hsolid.symm
  | incomplete tokens remainder => exact ⟨h.1.trans hsolid.symm, h.2.trans hrest⟩
  | failure cause => trivial

/-- A token accounts for the characters between the text that it begins and the rest. -/
theorem push {t : Token} (h : s.AccountsFor rest)
    (hsolid : solid cs = solid t.text.toList ++ solid rest) (hrest : rest <:+ cs) :
    (s.push t).AccountsFor cs := by
  cases s with
  | complete tokens =>
    have hrest' : solid (joinTokens tokens).toList = solid rest := h
    change solid (joinTokens (t :: tokens)).toList = solid cs
    rw [solid_joinTokens_cons, hrest', hsolid]
  | incomplete tokens remainder =>
    obtain ⟨hparts, hsuffix⟩ := h
    refine ⟨?_, hsuffix.trans hrest⟩
    rw [solid_joinTokens_cons, List.append_assoc, hparts, hsolid]
  | failure cause => trivial

end Scan.AccountsFor

/-! ## The scanner -/

/-- An operator is spelled as the character that it was read from. -/
theorem symbol_of_leadingOperator? {previous : Option Char} {c : Char} {rest : List Char}
    {op : Operator} (h : leadingOperator? previous c rest = some op) : op.symbol = c := by
  unfold leadingOperator? at h
  split at h
  · cases h
  · unfold Operator.ofSymbol? at h
    split at h <;> cases h <;> rfl

/-- **The scan of a text accounts for it.** -/
theorem accountsFor_scan (previous : Option Char) (cs : List Char) :
    (scan previous cs).AccountsFor cs := by
  induction previous, cs using scan_induction with
  | nil previous =>
    rw [scan_nil]
    rfl
  | blank previous c rest hb ih =>
    rw [scan_blank hb]
    exact ih.skip (solid_blank hb rest) (List.suffix_cons c rest)
  | comment previous rest ih =>
    rw [scan_comment]
    refine ih.push ?_ ((List.dropWhile_suffix _).trans (List.suffix_cons _ rest))
    have hparts : rest.takeWhile (· != '\n') ++ rest.dropWhile (· != '\n') = rest :=
      List.takeWhile_append_dropWhile
    rw [Token.text, String.toList_ofList, ← solid_append, List.cons_append, hparts]
  | close previous c rest hc =>
    rw [scan_close hc]
    trivial
  | unclosed previous b rest hs =>
    rw [scan_unclosed hs]
    refine ⟨?_, ?_⟩
    · simp [joinTokens]
    · rw [String.toList_ofList]
  | closed previous b rest inside after hs ihInside ihAfter =>
    rw [scan_closed hs]
    cases hi : scan none inside with
    | complete children =>
      -- the brackets of the token are those of the text, and its inside is accounted for
      rw [hi] at ihInside
      have hinside : solid (joinTokens children).toList = solid inside := ihInside
      have hrest : rest = inside ++ b.closing :: after := b.eq_of_split hs
      have htext : solid (b.token children).text.toList =
          solid (b.opening :: (inside ++ [b.closing])) := by
        rw [b.toList_text_token, solid_cons, solid_append, hinside, ← solid_append, ← solid_cons]
      refine ihAfter.push ?_ ?_
      · rw [htext, ← solid_append, hrest]
        simp only [List.cons_append, List.append_assoc, List.nil_append]
      · exact ⟨b.opening :: (inside ++ [b.closing]), by simp [hrest]⟩
    | incomplete tokens remainder => trivial
    | failure cause => trivial
  | operator previous c rest op hc hop ih =>
    rw [scan_operator hc hop]
    refine ih.push ?_ (List.suffix_cons c rest)
    rw [Token.text, Operator.text, String.toList_singleton, symbol_of_leadingOperator? hop,
      ← solid_cons]
  | word previous c rest hc hop ih =>
    rw [scan_word hc hop]
    refine ih.push ?_ ((List.dropWhile_suffix _).trans (List.suffix_cons _ rest))
    have hparts : rest.takeWhile (continuesWord (c = '"')) ++
        rest.dropWhile (continuesWord (c = '"')) = rest :=
      List.takeWhile_append_dropWhile
    rw [text_ofChars, String.toList_ofList, ← solid_append, List.cons_append, hparts]

/-- **No character is lost or made up.** The tokens of a complete text have its characters, up to
blanks. If the text ends inside brackets, the tokens and what is handed back have them, and what is
handed back is the end of the text, from an opening bracket on. -/
theorem tokenize_keeps_characters (text : String) :
    (∀ ts, tokenize text = .complete ts →
      solid (joinTokens ts).toList = solid text.toList) ∧
    ∀ ts remainder, tokenize text = .incomplete ts remainder →
      solid (joinTokens ts ++ remainder).toList = solid text.toList ∧
      remainder.toList <:+ text.toList ∧
      (remainder.toList.head? = some '[' ∨ remainder.toList.head? = some '(') := by
  have hall : (tokenize text).AccountsFor text.toList := accountsFor_scan none text.toList
  refine ⟨fun ts h => ?_, fun ts remainder h => ?_⟩
  · rw [h] at hall
    exact hall
  · rw [h] at hall
    obtain ⟨hsolid, hsuffix⟩ := hall
    refine ⟨by rw [String.toList_append, solid_append, hsolid], hsuffix, ?_⟩
    obtain ⟨b, rest, rfl⟩ := remainder_of_scan h
    cases b
    · exact Or.inl (by rw [String.toList_ofList]; rfl)
    · exact Or.inr (by rw [String.toList_ofList]; rfl)

/-- Words without blanks between them and a comment inside brackets, and brackets that stay open
with a blank inside. -/
theorem tokenize_keeps_characters_brackets :
    (∃ ts, tokenize "a-3[b;]\n\"c+d]" = .complete ts ∧
      ts = [.word "a", .operator .subtract, .literal "3" (.number ⟨3, 0⟩),
        .list [.word "b", .comment ";]", .literal "\"c+d" (.word "c+d")]] ∧
      solid (joinTokens ts).toList = solid "a-3[b;]\n\"c+d]".toList) ∧
    tokenize ":x=([y  (z" = .incomplete [.reference ":x", .operator .equals] "([y  (z" ∧
    solid (joinTokens [.reference ":x", .operator .equals] ++ "([y  (z").toList =
      solid ":x=([y  (z".toList := by
  have hopen : tokenize ":x=([y  (z" =
      .incomplete [.reference ":x", .operator .equals] "([y  (z" := by
    cbv
  refine ⟨⟨_, ?h, rfl, (tokenize_keeps_characters _).1 _ ?h⟩, hopen,
    ((tokenize_keeps_characters _).2 _ _ hopen).1⟩
  cbv

end Logo
