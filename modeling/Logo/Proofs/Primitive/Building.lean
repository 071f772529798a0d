import Logo.Primitive.Perform
import Logo.Proofs.Scan.RoundTrip
import Mathlib

/-!
# Lists that are put together

A word that is put into a list is stored as the token of its whole spelling. The scanner finds the
same token in the word as it is typed, unless an operator splits the word there: an operator is part
of a quoted word, and ends a word that is not quoted.

* `Quotable`: the words that can be written behind a quotation mark.
* `Unsplit`: the words that no operator splits.
* `tokenize_eq_ofItem_iff`: these are the quotable words that are stored as they are typed.
* `Primitive.Built`: the values that programs build from such words and from lists that were typed.
* `Primitive.built_reads_as_typed`: they are the values that their texts are typed for.
-/

namespace Logo

/-- The word is not empty, and behind a quotation mark the scanner takes it as a whole. -/
def Quotable (s : String) : Prop :=
  s ≠ "" ∧ ∃ text, tokenize ("\"" ++ s) = .complete [.literal text (.word s)]

/-- No operator splits the word: it is quoted itself, or there is none in it, or the only one is the
minus sign of a number. -/
def Unsplit (cs : List Char) : Prop :=
  cs.head? = some '"' ∨ (∀ c ∈ cs, Operator.ofSymbol? c = none) ∨
    ∃ d rest, cs = '-' :: d :: rest ∧ d.isDigit = true ∧ ∀ c ∈ rest, Operator.ofSymbol? c = none

/-! ## Spellings -/

theorem continuesWord_false_iff {c : Char} : continuesWord false c = true ↔
    continuesWord true c = true ∧ Operator.ofSymbol? c = none := by
  simp [continuesWord]

/-- The token of a word is a literal, a reference or the name of a procedure. -/
theorem ofChars_cases (cs : List Char) :
    (∃ v, Token.ofChars cs = .literal (String.ofList cs) v) ∨
      Token.ofChars cs = .reference (String.ofList cs) ∨
      Token.ofChars cs = .word (String.ofList cs) := by
  unfold Token.ofChars
  repeat' split
  · exact Or.inl ⟨_, rfl⟩
  · exact Or.inr (Or.inl rfl)
  · exact Or.inl ⟨_, rfl⟩
  · exact Or.inr (Or.inr rfl)
  · exact Or.inr (Or.inr rfl)

theorem ofChars_injective {cs ds : List Char} (h : Token.ofChars cs = Token.ofChars ds) :
    cs = ds := by
  have htext := congrArg Token.text h
  rwa [text_ofChars, text_ofChars, String.ofList_inj] at htext

/-- The name behind a quotation mark is the word that is quoted. -/
theorem eq_of_ofChars_quoted {name : List Char} {text s : String}
    (h : Token.ofChars ('"' :: name) = .literal text (.word s)) : String.ofList name = s := by
  unfold Token.ofChars at h
  split at h
  · rename_i name' hname
    unfold quotedName? at hname
    split at hname
    · rename_i heq
      cases heq
      split at hname
      · cases hname
      · cases hname
        cases h
        rfl
    · cases hname
  · repeat' split at h
    all_goals cases h

/-- No character of a quotable word ends it. -/
theorem Quotable.continuesWord {s : String} (h : Quotable s) :
    ∀ c ∈ s.toList, Logo.continuesWord true c = true := by
  obtain ⟨-, text, h⟩ := h
  have hscan : scan none ('"' :: s.toList) = .complete [.literal text (.word s)] := by
    rwa [tokenize, String.toList_append] at h
  rw [scan_word (by decide) rfl] at hscan
  obtain ⟨us, -, htokens⟩ := Scan.push_eq_complete.1 hscan
  obtain ⟨htoken, -⟩ := List.cons.inj htokens
  have hname := congrArg String.toList (eq_of_ofChars_quoted htoken.symm)
  rw [String.toList_ofList] at hname
  exact List.takeWhile_eq_self_iff.1 hname

/-- The head of a word is no operator, or it is the minus sign of a number. -/
theorem leadingOperator?_none_iff {c : Char} {rest : List Char} :
    leadingOperator? none c rest = none ↔
      Operator.ofSymbol? c = none ∨ c = '-' ∧ rest.head?.any Char.isDigit = true := by
  unfold leadingOperator? beginsNumeral
  by_cases hminus : c = '-'
  · subst hminus
    cases hdigit : rest.head?.any Char.isDigit <;> simp [Operator.ofSymbol?]
  · simp [hminus]

/-- A word that the scanner does not end is spelled exactly if no operator splits it. -/
theorem isSpelledWord_iff_unsplit {cs : List Char} (hne : cs ≠ [])
    (h : ∀ c ∈ cs, continuesWord true c = true) : IsSpelledWord cs ↔ Unsplit cs := by
  obtain ⟨c, rest, rfl⟩ := List.exists_cons_of_ne_nil hne
  obtain ⟨hc, hrest⟩ := List.forall_mem_cons.1 h
  by_cases hquote : c = '"'
  · -- operators do not end a word that is quoted
    subst hquote
    have hspelled : IsSpelledWord ('"' :: rest) := ⟨hc, rfl, hrest⟩
    exact ⟨fun _ => Or.inl rfl, fun _ => hspelled⟩
  have hplain : (∀ d ∈ rest, continuesWord (c = '"') d = true) ↔
      ∀ d ∈ rest, Operator.ofSymbol? d = none := by
    rw [decide_eq_false hquote]
    refine forall₂_congr fun d hd => ?_
    rw [continuesWord_false_iff]
    exact and_iff_right (hrest d hd)
  have hspelled : IsSpelledWord (c :: rest) ↔
      (Operator.ofSymbol? c = none ∨ c = '-' ∧ rest.head?.any Char.isDigit = true) ∧
        ∀ d ∈ rest, Operator.ofSymbol? d = none := by
    rw [IsSpelledWord, leadingOperator?_none_iff, hplain]
    exact and_iff_right hc
  rw [hspelled]
  constructor
  · rintro ⟨hnone | ⟨rfl, hdigit⟩, hops⟩
    · exact Or.inr (Or.inl (List.forall_mem_cons.2 ⟨hnone, hops⟩))
    · cases rest with
      | nil => cases hdigit
      | cons d rest =>
        have hd : d.isDigit = true := by simpa using hdigit
        exact Or.inr (Or.inr ⟨d, rest, rfl, hd, (List.forall_mem_cons.1 hops).2⟩)
  · rintro (hhead | hnone | ⟨d, rest', heq, hdigit, hops⟩)
    · exact absurd (Option.some.inj hhead) hquote
    · obtain ⟨hnone, hops⟩ := List.forall_mem_cons.1 hnone
      exact ⟨Or.inl hnone, hops⟩
    · obtain ⟨rfl, rfl⟩ := List.cons.inj heq
      have hd : Operator.ofSymbol? d = none :=
        (continuesWord_false_iff.1 (continuesWord_of_isDigit hdigit)).2
      exact ⟨Or.inr ⟨rfl, by simpa using hdigit⟩, List.forall_mem_cons.2 ⟨hd, hops⟩⟩

/-! ## Words as items -/

/-- An item is written as its value is. -/
theorem text_ofItem (v : Value) : (Token.ofItem v).text = v.render := by
  have htext (v : Value) (s : String) (h : v.render = s) :
      (Token.ofItem.ofText v s).text = v.render := by
    unfold Token.ofItem.ofText
    split
    · rfl
    · rw [Token.ofWord, text_ofChars, String.ofList_toList, h]
  cases v with
  | text s => exact htext (.text s) s rfl
  | word s => exact htext (.word s) s rfl
  | _ => rfl

/-- A quotable word is stored as the token of its spelling. -/
theorem Quotable.ofItem_eq {s : String} (h : Quotable s) :
    Token.ofItem (.word s) = .ofChars s.toList := by
  have hempty : s.isEmpty = false := by
    rw [Bool.eq_false_iff, ne_eq, String.isEmpty_iff]
    exact h.1
  have hblank : s.toList.any Text.isBlank = false := by
    rw [List.any_eq_false]
    intro c hc
    rw [(continuesWord_true_iff.1 (h.continuesWord c hc)).1]
    exact Bool.false_ne_true
  change Token.ofItem.ofText (.word s) s = _
  rw [Token.ofItem.ofText, hempty, hblank, Bool.or_self, if_neg Bool.false_ne_true, Token.ofWord]

/-- The scanner finds a single word in a text exactly if the text is spelled like a word. -/
theorem scan_eq_ofChars_iff {cs : List Char} (hne : cs ≠ [])
    (h : ∀ c ∈ cs, continuesWord true c = true) :
    scan none cs = .complete [.ofChars cs] ↔ IsSpelledWord cs := by
  constructor
  · intro hscan
    obtain ⟨c, rest, rfl⟩ := List.exists_cons_of_ne_nil hne
    have hc := h c List.mem_cons_self
    cases hop : leadingOperator? none c rest with
    | some op =>
      -- the operator would be the token
      rw [scan_operator hc hop] at hscan
      obtain ⟨us, -, htokens⟩ := Scan.push_eq_complete.1 hscan
      have hword := (List.cons.inj htokens).1
      rcases ofChars_cases (c :: rest) with ⟨v, h⟩ | h | h <;> rw [h] at hword <;> cases hword
    | none =>
      rw [scan_word hc hop] at hscan
      obtain ⟨us, -, htokens⟩ := Scan.push_eq_complete.1 hscan
      have htake := (List.cons.inj (ofChars_injective (List.cons.inj htokens).1)).2
      exact ⟨hc, hop, List.takeWhile_eq_self_iff.1 htake.symm⟩
  · intro hspelled
    have hscan := scan_text_of_spelled (.word hspelled)
    rwa [text_ofChars, String.toList_ofList] at hscan

/-- A text that may be quoted is scanned as one word exactly if nothing in it splits it. -/
theorem Quotable.isSpelledWord_iff {s : String} (h : Quotable s) :
    IsSpelledWord s.toList ↔ Unsplit s.toList := by
  refine isSpelledWord_iff_unsplit ?_ h.continuesWord
  rw [ne_eq, String.toList_eq_nil_iff]
  exact h.1

/-- **A quotable word is stored as it is typed exactly if no operator splits it.** -/
theorem tokenize_eq_ofItem_iff {s : String} (h : Quotable s) :
    tokenize s = .complete [Token.ofItem (.word s)] ↔ Unsplit s.toList := by
  have hne : s.toList ≠ [] := by
    rw [ne_eq, String.toList_eq_nil_iff]
    exact h.1
  rw [h.ofItem_eq, tokenize, scan_eq_ofChars_iff hne h.continuesWord, h.isSpelledWord_iff]

/-! ## Lists -/

/-- A list comes from a text exactly if its items do. -/
theorem spelled_list_iff {items : List Token} :
    (Token.list items).Spelled ↔ ∀ t ∈ items, t.Spelled := by
  constructor
  · intro h
    generalize ht : Token.list items = t at h
    cases h with
    -- no word is a list, whichever way it is read
    | word _ =>
      rename_i cs _
      rcases ofChars_cases cs with ⟨v, h⟩ | h | h <;> rw [h] at ht <;> cases ht
    | operator op => cases ht
    | comment _ => cases ht
    | bracketed b hchildren =>
      cases b
      · cases ht
        exact hchildren
      · cases ht
  · exact fun h => .bracketed .square h

namespace Primitive

variable {κ : Type} {p : Primitive} {w : Workspace κ} {inputs : List Value}

/-- The primitives that put lists together. -/
def builders : List Primitive :=
  [list, sentence, putFirst, putLast]

/-- The values that programs build: words that can be quoted and that no operator splits, lists that
were typed, and what the builders make of such values. -/
inductive Built (κ : Type) : Value → Prop where
  | quoted {s : String} (h : Quotable s) (hone : Unsplit s.toList) : Built κ (.word s)
  | typed {text : String} {ts items : List Token} (h : tokenize text = .complete ts)
    (hitems : .list items ∈ ts) : Built κ (.list items)
  | command {p : Primitive} (hp : p ∈ builders) (w : Workspace κ) {inputs : List Value}
    (hinputs : ∀ v ∈ inputs, Built κ v) {v : Value}
    (h : (p.perform w inputs).2 = .produce (some (.ofValue v))) : Built κ v

/-! ## What builders answer -/

/-- A primitive that produces something has read its input. -/
theorem produces_withInput {index : Nat} {next : Value → Effect κ} {t : Token}
    (h : (p.withInput w inputs index next).2 = .produce (some t)) :
    ∃ v ∈ inputs, (next v).2 = .produce (some t) := by
  unfold withInput at h
  split at h
  · rename_i v hv
    exact ⟨v, List.mem_of_getElem? hv, h⟩
  · cases h

theorem produces_withList {index : Nat} {next : List Token → Effect κ} {t : Token}
    (h : (p.withList w inputs index next).2 = .produce (some t)) :
    ∃ items, .list items ∈ inputs ∧ (next items).2 = .produce (some t) := by
  obtain ⟨v, hv, h⟩ := produces_withInput h
  cases v with
  | list items => exact ⟨items, hv, h⟩
  | _ => cases h

theorem eq_of_answer {v v' : Value} (h : (answer w v').2 = .produce (some (.ofValue v))) :
    v = v' := by
  have htoken : Token.ofValue v' = Token.ofValue v := Option.some.inj (Action.produce.inj h)
  exact (Token.literal.inj htoken).2.symm

/-- What a value adds to a sentence comes from a text if its item does. -/
theorem spelled_sentenceItems {v : Value} (h : (Token.ofItem v).Spelled) :
    ∀ t ∈ sentenceItems v, t.Spelled := by
  cases v with
  | list items => exact spelled_list_iff.1 h
  | _ =>
    intro t ht
    rw [List.mem_singleton.1 ht]
    exact h

/-- **Builders make lists of tokens that come from a text** if the items of their inputs do. -/
theorem spelled_of_builder (hp : p ∈ builders) (hinputs : ∀ v ∈ inputs, (Token.ofItem v).Spelled)
    {v : Value} (h : (p.perform w inputs).2 = .produce (some (.ofValue v))) :
    (Token.ofItem v).Spelled := by
  simp only [builders, List.mem_cons, List.not_mem_nil, or_false] at hp
  -- a list of the inputs, a sentence, an item in front and an item behind
  rcases hp with rfl | rfl | rfl | rfl
  · rw [eq_of_answer h]
    refine spelled_list_iff.2 fun t ht => ?_
    obtain ⟨v, hv, rfl⟩ := List.mem_map.1 ht
    exact hinputs v hv
  · rw [eq_of_answer h]
    refine spelled_list_iff.2 fun t ht => ?_
    obtain ⟨v, hv, ht⟩ := List.mem_flatMap.1 ht
    exact spelled_sentenceItems (hinputs v hv) t ht
  · obtain ⟨items, hitems, h⟩ := produces_withList h
    obtain ⟨v, hv, h⟩ := produces_withInput h
    rw [eq_of_answer h]
    exact spelled_list_iff.2 (List.forall_mem_cons.2
      ⟨hinputs v hv, spelled_list_iff.1 (hinputs _ hitems)⟩)
  · obtain ⟨items, hitems, h⟩ := produces_withList h
    obtain ⟨v, hv, h⟩ := produces_withInput h
    rw [eq_of_answer h]
    refine spelled_list_iff.2 fun t ht => ?_
    rcases List.mem_append.1 ht with ht | ht
    · exact spelled_list_iff.1 (hinputs _ hitems) t ht
    · rw [List.mem_singleton.1 ht]
      exact hinputs v hv

/-- Everything that is built can be spelled, by induction on how it was built. -/
theorem Built.spelled {v : Value} (h : Built κ v) : (Token.ofItem v).Spelled := by
  induction h with
  | quoted h hone =>
    rw [h.ofItem_eq]
    exact .word (h.isSpelledWord_iff.2 hone)
  | typed h hitems => exact spelled_of_scan h _ hitems
  | command hp w _ h ih => exact spelled_of_builder hp ih h

/-- **Lists that are put together are the lists that are typed.** A word that can be quoted is stored
in a list as the token that is found in it, exactly if no operator splits it. What programs build
from such words and from typed lists is what its text is typed for: the same list, so that it runs in
the same way. -/
theorem built_reads_as_typed (κ : Type) :
    (∀ s, Quotable s →
      (tokenize s = .complete [Token.ofItem (.word s)] ↔ Unsplit s.toList)) ∧
    ∀ v, Built κ v → tokenize v.render = .complete [Token.ofItem v] := by
  refine ⟨fun s h => tokenize_eq_ofItem_iff h, fun v h => ?_⟩
  rw [tokenize, ← text_ofItem]
  exact scan_text_of_spelled h.spelled

/-- The list of a name and a number with a minus sign, both of them quoted. -/
theorem built_reads_as_typed_negative :
    Quotable "-5" ∧ Unsplit "-5".toList ∧
    tokenize "-5" = .complete [Token.ofItem (.word "-5")] ∧
    (list.perform ({} : Workspace Primitive) [.word "print", .word "-5"]).2 =
      .produce (some (.ofValue
        (.list [.word "print", .literal "-5" (.number ⟨-5, 0⟩)]))) ∧
    tokenize "[print -5]" = .complete [.list [.word "print", .literal "-5" (.number ⟨-5, 0⟩)]] := by
  have hprint : Quotable "print" := ⟨by decide, "\"print", by cbv⟩
  have hfive : Quotable "-5" := ⟨by decide, "\"-5", by cbv⟩
  have hname : Unsplit "print".toList := by
    have hall : "print".toList.all (fun c => (Operator.ofSymbol? c).isNone) = true := by decide
    exact Or.inr (Or.inl fun c hc => Option.isNone_iff_eq_none.1 (List.all_eq_true.1 hall c hc))
  have hminus : Unsplit "-5".toList := Or.inr (Or.inr ⟨'5', [], rfl, rfl, by simp⟩)
  have hlist : (list.perform ({} : Workspace Primitive) [.word "print", .word "-5"]).2 =
      .produce (some (.ofValue (.list [.word "print", .literal "-5" (.number ⟨-5, 0⟩)]))) := by
    have hstored : Token.ofItem (.word "print") = .word "print" := by
      rw [hprint.ofItem_eq]
      cbv
    have hnumber : Token.ofItem (.word "-5") = .literal "-5" (.number ⟨-5, 0⟩) := by
      rw [hfive.ofItem_eq]
      cbv
    rw [← hstored, ← hnumber]
    rfl
  have hbuilt : Built Primitive (.list [.word "print", .literal "-5" (.number ⟨-5, 0⟩)]) := by
    refine .command (p := list) (by decide) {} (fun v hv => ?_) hlist
    rcases List.mem_cons.1 hv with rfl | hv
    · exact .quoted hprint hname
    · rw [List.mem_singleton.1 hv]
      exact .quoted hfive hminus
  exact ⟨hfive, hminus, ((built_reads_as_typed Primitive).1 "-5" hfive).2 hminus, hlist,
    (built_reads_as_typed Primitive).2 _ hbuilt⟩

/-- An operator alone can be quoted, and is stored as the name of a procedure. -/
theorem quoted_operator_stored_as_name :
    Quotable "+" ∧ tokenize "+" = .complete [.operator .add] ∧
      Token.ofItem (.word "+") = .word "+" ∧
      ¬ ∀ s, Quotable s → tokenize s = .complete [Token.ofItem (.word s)] := by
  have hplus : Quotable "+" := ⟨by decide, "\"+", by cbv⟩
  have htyped : tokenize "+" = .complete [.operator .add] := by cbv
  have hstored : Token.ofItem (.word "+") = .word "+" := by cbv
  refine ⟨hplus, htyped, hstored, fun h => ?_⟩
  have hsame := h "+" hplus
  rw [htyped, hstored] at hsame
  cases hsame

end Primitive

end Logo
