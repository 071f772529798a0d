import Logo.Proofs.Primitive.Pieces
import Mathlib

/-!
# Values that are put into a list

A value that is put into a list comes out of it again, unless it is a word that stands for something
else in the source: a numeral, which comes out as a number, and a quoted word, which comes out
without its quotation mark.

* `NumberLiteral`: the grammar of numerals, which is what `isNumeral` recognizes.
* `meaning_ofChars_iff`: the spellings that keep their characters when they are read.
* `Primitive.put_item_taken_back`: what the primitives say of a list with a new item at one end.
-/

namespace Logo

/-! ## Number literals -/

/-- Digits, or digits with a point and digits behind it, where the digits before the point may be
missing; with the number of digits behind the point. -/
inductive UnsignedLiteral : List Char → ℕ → Prop where
  | integer {digits : List Char} (hne : digits ≠ []) (hdigits : ∀ c ∈ digits, c.isDigit = true) :
    UnsignedLiteral digits 0
  | point {digits fraction : List Char} (hne : fraction ≠ [])
    (hdigits : ∀ c ∈ digits ++ fraction, c.isDigit = true) :
    UnsignedLiteral (digits ++ '.' :: fraction) fraction.length

/-- A number literal, which may begin with a minus sign; with the number of digits behind its
point. -/
def NumberLiteral (cs : List Char) (places : ℕ) : Prop :=
  UnsignedLiteral cs places ∨ ∃ rest, cs = '-' :: rest ∧ UnsignedLiteral rest places

variable {cs : List Char} {places : ℕ}

/-- Points and digits are all that a number literal has behind its sign. -/
theorem UnsignedLiteral.mem (h : UnsignedLiteral cs places) {c : Char} (hc : c ∈ cs) :
    c = '.' ∨ c.isDigit = true := by
  cases h with
  | integer hne hdigits => exact Or.inr (hdigits c hc)
  | point hne hdigits =>
    rcases List.mem_append.1 hc with hc | hc
    · exact Or.inr (hdigits c (List.mem_append_left _ hc))
    · rcases List.mem_cons.1 hc with hc | hc
      · exact Or.inl hc
      · exact Or.inr (hdigits c (List.mem_append_right _ hc))

theorem UnsignedLiteral.head?_ne (h : UnsignedLiteral cs places) : cs.head? ≠ some '-' := by
  intro hhead
  rcases h.mem (List.mem_of_mem_head? hhead) with hpoint | hdigit
  · cases hpoint
  · cases hdigit

/-- Signs, points and digits are all that a number literal has in it. -/
theorem NumberLiteral.mem (h : NumberLiteral cs places) {c : Char} (hc : c ∈ cs) :
    c = '-' ∨ c = '.' ∨ c.isDigit = true := by
  rcases h with h | ⟨rest, rfl, h⟩
  · exact Or.inr (h.mem hc)
  · exact (List.mem_cons.1 hc).imp_right h.mem

/-! ### The recognizer -/

/-- Digits end where the first other character stands. -/
theorem dropWhile_isDigit_append {digits rest : List Char}
    (hdigits : ∀ c ∈ digits, c.isDigit = true) (hrest : ∀ c ∈ rest.head?, c.isDigit = false) :
    (digits ++ rest).dropWhile Char.isDigit = rest := by
  rw [List.dropWhile_append_of_pos hdigits]
  cases rest with
  | nil => rfl
  | cons c rest => exact List.dropWhile_cons_of_neg (by rw [hrest c rfl]; decide)

/-- The recognizer accepts every number literal without a sign. -/
theorem UnsignedLiteral.isNumeral (h : UnsignedLiteral cs places) : isNumeral cs = true := by
  have hhead := h.head?_ne
  unfold Logo.isNumeral
  split
  · simp at hhead
  · dsimp only
    cases h with
    | integer hne hdigits =>
      have hdrop : (cs ++ []).dropWhile Char.isDigit = [] :=
        dropWhile_isDigit_append hdigits (by simp)
      rw [List.append_nil] at hdrop
      simp only [hdrop, List.isEmpty_eq_false_iff.2 hne, Bool.not_false]
    | point hne hdigits =>
      obtain ⟨hlead, hfraction⟩ := List.forall_mem_append.1 hdigits
      rw [dropWhile_isDigit_append hlead (by simp)]
      simp only [List.isEmpty_eq_false_iff.2 hne, List.all_eq_true.2 hfraction, Bool.not_false,
        Bool.and_true]

/-- What is recognized without a minus sign is an unsigned literal. -/
theorem UnsignedLiteral.of_isNumeral (hhead : cs.head? ≠ some '-')
    (h : Logo.isNumeral cs = true) : ∃ places, UnsignedLiteral cs places := by
  -- the digits in front, and what is left behind them: nothing, or a point and digits
  have hsplit := List.takeWhile_append_dropWhile (p := Char.isDigit) (l := cs)
  have hlead : ∀ c ∈ cs.takeWhile Char.isDigit, c.isDigit = true := fun c hc =>
    List.mem_takeWhile_imp hc
  unfold Logo.isNumeral at h
  split at h
  · simp at hhead
  dsimp only at h
  split at h
  · rename_i hdrop
    rw [hdrop, List.append_nil] at hsplit
    rw [hsplit] at hlead
    exact ⟨0, .integer (by simpa using h) hlead⟩
  · rename_i fraction hdrop
    rw [Bool.and_eq_true, List.all_eq_true] at h
    rw [← hsplit, hdrop]
    exact ⟨fraction.length, .point (by simpa using h.1) (List.forall_mem_append.2 ⟨hlead, h.2⟩)⟩
  · cases h

/-- **Number literals are what is recognized as a numeral.** -/
theorem isNumeral_iff_numberLiteral : isNumeral cs = true ↔ ∃ places, NumberLiteral cs places := by
  by_cases hminus : cs.head? = some '-'
  · obtain ⟨rest, rfl⟩ := List.head?_eq_some_iff.1 hminus
    by_cases hagain : rest.head? = some '-'
    · -- a second minus sign is part of no literal
      obtain ⟨rest, rfl⟩ := List.head?_eq_some_iff.1 hagain
      refine iff_of_false (by simp [isNumeral]) ?_
      rintro ⟨places, h | ⟨rest', heq, h⟩⟩
      · exact h.head?_ne rfl
      · rw [← (List.cons.inj heq).2] at h
        exact h.head?_ne rfl
    rw [PlainNumeral.isNumeral_minus hagain]
    constructor
    · intro h
      obtain ⟨places, h⟩ := UnsignedLiteral.of_isNumeral hagain h
      exact ⟨places, Or.inr ⟨rest, rfl, h⟩⟩
    · rintro ⟨places, h | ⟨rest', heq, h⟩⟩
      · exact absurd rfl h.head?_ne
      · rw [(List.cons.inj heq).2]
        exact h.isNumeral
  · constructor
    · intro h
      obtain ⟨places, h⟩ := UnsignedLiteral.of_isNumeral hminus h
      exact ⟨places, Or.inl h⟩
    · rintro ⟨places, h | ⟨rest, rfl, h⟩⟩
      · exact h.isNumeral
      · exact absurd rfl hminus

/-! ### The number -/

/-- The digits before and behind the point together, with a sign in front, are a numeral. -/
theorem UnsignedLiteral.exists_splitPoint (h : UnsignedLiteral cs places) (negative : Bool) :
    ∃ p : PlainNumeral, p.negative = negative ∧
      Decimal.splitPoint (p.sign ++ cs) = (p.sign ++ (p.whole ++ p.fraction), places) := by
  cases h with
  | @integer digits hne hdigits =>
    let p : PlainNumeral := ⟨negative, cs, [], hne, by simpa using hdigits⟩
    have hpoint := p.splitPoint_chars
    have hchars : p.chars = p.sign ++ cs := by
      rw [PlainNumeral.chars, p.tail_of_nil rfl, List.append_nil]
    rw [hchars] at hpoint
    exact ⟨p, rfl, hpoint⟩
  | @point digits fraction hne hdigits =>
    have hdigits' : digits ++ fraction ≠ [] := List.append_ne_nil_of_right_ne_nil digits hne
    -- a plain numeral has digits before its point, which may be missing here
    let p : PlainNumeral := ⟨negative, digits ++ fraction, [], hdigits', by simpa using hdigits⟩
    have hlead : ∀ c ∈ p.sign ++ digits, (c == '.') = false := by
      intro c hc
      rcases List.mem_append.1 hc with hc | hc
      · rw [p.mem_sign hc]
        rfl
      · have hdigit := hdigits c (List.mem_append_left _ hc)
        exact beq_eq_false_iff_ne.2 (PlainNumeral.ne_of_isDigit hdigit rfl)
    have hsplit : Decimal.splitBefore (· == '.') (p.sign ++ digits ++ '.' :: fraction) =
        (p.sign ++ digits, '.' :: fraction) :=
      PlainNumeral.splitBefore_append hlead (by simp)
    have hfilter : fraction.filter (· != '_') = fraction := by
      refine List.filter_eq_self.2 fun c hc => ?_
      have hdigit := hdigits c (List.mem_append_right _ hc)
      exact bne_iff_ne.2 (PlainNumeral.ne_of_isDigit hdigit rfl)
    refine ⟨p, rfl, ?_⟩
    unfold Decimal.splitPoint
    rw [← List.append_assoc, hsplit]
    simp only [hfilter, p, List.append_nil, List.append_assoc]

/-- **A literal is read as a number** if the digits behind its point can be counted. -/
theorem NumberLiteral.parseChars?_eq (h : NumberLiteral cs places) :
    ∃ n, Decimal.parseChars? cs = if Decimal.isScale places then some ⟨n, places⟩ else none := by
  have hmem : ∀ c ∈ cs, c = '-' ∨ c = '.' ∨ c.isDigit = true := fun c => h.mem
  rcases h with h | ⟨rest, rfl, h⟩
  · obtain ⟨p, hp, hpoint⟩ := h.exists_splitPoint false
    have hsign : p.sign = [] := by rw [PlainNumeral.sign, hp, if_neg Bool.false_ne_true]
    rw [hsign, List.nil_append, ← hsign] at hpoint
    exact ⟨_, PlainNumeral.parseChars?_of_splitPoint hmem hpoint p.parseSigned?_digits⟩
  · obtain ⟨p, hp, hpoint⟩ := h.exists_splitPoint true
    have hsign : p.sign = ['-'] := by rw [PlainNumeral.sign, hp, if_pos rfl]
    have htext : p.sign ++ rest = '-' :: rest := by rw [hsign, List.singleton_append]
    rw [htext] at hpoint
    exact ⟨_, PlainNumeral.parseChars?_of_splitPoint hmem hpoint p.parseSigned?_digits⟩

theorem Decimal.isScale_natCast (n : ℕ) : isScale n = true ↔ n < 2 ^ 63 := by
  unfold isScale
  rw [Bool.and_eq_true, decide_eq_true_iff, decide_eq_true_iff]
  omega

/-- The characters are a number literal with digits behind its point that can be counted in a signed
64-bit word, as those of every text that fits into memory. -/
def ReadsAsNumber (cs : List Char) : Prop :=
  ∃ places < 2 ^ 63, NumberLiteral cs places

/-- A word reads as a number exactly if it is recognized, and its places are in range. -/
theorem readsAsNumber_iff :
    ReadsAsNumber cs ↔ isNumeral cs = true ∧ ∃ n, Decimal.parseChars? cs = some n := by
  constructor
  · rintro ⟨places, hplaces, h⟩
    obtain ⟨n, hn⟩ := h.parseChars?_eq
    rw [if_pos ((Decimal.isScale_natCast places).2 hplaces)] at hn
    exact ⟨isNumeral_iff_numberLiteral.2 ⟨places, h⟩, _, hn⟩
  · rintro ⟨h, n, hn⟩
    obtain ⟨places, h⟩ := isNumeral_iff_numberLiteral.1 h
    obtain ⟨m, hm⟩ := h.parseChars?_eq
    rw [hn] at hm
    split at hm
    · rename_i hscale
      exact ⟨places, (Decimal.isScale_natCast places).1 hscale, h⟩
    · cases hm

/-! ## Spellings -/

theorem isWordBreak_of_not_blank {c : Char} (h : Text.isBlank c = false) :
    isWordBreak c = false := by
  by_contra hbreak
  simp only [isWordBreak, Bool.not_eq_false, Bool.or_eq_true, beq_iff_eq] at hbreak
  rcases hbreak with ((rfl | rfl) | rfl) | rfl <;> cases h

/-- A word without breaks is quoted exactly if it begins with a quotation mark. -/
theorem quotedName?_eq_some_iff {name : List Char} (h : ∀ c ∈ cs, isWordBreak c = false) :
    quotedName? cs = some name ↔ cs = '"' :: name := by
  unfold quotedName?
  split
  · rename_i name'
    have hname : name'.any isWordBreak = false :=
      List.any_eq_false.2 fun c hc => by simp [h c (List.mem_cons_of_mem _ hc)]
    rw [hname, if_neg Bool.false_ne_true]
    simp
  · rename_i hquote
    refine iff_of_false (by simp) fun heq => ?_
    exact hquote name heq

/-- No reference is a numeral, as it begins with a colon. -/
theorem isNumeral_of_isReference (h : isReference cs = true) : isNumeral cs = false := by
  unfold isReference at h
  split at h
  · simp [isNumeral]
  · cases h

/-- **A spelling keeps its characters** unless it is quoted or a number literal. -/
theorem meaning_ofChars_iff (h : ∀ c ∈ cs, isWordBreak c = false) :
    (Token.ofChars cs).meaning = .chars (String.ofList cs) ↔
      ¬ (cs.head? = some '"' ∨ ReadsAsNumber cs) := by
  unfold Token.ofChars
  cases hquoted : quotedName? cs with
  | some name =>
    obtain rfl := (quotedName?_eq_some_iff h).1 hquoted
    refine iff_of_false (fun hsame => ?_) fun hnot => hnot (Or.inl rfl)
    -- the name is shorter than the word by the quotation mark
    have hchars := String.ofList_inj.1 (Meaning.chars.inj hsame)
    exact absurd (congrArg List.length hchars) (by simp)
  | none =>
    have hhead : cs.head? ≠ some '"' := by
      intro hhead
      obtain ⟨name, hname⟩ := List.head?_eq_some_iff.1 hhead
      rw [(quotedName?_eq_some_iff h).2 hname] at hquoted
      cases hquoted
    rw [or_iff_right hhead, readsAsNumber_iff]
    cases hreference : isReference cs with
    | true => simp [isNumeral_of_isReference hreference, Token.meaning, Token.text]
    | false =>
      cases hnumeral : isNumeral cs with
      | false => simp [Token.meaning, Token.text]
      | true =>
        cases hparse : Decimal.parseChars? cs with
        | none => simp [Token.meaning, Token.text]
        | some n => simp [Token.meaning, Value.meaning]

/-! ## Items -/

/-- The value is a word that stands for something else in the source: a number literal, or a word
with a quotation mark in front. -/
def Value.IsReread (v : Value) : Prop :=
  ∃ s, v.text? = some s ∧ s ≠ "" ∧ (∀ c ∈ s.toList, Text.isBlank c = false) ∧
    (s.toList.head? = some '"' ∨ ReadsAsNumber s.toList)

/-- A text keeps its meaning as an item unless it is read again as something else. -/
theorem meaning_ofText_iff {v : Value} {s : String} (hv : v.text? = some s) :
    (Token.ofItem.ofText v s).meaning = v.meaning ↔ ¬ v.IsReread := by
  have hmeaning : v.meaning = .chars s := by
    cases v <;> cases hv <;> rfl
  unfold Token.ofItem.ofText
  split
  · -- an empty text, or one with blanks in it, is kept as it is
    rename_i hkept
    refine iff_of_true (by rw [Token.ofValue, Token.meaning]) ?_
    rintro ⟨s', hs', hne, hblank, -⟩
    cases hv.symm.trans hs'
    rw [Bool.or_eq_true, String.isEmpty_iff, List.any_eq_true] at hkept
    rcases hkept with hempty | ⟨c, hc, hc'⟩
    · exact hne hempty
    · rw [hblank c hc] at hc'
      cases hc'
  · -- any other text is read like a word of the source
    rename_i hword
    simp only [Bool.or_eq_true, String.isEmpty_iff, List.any_eq_true, not_or, not_exists, not_and,
      Bool.not_eq_true] at hword
    obtain ⟨hne, hblank⟩ := hword
    have hspelling := meaning_ofChars_iff fun c hc => isWordBreak_of_not_blank (hblank c hc)
    rw [String.ofList_toList] at hspelling
    rw [hmeaning, Token.ofWord, hspelling, not_iff_not]
    constructor
    · exact fun h => ⟨s, hv, hne, hblank, h⟩
    · rintro ⟨s', hs', -, -, h⟩
      cases hv.symm.trans hs'
      exact h

/-- **The values that come out of a list as they were put into it.** -/
theorem Value.equals_datum_ofItem_iff (v : Value) :
    (Token.ofItem v).datum.equals v = true ↔ ¬ v.IsReread := by
  rw [Value.equals_iff, Token.meaning_datum]
  cases v with
  | text s => exact meaning_ofText_iff rfl
  | word s => exact meaning_ofText_iff rfl
  | _ =>
    refine iff_of_true ?_ ?_
    · simp [Token.ofItem, Token.ofValue, Token.meaning, Value.meaning]
    · rintro ⟨s, hs, -⟩
      cases hs

namespace Primitive

/-- The primitive that puts an item at one end of a list. -/
def End.put : End → Primitive
  | front => putFirst
  | back => putLast

theorem gives_put (side : End) (x : Value) (items : List Token) :
    side.put.Gives [x, .list items] (.list (side.attach (Token.ofItem x) items)) := by
  intro κ w
  cases side <;> rfl

/-- **What is put at one end of a list is taken from there again**, the rest is the list before, and
one item more is counted. -/
theorem put_agrees (side : End) (x : Value) (items : List Token) :
    side.piece.Gives [.list (side.attach (Token.ofItem x) items)] (Token.ofItem x).datum ∧
      side.rest.Gives [.list (side.attach (Token.ofItem x) items)] (.list items) ∧
      count.Gives [.list (side.attach (Token.ofItem x) items)]
        (.number (.ofNat (1 + items.length))) := by
  have hsplit := side.split?_attach (Token.ofItem x) items
  have hpiece : side.split? ((side.attach (Token.ofItem x) items).map Token.datum) =
      some ((Token.ofItem x).datum, items.map Token.datum) := by
    rw [End.split?_map, hsplit]
    rfl
  have hcount := gives_count (v := .list (side.attach (Token.ofItem x) items)) rfl
  rw [List.length_map, side.length_attach] at hcount
  exact ⟨gives_piece side rfl hpiece, gives_rest_list hsplit, hcount⟩

/-- An item in front moves the others by one position. -/
theorem items_shifted (t : Token) (items : List Token) {m n : Decimal} {i : ℕ}
    (hm : m.count? = some (i + 1)) (hn : n.count? = some (i + 2)) :
    (i < items.length → ∃ z, item.Gives [.number m, .list items] z ∧
      item.Gives [.number n, .list (t :: items)] z) ∧
    (items.length ≤ i → item.Fails [.number m, .list items] (noItem (i + 1)) ∧
      item.Fails [.number n, .list (t :: items)] (noItem (i + 2))) := by
  have hitem := gives_item (v := .list items) rfl hm
  have hshifted := gives_item (v := .list (t :: items)) rfl hn
  refine ⟨fun hi => ?_, fun hi => ?_⟩
  · have hentry : entryAt? (items.map Token.datum) (i + 1) = some items[i].datum := by
      simp [entryAt?, hi]
    exact ⟨items[i].datum, hitem.1 _ hentry, hshifted.1 _ hentry⟩
  · have hentry : entryAt? (items.map Token.datum) (i + 1) = none := by
      simp [entryAt?, hi]
    exact ⟨hitem.2 hentry, hshifted.2 hentry⟩

/-- **A value that is put into a list is taken out again.** At either end of a list the item is
found where it was put, and it is equal to the value exactly if the value is no word that is read as
something else. The rest is the list before, one item more is counted, and behind a new first item
every other item is one position further on. -/
theorem put_item_taken_back (x : Value) (items : List Token) :
    ∃ (front back : Value) (n : ℕ),
      putFirst.Gives [x, .list items] front ∧ putLast.Gives [x, .list items] back ∧
      first.Gives [front] (Token.ofItem x).datum ∧ last.Gives [back] (Token.ofItem x).datum ∧
      ((Token.ofItem x).datum.equals x = true ↔ ¬ x.IsReread) ∧
      butFirst.Gives [front] (.list items) ∧ butLast.Gives [back] (.list items) ∧
      count.Gives [.list items] (.number (.ofNat n)) ∧
      count.Gives [front] (.number (.ofNat (1 + n))) ∧
      count.Gives [back] (.number (.ofNat (1 + n))) ∧
      ∀ (i : ℕ) (d e : Decimal), 1 ≤ i → i + 1 < Decimal.countBound →
        d.toRat = i → e.toRat = (i + 1 : ℕ) →
        (i ≤ n → ∃ y, item.Gives [.number d, .list items] y ∧ item.Gives [.number e, front] y) ∧
        (n < i → item.Fails [.number d, .list items] (noItem i) ∧
          item.Fails [.number e, front] (noItem (i + 1))) := by
  obtain ⟨hfirst, hbutFirst, hfront⟩ := put_agrees .front x items
  obtain ⟨hlast, hbutLast, hback⟩ := put_agrees .back x items
  have hcount := gives_count (v := .list items) rfl
  rw [List.length_map] at hcount
  refine ⟨_, _, items.length, gives_put .front x items, gives_put .back x items, hfirst, hlast,
    x.equals_datum_ofItem_iff, hbutFirst, hbutLast, hcount, hfront, hback, ?_⟩
  intro i d e hi hbound hd he
  obtain ⟨k, rfl⟩ := Nat.exists_eq_add_one.2 hi
  have hd' : d.count? = some (k + 1) := Decimal.count?_eq_some_iff.2 ⟨hd, by omega⟩
  have he' : e.count? = some (k + 2) := Decimal.count?_eq_some_iff.2 ⟨he, hbound⟩
  obtain ⟨hinside, houtside⟩ := items_shifted (Token.ofItem x) items hd' he'
  exact ⟨fun h => hinside (by omega), fun h => houtside (by omega)⟩

/-- The text `007` comes out as a number, which is not equal to it, and moves the item behind it. -/
theorem put_item_taken_back_numeral :
    (Value.text "007").IsReread ∧ (Value.number ⟨7, 0⟩).equals (.text "007") = false ∧
    Decimal.toRat ⟨20, 1⟩ = 2 ∧
    ∃ front, putFirst.Gives [.text "007", .list [.word "up"]] front ∧
      first.Gives [front] (.number ⟨7, 0⟩) ∧
      (∃ y, item.Gives [.number ⟨1, 0⟩, .list [.word "up"]] y ∧
        item.Gives [.number ⟨20, 1⟩, front] y) ∧
      item.Fails [.number ⟨2, 0⟩, .list [.word "up"]]
        (.invalidInput "item" "there is no item 2") ∧
      item.Fails [.number ⟨3, 0⟩, front] (.invalidInput "item" "there is no item 3") := by
  have hone : Decimal.toRat ⟨1, 0⟩ = (1 : ℕ) := by norm_num [Decimal.toRat]
  have htwo : Decimal.toRat ⟨20, 1⟩ = (2 : ℕ) := by norm_num [Decimal.toRat]
  have htwo' : Decimal.toRat ⟨2, 0⟩ = (2 : ℕ) := by norm_num [Decimal.toRat]
  have hthree : Decimal.toRat ⟨3, 0⟩ = (3 : ℕ) := by norm_num [Decimal.toRat]
  have hseven : (Token.ofItem (.text "007")).datum = .number ⟨7, 0⟩ := by cbv
  obtain ⟨front, back, n, hfront, -, hfirst, -, hequals, -, -, hcount, -, -, hitems⟩ :=
    put_item_taken_back (.text "007") [.word "up"]
  rw [hseven] at hfirst hequals
  have hdiffer : (Value.number ⟨7, 0⟩).equals (.text "007") = false := rfl
  have hreread : (Value.text "007").IsReread := by
    by_contra hkept
    rw [hequals.2 hkept] at hdiffer
    cases hdiffer
  have hcounted : count.Gives [.list [.word "up"]] (.number (.ofNat 1)) := by
    intro κ w
    rfl
  obtain rfl : n = 1 := hcount.ofNat_unique hcounted
  have hinside := (hitems 1 ⟨1, 0⟩ ⟨20, 1⟩ le_rfl (by decide) hone htwo).1 le_rfl
  have houtside := (hitems 2 ⟨2, 0⟩ ⟨3, 0⟩ (by decide) (by decide) htwo' hthree).2 (by decide)
  exact ⟨hreread, hdiffer, htwo, front, hfront, hfirst, hinside, houtside.1, houtside.2⟩

end Primitive

end Logo
