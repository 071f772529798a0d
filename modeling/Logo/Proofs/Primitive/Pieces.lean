import Logo.Proofs.Primitive.Equality
import Mathlib

/-!
# Words and lists that are taken apart

A list is made of the values of its items, and a word of its characters, where a digit is a number.
These are the pieces of a value (`Value.pieces?`). The primitives that take words and lists apart
see the pieces alone, so that what they say about a value agrees.

* `Primitive.Gives`, `Primitive.Fails`: what a primitive does in every workspace.
* `Primitive.gives_piece`, `Primitive.gives_rest`, `Primitive.gives_count`, `Primitive.gives_item`:
  what the primitives make of the pieces.
* `Primitive.taken_apart_consistently`: the pieces at both ends make up a word again, and an item is
  what comes first when the items before it are dropped one by one.
-/

namespace Logo

/-! ## Single characters -/

namespace Decimal

/-- What is no numeral without its exponent is none with it. -/
theorem parseChars?_eq_none {cs base tail digits : List Char} {places : ℕ}
    (hsplit : splitBefore (fun c => c == 'e' || c == 'E') cs = (base, tail))
    (hpoint : splitPoint base = (digits, places)) (h : parseSigned? digits = none) :
    parseChars? cs = none := by
  unfold parseChars?
  rw [hsplit]
  dsimp only
  rw [hpoint]
  dsimp only
  cases tail with
  | nil => rw [h]; rfl
  | cons c exponent =>
    refine Option.bind_eq_none_iff.2 fun exponent _ => ?_
    rw [h]
    rfl

/-- A single character that is no digit is no number. -/
theorem parseSigned?_singleton {c : Char} (h : c.isDigit = false) : parseSigned? [c] = none := by
  unfold parseSigned?
  split
  · rename_i heq
    cases heq
    rfl
  · rename_i heq
    cases heq
    rfl
  · simp [parseDigits?, h]

/-- The only numerals of one character are the digits. -/
theorem parseChars?_singleton {c : Char} (h : c.isDigit = false) : parseChars? [c] = none := by
  -- an exponent lacks its number, a point its digits, and anything else is no digit
  by_cases hexponent : c = 'e' ∨ c = 'E'
  · have hsplit : splitBefore (fun c => c == 'e' || c == 'E') [c] = ([], [c]) := by
      rcases hexponent with rfl | rfl <;> rfl
    exact parseChars?_eq_none hsplit rfl rfl
  · have hsplit : splitBefore (fun c => c == 'e' || c == 'E') [c] = ([c], []) := by
      simp_all [splitBefore]
    by_cases hpoint : c = '.'
    · subst hpoint
      exact parseChars?_eq_none hsplit rfl rfl
    · have hwhole : splitPoint [c] = ([c], 0) := by
        simp [splitPoint, splitBefore, hpoint]
      exact parseChars?_eq_none hsplit hwhole (parseSigned?_singleton h)

/-- The numeral of one digit. -/
def digitNumeral (c : Char) (h : c.isDigit = true) : PlainNumeral where
  negative := false
  whole := [c]
  fraction := []
  whole_ne_nil := List.cons_ne_nil c []
  isDigit d hd := by
    rw [List.mem_singleton.1 hd]
    exact h

theorem exists_digitChar {c : Char} (h : c.isDigit = true) : ∃ k < 10, c = Nat.digitChar k := by
  have hrange : 48 ≤ c.toNat ∧ c.toNat ≤ 57 := Char.isDigit_iff_toNat.1 h
  refine ⟨c.toNat - 48, by omega, ?_⟩
  rw [← Char.toNat_inj, Nat.toNat_digitChar_of_lt_ten (by omega)]
  omega

/-- A digit is written as it is read. -/
theorem render_digitNumeral {c : Char} (h : c.isDigit = true) :
    (digitNumeral c h).decimal.render = String.singleton c := by
  obtain ⟨k, hk, hc⟩ := exists_digitChar h
  have hmagnitude : (digitNumeral c h).magnitude = k := by
    change Nat.ofDigitChars 10 [c] 0 = k
    rw [hc, Nat.ofDigitChars_cons_digitChar_of_lt_ten hk]
    simp
  have hdecimal : (digitNumeral c h).decimal = ⟨(k : ℤ), 0⟩ := by
    rw [PlainNumeral.decimal, hmagnitude]
    rfl
  have hinteger : toInt? ⟨(k : ℤ), 0⟩ = some (k : ℤ) := by
    rw [toInt?_eq_some_iff]
    simp [toRat]
  rw [hdecimal, render, renderChars, hinteger]
  change String.ofList (digitChars k) = _
  rw [digitChars_eq, Nat.toDigits_of_lt_base hk, ← hc]
  rfl

end Decimal

/-- A character of a word as a value. -/
def Value.ofChar (c : Char) : Value :=
  .ofPiece (String.singleton c)

/-- A character is written as it stands in the word, also where it is a number. -/
theorem Value.wordText?_ofChar (c : Char) :
    (Value.ofChar c).wordText? = some (String.singleton c) := by
  have hchars : (String.singleton c).toList = [c] := by simp
  unfold Value.ofChar Value.ofPiece
  rw [Decimal.parse?, hchars]
  cases h : c.isDigit with
  -- a digit becomes a number, which is written as that digit again
  | true =>
    have hscale : Decimal.isScale (Decimal.digitNumeral c h).fraction.length = true := by
      change Decimal.isScale 0 = true
      decide
    have hread := (Decimal.digitNumeral c h).parseChars?_chars hscale
    have hsame : (Decimal.digitNumeral c h).chars = [c] := rfl
    rw [hsame] at hread
    rw [hread]
    exact congrArg some (Decimal.render_digitNumeral h)
  | false =>
    rw [Decimal.parseChars?_singleton h]
    rfl

/-! ## Pieces -/

namespace Value

/-- The values that a list or a word is made of. -/
def pieces? (v : Value) : Option (List Value) :=
  match v.list? with
  | some items => some (items.map Token.datum)
  | none => v.wordText?.map fun s => s.toList.map ofChar

variable {v : Value} {s : String} {xs : List Value}

theorem list?_of_wordText? (h : v.wordText? = some s) : v.list? = none := by
  cases v <;> first | rfl | cases h

theorem pieces?_of_wordText? (h : v.wordText? = some s) :
    v.pieces? = some (s.toList.map ofChar) := by
  rw [pieces?, list?_of_wordText? h, h]
  rfl

/-- What has pieces is a list or a word. -/
theorem pieces?_cases (h : v.pieces? = some xs) :
    (∃ items, v = .list items ∧ xs = items.map Token.datum) ∨
      ∃ s, v.wordText? = some s ∧ xs = s.toList.map ofChar := by
  unfold pieces? at h
  split at h
  · rename_i items hitems
    cases v with
    | list _ =>
      cases hitems
      exact Or.inl ⟨items, rfl, (Option.some.inj h).symm⟩
    | _ => cases hitems
  · obtain ⟨s, hs, hxs⟩ := Option.map_eq_some_iff.1 h
    exact Or.inr ⟨s, hs, hxs.symm⟩

/-- The value can be taken apart: it is a word with a character in it, or a list with an item. -/
def HasPieces (v : Value) : Prop :=
  (∃ s, v.wordText? = some s ∧ s ≠ "") ∨ ∃ items, v = .list items ∧ items ≠ []

theorem HasPieces.exists_pieces (h : v.HasPieces) : ∃ xs, v.pieces? = some xs := by
  rcases h with ⟨s, hs, -⟩ | ⟨items, rfl, -⟩
  · exact ⟨s.toList.map ofChar, pieces?_of_wordText? hs⟩
  · exact ⟨items.map Token.datum, rfl⟩

end Value

/-! ## What the primitives make of the pieces -/

namespace Primitive

/-- In every workspace the primitive answers `v`, and changes nothing. -/
def Gives (p : Primitive) (inputs : List Value) (v : Value) : Prop :=
  ∀ (κ : Type) (w : Workspace κ), p.perform w inputs = answer w v

/-- In every workspace the primitive fails, and changes nothing. -/
def Fails (p : Primitive) (inputs : List Value) (cause : RuntimeError) : Prop :=
  ∀ (κ : Type) (w : Workspace κ), p.perform w inputs = (w, .fail cause)

section TakeApart

variable {κ : Type} {p : Primitive} {w : Workspace κ} {side : End}
  {ofItems : Token × List Token → Value} {ofChars : Char × List Char → Value}

theorem performTakeApart_list {items : List Token} {parts : Token × List Token}
    (h : side.split? items = some parts) :
    p.performTakeApart side ofItems ofChars w [.list items] = answer w (ofItems parts) := by
  simp only [performTakeApart, withInput, List.getElem?_cons_zero, Value.list?, h]

theorem performTakeApart_word {v : Value} {s : String} {parts : Char × List Char}
    (hv : v.wordText? = some s) (h : side.split? s.toList = some parts) :
    p.performTakeApart side ofItems ofChars w [v] = answer w (ofChars parts) := by
  simp only [performTakeApart, withInput, List.getElem?_cons_zero, Value.list?_of_wordText? hv, hv,
    Option.bind_some, h]

end TakeApart

/-- The list with a piece at one end. -/
def End.attach {α : Type} : End → α → List α → List α
  | front, a, rest => a :: rest
  | back, a, rest => rest ++ [a]

theorem End.split?_attach {α : Type} (side : End) (a : α) (rest : List α) :
    side.split? (side.attach a rest) = some (a, rest) := by
  cases side with
  | front => rfl
  | back => simp [attach, split?]

theorem End.exists_attach {α : Type} (side : End) {items : List α} (h : items ≠ []) :
    ∃ a rest, items = side.attach a rest := by
  cases side with
  | front => exact List.exists_cons_of_ne_nil h
  | back => exact ⟨items.getLast h, items.dropLast, (List.dropLast_append_getLast h).symm⟩

theorem End.length_attach {α : Type} (side : End) (a : α) (rest : List α) :
    (side.attach a rest).length = 1 + rest.length := by
  cases side with
  | front => exact Nat.add_comm _ _
  | back => simp [attach, Nat.add_comm]

/-- The primitive that gives the piece at one end. -/
def End.piece : End → Primitive
  | front => first
  | back => last

/-- The primitive that gives what is left without the piece at one end. -/
def End.rest : End → Primitive
  | front => butFirst
  | back => butLast

variable {side : End} {v : Value} {s : String} {x : Value} {xs rest : List Value}

theorem perform_piece {κ : Type} (w : Workspace κ) (inputs : List Value) :
    side.piece.perform w inputs = side.piece.performPiece side w inputs := by
  cases side <;> rfl

theorem perform_rest {κ : Type} (w : Workspace κ) (inputs : List Value) :
    side.rest.perform w inputs = side.rest.performRest side w inputs := by
  cases side <;> rfl

/-- **The piece at one end is taken.** -/
theorem gives_piece (side : End) (hv : v.pieces? = some xs)
    (h : side.split? xs = some (x, rest)) : side.piece.Gives [v] x := by
  intro κ w
  rw [perform_piece, performPiece]
  rcases Value.pieces?_cases hv with ⟨items, rfl, rfl⟩ | ⟨s, hs, rfl⟩
  · rw [End.split?_map] at h
    obtain ⟨parts, hparts, hx⟩ := Option.map_eq_some_iff.1 h
    rw [performTakeApart_list hparts]
    exact congrArg (answer w) (congrArg Prod.fst hx)
  · rw [End.split?_map] at h
    obtain ⟨parts, hparts, hx⟩ := Option.map_eq_some_iff.1 h
    rw [performTakeApart_word hs hparts]
    exact congrArg (answer w) (congrArg Prod.fst hx)

/-- Without a character a word is the word of the other characters. -/
theorem gives_rest_word {c : Char} {cs : List Char} (hv : v.wordText? = some s)
    (h : side.split? s.toList = some (c, cs)) : side.rest.Gives [v] (.word (String.ofList cs)) := by
  intro κ w
  rw [perform_rest, performRest, performTakeApart_word hv h]

theorem gives_rest_list {items others : List Token} {t : Token}
    (h : side.split? items = some (t, others)) : side.rest.Gives [.list items] (.list others) := by
  intro κ w
  rw [perform_rest, performRest, performTakeApart_list h]

/-- **The other pieces are left.** -/
theorem gives_rest (side : End) (hv : v.pieces? = some xs)
    (h : side.split? xs = some (x, rest)) :
    ∃ u, side.rest.Gives [v] u ∧ u.pieces? = some rest := by
  rcases Value.pieces?_cases hv with ⟨items, rfl, rfl⟩ | ⟨s, hs, rfl⟩
  · rw [End.split?_map] at h
    obtain ⟨⟨t, others⟩, hparts, hx⟩ := Option.map_eq_some_iff.1 h
    cases hx
    exact ⟨.list others, gives_rest_list hparts, rfl⟩
  · rw [End.split?_map] at h
    obtain ⟨⟨c, cs⟩, hparts, hx⟩ := Option.map_eq_some_iff.1 h
    cases hx
    refine ⟨.word (String.ofList cs), gives_rest_word hs hparts, ?_⟩
    rw [Value.pieces?_of_wordText? rfl, String.toList_ofList]

/-- **The pieces are counted.** -/
theorem gives_count (hv : v.pieces? = some xs) : count.Gives [v] (.number (.ofNat xs.length)) := by
  intro κ w
  change performCount w [v] = _
  rcases Value.pieces?_cases hv with ⟨items, rfl, rfl⟩ | ⟨s, hs, rfl⟩
  · rw [List.length_map]
    rfl
  · rw [List.length_map, String.length_toList]
    simp only [performCount, withInput, List.getElem?_cons_zero, Value.list?_of_wordText? hs, hs]

/-- An item is the piece at the position, whatever the pieces come from. -/
theorem performItem_eq {κ : Type} (w : Workspace κ) {n : Decimal} {i : ℕ}
    (hv : v.pieces? = some xs) (hn : n.count? = some i) :
    performItem w [.number n, v] = match entryAt? xs i with
      | some x => answer w x
      | none => (w, .fail (noItem i)) := by
  simp only [performItem, withCount, withInput, List.getElem?_cons_zero, List.getElem?_cons_succ,
    Value.number?, Option.bind_some, hn]
  rcases Value.pieces?_cases hv with ⟨items, rfl, rfl⟩ | ⟨s, hs, rfl⟩
  · simp only [Value.list?, entryAt?_map]
    cases entryAt? items i <;> rfl
  · simp only [Value.list?_of_wordText? hs, hs, entryAt?_map]
    cases entryAt? s.toList i <;> rfl

/-- **The piece at a position is taken**, and a position without a piece is an error. -/
theorem gives_item {n : Decimal} {i : ℕ} (hv : v.pieces? = some xs) (hn : n.count? = some i) :
    (∀ x, entryAt? xs i = some x → item.Gives [.number n, v] x) ∧
      (entryAt? xs i = none → item.Fails [.number n, v] (noItem i)) := by
  refine ⟨fun x hx κ w => ?_, fun hx κ w => ?_⟩
  · change performItem w [.number n, v] = _
    rw [performItem_eq w hv hn, hx]
  · change performItem w [.number n, v] = _
    rw [performItem_eq w hv hn, hx]

/-- **Two words are joined.** -/
theorem gives_word {a b : Value} {s t : String} (ha : a.wordText? = some s)
    (hb : b.wordText? = some t) : word.Gives [a, b] (.word (s ++ t)) := by
  intro κ w
  change performWord w [a, b] = _
  simp only [performWord, withInput, List.getElem?_cons_zero, List.getElem?_cons_succ, ha, hb]

/-! ## Agreement -/

/-- The piece at one end and what is left of a word, from left to right. -/
def End.inOrder (side : End) (piece rest : Value) : List Value :=
  side.attach piece [rest]

/-- **The piece at one end and the other characters make up the word**, which has one character more
than these. -/
theorem word_agrees (side : End) (hv : v.wordText? = some s) (hne : s ≠ "") :
    ∃ piece rest n, side.piece.Gives [v] piece ∧ side.rest.Gives [v] rest ∧
      word.Gives (side.inOrder piece rest) (.word s) ∧
      count.Gives [rest] (.number (.ofNat n)) ∧ count.Gives [v] (.number (.ofNat (1 + n))) := by
  have hchars : s.toList ≠ [] := fun h => hne (String.toList_eq_nil_iff.1 h)
  obtain ⟨c, cs, hcs⟩ := side.exists_attach hchars
  have hsplit : side.split? s.toList = some (c, cs) := by rw [hcs, side.split?_attach]
  have hpieces := Value.pieces?_of_wordText? hv
  have hpiece : side.split? (s.toList.map Value.ofChar) =
      some (Value.ofChar c, cs.map Value.ofChar) := by
    rw [End.split?_map, hsplit]
    rfl
  have hlength : (s.toList.map Value.ofChar).length = 1 + cs.length := by
    rw [List.length_map, hcs, side.length_attach]
  have htext : s = String.ofList (side.attach c cs) := by rw [← hcs, String.ofList_toList]
  have hrest : (Value.word (String.ofList cs)).wordText? = some (String.ofList cs) := rfl
  refine ⟨.ofChar c, .word (String.ofList cs), cs.length, gives_piece side hpieces hpiece,
    gives_rest_word hv hsplit, ?_, ?_, ?_⟩
  · -- the two texts are joined in the order that they have in the word
    rw [htext]
    cases side with
    | front =>
      have hjoined := gives_word (Value.wordText?_ofChar c) hrest
      rw [String.singleton_eq_ofList, ← String.ofList_append] at hjoined
      exact hjoined
    | back =>
      have hjoined := gives_word hrest (Value.wordText?_ofChar c)
      rw [String.singleton_eq_ofList, ← String.ofList_append] at hjoined
      exact hjoined
  · have hcount := gives_count (Value.pieces?_of_wordText? hrest)
    rwa [List.length_map, String.toList_ofList] at hcount
  · rw [← hlength]
    exact gives_count hpieces

/-- What comes of a value when a primitive is applied to it `k` times. -/
inductive Repeated (p : Primitive) : ℕ → Value → Value → Prop where
  | none (v : Value) : Repeated p 0 v v
  | once {k : ℕ} {v u v' : Value} (h : p.Gives [v] u) (hlater : Repeated p k u v') :
    Repeated p (k + 1) v v'

/-- As many pieces are dropped as there are steps. -/
theorem repeated_butFirst {k : ℕ} (hv : v.pieces? = some xs) (hk : k ≤ xs.length) :
    ∃ u, butFirst.Repeated k v u ∧ u.pieces? = some (xs.drop k) := by
  induction k generalizing v xs with
  | zero => exact ⟨v, .none v, hv⟩
  | succ k ih =>
    cases xs with
    | nil => simp at hk
    | cons x xs =>
      obtain ⟨u, hu, hpieces⟩ := gives_rest .front hv rfl
      obtain ⟨u', hrepeated, hdrop⟩ := ih hpieces (by simpa using hk)
      exact ⟨u', .once hu hrepeated, hdrop⟩

/-- The item at a position is what comes first when the items before it are dropped. -/
theorem item_agrees {n : Decimal} {i : ℕ} (hv : v.pieces? = some xs) (hn : n.count? = some (i + 1))
    (hi : i < xs.length) :
    ∃ u x, butFirst.Repeated i v u ∧ first.Gives [u] x ∧ item.Gives [.number n, v] x := by
  obtain ⟨u, hu, hpieces⟩ := repeated_butFirst hv hi.le
  rw [List.drop_eq_getElem_cons hi] at hpieces
  have hfirst : first.Gives [u] xs[i] := gives_piece .front hpieces rfl
  have hitem : item.Gives [.number n, v] xs[i] :=
    (gives_item hv hn).1 _ (List.getElem?_eq_getElem hi)
  exact ⟨u, xs[i], hu, hfirst, hitem⟩

/-- There is no item at position zero, nor behind the last piece. -/
theorem item_fails {n : Decimal} {i : ℕ} (hv : v.pieces? = some xs) (hn : n.count? = some i)
    (hi : i = 0 ∨ xs.length < i) : item.Fails [.number n, v] (noItem i) := by
  refine (gives_item hv hn).2 ?_
  rcases hi with rfl | hi
  · rfl
  · obtain ⟨k, rfl⟩ := Nat.exists_eq_add_one.2 (Nat.zero_lt_of_lt hi)
    exact List.getElem?_eq_none (by omega)

/-- **Words and lists are taken apart consistently.** The pieces at both ends of a word, each with
the characters that are left, make up the word again, and what is left has one character less. An
item of a word or a list is what comes first when the items before it have been dropped one by one,
and a position without an item is an error. -/
theorem taken_apart_consistently :
    (∀ (v : Value) (s : String), v.wordText? = some s → s ≠ "" →
      (∃ piece rest n, first.Gives [v] piece ∧ butFirst.Gives [v] rest ∧
        word.Gives [piece, rest] (.word s) ∧
        count.Gives [rest] (.number (.ofNat n)) ∧ count.Gives [v] (.number (.ofNat (1 + n)))) ∧
      ∃ piece rest n, last.Gives [v] piece ∧ butLast.Gives [v] rest ∧
        word.Gives [rest, piece] (.word s) ∧
        count.Gives [rest] (.number (.ofNat n)) ∧ count.Gives [v] (.number (.ofNat (1 + n)))) ∧
    ∀ v : Value, v.HasPieces → ∃ m : ℕ, count.Gives [v] (.number (.ofNat m)) ∧
      ∀ (n : Decimal) (i : ℕ), n.toRat = i → i < Decimal.countBound →
        (1 ≤ i → i ≤ m → ∃ rest x, butFirst.Repeated (i - 1) v rest ∧ first.Gives [rest] x ∧
          item.Gives [.number n, v] x) ∧
        (i = 0 ∨ m < i → item.Fails [.number n, v]
          (.invalidInput "item" ("there is no item " ++ toString i))) := by
  refine ⟨fun v s hv hne => ⟨word_agrees .front hv hne, word_agrees .back hv hne⟩, ?_⟩
  intro v hv
  obtain ⟨xs, hxs⟩ := hv.exists_pieces
  refine ⟨xs.length, gives_count hxs, fun n i hn hi => ?_⟩
  have hcount : n.count? = some i := Decimal.count?_eq_some_iff.2 ⟨hn, hi⟩
  refine ⟨fun hpos hle => ?_, fun hout => item_fails hxs hcount hout⟩
  obtain ⟨k, rfl⟩ := Nat.exists_eq_add_one.2 hpos
  exact item_agrees hxs hcount (by omega)

theorem Gives.unique {p : Primitive} {inputs : List Value} {v v' : Value} (h : p.Gives inputs v)
    (h' : p.Gives inputs v') : v = v' := by
  have hsame : answer ({} : Workspace Unit) v = answer {} v' := (h Unit {}).symm.trans (h' Unit {})
  exact (Token.literal.inj (Option.some.inj (Action.produce.inj (Prod.mk.inj hsame).2))).2

theorem Gives.ofNat_unique {p : Primitive} {inputs : List Value} {m n : ℕ}
    (h : p.Gives inputs (.number (.ofNat m))) (h' : p.Gives inputs (.number (.ofNat n))) :
    m = n := by
  have hsame := Value.number.inj (h.unique h')
  exact Int.ofNat_inj.1 (Decimal.mk.inj hsame).1

/-- A word that begins with a digit, and a position that is written with a point. -/
theorem taken_apart_consistently_digit :
    (∃ rest n, first.Gives [.text "7up"] (.number ⟨7, 0⟩) ∧ butFirst.Gives [.text "7up"] rest ∧
      word.Gives [.number ⟨7, 0⟩, rest] (.word "7up") ∧
      count.Gives [rest] (.number (.ofNat n)) ∧
      count.Gives [.text "7up"] (.number (.ofNat (1 + n)))) ∧
    Decimal.toRat ⟨20, 1⟩ = 2 ∧
    (∃ rest x, butFirst.Repeated 1 (.text "7up") rest ∧ first.Gives [rest] x ∧
      item.Gives [.number ⟨20, 1⟩, .text "7up"] x) ∧
    item.Fails [.number ⟨4, 0⟩, .text "7up"] (.invalidInput "item" "there is no item 4") := by
  have hne : "7up" ≠ "" := by decide
  have hpieces : (Value.text "7up").HasPieces := Or.inl ⟨"7up", rfl, hne⟩
  have htwo : Decimal.toRat ⟨20, 1⟩ = (2 : ℕ) := by norm_num [Decimal.toRat]
  have hfour : Decimal.toRat ⟨4, 0⟩ = (4 : ℕ) := by norm_num [Decimal.toRat]
  have hseven : first.Gives [.text "7up"] (.number ⟨7, 0⟩) := by
    intro κ w
    rfl
  obtain ⟨⟨piece, rest, n, hpiece, hrest⟩, -⟩ := taken_apart_consistently.1 (.text "7up") "7up" rfl hne
  obtain ⟨m, hm, hitems⟩ := taken_apart_consistently.2 (.text "7up") hpieces
  have hthree : count.Gives [.text "7up"] (.number (.ofNat 3)) := by
    intro κ w
    rfl
  obtain rfl : m = 3 := hm.ofNat_unique hthree
  cases hpiece.unique hseven
  refine ⟨⟨rest, n, hpiece, hrest⟩, htwo, ?_, ?_⟩
  · exact (hitems ⟨20, 1⟩ 2 htwo (by decide)).1 (by decide) (by decide)
  · exact (hitems ⟨4, 0⟩ 4 hfour (by decide)).2 (Or.inr (by decide))

end Primitive

end Logo
