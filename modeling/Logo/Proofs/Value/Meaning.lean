import Logo.Proofs.Decimal.Value
import Logo.Proofs.Scan.RoundTrip
import Logo.Value.Equality

/-!
# What a program sees of a value

Equality of values forgets how a value came to be: text and quoted words keep their characters,
numbers the number that they denote, and lists the values that their items stand for. What is left
is the meaning of a value.

* `Value.equals_iff`: two values are equal exactly if they have the same meaning, which makes
  equality an equivalence relation.
* `Value.equals_of_same`: values of the same kind and content are equal.
* `Value.meaning_cases`: the ways in which two values can have the same meaning.
-/

namespace Logo

/-- What a program sees of a value. -/
inductive Meaning where
  /-- Nothing was ever set. -/
  | unknown
  /-- A truth value. -/
  | bool (b : Bool)
  /-- The characters of text or of a quoted word. -/
  | chars (s : String)
  /-- The number itself. -/
  | number (q : ℚ)
  /-- The meanings of the items. -/
  | list (items : List Meaning)
  /-- An object of the host. -/
  | parcel (p : Parcel)

mutual

/-- What a program sees of a value. -/
def Value.meaning : Value → Meaning
  | .unknown => .unknown
  | .bool b => .bool b
  | .text s => .chars s
  | .number n => .number n.toRat
  | .word s => .chars s
  | .list items => .list (meanings items)
  | .parcel p => .parcel p

/-- What a program sees of an item of a list. -/
def Token.meaning : Token → Meaning
  | .literal _ v => v.meaning
  | .list children => .list (meanings children)
  | t => .chars t.text

/-- What a program sees of the items of a list. -/
def meanings : List Token → List Meaning
  | [] => []
  | t :: ts => t.meaning :: meanings ts

end

@[simp] theorem meanings_eq_map (ts : List Token) : meanings ts = ts.map Token.meaning := by
  induction ts with
  | nil => rfl
  | cons t ts ih => rw [meanings, ih, List.map_cons]

theorem Value.meaning_list_congr {ts us : List Token}
    (h : ts.map Token.meaning = us.map Token.meaning) :
    (Value.list ts).meaning = (Value.list us).meaning := by
  rw [Value.meaning, Value.meaning, meanings_eq_map, meanings_eq_map, h]

theorem Token.meaning_datum (t : Token) : t.datum.meaning = t.meaning := by
  cases t <;> simp [Token.datum, Token.meaning, Value.meaning]

/-! ## Equality -/

mutual

/-- **Two values are equal exactly if a program sees the same of them.** -/
theorem Value.equals_iff (a b : Value) : a.equals b = true ↔ a.meaning = b.meaning := by
  cases a with
  | number m => cases b <;> simp [Value.equals, Value.meaning, Decimal.agrees_iff]
  | list items => cases b <;> simp [Value.equals, Value.meaning, equalItems_iff items]
  | _ => cases b <;> simp [Value.equals, Value.meaning]

/-- An item stands for a value exactly if both mean the same. -/
theorem Token.standsFor_iff (t : Token) (v : Value) :
    t.standsFor v = true ↔ t.meaning = v.meaning := by
  cases t with
  | literal s w => exact Value.equals_iff w v
  | list children =>
    cases v <;> simp [Token.standsFor, Token.meaning, Value.meaning, equalItems_iff children]
  | _ =>
    cases v <;>
      simp [Token.standsFor, Token.meaning, Value.meaning, Value.text?, @eq_comm String]

/-- Lists have equal items exactly if their items mean the same, one by one. -/
theorem equalItems_iff (as bs : List Token) :
    equalItems as bs = true ↔ as.map Token.meaning = bs.map Token.meaning := by
  cases as with
  | nil => cases bs <;> simp [equalItems]
  | cons a as =>
    cases bs with
    | nil => simp [equalItems]
    | cons b bs =>
      simp [equalItems, Token.standsFor_iff a, Token.meaning_datum, equalItems_iff as]

end

theorem Value.equals_equivalence : Equivalence fun a b : Value => a.equals b = true := by
  simp only [Value.equals_iff]
  exact ⟨fun _ => rfl, Eq.symm, Eq.trans⟩

/-! ## Same kind and content -/

theorem joinTokens_comment {t : Token} (h : t.isComment = true) (ts : List Token) :
    joinTokens (t :: ts) = t.text ++ "\n" ++ joinTokens ts := by
  cases t <;> first | rfl | cases h

/-- The text of a sequence depends on its head only by the head's text and by whether it is a
comment. -/
theorem joinTokens_cons_congr {t u : Token} {ts us : List Token} (htext : t.text = u.text)
    (hcomment : t.isComment = u.isComment) (hlength : ts.length = us.length)
    (hrest : joinTokens ts = joinTokens us) : joinTokens (t :: ts) = joinTokens (u :: us) := by
  cases hu : u.isComment with
  | true => rw [joinTokens_comment (hcomment.trans hu), joinTokens_comment hu, htext, hrest]
  | false =>
    have ht := hcomment.trans hu
    -- a space follows the head exactly if something does
    cases ts with
    | nil =>
      obtain rfl := List.eq_nil_of_length_eq_zero hlength.symm
      rw [joinTokens_singleton ht, joinTokens_singleton hu, htext]
    | cons t' ts =>
      obtain ⟨u', us, rfl⟩ := List.exists_cons_of_length_eq_add_one hlength.symm
      rw [joinTokens_cons_cons ht, joinTokens_cons_cons hu, htext, hrest]

theorem Token.isComment_of_same {t u : Token} (h : t.same u = true) :
    t.isComment = u.isComment := by
  cases t <;> cases u <;> first | rfl | cases h

/-- Sequences of the same tokens are of the same length. -/
theorem length_of_sameTokens {ts us : List Token} (h : sameTokens ts us = true) :
    ts.length = us.length := by
  induction ts generalizing us with
  | nil =>
    cases us with
    | nil => rfl
    | cons u us => cases h
  | cons t ts ih =>
    cases us with
    | nil => cases h
    | cons u us =>
      rw [sameTokens, Bool.and_eq_true] at h
      rw [List.length_cons, List.length_cons, ih h.2]

mutual

theorem Value.meaning_of_same (a b : Value) (h : a.same b = true) : a.meaning = b.meaning := by
  cases a with
  | number m => cases b <;> simp_all [Value.same, Value.meaning, Decimal.agrees_iff]
  | list items =>
    cases b with
    | list items' => exact Value.meaning_list_congr (sameTokens_spec items items' h).2
    | _ => cases h
  | _ => cases b <;> simp_all [Value.same, Value.meaning]

/-- Tokens of the same kind and content are written alike and mean the same. -/
theorem Token.same_spec (t u : Token) (h : t.same u = true) :
    t.text = u.text ∧ t.meaning = u.meaning := by
  cases t with
  | literal s v =>
    cases u with
    | literal s' v' =>
      rw [Token.same, Bool.and_eq_true, beq_iff_eq] at h
      exact ⟨h.1, Value.meaning_of_same v v' h.2⟩
    | _ => cases h
  | list ts =>
    cases u with
    | list us => simp [Token.text, Token.meaning, sameTokens_spec ts us h]
    | _ => cases h
  | expression ts =>
    cases u with
    | expression us => simp [Token.text, Token.meaning, sameTokens_spec ts us h]
    | _ => cases h
  | _ => cases u <;> simp_all [Token.same, Token.text, Token.meaning]

/-- Sequences of such tokens are joined to the same text and mean the same. -/
theorem sameTokens_spec (ts us : List Token) (h : sameTokens ts us = true) :
    joinTokens ts = joinTokens us ∧ ts.map Token.meaning = us.map Token.meaning := by
  cases ts with
  | nil =>
    cases us with
    | nil => exact ⟨rfl, rfl⟩
    | cons u us => cases h
  | cons t ts =>
    cases us with
    | nil => cases h
    | cons u us =>
      rw [sameTokens, Bool.and_eq_true] at h
      obtain ⟨htext, hmeaning⟩ := Token.same_spec t u h.1
      obtain ⟨hjoin, hrest⟩ := sameTokens_spec ts us h.2
      refine ⟨joinTokens_cons_congr htext (Token.isComment_of_same h.1)
        (length_of_sameTokens h.2) hjoin, ?_⟩
      rw [List.map_cons, List.map_cons, hmeaning, hrest]

end

theorem Value.equals_of_same {a b : Value} (h : a.same b = true) : a.equals b = true :=
  (Value.equals_iff a b).2 (Value.meaning_of_same a b h)

/-! ## Values of one meaning -/

/-- **Two values of one meaning** are the same value, or have the same characters, or are numerals of
one number, or are lists whose items have the same meanings. -/
theorem Value.meaning_cases {a b : Value} (h : a.meaning = b.meaning) :
    a = b ∨ (∃ s, a.text? = some s ∧ b.text? = some s) ∨
      (∃ m n, a = .number m ∧ b = .number n ∧ m.toRat = n.toRat) ∨
      ∃ ts us, a = .list ts ∧ b = .list us ∧ ts.map Token.meaning = us.map Token.meaning := by
  cases a <;> cases b <;> simp_all [Value.meaning, Value.text?]

end Logo
