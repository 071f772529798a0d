import Logo.Operator.Apply
import Logo.Proofs.Primitive.Pieces

/-!
# Operands that were never set

Beside a value of some kind, an operator takes an operand that was never set for the empty value of
that kind. The command `equalp` takes its inputs as they are. So the operator `=` and the command
compare in the same way, except for the empty values beside an operand that was never set: for the
operator these are equal.

* `Operator.apply_eq`: every operator sees each operand beside the other one.
* `Value.equals_defaultLike_iff`: the values that are equal to the empty value of their kind.
* `Operator.equals_agrees_with_command`: where the operator and the command agree.
-/

namespace Logo

namespace Value

/-- What an operator sees of an operand beside the other one. -/
def beside (v other : Value) : Value :=
  if v.isUnknown then other.defaultLike else v

/-- The empty value of a kind: zero, the empty text, the empty word, falsehood, the empty list. -/
inductive IsEmpty : Value → Prop where
  | number {n : Decimal} (h : n.toRat = 0) : IsEmpty (.number n)
  | text : IsEmpty (.text "")
  | word : IsEmpty (.word "")
  | bool : IsEmpty (.bool false)
  | list : IsEmpty (.list [])

/-- One value was never set, and the other one is the empty value of its kind. -/
def UnsetBesideEmpty (a b : Value) : Prop :=
  a = .unknown ∧ b.IsEmpty ∨ b = .unknown ∧ a.IsEmpty

variable {v a b : Value}

theorem isUnknown_iff : v.isUnknown = true ↔ v = .unknown := by
  cases v <;> simp [isUnknown]

theorem beside_of_ne (h : v ≠ .unknown) (other : Value) : v.beside other = v :=
  if_neg fun hunknown => h (isUnknown_iff.1 hunknown)

theorem beside_unknown (v : Value) : v.beside .unknown = v := by
  cases v <;> rfl

theorem equals_comm (a b : Value) : a.equals b = b.equals a := by
  rw [Bool.eq_iff_iff, equals_iff, equals_iff, eq_comm]

/-- Nothing else is equal to a value that was never set. -/
theorem equals_unknown (h : v ≠ .unknown) : Value.unknown.equals v = false := by
  cases v <;> first | rfl | exact absurd rfl h

/-- **The values that are equal to the empty value of their kind.** -/
theorem equals_defaultLike_iff (h : v ≠ .unknown) :
    v.defaultLike.equals v = true ↔ v.IsEmpty := by
  rw [equals_iff]
  constructor
  · intro hsame
    cases v with
    | unknown => exact absurd rfl h
    | number n =>
      have hzero := Meaning.number.inj hsame
      exact .number (by simpa [Decimal.toRat] using hzero.symm)
    | text s =>
      cases Meaning.chars.inj hsame
      exact .text
    | word s =>
      cases Meaning.chars.inj hsame
      exact .word
    | bool b =>
      cases Meaning.bool.inj hsame
      exact .bool
    | list items =>
      have hitems : [] = items.map Token.meaning := by
        simpa [defaultLike, meaning] using hsame
      cases List.map_eq_nil_iff.1 hitems.symm
      exact .list
    -- a parcel has no default of its own
    | parcel p => cases hsame
  · intro hempty
    cases hempty with
    | number hzero =>
      rw [defaultLike, meaning, meaning, hzero]
      simp [Decimal.toRat]
    | _ => rfl

/-- Beside each other, two values are equal if they are so as they are, or if one was never set and
the other one is empty. -/
theorem beside_equals_iff (a b : Value) : (a.beside b).equals (b.beside a) = true ↔
    a.equals b = true ∨ UnsetBesideEmpty a b := by
  by_cases ha : a = .unknown
  · subst ha
    by_cases hb : b = .unknown
    · subst hb
      exact iff_of_true rfl (Or.inl rfl)
    · rw [beside_unknown, equals_unknown hb]
      simp [beside, isUnknown, UnsetBesideEmpty, hb, equals_defaultLike_iff hb]
  · by_cases hb : b = .unknown
    · subst hb
      rw [beside_unknown, equals_comm a, equals_comm a, equals_unknown ha]
      simp [beside, isUnknown, UnsetBesideEmpty, ha, equals_defaultLike_iff ha]
    · rw [beside_of_ne ha, beside_of_ne hb]
      simp [UnsetBesideEmpty, ha, hb]

/-- What was never set is not equal to an empty value. -/
theorem UnsetBesideEmpty.equals_eq_false (h : UnsetBesideEmpty a b) : a.equals b = false := by
  rcases h with ⟨rfl, hempty⟩ | ⟨rfl, hempty⟩
  · cases hempty <;> rfl
  · cases hempty <;> rfl

end Value

namespace Operator

/-- **Operators see each operand beside the other one.** -/
theorem apply_eq (op : Operator) (a b : Value) :
    op.apply a b = op.applySet (a.beside b) (b.beside a) := by
  -- the second operand is taken beside what the first one has become, which differs from the first
  -- one only if the second one is set
  cases a with
  | unknown => cases b <;> rfl
  | _ => rfl

/-- **The operator `=` and the command `equalp` agree**, unless one operand was never set and the
other one is the empty value of its kind. There the command tells them apart, and for the operator
they are equal. -/
theorem equals_agrees_with_command (a b : Value) :
    Primitive.equal.Gives [a, b] (.bool (a.equals b)) ∧
      (¬ a.UnsetBesideEmpty b → equals.apply a b = .ok (.bool (a.equals b))) ∧
      (a.UnsetBesideEmpty b → a.equals b = false ∧ equals.apply a b = .ok (.bool true)) := by
  have hcompared : equals.apply a b = .ok (.bool ((a.beside b).equals (b.beside a))) :=
    apply_eq equals a b
  refine ⟨fun κ w => rfl, fun hset => ?_, fun hunset => ⟨hunset.equals_eq_false, ?_⟩⟩
  · have hsame : (a.beside b).equals (b.beside a) = a.equals b := by
      rw [Bool.eq_iff_iff, Value.beside_equals_iff]
      exact or_iff_left hset
    rw [hcompared, hsame]
  · rw [hcompared, (Value.beside_equals_iff a b).2 (Or.inr hunset)]

/-- Beside text the operator and the command agree on a number. Beside zero they differ on what was
never set. -/
theorem equals_agrees_with_command_zero :
    ¬ (Value.number ⟨2, 0⟩).UnsetBesideEmpty (.word "2") ∧
    equals.apply (.number ⟨2, 0⟩) (.word "2") = .ok (.bool false) ∧
    Value.UnsetBesideEmpty .unknown (.number ⟨0, 3⟩) ∧
    equals.apply .unknown (.number ⟨0, 3⟩) = .ok (.bool true) := by
  have hset : ¬ (Value.number ⟨2, 0⟩).UnsetBesideEmpty (.word "2") := by
    rintro (⟨h, -⟩ | ⟨h, -⟩) <;> cases h
  have hzero : (Value.number ⟨0, 3⟩).IsEmpty := .number (by simp [Decimal.toRat])
  have hunset : Value.UnsetBesideEmpty .unknown (.number ⟨0, 3⟩) := Or.inl ⟨rfl, hzero⟩
  exact ⟨hset, (equals_agrees_with_command _ _).2.1 hset, hunset,
    ((equals_agrees_with_command _ _).2.2 hunset).2⟩

/-- What was never set is equal to zero for the operator, and not for the command. -/
theorem unset_equals_zero :
    equals.apply .unknown (.number ⟨0, 0⟩) = .ok (.bool true) ∧
      Primitive.equal.Gives [.unknown, .number ⟨0, 0⟩] (.bool false) ∧
      ¬ ∀ a b : Value, equals.apply a b = .ok (.bool (a.equals b)) := by
  have happly : equals.apply .unknown (.number ⟨0, 0⟩) = .ok (.bool true) := rfl
  refine ⟨happly, fun κ w => rfl, fun h => ?_⟩
  have hsame := (h .unknown (.number ⟨0, 0⟩)).symm.trans happly
  cases hsame

end Operator

end Logo
