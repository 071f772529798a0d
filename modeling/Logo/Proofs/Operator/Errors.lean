import Logo.Operator.Reduce

/-!
# Why a reduction stops

A run of values and operators comes to no value for one of four reasons: an operator refuses a
value, a division by zero, an operator without an operand, and a run that is no expression at all.

* `reduce_error`: there are no others.
-/

namespace Logo

/-- The causes for which a run of values and operators has no value. -/
inductive ReductionError : RuntimeError → Prop where
  | mismatch (op : Operator) (v : Value) : ReductionError (op.mismatch v)
  | divisionByZero : ReductionError .divisionByZero
  | missingOperand (op : Operator) : ReductionError (.missingOperand op.text)
  | malformed (text : String) : ReductionError (.malformedExpression text)

variable {op : Operator} {cause : RuntimeError}

/-- An operator on numbers refuses an operand that is no number, or fails as its function does. -/
theorem Operator.onNumbers_error {f : Decimal → Decimal → Except RuntimeError Decimal} {a b : Value}
    (hf : ∀ x y, f x y = .error cause → cause = .divisionByZero)
    (h : op.onNumbers f a b = .error cause) :
    (∃ v, cause = op.mismatch v) ∨ cause = .divisionByZero := by
  unfold onNumbers at h
  split at h
  · rename_i x y _ _
    cases hxy : f x y with
    | ok z => rw [hxy] at h; cases h
    | error cause' => rw [hxy] at h; cases h; exact Or.inr (hf x y hxy)
  · cases h; exact Or.inl ⟨_, rfl⟩
  · cases h; exact Or.inl ⟨_, rfl⟩

theorem Operator.divideNumbers_error {x y : Decimal} (h : divideNumbers x y = .error cause) :
    cause = .divisionByZero := by
  unfold divideNumbers at h
  split at h
  · cases h
  · cases h; rfl

/-- An operator refuses a value, or divides by zero. -/
theorem Operator.apply_error_cases {a b : Value} (h : op.apply a b = .error cause) :
    (∃ v, cause = op.mismatch v) ∨ cause = .divisionByZero := by
  unfold apply applySet at h
  cases op with
  | equals => cases h
  | add =>
    simp only [addValues] at h
    split at h <;> cases h <;> exact Or.inl ⟨_, rfl⟩
  | subtract => exact onNumbers_error (fun x y hxy => by cases hxy) h
  | multiply => exact onNumbers_error (fun x y hxy => by cases hxy) h
  | divide => exact onNumbers_error (fun x y => divideNumbers_error) h

theorem Operator.apply_error {a b : Value} (h : op.apply a b = .error cause) :
    ReductionError cause := by
  rcases apply_error_cases h with ⟨v, rfl⟩ | rfl
  · exact .mismatch op v
  · exact .divisionByZero

/-- A pass fails by an operator, or because one of its operands is missing. -/
theorem reduceTier_error {done rest : List Token}
    (h : (reduceTier op done rest).error = some cause) : ReductionError cause := by
  fun_induction reduceTier op done rest with
  | case1 done => cases h
  | case2 token _ s a done' t b rest' v _ ih => exact ih h
  | case3 token _ s a done' t b rest' cause' happly =>
    cases h
    exact Operator.apply_error happly
  | case4 => cases h; exact .missingOperand op
  | case5 done token rest _ ih => exact ih h

/-- All passes fail as one of them does. -/
theorem reduceTiers_error {ops : List Operator} {tokens : List Token}
    (h : (reduceTiers ops tokens).error = some cause) : ReductionError cause := by
  induction ops generalizing tokens with
  | nil => cases h
  | cons op ops ih =>
    unfold reduceTiers at h
    simp only at h
    split at h
    · exact ih h
    · exact reduceTier_error h

/-- **Why a run has no value.** -/
theorem reduce_error {tokens : List Token} (h : (reduce tokens).1 = .error cause) :
    ReductionError cause := by
  unfold reduce at h
  simp only at h
  split at h
  · rename_i hstop
    cases h
    exact reduceTiers_error hstop
  · cases h
  · cases h
    exact .malformed _

end Logo
