import Logo.Proofs.Evaluation.Invariant

/-!
# Equations of evaluation

What `evaluate` does with a sequence of a known shape, and what the search for inputs and the work on
an operand do once their first job has ended.

* `evaluate_argument_literal`: a value is found at once.
* `evaluate_sequence_statement`, `evaluate_sequence_values`: the parts of a sequence.
* `throughOperand`: the work that inputs and runs of operators share.
-/

namespace Logo

variable {κ : Type}

/-- A sequence that does not begin with an operator. -/
def Clear (tokens : List Token) : Prop :=
  ∀ t ∈ tokens.head?, t.isOperator = false

theorem clear_nil : Clear [] := by
  intro t ht
  cases ht

theorem clear_cons {t : Token} {rest : List Token} (h : t.isOperator = false) :
    Clear (t :: rest) := by
  intro u hu
  cases hu
  exact h

theorem Clear.append {tokens more : List Token} (h : Clear tokens) (hmore : Clear more) :
    Clear (tokens ++ more) := by
  cases tokens with
  | nil => exact hmore
  | cons t rest => exact clear_cons (h t rfl)

/-- Tokens are put in front in the order in which they stand. -/
theorem Result.after_append (done done' : List Token) (r : Result κ) :
    r.after (done ++ done') = (r.after done').after done := by
  simp only [Result.after, List.append_assoc]

/-! ## Sequences -/

variable [Commands κ] {w : Workspace κ} {t : Token} {tokens : List Token}

/-- A run of values ends where no operator follows. -/
theorem evaluate_chain_close (window : List Token) (h : Clear tokens) :
    evaluate (.chain window tokens) w = some (closeChain window tokens w) := by
  rw [evaluate_eq]
  change stepChain evaluate window tokens w = _
  unfold stepChain
  split
  · have hop := h _ rfl
    cases hop
  · rfl

/-- A value that no operator follows is found at once. -/
theorem evaluate_argument_literal (text : String) (v : Value) (h : Clear tokens) :
    evaluate (.argument (.literal text v :: tokens)) w =
      some ⟨.complete, .literal text v :: tokens, w⟩ := by
  rw [evaluate_eq]
  exact evaluate_chain_close [.literal text v] h

/-- A word that is no truth value calls the procedures of its name. -/
theorem evaluate_word_call {lenient operand : Bool} {first : Procedure κ}
    {others : List (Procedure κ)} (htrue : ¬ Text.equalsIgnoringCase t.text "true" = true)
    (hfalse : ¬ Text.equalsIgnoringCase t.text "false" = true)
    (hlookup : w.lookup t.text = first :: others) :
    evaluate (.word lenient operand (t :: tokens)) w =
      callWord evaluate operand t first others tokens w := by
  rw [evaluate_eq]
  simp only [Job.step, stepWord, if_neg htrue, if_neg hfalse, hlookup]

omit [Commands κ] in
/-- The statement at the head is carried out, and then the rest. -/
theorem stepSequence_statement (e : Evaluator κ) (tokens : List Token) (lenient : Bool)
    (hw : w.isUnwinding = false) (ht : t.isLiteral = false) :
    stepSequence e lenient (t :: tokens) w =
      (e (.statement lenient (t :: tokens)) w).bind fun r => match r.outcome with
        | .complete => e (.sequence lenient r.tokens) r.workspace
        | _ => some r := by
  -- no values are passed over
  have hdrop : (t :: tokens).dropWhile Token.isLiteral = t :: tokens :=
    List.dropWhile_cons_of_neg (by simp [ht])
  have htake : (t :: tokens).takeWhile Token.isLiteral = [] :=
    List.takeWhile_cons_of_neg (by simp [ht])
  unfold stepSequence
  rw [if_neg (by simp [hw]), hdrop, htake]
  change (e (.statement lenient (t :: tokens)) w).bind _ = _
  refine Option.bind_congr fun r _ => ?_
  cases r.outcome with
  | complete => exact Option.bind_fun_some _
  | incomplete => rfl
  | failed cause => rfl

omit [Commands κ] in
/-- Values at the head of a sequence stay there. -/
theorem stepSequence_values (e : Evaluator κ) (lenient : Bool) {values : List Token}
    (hvalues : ∀ t ∈ values, t.isLiteral = true) :
    stepSequence e lenient (values ++ tokens) w =
      (stepSequence e lenient tokens w).map (·.after values) := by
  unfold stepSequence
  -- both begin at the same statement, and only what is put in front again differs
  rw [List.dropWhile_append_of_pos hvalues, List.takeWhile_append_of_pos hvalues]
  split
  · rfl
  split
  · rfl
  rename_i token rest _
  cases e (.statement lenient (token :: rest)) w with
  | none => rfl
  | some r =>
    simp only [Option.bind_eq_bind, Option.bind_some]
    cases r.outcome with
    | complete =>
      cases e (.sequence lenient r.tokens) r.workspace with
      | none => rfl
      | some r2 => exact congrArg some (Result.after_append _ _ _)
    | incomplete => exact congrArg some (Result.after_append _ _ _)
    | failed cause => exact congrArg some (Result.after_append _ _ _)

/-- A sequence is carried out statement by statement. -/
theorem evaluate_sequence_statement (tokens : List Token) (lenient : Bool)
    (hw : w.isUnwinding = false) (ht : t.isLiteral = false) :
    evaluate (.sequence lenient (t :: tokens)) w =
      (evaluate (.statement lenient (t :: tokens)) w).bind fun r => match r.outcome with
        | .complete => evaluate (.sequence lenient r.tokens) r.workspace
        | _ => some r := by
  rw [evaluate_eq]
  exact stepSequence_statement evaluate tokens lenient hw ht

/-- Values at the head of a sequence stay there. -/
theorem evaluate_sequence_values (lenient : Bool) {values : List Token}
    (hvalues : ∀ t ∈ values, t.isLiteral = true) :
    evaluate (.sequence lenient (values ++ tokens)) w =
      (evaluate (.sequence lenient tokens) w).map (·.after values) := by
  rw [evaluate_eq, evaluate_eq (.sequence lenient tokens)]
  exact stepSequence_values evaluate lenient hvalues

/-- Nothing is carried out while a procedure is being left. -/
theorem evaluate_sequence_unwinding (lenient : Bool) (tokens : List Token)
    (hw : w.isUnwinding = true) :
    evaluate (.sequence lenient tokens) w = some ⟨.complete, tokens, w⟩ := by
  rw [evaluate_eq]
  exact if_pos hw

/-! ## Inputs -/

omit [Commands κ]

variable {e : Evaluator κ} {r : Result κ} {count : Nat}

/-- The search for inputs ends when a procedure is to be left. -/
theorem gather_of_unwinding (h : e (.argument tokens) w = some r) (hr : r.outcome = .complete)
    (hw : r.workspace.isUnwinding = true) :
    gather e (count + 1) tokens w = some (.unwound r.tokens r.workspace) := by
  rw [gather, h]
  simp only [Option.bind_eq_bind, Option.bind_some, hr, if_pos hw]
  rfl

/-- An input that is a value is taken, and the next one is looked for behind it. -/
theorem gather_of_value {rest : List Token} (h : e (.argument tokens) w = some r)
    (hr : r.outcome = .complete) (hw : r.workspace.isUnwinding = false)
    (htokens : r.tokens = t :: rest) :
    gather e (count + 1) tokens w = (gather e count rest r.workspace).map (·.push [t]) := by
  rw [gather, h]
  simp only [Option.bind_eq_bind, Option.bind_some, hr, if_neg (Bool.not_eq_true _ ▸ hw), htokens]
  exact Option.map_eq_bind.symm

/-- The search for inputs ends with an input that waits or fails. -/
theorem gather_of_halted (h : e (.argument tokens) w = some r) (hr : r.outcome ≠ .complete) :
    gather e (count + 1) tokens w = some (.halted r) := by
  rw [gather, h]
  simp only [Option.bind_eq_bind, Option.bind_some]
  rfl

/-- How the search for inputs can begin: the first one leaves the procedure, is found, or halts. -/
theorem gather_succ_cases {g : Gathered κ} (h : gather e (count + 1) tokens w = some g) :
    ∃ r, e (.argument tokens) w = some r ∧
      ((r.outcome = .complete ∧ r.workspace.isUnwinding = true ∧
          g = .unwound r.tokens r.workspace) ∨
        (r.outcome = .complete ∧ r.workspace.isUnwinding = false ∧
          ∃ g', gather e count (r.tokens.drop 1) r.workspace = some g' ∧
            g = g'.push (r.tokens.take 1)) ∨
        (r.outcome ≠ .complete ∧ g = .halted r)) := by
  obtain ⟨r, hr, h⟩ := Option.bind_eq_some_iff.1 h
  refine ⟨r, hr, ?_⟩
  split at h
  · rename_i hcomplete
    split at h
    · rename_i hunwind
      cases h
      exact Or.inl ⟨hcomplete, hunwind, rfl⟩
    · rename_i hunwind
      obtain ⟨g', hg', h⟩ := Option.bind_eq_some_iff.1 h
      cases h
      exact Or.inr (Or.inl ⟨hcomplete, by simpa using hunwind, g', hg', rfl⟩)
  · rename_i hne
    cases h
    exact Or.inr (Or.inr ⟨hne, rfl⟩)

/-! ## Operands -/

/-- Evaluates the operand at the head and goes on with the job `next`, unless the operand waits,
fails, or leaves the procedure. The tokens `done` stand in front. -/
def throughOperand (e : Evaluator κ) (lenient : Bool) (done : List Token)
    (next : List Token → Job κ) (tokens : List Token) (w : Workspace κ) : Option (Result κ) :=
  (operand e lenient tokens w).bind fun r => match r.outcome with
    | .complete =>
      if r.workspace.isUnwinding then some (r.after done) else e (next r.tokens) r.workspace
    | _ => some (r.after done)

/-- What is not yet a value is evaluated as an operand first. -/
theorem stepArgument_operand (ht : isSettled t = false) :
    stepArgument e (t :: tokens) w = throughOperand e true [] .argument (t :: tokens) w := by
  cases t <;> first | rfl | cases ht

theorem stepChain_operand (window : List Token) (op : Operator) (ht : isSettled t = false) :
    stepChain e window (.operator op :: t :: tokens) w =
      throughOperand e false (window ++ [.operator op])
        (fun tokens => .chain window (.operator op :: tokens)) (t :: tokens) w := by
  cases t <;> first | rfl | cases ht

section Operand

variable {lenient : Bool} {done : List Token} {next : List Token → Job κ}
  (h : operand e lenient tokens w = some r)

include h

theorem throughOperand_of_unwinding (hr : r.outcome = .complete)
    (hw : r.workspace.isUnwinding = true) :
    throughOperand e lenient done next tokens w = some (r.after done) := by
  rw [throughOperand, h]
  simp only [Option.bind_some, hr, if_pos hw]

theorem throughOperand_of_complete (hr : r.outcome = .complete)
    (hw : r.workspace.isUnwinding = false) :
    throughOperand e lenient done next tokens w = e (next r.tokens) r.workspace := by
  rw [throughOperand, h]
  simp only [Option.bind_some, hr, if_neg (Bool.not_eq_true _ ▸ hw)]

theorem throughOperand_of_ne_complete (hr : r.outcome ≠ .complete) :
    throughOperand e lenient done next tokens w = some (r.after done) := by
  rw [throughOperand, h]
  simp only [Option.bind_some]

end Operand

end Logo
