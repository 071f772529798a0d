import Logo.Host
import Logo.Proofs.Evaluation.Equations
import Logo.Proofs.Operator.Tiers

/-!
# Runs of operators in place and in parentheses

A run of operands and operators is evaluated in two ways. As an input of a call it stands in the
sequence, and is walked through operator by operator. In parentheses it is taken out, and the first
child that is no value is looked for again and again. Without calls in it, both are the same as a
single pass from left to right that brings every token to a value (`settle`), with one reduction at
the end.

* `evaluate_token_settle`, `evaluate_expression_settle`: the way in parentheses.
* `evaluate_argument_settle`: the way in place.
* `infix_agrees_with_expression`: both come to the same value or error, and the same workspace.
-/

namespace Logo

/-! ## Tokens without calls -/

mutual

/-- Whether the token is an operand without calls: a value, a variable, a list, or an expression of
such operands and operators. -/
def Token.isPlain : Token → Bool
  | .literal _ _ => true
  | .reference _ => true
  | .list _ => true
  | .expression children => plainChildren children
  | _ => false

/-- Whether the tokens are operands without calls and operators, in any order. -/
def plainChildren : List Token → Bool
  | [] => true
  | t :: ts => (t.isPlain || t.isOperator) && plainChildren ts

end

variable {κ : Type}

/-- The value of a settled expression with the text `source`. -/
def settledValue (source : String) (children : List Token) : Except RuntimeError Value :=
  if children.isEmpty then .error (.malformedExpression source) else (reduce children).1

mutual

/-- Brings an operand without calls to a value. Operators stay. -/
def Token.settle (w : Workspace κ) : Token → Except RuntimeError Token × Workspace κ
  | .reference text =>
    let (v, w) := w.getVariable ((Token.reference text).variableName?.getD "")
    (.ok (.ofValue v), w)
  | .list children => (.ok (.ofValue (.list children)), w)
  | .expression children =>
    match settleAll w children with
    | (.ok ts, w) => ((settledValue (Token.expression children).text ts).map .ofValue, w)
    | (.error e, w) => (.error e, w)
  | t => (.ok t, w)

/-- Brings all operands of a sequence to values, from left to right, until one fails. -/
def settleAll (w : Workspace κ) : List Token → Except RuntimeError (List Token) × Workspace κ
  | [] => (.ok [], w)
  | t :: ts =>
    match t.settle w with
    | (.ok u, w) =>
      match settleAll w ts with
      | (.ok us, w) => (.ok (u :: us), w)
      | (.error e, w) => (.error e, w)
    | (.error e, w) => (.error e, w)

end

/-- A sequence whose head was settled, where `rest` follows. An expression that fails has lost its
children. -/
def settledHead (rest : List Token) : Except RuntimeError Token × Workspace κ → Result κ
  | (.ok t, w) => ⟨.complete, t :: rest, w⟩
  | (.error e, w) => ⟨.failed e, .expression [] :: rest, w⟩

section Settle

variable {w : Workspace κ} {t u : Token}

theorem settle_of_isSettled (h : isSettled t = true) : t.settle w = (.ok t, w) := by
  cases t <;> first | rfl | cases h

theorem isSettled_of_isLiteral (h : t.isLiteral = true) : isSettled t = true := by
  rw [isSettled, h, Bool.true_or]

theorem isPlain_of_not_isSettled (ht : (t.isPlain || t.isOperator) = true)
    (h : isSettled t = false) : t.isPlain = true := by
  rw [isSettled, Bool.or_eq_false_iff] at h
  rwa [h.2, Bool.or_false] at ht

/-- An operand is a value once it is settled. -/
theorem isLiteral_of_settle (ht : t.isPlain = true) (h : (t.settle w).1 = .ok u) :
    u.isLiteral = true := by
  cases t with
  | literal text v =>
    cases h
    rfl
  | reference text =>
    cases h
    rfl
  | list children =>
    cases h
    rfl
  -- only parentheses can fail, and what they leave is the literal of a value
  | expression children =>
    rw [Token.settle] at h
    split at h
    · obtain ⟨v, -, rfl⟩ := except_map_eq_ok_iff.1 h
      rfl
    · cases h
  | _ => cases ht

mutual

/-- Settling reads variables and does not ask to leave a procedure. -/
theorem isUnwinding_settle (w : Workspace κ) (t : Token) :
    (t.settle w).2.isUnwinding = w.isUnwinding := by
  cases t with
  | expression children =>
    have hall := isUnwinding_settleAll w children
    rw [Token.settle]
    split <;> rename_i hsettled <;> rw [hsettled] at hall <;> exact hall
  | _ => rfl

/-- Tokens without calls raise no request to leave a procedure. -/
theorem isUnwinding_settleAll (w : Workspace κ) (ts : List Token) :
    (settleAll w ts).2.isUnwinding = w.isUnwinding := by
  cases ts with
  | nil => rfl
  | cons t ts =>
    have hhead := isUnwinding_settle w t
    rw [settleAll]
    split
    · rename_i u w' hsettled
      have htail := isUnwinding_settleAll w' ts
      rw [hsettled] at hhead
      split <;> rename_i hrest <;> rw [hrest] at htail <;> exact htail.trans hhead
    · rename_i e w' hsettled
      rw [hsettled] at hhead
      exact hhead

end

theorem isUnwinding_of_settle {w' : Workspace κ} {outcome : Except RuntimeError Token}
    (h : t.settle w = (outcome, w')) (hw : w.isUnwinding = false) : w'.isUnwinding = false := by
  have hsettle := isUnwinding_settle w t
  rw [h] at hsettle
  exact hsettle.trans hw

/-- When all children are settled, the expression is replaced by their value. -/
theorem closeExpression_eq_settledHead (source : String) (children rest : List Token)
    (w : Workspace κ) : closeExpression source children rest w =
      settledHead rest ((settledValue source children).map .ofValue, w) := by
  unfold closeExpression settledValue
  split
  · rfl
  · cases (reduce children).1 <;> rfl

end Settle

/-! ## In parentheses -/

section Expression

variable {w : Workspace κ} {t : Token} {e : Evaluator κ} {source : String}
  {done more rest : List Token}

theorem operand_plain (ht : t.isPlain = true) (lenient : Bool) :
    operand e lenient (t :: rest) w = e (.token lenient (t :: rest)) w := by
  cases t <;> first | rfl | cases ht

/-- The first child that is no value is evaluated next. -/
theorem stepExpression_operand (hdone : ∀ t ∈ done, isSettled t = true) (ht : isSettled t = false) :
    stepExpression e source (done ++ t :: more) rest w =
      (operand e false (t :: more) w).bind fun r => match r.outcome with
        | .complete =>
          if r.workspace.isUnwinding then some ⟨.complete, .expression [] :: rest, r.workspace⟩
          else e (.expression source (done ++ r.tokens) rest) r.workspace
        | .incomplete =>
          some ⟨.failed (.notEnoughInputs (pendingWord r.tokens)), .expression [] :: rest,
            r.workspace⟩
        | .failed cause => some ⟨.failed cause, .expression [] :: rest, r.workspace⟩ := by
  have hdrop : (done ++ t :: more).dropWhile isSettled = t :: more := by
    rw [List.dropWhile_append_of_pos hdone, List.dropWhile_cons_of_neg (by simp [ht])]
  have htake : (done ++ t :: more).takeWhile isSettled = done := by
    rw [List.takeWhile_append_of_pos hdone, List.takeWhile_cons_of_neg (by simp [ht]),
      List.append_nil]
  unfold stepExpression
  rw [hdrop, htake]
  rfl

/-- An expression all of whose children are settled is closed. -/
theorem stepExpression_settled (hdone : ∀ t ∈ done, isSettled t = true) :
    stepExpression e source done rest w = some (closeExpression source done rest w) := by
  have hdrop : done.dropWhile isSettled = [] := List.dropWhile_eq_nil_iff.2 hdone
  unfold stepExpression
  rw [hdrop]

end Expression

/-- What becomes of an expression, when `done` stands before the children that were settled. -/
def settledExpression (source : String) (done rest : List Token) :
    Except RuntimeError (List Token) × Workspace κ → Result κ
  | (.ok ts, w) => closeExpression source (done ++ ts) rest w
  | (.error e, w) => ⟨.failed e, .expression [] :: rest, w⟩

section Settled

variable {source : String} {done rest : List Token} {w w' : Workspace κ} {t u : Token}
  {ts : List Token} {cause : RuntimeError}

/-- Before any child is settled this is what settling the expression gives. -/
theorem settledExpression_nil (children : List Token) :
    settledExpression (Token.expression children).text [] rest (settleAll w children) =
      settledHead rest ((Token.expression children).settle w) := by
  rw [Token.settle]
  split <;> rename_i hsettled <;> rw [hsettled]
  · exact closeExpression_eq_settledHead _ _ _ _
  · rfl

/-- A child that is settled joins those before it. -/
theorem settledExpression_cons (h : t.settle w = (.ok u, w')) :
    settledExpression source done rest (settleAll w (t :: ts)) =
      settledExpression source (done ++ [u]) rest (settleAll w' ts) := by
  rw [settleAll, h]
  dsimp only
  split <;> rename_i hsettled <;> rw [hsettled]
  · rw [settledExpression, settledExpression, List.append_assoc, List.singleton_append]
  · rfl

theorem settleAll_cons_error (h : t.settle w = (.error cause, w')) :
    settleAll w (t :: ts) = (.error cause, w') := by
  rw [settleAll, h]

end Settled

variable [Commands κ]

mutual

/-- **The token at the head** becomes what settling makes of it, and nothing else is touched. -/
theorem evaluate_token_settle (t : Token) (ht : (t.isPlain || t.isOperator) = true)
    (lenient : Bool) (rest : List Token) (w : Workspace κ) (hw : w.isUnwinding = false) :
    evaluate (.token lenient (t :: rest)) w = some (settledHead rest (t.settle w)) := by
  rw [evaluate_eq]
  cases t with
  | expression children =>
    have hchildren : plainChildren children = true := (Bool.or_false _).symm.trans ht
    rw [← settledExpression_nil]
    exact evaluate_expression_settle children hchildren _ [] rest
      (fun t ht => absurd ht List.not_mem_nil) w hw
  | word text => cases ht
  | comment text => cases ht
  | _ => rfl

/-- **An expression** looks for its next child from the front, again after each of them. As the
children `done` are settled already, this is one pass over the others. -/
theorem evaluate_expression_settle (ts : List Token) (hts : plainChildren ts = true)
    (source : String) (done rest : List Token) (hdone : ∀ t ∈ done, isSettled t = true)
    (w : Workspace κ) (hw : w.isUnwinding = false) :
    evaluate (.expression source (done ++ ts) rest) w =
      some (settledExpression source done rest (settleAll w ts)) := by
  cases ts with
  | nil =>
    rw [evaluate_eq, List.append_nil]
    refine (stepExpression_settled hdone).trans ?_
    rw [settleAll, settledExpression, List.append_nil]
  | cons t ts =>
    rw [plainChildren, Bool.and_eq_true] at hts
    obtain ⟨ht, hts⟩ := hts
    -- once the head is settled, the search starts again and passes over `done` and the head
    have hnext {u : Token} {w' : Workspace κ} (hu : isSettled u = true)
        (hsettle : t.settle w = (.ok u, w')) (hw' : w'.isUnwinding = false) :
        evaluate (.expression source (done ++ u :: ts) rest) w' =
          some (settledExpression source done rest (settleAll w (t :: ts))) := by
      have hdone' : ∀ t ∈ done ++ [u], isSettled t = true := by
        simpa [or_imp, forall_and] using ⟨hdone, hu⟩
      rw [settledExpression_cons hsettle, List.append_cons]
      exact evaluate_expression_settle ts hts source (done ++ [u]) rest hdone' w' hw'
    cases hsettled : isSettled t with
    | true => exact hnext hsettled (settle_of_isSettled hsettled) hw
    | false =>
      have hhead := evaluate_token_settle t ht false ts w hw
      rw [evaluate_eq]
      refine (stepExpression_operand hdone hsettled).trans ?_
      rw [operand_plain (isPlain_of_not_isSettled ht hsettled), hhead]
      rcases hsettle : t.settle w with ⟨cause | u, w'⟩
      · rw [settleAll_cons_error hsettle]
        rfl
      · have hu := isLiteral_of_settle (isPlain_of_not_isSettled ht hsettled)
          (congrArg Prod.fst hsettle)
        have hw' := isUnwinding_of_settle hsettle hw
        simp only [settledHead, Option.bind_some, hw', Bool.false_eq_true, if_false]
        exact hnext (isSettled_of_isLiteral hu) hsettle hw'

end

/-! ## In place -/

section Operand

variable {w : Workspace κ} {t : Token} {rest : List Token}

theorem exists_literal_of_isLiteral (h : t.isLiteral = true) : ∃ text v, t = .literal text v := by
  cases t <;> first | exact ⟨_, _, rfl⟩ | cases h

/-- An operand without calls is evaluated to what settling gives. -/
theorem operand_settle (ht : t.isPlain = true) (hw : w.isUnwinding = false) (lenient : Bool)
    (rest : List Token) :
    operand evaluate lenient (t :: rest) w = some (settledHead rest (t.settle w)) :=
  (operand_plain ht lenient).trans
    (evaluate_token_settle t (by rw [ht, Bool.true_or]) lenient rest w hw)

/-- The work on an operand without calls, for a job that turns to the job `next` as soon as the
operand is a value. -/
theorem evaluate_operand_settle (lenient : Bool) (done : List Token) (job : List Token → Job κ)
    (next : Token → Job κ)
    (hvalue : ∀ (u : Token) (w : Workspace κ), u.isLiteral = true →
      evaluate (job (u :: rest)) w = evaluate (next u) w)
    (hoperand : isSettled t = false →
      evaluate (job (t :: rest)) w = throughOperand evaluate lenient done job (t :: rest) w)
    (ht : t.isPlain = true) (hw : w.isUnwinding = false) :
    evaluate (job (t :: rest)) w = match t.settle w with
      | (.ok u, w') => evaluate (next u) w'
      | (.error e, w') => some ⟨.failed e, done ++ .expression [] :: rest, w'⟩ := by
  cases hsettled : isSettled t with
  -- a value is its own operand
  | true =>
    have hsettle := settle_of_isSettled (w := w) hsettled
    rw [hsettle]
    exact hvalue t w (isLiteral_of_settle ht (congrArg Prod.fst hsettle))
  | false =>
    have hresult := operand_settle ht hw lenient rest
    rw [hoperand hsettled]
    split
    · rename_i u w' hsettle
      rw [hsettle] at hresult
      rw [throughOperand_of_complete hresult rfl (isUnwinding_of_settle hsettle hw)]
      exact hvalue u w' (isLiteral_of_settle ht (congrArg Prod.fst hsettle))
    · rename_i e w' hsettle
      rw [hsettle] at hresult
      exact throughOperand_of_ne_complete hresult (by simp [settledHead])

/-- An operand at the place of an input begins a run. -/
theorem evaluate_argument_operand (rest : List Token) (ht : t.isPlain = true)
    (hw : w.isUnwinding = false) :
    evaluate (.argument (t :: rest)) w = match t.settle w with
      | (.ok u, w') => evaluate (.chain [u] rest) w'
      | (.error e, w') => some ⟨.failed e, .expression [] :: rest, w'⟩ := by
  refine evaluate_operand_settle true [] .argument (fun u => .chain [u] rest) (fun u w hu => ?_)
    (fun hsettled => ?_) ht hw
  · rw [evaluate_eq]
    cases u <;> first | rfl | cases hu
  · rw [evaluate_eq]
    exact stepArgument_operand hsettled

/-- An operand behind an operator goes on with a run. -/
theorem evaluate_chain_operand (window : List Token) (op : Operator) (rest : List Token)
    (ht : t.isPlain = true) (hw : w.isUnwinding = false) :
    evaluate (.chain window (.operator op :: t :: rest)) w = match t.settle w with
      | (.ok u, w') => evaluate (.chain (window ++ [.operator op, u]) rest) w'
      | (.error e, w') =>
        some ⟨.failed e, window ++ [.operator op] ++ .expression [] :: rest, w'⟩ := by
  refine evaluate_operand_settle false _ (fun tokens => .chain window (.operator op :: tokens))
    (fun u => .chain (window ++ [.operator op, u]) rest) (fun u w hu => ?_)
    (fun hsettled => ?_) ht hw
  · rw [evaluate_eq]
    cases u <;> first | rfl | cases hu
  · rw [evaluate_eq]
    exact stepChain_operand window op hsettled

end Operand

/-- How a run ends behind `window`, with `rest` behind it, once its operands are settled: it is
reduced, or an operand failed. -/
inductive RunEnds (window rest : List Token) :
    Except RuntimeError (List Token) × Workspace κ → Option (Result κ) → Prop where
  | reduced (ts : List Token) (w : Workspace κ) :
    RunEnds window rest (.ok ts, w) (some (closeChain (window ++ ts) rest w))
  | failed (cause : RuntimeError) (left : List Token) (w : Workspace κ) :
    RunEnds window rest (.error cause, w) (some ⟨.failed cause, left, w⟩)

section Run

variable {window rest ts us R S : List Token} {w w' : Workspace κ} {t : Token}

omit [Commands κ] in
/-- What the head of a run was settled to stands before the rest of the run. -/
theorem RunEnds.push {u : Token} {r : Option (Result κ)} (hsettle : t.settle w = (.ok u, w'))
    (h : RunEnds (window ++ [u]) rest (settleAll w' ts) r) :
    RunEnds window rest (settleAll w (t :: ts)) r := by
  rw [settleAll, hsettle]
  dsimp only
  generalize settleAll w' ts = outcome at h
  cases h with
  | reduced us w =>
    rw [List.append_assoc]
    exact .reduced (u :: us) w
  | failed cause left w => exact .failed cause left w

omit [Commands κ] in
/-- A run goes on behind its head, or fails with it. -/
theorem RunEnds.cons {next : Token → Workspace κ → Option (Result κ)} {left : List Token}
    (h : ∀ u w', t.settle w = (.ok u, w') →
      RunEnds (window ++ [u]) rest (settleAll w' ts) (next u w')) :
    RunEnds window rest (settleAll w (t :: ts)) (match t.settle w with
      | (.ok u, w') => next u w'
      | (.error e, w') => some ⟨.failed e, left, w'⟩) := by
  rcases hsettle : t.settle w with ⟨cause | u, w'⟩
  · rw [settleAll_cons_error hsettle]
    exact .failed cause left w'
  · exact .push hsettle (h u w' hsettle)

theorem runEnds_nil (hS : Clear S) :
    RunEnds window S (settleAll w []) (evaluate (.chain window S) w) := by
  have hend : RunEnds window S (settleAll w []) (some (closeChain (window ++ []) S w)) :=
    .reduced [] w
  rw [evaluate_chain_close window hS]
  rwa [List.append_nil] at hend

/-- **A run from an operator on.** One operand is settled at a time, and joins the window. -/
theorem runEnds_chain (hR : Alternating Token.isPlain R) (hS : Clear S) (window : List Token)
    (op : Operator) (w : Workspace κ) (hw : w.isUnwinding = false) :
    RunEnds (window ++ [.operator op]) S (settleAll w R)
      (evaluate (.chain window (.operator op :: (R ++ S))) w) := by
  -- along the run, with the window that has grown so far and the workspace of the last operand
  induction hR generalizing window op w with
  | single ht =>
    rw [List.singleton_append, evaluate_chain_operand window op S ht hw]
    refine .cons fun u w' hsettle => ?_
    rw [List.append_assoc]
    exact runEnds_nil hS
  | cons ht op' hrest ih =>
    rw [List.cons_append, List.cons_append, evaluate_chain_operand window op _ ht hw]
    refine .cons fun u w' hsettle => .push (settle_of_isSettled rfl) ?_
    have hend := ih (window ++ [.operator op, u]) op' w' (isUnwinding_of_settle hsettle hw)
    simpa only [List.append_assoc, List.singleton_append] using hend

/-- **A run at the place of an input.** -/
theorem runEnds_argument (hR : Alternating Token.isPlain R) (hS : Clear S)
    (hw : w.isUnwinding = false) :
    RunEnds [] S (settleAll w R) (evaluate (.argument (R ++ S)) w) := by
  cases hR with
  | single ht =>
    rw [List.singleton_append, evaluate_argument_operand S ht hw]
    exact .cons fun u w' hsettle => runEnds_nil hS
  | cons ht op hrest =>
    rw [List.cons_append, List.cons_append, evaluate_argument_operand _ ht hw]
    exact .cons fun u w' hsettle => .push (settle_of_isSettled rfl)
      (runEnds_chain hrest hS [u] op w' (isUnwinding_of_settle hsettle hw))

end Run

/-! ## Both ways -/

section Agreement

variable {R S ts us : List Token} {w w' : Workspace κ} {t : Token} {v : Value}
  {cause : RuntimeError}

omit [Commands κ]

/-- All tokens are settled if the first is and then all others are. -/
theorem settleAll_cons_eq_ok (h : settleAll w (t :: ts) = (.ok us, w')) :
    ∃ u us' w1, t.settle w = (.ok u, w1) ∧ settleAll w1 ts = (.ok us', w') ∧ us = u :: us' := by
  rw [settleAll] at h
  split at h
  · rename_i u w1 hsettle
    split at h
    · rename_i us' w2 hrest
      cases h
      exact ⟨u, us', w1, hsettle, hrest, rfl⟩
    · cases h
  · cases h

/-- A settled run still alternates, and all its operands are values. -/
theorem alternating_settleAll (hR : Alternating Token.isPlain R)
    (h : settleAll w R = (.ok ts, w')) : Alternating Token.isLiteral ts := by
  induction hR generalizing w ts with
  | single ht =>
    obtain ⟨u, us, w1, hsettle, hrest, rfl⟩ := settleAll_cons_eq_ok h
    cases hrest
    exact .single (isLiteral_of_settle ht (congrArg Prod.fst hsettle))
  | cons ht op _ ih =>
    obtain ⟨u, us, w1, hsettle, hrest, rfl⟩ := settleAll_cons_eq_ok h
    obtain ⟨o, us, w2, hop, hrest, rfl⟩ := settleAll_cons_eq_ok hrest
    cases hop
    exact .cons (isLiteral_of_settle ht (congrArg Prod.fst hsettle)) op (ih hrest)

theorem plainChildren_of_alternating (hR : Alternating Token.isPlain R) :
    plainChildren R = true := by
  induction hR with
  | single ht => simp [plainChildren, ht]
  | cons ht op _ ih => simp [plainChildren, ht, ih, Token.isOperator]

/-- A run of one value stays as it is written, a longer one is replaced by its value. -/
theorem closeChain_of_ok (hts : Alternating Token.isLiteral ts) (h : (reduce ts).1 = .ok v) :
    ∃ text, closeChain ts S w = ⟨.complete, .literal text v :: S, w⟩ := by
  cases hts with
  | single ht =>
    obtain ⟨text, a, rfl⟩ := exists_literal_of_isLiteral ht
    cases h
    exact ⟨text, rfl⟩
  | cons ht op hrest =>
    refine ⟨v.render, ?_⟩
    rw [closeChain, if_neg (by simp), h]
    rfl

/-- A run of values whose reduction fails is gone, and the cause is left. -/
theorem closeChain_of_error (hts : Alternating Token.isLiteral ts)
    (h : (reduce ts).1 = .error cause) : closeChain ts S w = ⟨.failed cause, S, w⟩ := by
  cases hts with
  | single ht =>
    obtain ⟨text, a, rfl⟩ := exists_literal_of_isLiteral ht
    cases h
  | cons ht op hrest => rw [closeChain, if_neg (by simp), h]

/-- Values with operators between them are never malformed, so that reduction decides alone. -/
theorem settledValue_of_alternating (source : String) (hts : Alternating Token.isLiteral ts) :
    settledValue source ts = (reduce ts).1 := by
  cases hts <;> rfl

/-- Two results of the evaluation of one slot, with `before` and `behind` around it: the same value
is in it, or both failed with the same error. The workspaces are the same. -/
inductive SameSlot (before behind : List Token) : Result κ → Result κ → Prop where
  | value (text text' : String) (v : Value) (w : Workspace κ) :
    SameSlot before behind ⟨.complete, before ++ .literal text v :: behind, w⟩
      ⟨.complete, before ++ .literal text' v :: behind, w⟩
  | failure (cause : RuntimeError) (left left' : List Token) (w : Workspace κ) :
    SameSlot before behind ⟨.failed cause, left, w⟩ ⟨.failed cause, left', w⟩

theorem SameSlot.after {r r' : Result κ} (h : SameSlot [] S r r') (P : List Token) :
    SameSlot P S (r.after P) (r'.after P) := by
  cases h with
  | value text text' v w => exact .value text text' v w
  | failure cause left left' w => exact .failure cause _ _ w

variable [Commands κ]

/-- A single token as an input, where no operator follows. -/
theorem evaluate_argument_plain (ht : t.isPlain = true) (hS : Clear S)
    (hw : w.isUnwinding = false) :
    evaluate (.argument (t :: S)) w = some (settledHead S (t.settle w)) := by
  rw [evaluate_argument_operand S ht hw]
  split
  · rename_i u w' hsettle
    rw [evaluate_chain_close [u] hS, hsettle]
    rfl
  · rename_i e w' hsettle
    rw [hsettle]
    rfl

/-- An input that is a run of operands and operators leaves the same value in its slot as the run in
parentheses, or fails with the same cause. -/
theorem sameSlot_evaluate (hR : Alternating Token.isPlain R) (hS : Clear S)
    (hw : w.isUnwinding = false) :
    ∃ r r', evaluate (.argument (R ++ S)) w = some r ∧
      evaluate (.argument (.expression R :: S)) w = some r' ∧ SameSlot [] S r r' := by
  have hplace := runEnds_argument hR hS hw
  have hplain : (Token.expression R).isPlain = true := plainChildren_of_alternating hR
  have hparens := evaluate_argument_plain hplain hS hw
  rw [Token.settle] at hparens
  -- both ways settle the operands of `R` alike, so that only the reduction is left to compare
  generalize evaluate (.argument (R ++ S)) w = place at hplace ⊢
  rcases hall : settleAll w R with ⟨cause | ts, w'⟩
  · rw [hall] at hplace hparens
    cases hplace with
    -- an operand failed, and the reduction was not reached
    | failed _ left => exact ⟨_, _, rfl, hparens, .failure cause left _ w'⟩
  · have hts := alternating_settleAll hR hall
    rw [hall] at hplace hparens
    dsimp only at hparens
    rw [settledValue_of_alternating _ hts] at hparens
    cases hplace with
    | reduced =>
      rw [List.nil_append]
      cases hvalue : (reduce ts).1 with
      | ok v =>
        obtain ⟨text, hclose⟩ := closeChain_of_ok (S := S) (w := w') hts hvalue
        rw [hvalue] at hparens
        exact ⟨_, _, congrArg some hclose, hparens, .value text v.render v w'⟩
      | error cause =>
        have hclose := closeChain_of_error (S := S) (w := w') hts hvalue
        rw [hvalue] at hparens
        exact ⟨_, _, congrArg some hclose, hparens, .failure cause S _ w'⟩

/-- What `evaluate` finds for a job is found from some bound on, at any position. -/
theorem exists_evaluateAt {job : List Token → Job κ} {tokens : List Token} {r : Result κ}
    (h : evaluate (job tokens) w = some r) (P : List Token) :
    ∃ bound, ∀ fuel, bound ≤ fuel →
      w.evaluateAt fuel job P.length (P ++ tokens) = some (r.after P) := by
  obtain ⟨bound, hbound⟩ := evaluate_eq_some_iff.1 h
  refine ⟨bound, fun fuel hfuel => ?_⟩
  rw [Workspace.evaluateAt, List.drop_left, List.take_left, eval_mono hfuel _ _ _ hbound]
  rfl

/-- **Parentheses around a whole run change nothing.** While no procedure is being left, a run of
operators whose operands are values, variables, lists or expressions without calls is evaluated as an
input, with any tokens before it and no operator behind it. Alone or in parentheses, evaluation ends,
and both come to the same value in the same place, or to the same error, and leave the same
workspace. -/
theorem infix_agrees_with_expression (w : Workspace κ) (hw : w.signal = none)
    (P R S : List Token) (hR : Alternating Token.isPlain R) (hS : Clear S) :
    ∃ bound, ∀ fuel, bound ≤ fuel → ∃ r r',
      w.evaluateAt fuel .argument P.length (P ++ R ++ S) = some r ∧
      w.evaluateAt fuel .argument P.length (P ++ .expression R :: S) = some r' ∧
      SameSlot P S r r' := by
  have hcalm : w.isUnwinding = false := by rw [Workspace.isUnwinding, hw, Option.isSome_none]
  obtain ⟨r, r', hplace, hparens, hsame⟩ := sameSlot_evaluate hR hS hcalm
  obtain ⟨n, hn⟩ := exists_evaluateAt hplace P
  obtain ⟨n', hn'⟩ := exists_evaluateAt hparens P
  refine ⟨max n n', fun fuel hfuel => ⟨r.after P, r'.after P, ?_, ?_, hsame.after P⟩⟩
  · rw [List.append_assoc]
    exact hn fuel (le_trans (le_max_left n n') hfuel)
  · exact hn' fuel (le_trans (le_max_right n n') hfuel)

end Agreement

/-- The run `:x + (2 * 3)`. -/
def sumWithProduct : List Token :=
  [.reference ":x", .operator .add, .expression [.literal "2" (.number ⟨2, 0⟩), .operator .multiply,
    .literal "3" (.number ⟨3, 0⟩)]]

/-- A variable that was never set, and an expression inside the run, between two words. -/
theorem infix_agrees_with_expression_nested :
    ({} : Workspace (Command Empty)).signal = none ∧
      Alternating Token.isPlain sumWithProduct ∧ Clear [.word "print"] ∧
      ∃ bound, ∀ fuel, bound ≤ fuel → ∃ r r',
        ({} : Workspace (Command Empty)).evaluateAt fuel .argument 1
          ([.word "print"] ++ sumWithProduct ++ [.word "print"]) = some r ∧
        ({} : Workspace (Command Empty)).evaluateAt fuel .argument 1
          ([.word "print"] ++ .expression sumWithProduct :: [.word "print"]) = some r' ∧
        SameSlot [.word "print"] [.word "print"] r r' := by
  have hrun : Alternating Token.isPlain sumWithProduct := .cons rfl .add (.single rfl)
  have hclear : Clear [.word "print"] := clear_cons rfl
  exact ⟨rfl, hrun, hclear,
    infix_agrees_with_expression {} rfl [.word "print"] sumWithProduct [.word "print"] hrun hclear⟩

end Logo
