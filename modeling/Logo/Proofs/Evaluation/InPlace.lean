import Logo.Evaluation.InPlace
import Logo.Proofs.Evaluation.Range
import Logo.Session
import Mathlib.Data.List.TakeWhile

/-!
# What stands before a position

Evaluation in place looks at tokens by their positions in the whole sequence, and takes out and puts
in tokens there. It does the same as evaluation of the rest from the position on, with what stands
before it left alone (`Editor.Agrees`): all positions that a task looks at lie behind its own, and
all offsets are counted from there.

* `Editor.Agrees.step`: one step keeps this, with one lemma for each kind of task.
* `agrees_edit`: so editing in place agrees with evaluation, within every bound.
* `front_neither_seen_nor_touched`: what stands before a position has no part in what is done there.
-/

namespace Logo

namespace InPlace

variable {κ : Type}

/-! ## Positions -/

theorem getElem?_front (P R : List Token) : (P ++ R)[P.length]? = R.head? := by
  rw [List.getElem?_append_right (Nat.le_refl _), Nat.sub_self, List.head?_eq_getElem?]

theorem splice_front (P W R new : List Token) :
    splice (P ++ (W ++ R)) P.length W.length new = P ++ (new ++ R) := by
  rw [splice, List.take_left, ← List.drop_drop, List.drop_left, List.drop_left, List.append_assoc]

theorem splice_token (P : List Token) (t : Token) (R new : List Token) :
    splice (P ++ t :: R) P.length 1 new = P ++ (new ++ R) :=
  splice_front P [t] R new

/-- The place behind a token. -/
theorem length_behind (P : List Token) (t : Token) : P.length + 1 = (P ++ [t]).length := by
  rw [List.length_append, List.length_singleton]

theorem slice_front (P W R : List Token) : slice (P ++ (W ++ R)) P.length W.length = W := by
  rw [slice, List.drop_left, List.take_left]

/-- The token behind a run. -/
theorem getElem?_run (P W R : List Token) :
    (P ++ (W ++ R))[P.length + W.length]? = R.head? := by
  rw [← List.append_assoc, ← List.length_append, getElem?_front]

/-- The token behind the operator that follows a run. -/
theorem getElem?_run_succ (P W : List Token) (t : Token) (R : List Token) :
    (P ++ (W ++ t :: R))[P.length + W.length + 1]? = R.head? := by
  rw [List.append_cons, Nat.add_assoc, length_behind W t, getElem?_run]

/-- The first token without a property stands behind those that have it. -/
theorem findIdx?_not (p : Token → Bool) (tokens : List Token) :
    tokens.findIdx? (!p ·) =
      if tokens.dropWhile p = [] then none else some (tokens.takeWhile p).length := by
  induction tokens with
  | nil => rfl
  | cons t rest ih =>
    rw [List.findIdx?_cons, List.dropWhile_cons, List.takeWhile_cons]
    cases p t with
    | true =>
      simp only [Bool.not_true, Bool.false_eq_true, if_false, if_true, ih]
      split <;> rfl
    | false => simp

/-- The places of inputs that were found on the rest of a sequence behind the tokens `P`. -/
def filled (P : List Token) : Gathered κ → Filled κ
  | .ready slots rest w => .ready (P ++ (slots ++ rest)) w
  | .unwound tokens w => .unwound (P ++ tokens) w
  | .halted r => .halted (r.after P)

/-- A filled slot belongs to the front of the slots that follow it. -/
theorem filled_push (P slot : List Token) (g : Gathered κ) :
    filled P (g.push slot) = filled (P ++ slot) g := by
  cases g with
  | ready slots rest w => simp only [Gathered.push, filled, List.append_assoc]
  | unwound tokens w => simp only [Gathered.push, filled, List.append_assoc]
  | halted r => simp only [Gathered.push, filled, Result.after_append]

/-- A run of values is replaced where it stands, and the front stays. -/
theorem closeChain_front (P window R : List Token) (w : Workspace κ) :
    closeChain P.length window.length (P ++ (window ++ R)) w =
      (Logo.closeChain window R w).after P := by
  unfold closeChain Logo.closeChain
  simp only [slice_front, splice_front]
  split
  · rfl
  · cases (reduce window).1 <;> rfl

/-- The value of an expression takes its place, and the front stays. -/
theorem closeExpression_front (source : String) (children P R : List Token) (w : Workspace κ) :
    closeExpression source children P.length (P ++ .expression [] :: R) w =
      (Logo.closeExpression source children R w).after P := by
  unfold closeExpression Logo.closeExpression
  simp only [splice_token]
  split
  · rfl
  · cases (reduce children).1 <;> rfl

/-! ## Agreement -/

/-- Editing in place does the same as evaluating the rest, with the tokens `P` in front. -/
structure Editor.Agrees (edit : Editor κ) (e : Evaluator κ) : Prop where
  sequence : ∀ lenient tokens w, edit (.sequence lenient) tokens w = e (.sequence lenient tokens) w
  statement : ∀ lenient P R w, edit (.statement lenient P.length) (P ++ R) w =
    (e (.statement lenient R) w).map (·.after P)
  token : ∀ lenient P R w, edit (.token lenient P.length) (P ++ R) w =
    (e (.token lenient R) w).map (·.after P)
  word : ∀ lenient operand P R w, edit (.word lenient operand P.length) (P ++ R) w =
    (e (.word lenient operand R) w).map (·.after P)
  argument : ∀ P R w, edit (.argument P.length) (P ++ R) w =
    (e (.argument R) w).map (·.after P)
  chain : ∀ P window R w, edit (.chain P.length window.length) (P ++ (window ++ R)) w =
    (e (.chain window R) w).map (·.after P)
  expression : ∀ source children P R w,
    edit (.expression source children P.length) (P ++ .expression [] :: R) w =
      (e (.expression source children R) w).map (·.after P)
  invoke : ∀ p inputs tokens w, edit (.invoke p inputs) tokens w = e (.invoke p inputs) w

section Step

variable {edit : Editor κ} {e : Evaluator κ} (h : edit.Agrees e)

include h

/-- Jobs that begin a sequence of their own have nothing in front, so that the editor does them like
the evaluator. -/
theorem Editor.Agrees.evaluator_eq : edit.evaluator = e := by
  have hfront (x : Option (Result κ)) : x.map (·.after []) = x := Option.map_id'
  funext job w
  cases job with
  | sequence lenient tokens => exact h.sequence lenient tokens w
  | statement lenient tokens => exact (h.statement lenient [] tokens w).trans (hfront _)
  | token lenient tokens => exact (h.token lenient [] tokens w).trans (hfront _)
  | word lenient operand tokens => exact (h.word lenient operand [] tokens w).trans (hfront _)
  | argument tokens => exact (h.argument [] tokens w).trans (hfront _)
  | chain window rest => exact (h.chain [] window rest w).trans (hfront _)
  | expression source children rest =>
    exact (h.expression source children [] rest w).trans (hfront _)
  | invoke p inputs => exact h.invoke p inputs [] w

/-- A statement looks at the token at its position, and hands on the position. -/
theorem stepStatement_front (lenient : Bool) (P R : List Token) (w : Workspace κ) :
    stepStatement edit lenient P.length (P ++ R) w =
      (Logo.stepStatement e lenient R w).map (·.after P) := by
  unfold stepStatement
  rw [getElem?_front]
  cases R with
  | nil => rfl
  | cons t rest =>
    cases t with
    | comment text =>
      simp only [List.head?_cons, splice_token]
      rfl
    | list children => rfl
    | expression children => rfl
    | operator op => rfl
    | literal text v => exact h.token lenient P _ w
    | word text => exact h.token lenient P _ w
    | reference text => exact h.token lenient P _ w

/-- A token is replaced by its value where it stands, or its position is handed on. -/
theorem stepToken_front (lenient : Bool) (P R : List Token) (w : Workspace κ) :
    stepToken edit lenient P.length (P ++ R) w =
      (Logo.stepToken e lenient R w).map (·.after P) := by
  unfold stepToken
  rw [getElem?_front]
  cases R with
  | nil => rfl
  | cons t rest =>
    simp only [List.head?_cons, splice_token]
    cases t with
    | word text => exact h.word lenient false P _ w
    | expression children => exact h.expression _ children P rest w
    | list children => rfl
    | reference text => rfl
    | comment text => rfl
    | literal text v => rfl
    | operator op => rfl

/-- An operand is evaluated at its own position, behind whatever stands there. -/
theorem operand_front (lenient : Bool) (P R : List Token) (w : Workspace κ) :
    operand edit lenient P.length (P ++ R) w = (Logo.operand e lenient R w).map (·.after P) := by
  unfold operand
  rw [getElem?_front]
  cases R with
  | nil => exact h.token lenient P _ w
  | cons t rest =>
    cases t with
    | word text => exact h.word lenient true P _ w
    | _ => exact h.token lenient P _ w

/-! ## Calls -/

section Calls

variable (he : ∀ job w r, e job w = some r → job.Shaped w r)

include he

/-- **The inputs of a call are found in their places.** Each of them is one value when the next one
is looked for, so that its place is one further. -/
theorem fill_front (count : Nat) (P R : List Token) (w : Workspace κ) :
    fill edit count P.length (P ++ R) w = (gather e count R w).map (filled P) := by
  induction count generalizing P R w with
  | zero => rfl
  | succ count ih =>
    rw [fill, h.argument P R w]
    cases hr : e (.argument R) w with
    | none => rw [gather, hr]; rfl
    | some r =>
      obtain ⟨outcome, tokens, w1⟩ := r
      cases outcome with
      | incomplete => rw [gather, hr]; rfl
      | failed cause => rw [gather, hr]; rfl
      | complete =>
        simp only [Option.map_some, Option.bind_eq_bind, Option.bind_some, Result.after]
        cases hw : w1.isUnwinding with
        | true => rw [gather_of_unwinding hr rfl hw]; rfl
        | false =>
          -- the input is one value now, which the front takes in before the next one
          obtain ⟨-, hvalue, -⟩ := he _ _ _ hr
          obtain ⟨text, v, rest, rfl⟩ := hvalue rfl hw
          rw [gather_of_value hr rfl hw rfl, Option.map_map]
          change fill edit count (P.length + 1) (P ++ .literal text v :: rest) w1 = _
          rw [List.append_cons, length_behind P (.literal text v), ih]
          exact congrArg (Option.map · _) (funext fun g => (filled_push P _ g).symm)

/-- **A call does the same in place.** -/
theorem callWord_front (operand : Bool) (first : Procedure κ) (others : List (Procedure κ))
    (P : List Token) (t : Token) (R : List Token) (w : Workspace κ) :
    callWord edit operand P.length first others (P ++ t :: R) w =
      (Logo.callWord e operand t first others R w).map (·.after P) := by
  have hfill : fill edit first.inputs (P.length + 1) (P ++ t :: R) w =
      (gather e first.inputs R w).map (filled (P ++ [t])) := by
    rw [List.append_cons, length_behind P t, fill_front h he]
  unfold callWord Logo.callWord
  rw [hfill, h.evaluator_eq]
  cases hgather : gather e first.inputs R w with
  | none => rfl
  | some g =>
    simp only [Option.map_some, Option.bind_eq_bind, Option.bind_some]
    cases g with
    | halted r => exact congrArg some (Result.after_append P [t] r)
    | unwound tokens w' =>
      simp only [filled, List.append_assoc, List.singleton_append, splice_token]
      rfl
    | ready slots rest w' =>
      -- as many values as the call takes stand between the word and the rest
      obtain ⟨hlength, -⟩ := gather_ready he hgather
      have hslots : slice (P ++ t :: (slots ++ rest)) (P.length + 1) first.inputs = slots := by
        rw [List.append_cons, length_behind P t, ← hlength, slice_front]
      have hrest : splice (P ++ t :: (slots ++ rest)) (P.length + 1) first.inputs [] =
          P ++ t :: rest := by
        rw [List.append_cons, length_behind P t, ← hlength, splice_front, List.nil_append,
          ← List.append_cons]
      simp only [filled, List.append_assoc, List.singleton_append, hslots, hrest, splice_token]
      cases callAll e (slots.filterMap Token.value?) (first :: others) none w' with
      | none => rfl
      | some r =>
        simp only [Option.bind_some]
        cases r.outcome <;> rfl

/-- A word is replaced where it stands: by a truth value, by what its call produces, or by itself as
text. Its inputs are looked for behind it. -/
theorem stepWord_front (lenient operand : Bool) (P R : List Token) (w : Workspace κ) :
    stepWord edit lenient operand P.length (P ++ R) w =
      (Logo.stepWord e lenient operand R w).map (·.after P) := by
  unfold stepWord Logo.stepWord
  rw [getElem?_front]
  cases R with
  | nil => rfl
  | cons t rest =>
    simp only [List.head?_cons, splice_token]
    split
    · rfl
    split
    · rfl
    cases w.lookup t.text with
    | cons first others => exact callWord_front h he operand first others P t rest w
    | nil => cases lenient <;> rfl

end Calls

/-! ## Operands and operators -/

/-- The work behind an operand does the same in place, if the next task does. The operand stands
behind the tokens `done` of its run. -/
theorem throughOperand_front {task : Task κ} {next : List Token → Job κ} (lenient : Bool)
    (P done R : List Token) (w : Workspace κ)
    (hnext : ∀ tokens w, edit task (P ++ (done ++ tokens)) w =
      (e (next tokens) w).map (·.after P)) :
    throughOperand edit lenient (P ++ done).length task (P ++ (done ++ R)) w =
      (Logo.throughOperand e lenient done next R w).map (·.after P) := by
  unfold throughOperand
  rw [← List.append_assoc, operand_front h]
  cases hr : Logo.operand e lenient R w with
  | none => rw [Logo.throughOperand, hr]; rfl
  | some r =>
    have hafter : r.after (P ++ done) = (r.after done).after P := Result.after_append P done r
    obtain ⟨outcome, tokens, w1⟩ := r
    simp only [Option.map_some, Option.bind_eq_bind, Option.bind_some, hafter]
    cases outcome with
    | incomplete => rw [Logo.throughOperand, hr]; rfl
    | failed cause => rw [Logo.throughOperand, hr]; rfl
    | complete =>
      cases hw : w1.isUnwinding with
      | true =>
        rw [throughOperand_of_unwinding hr rfl hw]
        exact if_pos hw
      | false =>
        -- the operand is done, and the task goes on at the position where it began
        rw [throughOperand_of_complete hr rfl hw]
        exact (if_neg (by simp [Result.after, hw])).trans (hnext tokens w1)

/-- An input is a run of values that begins at its position. -/
theorem stepArgument_front (P R : List Token) (w : Workspace κ) :
    stepArgument edit P.length (P ++ R) w = (Logo.stepArgument e R w).map (·.after P) := by
  unfold stepArgument
  rw [getElem?_front]
  cases R with
  | nil => rfl
  | cons t rest =>
    have hoperand : throughOperand edit true P.length (.argument P.length) (P ++ t :: rest) w =
        (Logo.throughOperand e true [] .argument (t :: rest) w).map (·.after P) := by
      -- nothing of the input was passed over yet
      have hfront := throughOperand_front h true P [] (t :: rest) w (fun R w => h.argument P R w)
      rw [List.append_nil] at hfront
      exact hfront
    cases t with
    | literal text v => exact h.chain P [.literal text v] rest w
    | operator op => rfl
    | _ => exact hoperand

/-- The operand behind an operator stands behind the front, the run of values and the operator. -/
theorem throughOperand_chain_front (P window : List Token) (op : Operator) (R : List Token)
    (w : Workspace κ) :
    throughOperand edit false (P.length + window.length + 1) (.chain P.length window.length)
        (P ++ (window ++ .operator op :: R)) w =
      (Logo.throughOperand e false (window ++ [.operator op])
        (fun tokens => .chain window (.operator op :: tokens)) R w).map (·.after P) := by
  rw [List.append_cons window, Nat.add_assoc, length_behind window (.operator op),
    ← List.length_append]
  refine throughOperand_front h false P _ R w fun tokens w => ?_
  rw [← List.append_cons]
  exact h.chain P window _ w

/-- **A run of operators grows in its place.** The operator is looked for behind the run and the
operand behind the operator, however many tokens stand before the run. -/
theorem stepChain_front (P window R : List Token) (w : Workspace κ) :
    stepChain edit P.length window.length (P ++ (window ++ R)) w =
      (Logo.stepChain e window R w).map (·.after P) := by
  have hclose : some (closeChain P.length window.length (P ++ (window ++ R)) w) =
      (some (Logo.closeChain window R w)).map (·.after P) :=
    congrArg some (closeChain_front P window R w)
  unfold stepChain
  rw [getElem?_run]
  cases R with
  | nil => exact hclose
  | cons t rest =>
    cases t with
    | operator op =>
      simp only [List.head?_cons, getElem?_run_succ]
      cases rest with
      | nil => rfl
      | cons t rest =>
        cases t with
        | literal text v =>
          -- the run takes in the operator and the value
          have hchain := h.chain P (window ++ [.operator op, .literal text v]) rest w
          rw [List.length_append, List.append_assoc] at hchain
          exact hchain
        | operator op' => rfl
        | _ => exact throughOperand_chain_front h P window op _ w
    | _ => exact hclose

/-! ## Expressions and sequences -/

/-- The children of an expression are a sequence of their own, of which those that are settled stand
in front. -/
theorem stepExpression_front (source : String) (children P R : List Token) (w : Workspace κ) :
    stepExpression edit source children P.length (P ++ .expression [] :: R) w =
      (Logo.stepExpression e source children R w).map (·.after P) := by
  unfold stepExpression Logo.stepExpression
  rw [findIdx?_not]
  cases hdrop : children.dropWhile isSettled with
  | nil => exact congrArg some (closeExpression_front source children P R w)
  | cons child more =>
    -- the children are a sequence of their own, whose front are the values that are settled already
    have hoperand := operand_front h false (children.takeWhile isSettled) (child :: more) w
    rw [← hdrop, List.takeWhile_append_dropWhile, hdrop] at hoperand
    simp only [List.cons_ne_nil, if_false]
    rw [hoperand]
    cases Logo.operand e false (child :: more) w with
    | none => rfl
    | some r =>
      obtain ⟨outcome, tokens, w1⟩ := r
      simp only [Option.map_some, Option.bind_eq_bind, Option.bind_some, Result.after]
      cases outcome with
      -- what waits is named by the child that was evaluated, not by those before it
      | incomplete => rw [List.drop_left]; rfl
      | failed cause => rfl
      | complete =>
        cases w1.isUnwinding with
        | true => rfl
        | false => exact h.expression source _ P R w1

/-- A sequence passes over the values at its head. The editor begins at the first token again after
each statement, and the evaluator goes on where it stopped; both come to the same place. -/
theorem stepSequence_front (hvalues : ∀ lenient values tokens w,
      (∀ t ∈ values, t.isLiteral = true) →
      e (.sequence lenient (values ++ tokens)) w =
        (e (.sequence lenient tokens) w).map (·.after values))
    (lenient : Bool) (tokens : List Token) (w : Workspace κ) :
    stepSequence edit lenient tokens w = Logo.stepSequence e lenient tokens w := by
  unfold stepSequence Logo.stepSequence
  rw [findIdx?_not]
  split
  · rfl
  cases hdrop : tokens.dropWhile Token.isLiteral with
  | nil => rfl
  | cons t rest =>
    have hstatement := h.statement lenient (tokens.takeWhile Token.isLiteral) (t :: rest) w
    rw [← hdrop, List.takeWhile_append_dropWhile, hdrop] at hstatement
    simp only [List.cons_ne_nil, if_false]
    rw [hstatement]
    cases e (.statement lenient (t :: rest)) w with
    | none => rfl
    | some r =>
      obtain ⟨outcome, left, w1⟩ := r
      cases outcome with
      | incomplete => rfl
      | failed cause => rfl
      | complete =>
        -- the whole sequence is gone through again, and the values at its head are passed over
        refine (h.sequence lenient _ w1).trans ?_
        refine (hvalues lenient _ left w1 fun t ht => List.mem_takeWhile_imp ht).trans ?_
        exact Option.map_eq_bind

/-- **One step keeps the agreement.** The evaluator finds inputs that are values, and leaves the
values at the head of a sequence where they are. -/
theorem Editor.Agrees.step [Commands κ] (he : ∀ job w r, e job w = some r → job.Shaped w r)
    (hvalues : ∀ lenient values tokens w, (∀ t ∈ values, t.isLiteral = true) →
      e (.sequence lenient (values ++ tokens)) w =
        (e (.sequence lenient tokens) w).map (·.after values)) :
    Editor.Agrees (Task.step edit) (Job.step e) where
  sequence := stepSequence_front h hvalues
  statement := stepStatement_front h
  token := stepToken_front h
  word := stepWord_front h he
  argument := stepArgument_front h
  chain := stepChain_front h
  expression := stepExpression_front h
  invoke p inputs _ w := congrArg (stepInvoke · p inputs w) h.evaluator_eq

end Step

/-! ## Every bound -/

variable [Commands κ]

/-- Values at the head of a sequence stay there, within every bound. -/
theorem eval_sequence_values (fuel : Nat) (lenient : Bool) (values tokens : List Token)
    (w : Workspace κ) (hvalues : ∀ t ∈ values, t.isLiteral = true) :
    eval fuel (.sequence lenient (values ++ tokens)) w =
      (eval fuel (.sequence lenient tokens) w).map (·.after values) := by
  cases fuel with
  | zero => rfl
  | succ fuel => exact stepSequence_values (eval fuel) lenient hvalues

/-- **Editing in place agrees with evaluation.** -/
theorem agrees_edit (fuel : Nat) : (edit fuel : Editor κ).Agrees (eval fuel) := by
  induction fuel with
  | zero => constructor <;> intros <;> rfl
  | succ fuel ih =>
    exact ih.step (shaped_of_extends (evaluate_extends fuel)) (eval_sequence_values fuel)

end InPlace

/-! ## Entries at a position -/

variable {κ : Type} [Commands κ] (w : Workspace κ) (fuel : Nat)

theorem Workspace.evaluateAt_front (job : List Token → Job κ) (P R : List Token) :
    w.evaluateAt fuel job P.length (P ++ R) = (eval fuel (job R) w).map (·.after P) := by
  rw [evaluateAt, List.drop_left, List.take_left]

/-- From the front on, the position is 0. -/
theorem Workspace.evaluateAt_eq_after (job : List Token → Job κ) (P R : List Token) :
    w.evaluateAt fuel job P.length (P ++ R) = (w.evaluateAt fuel job 0 R).map (·.after P) := by
  have hzero : w.evaluateAt fuel job 0 R = (eval fuel (job R) w).map (·.after []) :=
    w.evaluateAt_front fuel job [] R
  rw [w.evaluateAt_front, hzero, Option.map_map]
  rfl

/-- An expression at a position is reduced as it is at the head of the rest. -/
theorem Workspace.reduceAt_eq_after (P R : List Token) :
    w.reduceAt fuel P.length (P ++ R) = (w.reduceAt fuel 0 R).map (·.after P) := by
  unfold reduceAt
  rw [List.drop_left, List.drop_zero]
  cases R with
  | nil => rfl
  | cons t rest =>
    cases t with
    | expression children => exact w.evaluateAt_eq_after fuel _ P _
    | _ => rfl

/-- **On the rest of a sequence the front has no part.** -/
theorem Workspace.enterAt_eq_after (entry : EntryPoint) (P R : List Token) :
    w.enterAt fuel entry P.length (P ++ R) = (w.enterAt fuel entry 0 R).map (·.after P) := by
  cases entry with
  | statement lenient => exact w.evaluateAt_eq_after fuel _ P R
  | token lenient => exact w.evaluateAt_eq_after fuel _ P R
  | word lenient => exact w.evaluateAt_eq_after fuel _ P R
  | expression => exact w.reduceAt_eq_after fuel P R

/-- **In place the same is done as on the rest.** -/
theorem Workspace.enterInPlace_eq (entry : EntryPoint) (P R : List Token) :
    w.enterInPlace fuel entry P.length (P ++ R) = w.enterAt fuel entry P.length (P ++ R) := by
  have hagrees := InPlace.agrees_edit (κ := κ) fuel
  have hfront := fun job => (w.evaluateAt_front fuel job P R).symm
  cases entry with
  | statement lenient => exact (hagrees.statement lenient P R w).trans (hfront _)
  | token lenient => exact (hagrees.token lenient P R w).trans (hfront _)
  | word lenient => exact (hagrees.word lenient false P R w).trans (hfront _)
  | expression =>
    change w.reduceInPlace fuel P.length (P ++ R) = w.reduceAt fuel P.length (P ++ R)
    unfold reduceInPlace reduceAt
    rw [InPlace.getElem?_front, List.drop_left]
    cases R with
    | nil => rfl
    | cons t rest =>
      cases t with
      | expression children => exact (hagrees.token false P _ w).trans (hfront _)
      | _ => rfl

/-- **What stands before a position is neither seen nor touched.** A statement, a token, a word or
an expression at a position of a sequence is evaluated in place as it is on the rest alone. Another
front makes no difference to the outcome, to the workspace and to what is left behind the front, and
the tokens between the front and the position stay as they are. So values that earlier statements
left have no part in a later one. -/
theorem front_neither_seen_nor_touched :
    (∀ (entry : EntryPoint) (P P' R : List Token) (i : Nat), i < R.length →
      w.enterInPlace fuel entry (P.length + i) (P ++ R) =
        w.enterAt fuel entry (P.length + i) (P ++ R) ∧
      ∀ r, w.enterInPlace fuel entry (P.length + i) (P ++ R) = some r →
        ∃ R1, r.tokens = P ++ R1 ∧ R1.take i = R.take i ∧
          w.enterInPlace fuel entry (P'.length + i) (P' ++ R) =
            some { r with tokens := P' ++ R1 }) ∧
    (∀ lenient tokens,
      InPlace.edit fuel (.sequence lenient) tokens w = w.execute fuel lenient tokens) ∧
    ∀ (lenient : Bool) (values tokens : List Token), (∀ t ∈ values, t.isLiteral = true) →
      InPlace.edit fuel (.sequence lenient) (values ++ tokens) w =
        (InPlace.edit fuel (.sequence lenient) tokens w).map (·.after values) := by
  have hsequence := (InPlace.agrees_edit (κ := κ) fuel).sequence
  refine ⟨fun entry P P' R i hi => ?_, fun lenient tokens => hsequence lenient tokens w,
    fun lenient values tokens hvalues => ?_⟩
  · -- the position is the end of the front `P` with the first `i` tokens of `R`
    have hfront (P : List Token) : P ++ R = (P ++ R.take i) ++ R.drop i := by
      rw [List.append_assoc, List.take_append_drop]
    have hlength (P : List Token) : P.length + i = (P ++ R.take i).length := by
      rw [List.length_append, List.length_take_of_le hi.le]
    have hplace (P : List Token) : w.enterInPlace fuel entry (P.length + i) (P ++ R) =
        (w.enterAt fuel entry 0 (R.drop i)).map (·.after (P ++ R.take i)) := by
      rw [hfront, hlength, w.enterInPlace_eq, w.enterAt_eq_after]
    refine ⟨by rw [hfront, hlength, w.enterInPlace_eq], fun r hr => ?_⟩
    rw [hplace] at hr
    obtain ⟨r0, hr0, rfl⟩ := Option.map_eq_some_iff.1 hr
    refine ⟨R.take i ++ r0.tokens, List.append_assoc _ _ _, ?_, ?_⟩
    · exact List.take_left' (List.length_take_of_le hi.le)
    · rw [hplace, hr0, ← List.append_assoc]
      rfl
  · rw [hsequence, hsequence]
    exact InPlace.eval_sequence_values fuel lenient values tokens w hvalues

/-- The value five, and a statement with a run of operators behind it. -/
def fivePrintSum : List Token :=
  [.literal "5" (.number ⟨5, 0⟩), .word "print", .literal "1" (.number ⟨1, 0⟩), .operator .add,
    .literal "2" (.number ⟨2, 0⟩), .word "print"]

/-- The statement behind a word and a comment, and behind the value alone. -/
theorem front_neither_seen_nor_touched_sum :
    let w : Workspace (Command Empty) := .withPrimitives .silent
    let P : List Token := [.word "repeat", .comment ";"]
    1 < fivePrintSum.length ∧
    (∃ r R1, w.enterInPlace 20 (.statement false) 3 (P ++ fivePrintSum) = some r ∧
      r.workspace.output = #["3"] ∧ r.tokens = P ++ R1 ∧ R1.take 1 = fivePrintSum.take 1 ∧
      w.enterInPlace 20 (.statement false) 1 fivePrintSum = some { r with tokens := R1 }) ∧
    (∀ t ∈ fivePrintSum.take 1, t.isLiteral = true) ∧
    InPlace.edit 20 (.sequence false) fivePrintSum w =
      (InPlace.edit 20 (.sequence false) (fivePrintSum.drop 1) w).map
        (·.after (fivePrintSum.take 1)) := by
  intro w P
  have hlength : 1 < fivePrintSum.length := by decide
  have hvalue : ∀ t ∈ fivePrintSum.take 1, t.isLiteral = true := List.forall_mem_singleton.2 rfl
  have hrun : (w.enterInPlace 20 (.statement false) 3 (P ++ fivePrintSum)).any
      (fun r => r.workspace.output = #["3"]) := by
    decide +kernel
  obtain ⟨r, hr, houtput⟩ := (Option.any_eq_true _ _).1 hrun
  obtain ⟨hentries, -, hvalues⟩ := front_neither_seen_nor_touched w 20
  obtain ⟨R1, htokens, htake, hother⟩ :=
    (hentries (.statement false) P [] fivePrintSum 1 hlength).2 r hr
  exact ⟨hlength, ⟨r, R1, hr, of_decide_eq_true houtput, htokens, htake, hother⟩, hvalue,
    hvalues false (fivePrintSum.take 1) (fivePrintSum.drop 1) hvalue⟩

end Logo
