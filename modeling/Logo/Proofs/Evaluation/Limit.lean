import Logo.Evaluation.Run
import Mathlib.Data.List.Basic

/-!
# Evaluation without a bound

`evaluate` does every job that ends, however deep jobs nest in it. It is the limit of `eval fuel`:
one step of evaluation asks for the results of finitely many jobs only (`Finitary`), so that a bound
for these is a bound for the step.

* `eval_mono`: a larger bound never changes a result.
* `evaluate_eq_some_iff`: `evaluate` has a result exactly if some bound is enough.
* `evaluate_eq`: `evaluate` does a job by one step whose jobs are again done by `evaluate`.
* `eval_induction`: what one step keeps, evaluation keeps.
-/

namespace Logo

variable {κ : Type} {α β : Type}

/-! ## Finitely many questions -/

/-- The evaluator gives the listed results. -/
def Evaluator.Answers (e : Evaluator κ) (asked : List (Job κ × Workspace κ × Result κ)) : Prop :=
  ∀ q ∈ asked, e q.1 q.2.1 = some q.2.2

/-- `e'` gives every result that `e` gives. -/
def Evaluator.Extends (e' e : Evaluator κ) : Prop :=
  ∀ job w r, e job w = some r → e' job w = some r

/-- A result of `F` rests on finitely many results of its evaluator. -/
def Finitary (F : Evaluator κ → Option α) : Prop :=
  ∀ e a, F e = some a → ∃ asked, e.Answers asked ∧ ∀ e', e'.Answers asked → F e' = some a

namespace Finitary

/-- What does not depend on the evaluator asks nothing. -/
theorem const (o : Option α) : Finitary fun _ : Evaluator κ => o := by
  intro e a h
  exact ⟨[], fun q hq => absurd hq List.not_mem_nil, fun e' _ => h⟩

/-- A job asks for itself. -/
theorem call (job : Job κ) (w : Workspace κ) : Finitary fun e => e job w := by
  intro e r h
  refine ⟨[(job, w, r)], fun q hq => ?_, fun e' he' => he' _ (List.mem_singleton_self _)⟩
  rw [List.mem_singleton.1 hq]
  exact h

/-- What comes first asks its own questions, and what follows asks those that belong to the
answer. -/
theorem bind {F : Evaluator κ → Option α} {G : Evaluator κ → α → Option β} (hF : Finitary F)
    (hG : ∀ a, Finitary fun e => G e a) : Finitary fun e => (F e).bind (G e) := by
  intro e b h
  obtain ⟨a, ha, hb⟩ := Option.bind_eq_some_iff.1 h
  obtain ⟨asked, hasked, hF'⟩ := hF e a ha
  obtain ⟨more, hmore, hG'⟩ := hG a e b hb
  -- both lists of questions together determine the answer
  refine ⟨asked ++ more, fun q hq => ?_, fun e' he' => ?_⟩
  · rcases List.mem_append.1 hq with hq | hq
    · exact hasked q hq
    · exact hmore q hq
  · simp only
    rw [hF' e' fun q hq => he' q (List.mem_append_left _ hq)]
    exact hG' e' fun q hq => he' q (List.mem_append_right _ hq)

theorem ite {c : Prop} [Decidable c] {F G : Evaluator κ → Option α} (hF : Finitary F)
    (hG : Finitary G) : Finitary fun e => if c then F e else G e := by
  by_cases hc : c
  · simpa only [if_pos hc] using hF
  · simpa only [if_neg hc] using hG

/-- An evaluator that knows more gives the same answers. -/
theorem mono {F : Evaluator κ → Option α} (hF : Finitary F) {e e' : Evaluator κ}
    (he : e'.Extends e) {a : α} (h : F e = some a) : F e' = some a := by
  obtain ⟨asked, hasked, hF'⟩ := hF e a h
  exact hF' e' fun q hq => he _ _ _ (hasked q hq)

end Finitary

/-! ## One step -/

/-- A sequence asks for a statement, and then for what follows it. -/
theorem finitary_stepSequence (lenient : Bool) (tokens : List Token) (w : Workspace κ) :
    Finitary fun e => stepSequence e lenient tokens w := by
  unfold stepSequence
  refine .ite (.const _) ?_
  cases tokens.dropWhile Token.isLiteral with
  | nil => exact .const _
  | cons token rest =>
    refine .bind (.call _ _) fun r => ?_
    cases r.outcome
    · exact .bind (.call _ _) fun _ => .const _
    · exact .const _
    · exact .const _

theorem finitary_operand (lenient : Bool) (tokens : List Token) (w : Workspace κ) :
    Finitary fun e => operand e lenient tokens w := by
  unfold operand
  split
  · exact .call _ _
  · exact .call _ _

theorem finitary_stepStatement (lenient : Bool) (tokens : List Token) (w : Workspace κ) :
    Finitary fun e => stepStatement e lenient tokens w := by
  unfold stepStatement
  split
  all_goals first | exact .const _ | exact .call _ _

theorem finitary_stepToken (lenient : Bool) (tokens : List Token) (w : Workspace κ) :
    Finitary fun e => stepToken e lenient tokens w := by
  unfold stepToken
  split
  all_goals first | exact .const _ | exact .call _ _

/-- The search for inputs asks for one after the other, as long as they are ready. -/
theorem finitary_gather (count : Nat) (tokens : List Token) (w : Workspace κ) :
    Finitary fun e => gather e count tokens w := by
  induction count generalizing tokens w with
  | zero => exact .const _
  | succ count ih =>
    refine .bind (.call _ _) fun r => ?_
    cases r.outcome
    · exact .ite (.const _) (.bind (ih _ _) fun _ => .const _)
    · exact .const _
    · exact .const _

/-- Calls ask for one procedure after the other. -/
theorem finitary_callAll (inputs : List Value) (procedures : List (Procedure κ))
    (produced : Option Token) (w : Workspace κ) :
    Finitary fun e => callAll e inputs procedures produced w := by
  induction procedures generalizing produced w with
  | nil => exact .const _
  | cons p rest ih =>
    refine .bind (.call _ _) fun r => ?_
    cases r.outcome
    · exact .ite (.const _) (ih _ _)
    · exact .const _
    · exact .const _

theorem finitary_callWord (operand : Bool) (token : Token) (first : Procedure κ)
    (others : List (Procedure κ)) (rest : List Token) (w : Workspace κ) :
    Finitary fun e => callWord e operand token first others rest w := by
  refine .bind (finitary_gather _ _ _) fun g => ?_
  cases g with
  | halted r => exact .const _
  | unwound rest w => exact .const _
  | ready slots rest w =>
    refine .bind (finitary_callAll _ _ _ _) fun r => ?_
    cases r.outcome <;> exact .const _

/-- A call asks for its inputs and its procedures. -/
theorem finitary_stepWord (lenient operand : Bool) (tokens : List Token) (w : Workspace κ) :
    Finitary fun e => stepWord e lenient operand tokens w := by
  unfold stepWord
  split
  · exact .const _
  refine .ite (.const _) (.ite (.const _) ?_)
  split
  · exact finitary_callWord _ _ _ _ _ _
  · exact .const _

theorem finitary_stepArgument (tokens : List Token) (w : Workspace κ) :
    Finitary fun e => stepArgument e tokens w := by
  unfold stepArgument
  split
  · exact .const _
  · exact .call _ _
  · exact .const _
  · refine .bind (finitary_operand _ _ _) fun r => ?_
    cases r.outcome
    · exact .ite (.const _) (.call _ _)
    · exact .const _
    · exact .const _

theorem finitary_stepChain (window rest : List Token) (w : Workspace κ) :
    Finitary fun e => stepChain e window rest w := by
  unfold stepChain
  split
  · split
    · exact .const _
    · exact .call _ _
    · exact .const _
    · refine .bind (finitary_operand _ _ _) fun r => ?_
      cases r.outcome
      · exact .ite (.const _) (.call _ _)
      · exact .const _
      · exact .const _
  · exact .const _

/-- An expression asks for its first operand that is not settled, and then for itself with that
operand settled. -/
theorem finitary_stepExpression (source : String) (children rest : List Token)
    (w : Workspace κ) : Finitary fun e => stepExpression e source children rest w := by
  unfold stepExpression
  split
  · exact .const _
  · refine .bind (finitary_operand _ _ _) fun r => ?_
    cases r.outcome
    · exact .ite (.const _) (.call _ _)
    · exact .const _
    · exact .const _

theorem finitary_runItems (items : List Token) (w : Workspace κ) :
    Finitary fun e => runItems e items w := by
  refine .bind (.call _ _) fun r => ?_
  cases r.outcome <;> exact .const _

theorem iterate_succ (e : Evaluator κ) (items : List Token) (times number : Nat)
    (w : Workspace κ) : iterate e items (times + 1) number w =
      (runItems e items (w.pushRepeat number)).bind fun r => match r.outcome with
        | .complete => if r.workspace.popRepeat.isUnwinding
          then some ⟨.complete, [], r.workspace.popRepeat⟩
          else iterate e items times (number + 1) r.workspace.popRepeat
        | outcome => some ⟨outcome, [], r.workspace.popRepeat⟩ := by
  rw [iterate]
  cases runItems e items (w.pushRepeat number) <;> rfl

/-- An iteration asks for one round after the other. -/
theorem finitary_iterate (items : List Token) (times number : Nat) (w : Workspace κ) :
    Finitary fun e => iterate e items times number w := by
  induction times generalizing number w with
  | zero => exact .const _
  | succ times ih =>
    simp only [iterate_succ]
    refine .bind (finitary_runItems _ _) fun r => ?_
    cases r.outcome
    · exact .ite (.const _) (ih _ _)
    · exact .const _
    · exact .const _

theorem finitary_carryOut (action : Action) (w : Workspace κ) :
    Finitary fun e => carryOut e action w := by
  cases action with
  | produce token => exact .const _
  | fail cause => exact .const _
  | run items => exact finitary_runItems _ _
  | iterate times items => exact finitary_iterate _ _ _ _

variable [Commands κ]

theorem finitary_stepInvoke (p : Procedure κ) (inputs : List Value) (w : Workspace κ) :
    Finitary fun e => stepInvoke e p inputs w := by
  unfold stepInvoke
  split
  · exact .bind (finitary_carryOut _ _) fun _ => .const _
  · exact .bind (.call _ _) fun _ => .const _

/-- **One step asks for finitely many results.** -/
theorem finitary_step (job : Job κ) (w : Workspace κ) : Finitary fun e => job.step e w := by
  cases job with
  | sequence lenient tokens => exact finitary_stepSequence _ _ _
  | statement lenient tokens => exact finitary_stepStatement _ _ _
  | token lenient tokens => exact finitary_stepToken _ _ _
  | word lenient operand tokens => exact finitary_stepWord _ _ _ _
  | argument tokens => exact finitary_stepArgument _ _
  | chain window rest => exact finitary_stepChain _ _ _
  | expression source children rest => exact finitary_stepExpression _ _ _ _
  | invoke p inputs => exact finitary_stepInvoke _ _ _

/-! ## Larger bounds -/

theorem eval_succ_extends (n : Nat) : (eval (n + 1) : Evaluator κ).Extends (eval n) := by
  induction n with
  | zero => intro job w r h; cases h
  | succ n ih => exact fun job w r h => (finitary_step job w).mono ih h

/-- **A larger bound never changes a result.** -/
theorem eval_mono {n m : Nat} (hnm : n ≤ m) : (eval m : Evaluator κ).Extends (eval n) := by
  induction m with
  | zero => rw [Nat.le_zero.1 hnm]; exact fun _ _ _ h => h
  | succ m ih =>
    rcases Nat.eq_or_lt_of_le hnm with rfl | hlt
    · exact fun _ _ _ h => h
    · exact fun job w r h => eval_succ_extends m job w r (ih (by omega) job w r h)

/-- Two bounds that are both enough give the same result. -/
theorem eval_unique {n m : Nat} {job : Job κ} {w : Workspace κ} {r r' : Result κ}
    (h : eval n job w = some r) (h' : eval m job w = some r') : r = r' := by
  have h1 := eval_mono (Nat.le_max_left n m) job w r h
  have h2 := eval_mono (Nat.le_max_right n m) job w r' h'
  exact Option.some.inj (h1.symm.trans h2)

/-- Finitely many results that some bound gives are all given by one bound. -/
theorem exists_eval_answers (asked : List (Job κ × Workspace κ × Result κ))
    (h : ∀ q ∈ asked, ∃ n, eval n q.1 q.2.1 = some q.2.2) : ∃ n, (eval n).Answers asked := by
  induction asked with
  | nil => exact ⟨0, fun q hq => absurd hq List.not_mem_nil⟩
  | cons q asked ih =>
    obtain ⟨hq, hasked⟩ := List.forall_mem_cons.1 h
    obtain ⟨n, hn⟩ := hq
    obtain ⟨m, hm⟩ := ih hasked
    refine ⟨max n m, List.forall_mem_cons.2 ⟨?_, fun q' hq' => ?_⟩⟩
    · exact eval_mono (Nat.le_max_left n m) _ _ _ hn
    · exact eval_mono (Nat.le_max_right n m) _ _ _ (hm q' hq')

/-! ## The limit -/

open Classical in
/-- Does a job, if it ends. -/
noncomputable def evaluate : Evaluator κ := fun job w =>
  if h : ∃ r n, eval n job w = some r then some h.choose else none

/-- **`evaluate` has a result exactly if some bound is enough for it.** -/
theorem evaluate_eq_some_iff {job : Job κ} {w : Workspace κ} {r : Result κ} :
    evaluate job w = some r ↔ ∃ n, eval n job w = some r := by
  unfold evaluate
  constructor
  · intro h
    split at h
    · rename_i hex
      cases h
      exact hex.choose_spec
    · cases h
  · rintro ⟨n, hn⟩
    have hex : ∃ r n, eval n job w = some r := ⟨r, n, hn⟩
    -- the chosen result may come from another bound, but there is only one result
    obtain ⟨m, hm⟩ := hex.choose_spec
    rw [dif_pos hex, eval_unique hm hn]

/-- Evaluation without a bound gives all results that there are with one. -/
theorem evaluate_extends (n : Nat) : (evaluate : Evaluator κ).Extends (eval n) :=
  fun _ _ _ h => evaluate_eq_some_iff.2 ⟨n, h⟩

/-- **`evaluate` does a job by one step**, whose jobs are done by `evaluate` again. -/
theorem evaluate_eq (job : Job κ) (w : Workspace κ) : evaluate job w = job.step evaluate w := by
  ext r
  rw [evaluate_eq_some_iff]
  constructor
  · rintro ⟨n, hn⟩
    cases n with
    | zero => cases hn
    | succ n => exact (finitary_step job w).mono (evaluate_extends n) hn
  · intro h
    -- the step rests on finitely many results, and one bound is enough for all of them
    obtain ⟨asked, hasked, hstep⟩ := finitary_step job w evaluate r h
    obtain ⟨n, hn⟩ := exists_eval_answers asked fun q hq => evaluate_eq_some_iff.1 (hasked q hq)
    exact ⟨n + 1, hstep _ hn⟩

/-- **What one step keeps, evaluation keeps.** The step may ask an evaluator that `evaluate` extends
and whose results have the property. -/
theorem eval_induction {P : Job κ → Workspace κ → Result κ → Prop}
    (step : ∀ e : Evaluator κ, (evaluate : Evaluator κ).Extends e →
      (∀ job w r, e job w = some r → P job w r) → ∀ job w r, job.step e w = some r → P job w r)
    {n : Nat} {job : Job κ} {w : Workspace κ} {r : Result κ} (h : eval n job w = some r) :
    P job w r := by
  induction n generalizing job w r with
  | zero => cases h
  | succ n ih => exact step (eval n) (evaluate_extends n) (fun _ _ _ h => ih h) job w r h

end Logo
