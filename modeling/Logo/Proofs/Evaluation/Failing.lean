import Logo.Proofs.Evaluation.Asking

/-!
# Where failures come from

A job fails because a job that it asks for does, with the same cause, or by itself. `Job.Raises`
lists the causes of a job's own.

* `Job.step_failed`: there are no others.
-/

namespace Logo

variable {κ : Type} [Commands κ]

/-- The causes with which a job fails by itself. -/
inductive Job.Raises (e : Evaluator κ) : Job κ → Workspace κ → RuntimeError → Prop where
  | bare {lenient t rest w} :
    Raises e (.statement lenient (t :: rest)) w (.bareContainer t.text)
  | statementOperator {lenient op rest w} :
    Raises e (.statement lenient (.operator op :: rest)) w (.missingOperand op.text)
  | undefined {lenient operand t rest w} (h : w.lookup t.text = []) :
    Raises e (.word lenient operand (t :: rest)) w (.undefinedProcedure t.text)
  | argumentOperator {op rest w} :
    Raises e (.argument (.operator op :: rest)) w (.missingOperand op.text)
  | chainOperator {window op rest w} :
    Raises e (.chain window (.operator op :: rest)) w (.missingOperand op.text)
  | chainReduction {window rest w cause} (h : (reduce window).1 = .error cause) :
    Raises e (.chain window rest) w cause
  | empty {source rest w} : Raises e (.expression source [] rest) w (.malformedExpression source)
  | reduction {source children rest w cause} (h : (reduce children).1 = .error cause) :
    Raises e (.expression source children rest) w cause
  | operand {source children t more rest w r} (hchildren : children.dropWhile isSettled = t :: more)
    (hr : e (operandJob false (t :: more)) w = some r) (hwaits : r.outcome = .incomplete) :
    Raises e (.expression source children rest) w (.notEnoughInputs (pendingWord r.tokens))
  | statements {p inputs w items w' r}
    (hask : (Job.invoke p inputs).Asks e w (.sequence false items) w')
    (hr : e (.sequence false items) w' = some r) (hwaits : r.outcome = .incomplete) :
    Raises e (.invoke p inputs) w (.notEnoughInputs (pendingWord r.tokens))
  | command {p inputs w code w' cause} (hp : p.kind = .command code)
    (h : Commands.perform code (w.pushFrame none) inputs = (w', .fail cause)) :
    Raises e (.invoke p inputs) w cause

/-- A job fails through a job that it asks for, or by itself. -/
def Job.FailsBy (e : Evaluator κ) (job : Job κ) (w : Workspace κ) (cause : RuntimeError) : Prop :=
  (∃ job' w' r, job.Asks e w job' w' ∧ e job' w' = some r ∧ r.outcome = .failed cause) ∨
    job.Raises e w cause

section Step

variable {e : Evaluator κ} {w : Workspace κ} {r : Result κ} {cause : RuntimeError}

/-- A sequence fails by a statement, or by what follows the statement. -/
theorem failsBy_stepSequence {lenient : Bool} {tokens : List Token}
    (h : stepSequence e lenient tokens w = some r) (hr : r.outcome = .failed cause) :
    Job.FailsBy e (.sequence lenient tokens) w cause := by
  unfold stepSequence at h
  split at h
  · cases h; cases hr
  rename_i hw
  split at h
  · cases h; cases hr
  rename_i htokens
  have hw : w.isUnwinding = false := by simpa using hw
  obtain ⟨r1, h1, h⟩ := Option.bind_eq_some_iff.1 h
  split at h
  · rename_i hcomplete
    obtain ⟨r2, h2, h⟩ := Option.bind_eq_some_iff.1 h
    cases h
    exact Or.inl ⟨_, _, _, .statements hw htokens h1 hcomplete, h2, hr⟩
  · cases h
    exact Or.inl ⟨_, _, _, .statement hw htokens, h1, hr⟩

/-- A statement that begins with a container or an operator fails by itself. -/
theorem failsBy_stepStatement {lenient : Bool} {tokens : List Token}
    (h : stepStatement e lenient tokens w = some r) (hr : r.outcome = .failed cause) :
    Job.FailsBy e (.statement lenient tokens) w cause := by
  rcases tokens with _ | ⟨t, rest⟩
  · cases h; cases hr
  cases t
  case comment => cases h; cases hr
  case list => cases h; cases hr; exact Or.inr .bare
  case expression => cases h; cases hr; exact Or.inr .bare
  case operator => cases h; cases hr; exact Or.inr .statementOperator
  all_goals exact Or.inl ⟨_, _, _, .token, h, hr⟩

theorem failsBy_stepToken {lenient : Bool} {tokens : List Token}
    (h : stepToken e lenient tokens w = some r) (hr : r.outcome = .failed cause) :
    Job.FailsBy e (.token lenient tokens) w cause := by
  rcases tokens with _ | ⟨t, rest⟩
  · cases h; cases hr
  cases t
  case word => exact Or.inl ⟨_, _, _, .word, h, hr⟩
  case expression => exact Or.inl ⟨_, _, _, .expression, h, hr⟩
  all_goals cases h; cases hr

omit [Commands κ] in
/-- The search for inputs ends with the input that waits or fails. -/
theorem gather_halted {count : Nat} {tokens : List Token}
    (h : gather e count tokens w = some (.halted r)) :
    ∃ tokens' w' r', SeeksInput e count tokens w tokens' w' ∧
      e (.argument tokens') w' = some r' ∧ r.outcome = r'.outcome := by
  induction count generalizing tokens w r with
  | zero => cases h
  | succ count ih =>
    obtain ⟨r1, h1, hcases⟩ := gather_succ_cases h
    rcases hcases with ⟨-, -, hg⟩ | ⟨hcomplete, hw, g, hlater, hg⟩ | ⟨-, hg⟩
    · cases hg
    · cases g with
      | ready slots rest w => cases hg
      | unwound tokens w => cases hg
      | halted r2 =>
        cases hg
        obtain ⟨tokens', w', r', hseeks, hr', hsame⟩ := ih hlater
        exact ⟨tokens', w', r', .later h1 hcomplete hw hseeks, hr', hsame⟩
    · cases hg
      exact ⟨_, _, _, .here, h1, rfl⟩

omit [Commands κ] in
/-- Calls fail by one of the procedures, after those before it were called. -/
theorem callAll_failed {inputs : List Value} {procedures : List (Procedure κ)}
    {produced : Option Token} (h : callAll e inputs procedures produced w = some r)
    (hr : r.outcome = .failed cause) :
    ∃ p w' r', ComesToCall e inputs procedures w p w' ∧ e (.invoke p inputs) w' = some r' ∧
      r'.outcome = .failed cause := by
  induction procedures generalizing produced w with
  | nil => cases h; cases hr
  | cons p rest ih =>
    obtain ⟨r1, h1, h⟩ := Option.bind_eq_some_iff.1 h
    split at h
    · rename_i hcomplete
      simp only at h
      split at h
      · cases h; cases hr
      · rename_i hw
        obtain ⟨q, w', r', hcomes, hr', hfails⟩ := ih h
        exact ⟨q, w', r', .later h1 hcomplete (by simpa using hw) hcomes, hr', hfails⟩
    · cases h
      exact ⟨_, _, _, .here, h1, hr⟩

/-- A call fails by an input, by a procedure, or for want of a procedure. -/
theorem failsBy_stepWord {lenient operand : Bool} {tokens : List Token}
    (h : stepWord e lenient operand tokens w = some r) (hr : r.outcome = .failed cause) :
    Job.FailsBy e (.word lenient operand tokens) w cause := by
  unfold stepWord at h
  split at h
  · cases h; cases hr
  simp only at h
  split at h
  · cases h; cases hr
  split at h
  · cases h; cases hr
  split at h
  · rename_i first others hlookup
    obtain ⟨g, hg, h⟩ := Option.bind_eq_some_iff.1 h
    split at h
    · cases h
      -- an input did not get ready, and its outcome is that of the call
      obtain ⟨tokens', w', r', hseeks, hr', hsame⟩ := gather_halted hg
      exact Or.inl ⟨_, _, _, .input hlookup hseeks, hr', hsame.symm.trans hr⟩
    · cases h; cases hr
    · obtain ⟨r1, h1, h⟩ := Option.bind_eq_some_iff.1 h
      split at h
      · cases h; cases hr
      · cases h
        -- all inputs are there, so that a procedure failed
        obtain ⟨p, w', r', hcomes, hr', hfails⟩ := callAll_failed h1 hr
        exact Or.inl ⟨_, _, _, .call hlookup hg hcomes, hr', hfails⟩
  · rename_i hlookup
    split at h
    · cases h; cases hr
    · cases h; cases hr
      exact Or.inr (.undefined hlookup)

omit [Commands κ] in
/-- What an operand and the job behind it can do when they fail. -/
theorem throughOperand_failed {lenient : Bool} {done tokens : List Token}
    {next : List Token → Job κ}
    (h : throughOperand e lenient done next tokens w = some r) (hr : r.outcome = .failed cause) :
    (∃ r1, e (operandJob lenient tokens) w = some r1 ∧ r1.outcome = .failed cause) ∨
      ∃ r1, e (operandJob lenient tokens) w = some r1 ∧ r1.outcome = .complete ∧
        r1.workspace.isUnwinding = false ∧ e (next r1.tokens) r1.workspace = some r := by
  obtain ⟨r1, h1, h⟩ := Option.bind_eq_some_iff.1 h
  rw [operand_eq] at h1
  split at h
  · rename_i hcomplete
    split at h
    · cases h
      rw [Result.outcome_after, hcomplete] at hr
      cases hr
    · rename_i hw
      exact Or.inr ⟨r1, h1, hcomplete, by simpa using hw, h⟩
  · cases h
    exact Or.inl ⟨r1, h1, hr⟩

/-- An input that is not yet a value fails by its operand, or by what follows it. -/
theorem failsBy_argument_operand {t : Token} {rest : List Token} (ht : isSettled t = false)
    (h : stepArgument e (t :: rest) w = some r) (hr : r.outcome = .failed cause) :
    Job.FailsBy e (.argument (t :: rest)) w cause := by
  rw [stepArgument_operand ht] at h
  rcases throughOperand_failed h hr with ⟨r1, h1, hfails⟩ | ⟨r1, h1, hcomplete, hw, h2⟩
  · exact Or.inl ⟨_, _, _, .operand ht, h1, hfails⟩
  · exact Or.inl ⟨_, _, _, .argument ht h1 hcomplete hw, h2, hr⟩

theorem failsBy_stepArgument {tokens : List Token} (h : stepArgument e tokens w = some r)
    (hr : r.outcome = .failed cause) : Job.FailsBy e (.argument tokens) w cause := by
  rcases tokens with _ | ⟨t, rest⟩
  · cases h; cases hr
  cases t
  case literal => exact Or.inl ⟨_, _, _, .value, h, hr⟩
  case operator => cases h; cases hr; exact Or.inr .argumentOperator
  all_goals exact failsBy_argument_operand rfl h hr

omit [Commands κ] in
/-- A run of values that ends fails by its reduction. -/
theorem closeChain_failed {window rest : List Token}
    (hr : (closeChain window rest w).outcome = .failed cause) :
    (reduce window).1 = .error cause := by
  unfold closeChain at hr
  split at hr
  · cases hr
  split at hr
  · cases hr
  · rename_i hreduce
    cases hr
    exact hreduce

theorem failsBy_chain_operand {window rest : List Token} {op : Operator} {t : Token}
    (ht : isSettled t = false) (h : stepChain e window (.operator op :: t :: rest) w = some r)
    (hr : r.outcome = .failed cause) :
    Job.FailsBy e (.chain window (.operator op :: t :: rest)) w cause := by
  rw [stepChain_operand window op ht] at h
  rcases throughOperand_failed h hr with ⟨r1, h1, hfails⟩ | ⟨r1, h1, hcomplete, hw, h2⟩
  · exact Or.inl ⟨_, _, _, .chainOperand ht, h1, hfails⟩
  · exact Or.inl ⟨_, _, _, .chain ht h1 hcomplete hw, h2, hr⟩

/-- A run of values fails by an operand, by its reduction, or at two operators in a row. -/
theorem failsBy_stepChain {window rest : List Token} (h : stepChain e window rest w = some r)
    (hr : r.outcome = .failed cause) : Job.FailsBy e (.chain window rest) w cause := by
  rcases rest with _ | ⟨t, rest⟩
  · cases h
    exact Or.inr (.chainReduction (closeChain_failed hr))
  cases t
  case operator op =>
    rcases rest with _ | ⟨t, rest⟩
    · cases h; cases hr
    cases t
    case literal => exact Or.inl ⟨_, _, _, .chainValue, h, hr⟩
    case operator => cases h; cases hr; exact Or.inr .chainOperator
    all_goals exact failsBy_chain_operand rfl h hr
  all_goals
    cases h
    exact Or.inr (.chainReduction (closeChain_failed hr))

theorem failsBy_closeExpression {source : String} {children rest : List Token}
    (hr : (closeExpression source children rest w).outcome = .failed cause) :
    Job.FailsBy e (.expression source children rest) w cause := by
  unfold closeExpression at hr
  split at hr
  · rename_i hempty
    cases hr
    rw [List.isEmpty_iff.1 hempty]
    exact Or.inr .empty
  split at hr
  · cases hr
  · rename_i hreduce
    cases hr
    exact Or.inr (.reduction hreduce)

/-- An expression fails by one of its operands, by a call that waits inside it, or when its values
are reduced. -/
theorem failsBy_stepExpression {source : String} {children rest : List Token}
    (h : stepExpression e source children rest w = some r) (hr : r.outcome = .failed cause) :
    Job.FailsBy e (.expression source children rest) w cause := by
  unfold stepExpression at h
  split at h
  · cases h
    exact failsBy_closeExpression hr
  rename_i hchildren
  obtain ⟨r1, h1, h⟩ := Option.bind_eq_some_iff.1 h
  rw [operand_eq] at h1
  split at h
  · rename_i hcomplete
    split at h
    · cases h; cases hr
    · rename_i hw
      exact Or.inl ⟨_, _, _, .children hchildren h1 hcomplete (by simpa using hw), h, hr⟩
  · -- inside parentheses nothing can wait for the next line, so that waiting is a failure
    rename_i hwaits
    cases h; cases hr
    exact Or.inr (.operand hchildren h1 hwaits)
  · rename_i hfails
    cases h; cases hr
    exact Or.inl ⟨_, _, _, .child hchildren, h1, hfails⟩

omit [Commands κ] in
/-- An iteration fails by the statements of one of its rounds. -/
theorem iterate_failed {items : List Token} {times number : Nat}
    (h : iterate e items times number w = some r) (hr : r.outcome = .failed cause) :
    ∃ w' r', ComesToRound e items times number w w' ∧ runItems e items w' = some r' ∧
      r'.outcome = .failed cause := by
  induction times generalizing number w with
  | zero => cases h; cases hr
  | succ times ih =>
    rw [iterate_succ] at h
    obtain ⟨r1, h1, h⟩ := Option.bind_eq_some_iff.1 h
    split at h
    · rename_i hcomplete
      split at h
      · -- a request to leave ends the round without a failure
        cases h; cases hr
      · rename_i hw
        obtain ⟨w', r', hcomes, hr', hfails⟩ := ih h
        exact ⟨w', r', .later h1 hcomplete (by simpa using hw) hcomes, hr', hfails⟩
    · cases h
      exact ⟨_, _, .here, h1, hr⟩

/-- Items that a call runs fail, or wait, which is a failure too. -/
theorem failsBy_runItems {p : Procedure κ} {inputs : List Value} {w' : Workspace κ}
    {items : List Token} (hask : (Job.invoke p inputs).Asks e w (.sequence false items) w')
    (h : runItems e items w' = some r) (hr : r.outcome = .failed cause) :
    Job.FailsBy e (.invoke p inputs) w cause := by
  obtain ⟨r1, h1, h⟩ := Option.bind_eq_some_iff.1 h
  split at h
  · cases h; cases hr
  · rename_i hwaits
    cases h; cases hr
    exact Or.inr (.statements hask h1 hwaits)
  · rename_i hfails
    cases h; cases hr
    exact Or.inl ⟨_, _, _, hask, h1, hfails⟩

omit [Commands κ] in
/-- A body that waits is a failure, and otherwise the call ends as the body does. -/
theorem outcome_bodyResult (r : Result κ) : (bodyResult r).outcome = match r.outcome with
    | .incomplete => .failed (.notEnoughInputs (pendingWord r.tokens))
    | outcome => outcome := by
  unfold bodyResult
  simp only
  split <;> simp_all

theorem failsBy_body {p : Procedure κ} {inputs : List Value} {w' : Workspace κ}
    {tokens : List Token} {r1 : Result κ}
    (hask : (Job.invoke p inputs).Asks e w (.sequence false tokens) w')
    (h : e (.sequence false tokens) w' = some r1)
    (hr : (bodyResult r1).outcome = .failed cause) : Job.FailsBy e (.invoke p inputs) w cause := by
  rw [outcome_bodyResult] at hr
  split at hr
  · rename_i hwaits
    cases hr
    exact Or.inr (.statements hask h hwaits)
  · exact Or.inl ⟨_, _, _, hask, h, hr⟩

/-- A procedure fails by the statements that it runs, or by its command. -/
theorem failsBy_stepInvoke {p : Procedure κ} {inputs : List Value}
    (h : stepInvoke e p inputs w = some r) (hr : r.outcome = .failed cause) :
    Job.FailsBy e (.invoke p inputs) w cause := by
  unfold stepInvoke at h
  split at h
  · rename_i code hp
    cases heffect : Commands.perform code (w.pushFrame none) inputs with
    | mk w' action =>
      rw [heffect] at h
      obtain ⟨r1, h1, h⟩ := Option.bind_eq_some_iff.1 h
      cases h
      cases action with
      | produce token => cases h1; cases hr
      | fail cause' => cases h1; cases hr; exact Or.inr (.command hp heffect)
      | run items => exact failsBy_runItems (.items hp heffect) h1 hr
      | iterate times items =>
        obtain ⟨w'', r', hcomes, hr', hfails⟩ := iterate_failed h1 hr
        exact failsBy_runItems (.round hp heffect hcomes) hr' hfails
  · rename_i d hp
    obtain ⟨r1, h1, h⟩ := Option.bind_eq_some_iff.1 h
    cases h
    exact failsBy_body (.body hp) h1 hr

/-- **A job fails through a job that it asks for, or with a cause of its own.** -/
theorem Job.step_failed {job : Job κ} (h : job.step e w = some r) (hr : r.outcome = .failed cause) :
    job.FailsBy e w cause := by
  cases job with
  | sequence lenient tokens => exact failsBy_stepSequence h hr
  | statement lenient tokens => exact failsBy_stepStatement h hr
  | token lenient tokens => exact failsBy_stepToken h hr
  | word lenient operand tokens => exact failsBy_stepWord h hr
  | argument tokens => exact failsBy_stepArgument h hr
  | chain window rest => exact failsBy_stepChain h hr
  | expression source children rest => exact failsBy_stepExpression h hr
  | invoke p inputs => exact failsBy_stepInvoke h hr

end Step

end Logo
