import Logo.Proofs.Evaluation.Equations

/-!
# The jobs that a job consists of

`Job.Asks e job w job' w'` says that `job`, begun in the workspace `w`, may hand `job'` in the
workspace `w'` to the evaluator `e`. It lists all that one step of evaluation does with its
evaluator, so that a step depends on nothing else of it (`Job.step_congr`).

What holds of every job that is begun follows from an invariant that a job hands on to the jobs it
asks for. To say it of whole runs, `evalWithin G` evaluates like `eval`, but gives up on a job for
which `G` does not hold.

* `evalWithin_eq`: evaluation within `G` gives the same results, if an invariant implies `G`.
* `Job.Begins.invariant`: the invariant holds of every job that is begun, however deep it nests.
-/

namespace Logo

variable {κ : Type}

/-! ## Jobs that are handed on -/

/-- The job that evaluates an operand. -/
def operandJob (lenient : Bool) : List Token → Job κ
  | .word text :: rest => .word lenient true (.word text :: rest)
  | tokens => .token lenient tokens

theorem operand_eq (e : Evaluator κ) (lenient : Bool) (tokens : List Token) (w : Workspace κ) :
    operand e lenient tokens w = e (operandJob lenient tokens) w := by
  cases tokens with
  | nil => rfl
  | cons t rest => cases t <;> rfl

/-- The search for inputs at `tokens` comes to `tokens'`. -/
inductive SeeksInput (e : Evaluator κ) :
    Nat → List Token → Workspace κ → List Token → Workspace κ → Prop where
  | here {count tokens w} : SeeksInput e (count + 1) tokens w tokens w
  | later {count tokens w r tokens' w'} (h : e (.argument tokens) w = some r)
    (hr : r.outcome = .complete) (hw : r.workspace.isUnwinding = false)
    (hlater : SeeksInput e count (r.tokens.drop 1) r.workspace tokens' w') :
    SeeksInput e (count + 1) tokens w tokens' w'

/-- One call after the other comes to the call of `p`. -/
inductive ComesToCall (e : Evaluator κ) (inputs : List Value) :
    List (Procedure κ) → Workspace κ → Procedure κ → Workspace κ → Prop where
  | here {p rest w} : ComesToCall e inputs (p :: rest) w p w
  | later {p rest w r q w'} (h : e (.invoke p inputs) w = some r) (hr : r.outcome = .complete)
    (hw : r.workspace.isUnwinding = false)
    (hlater : ComesToCall e inputs rest r.workspace q w') :
    ComesToCall e inputs (p :: rest) w q w'

/-- One iteration after the other comes to the workspace `w'`. -/
inductive ComesToRound (e : Evaluator κ) (items : List Token) :
    Nat → Nat → Workspace κ → Workspace κ → Prop where
  | here {times number w} : ComesToRound e items (times + 1) number w (w.pushRepeat number)
  | later {times number w r w'} (h : runItems e items (w.pushRepeat number) = some r)
    (hr : r.outcome = .complete) (hw : r.workspace.popRepeat.isUnwinding = false)
    (hlater : ComesToRound e items times (number + 1) r.workspace.popRepeat w') :
    ComesToRound e items (times + 1) number w w'

/-- The jobs that a job hands to its evaluator, with their workspaces. -/
inductive Job.Asks [Commands κ] (e : Evaluator κ) :
    Job κ → Workspace κ → Job κ → Workspace κ → Prop where
  | statement {lenient tokens w t rest} (hw : w.isUnwinding = false)
    (h : tokens.dropWhile Token.isLiteral = t :: rest) :
    Asks e (.sequence lenient tokens) w (.statement lenient (t :: rest)) w
  | statements {lenient tokens w t rest r} (hw : w.isUnwinding = false)
    (h : tokens.dropWhile Token.isLiteral = t :: rest)
    (hr : e (.statement lenient (t :: rest)) w = some r) (hcomplete : r.outcome = .complete) :
    Asks e (.sequence lenient tokens) w (.sequence lenient r.tokens) r.workspace
  | token {lenient t rest w} :
    Asks e (.statement lenient (t :: rest)) w (.token lenient (t :: rest)) w
  | word {lenient text rest w} :
    Asks e (.token lenient (.word text :: rest)) w (.word lenient false (.word text :: rest)) w
  | expression {lenient children rest w} :
    Asks e (.token lenient (.expression children :: rest)) w
      (.expression (Token.expression children).text children rest) w
  | input {lenient operand t rest w first others tokens w'}
    (hlookup : w.lookup t.text = first :: others)
    (h : SeeksInput e first.inputs rest w tokens w') :
    Asks e (.word lenient operand (t :: rest)) w (.argument tokens) w'
  | call {lenient operand t rest w first others slots rest' w' p w''}
    (hlookup : w.lookup t.text = first :: others)
    (hready : gather e first.inputs rest w = some (.ready slots rest' w'))
    (h : ComesToCall e (slots.filterMap Token.value?) (first :: others) w' p w'') :
    Asks e (.word lenient operand (t :: rest)) w (.invoke p (slots.filterMap Token.value?)) w''
  | value {text v rest w} :
    Asks e (.argument (.literal text v :: rest)) w (.chain [.literal text v] rest) w
  | operand {t rest w} (ht : isSettled t = false) :
    Asks e (.argument (t :: rest)) w (operandJob true (t :: rest)) w
  | argument {t rest w r} (ht : isSettled t = false)
    (hr : e (operandJob true (t :: rest)) w = some r) (hcomplete : r.outcome = .complete)
    (hw : r.workspace.isUnwinding = false) :
    Asks e (.argument (t :: rest)) w (.argument r.tokens) r.workspace
  | chainValue {window op text v rest w} :
    Asks e (.chain window (.operator op :: .literal text v :: rest)) w
      (.chain (window ++ [.operator op, .literal text v]) rest) w
  | chainOperand {window op t rest w} (ht : isSettled t = false) :
    Asks e (.chain window (.operator op :: t :: rest)) w (operandJob false (t :: rest)) w
  | chain {window op t rest w r} (ht : isSettled t = false)
    (hr : e (operandJob false (t :: rest)) w = some r) (hcomplete : r.outcome = .complete)
    (hw : r.workspace.isUnwinding = false) :
    Asks e (.chain window (.operator op :: t :: rest)) w
      (.chain window (.operator op :: r.tokens)) r.workspace
  | child {source children rest w t more} (h : children.dropWhile isSettled = t :: more) :
    Asks e (.expression source children rest) w (operandJob false (t :: more)) w
  | children {source children rest w t more r} (h : children.dropWhile isSettled = t :: more)
    (hr : e (operandJob false (t :: more)) w = some r) (hcomplete : r.outcome = .complete)
    (hw : r.workspace.isUnwinding = false) :
    Asks e (.expression source children rest) w
      (.expression source (children.takeWhile isSettled ++ r.tokens) rest) r.workspace
  | items {p inputs w code w' items} (hp : p.kind = .command code)
    (h : Commands.perform code (w.pushFrame none) inputs = (w', .run items)) :
    Asks e (.invoke p inputs) w (.sequence false items) w'
  | round {p inputs w code w' times items w''} (hp : p.kind = .command code)
    (h : Commands.perform code (w.pushFrame none) inputs = (w', .iterate times items))
    (hround : ComesToRound e items times 1 w' w'') :
    Asks e (.invoke p inputs) w (.sequence false items) w''
  | body {p inputs w d} (hp : p.kind = .definition d) :
    Asks e (.invoke p inputs) w (.sequence false d.body) (w.pushFrame (some (d.bind inputs)))

/-! ## A step depends on nothing else -/

section Congr

variable {e e' : Evaluator κ} {w : Workspace κ}

/-- Inputs are gathered by the arguments that the search comes to, and by nothing else. -/
theorem gather_congr {count : Nat} {tokens : List Token}
    (h : ∀ tokens' w', SeeksInput e count tokens w tokens' w' →
      e' (.argument tokens') w' = e (.argument tokens') w') :
    gather e' count tokens w = gather e count tokens w := by
  induction count generalizing tokens w with
  | zero => rfl
  | succ count ih =>
    -- the first input is asked for in any case, a later one only behind one that is ready
    rw [gather, gather, h _ _ .here]
    refine Option.bind_congr fun r hr => ?_
    cases hcomplete : r.outcome with
    | complete =>
      cases hw : r.workspace.isUnwinding with
      | true => rfl
      | false =>
        have hlater := ih fun tokens' w' hseeks => h _ _ (.later hr hcomplete hw hseeks)
        simp only [hlater]
    | incomplete => rfl
    | failed cause => rfl

/-- Calls depend on the procedures that are come to. -/
theorem callAll_congr {inputs : List Value} {procedures : List (Procedure κ)}
    {produced : Option Token}
    (h : ∀ p w', ComesToCall e inputs procedures w p w' →
      e' (.invoke p inputs) w' = e (.invoke p inputs) w') :
    callAll e' inputs procedures produced w = callAll e inputs procedures produced w := by
  induction procedures generalizing produced w with
  | nil => rfl
  | cons p rest ih =>
    rw [callAll, callAll, h _ _ .here]
    refine Option.bind_congr fun r hr => ?_
    cases hcomplete : r.outcome with
    | complete =>
      cases hw : r.workspace.isUnwinding with
      | true => rfl
      | false => exact ih fun p w' hcomes => h _ _ (.later hr hcomplete hw hcomes)
    | incomplete => rfl
    | failed cause => rfl

theorem runItems_congr {items : List Token}
    (h : e' (.sequence false items) w = e (.sequence false items) w) :
    runItems e' items w = runItems e items w := by
  rw [runItems, runItems, h]

/-- Iterations depend on the rounds that are come to. -/
theorem iterate_congr {items : List Token} {times number : Nat}
    (h : ∀ w', ComesToRound e items times number w w' →
      e' (.sequence false items) w' = e (.sequence false items) w') :
    iterate e' items times number w = iterate e items times number w := by
  induction times generalizing number w with
  | zero => rfl
  | succ times ih =>
    rw [iterate_succ, iterate_succ, runItems_congr (h _ .here)]
    refine Option.bind_congr fun r hr => ?_
    cases hcomplete : r.outcome with
    | complete =>
      cases hw : r.workspace.popRepeat.isUnwinding with
      | true => rfl
      | false => exact ih fun w' hcomes => h _ (.later hr hcomplete hw hcomes)
    | incomplete => rfl
    | failed cause => rfl

/-- Behind an operand the next job matters only if the operand is done. -/
theorem throughOperand_congr {lenient : Bool} {done tokens : List Token}
    {next : List Token → Job κ}
    (hoperand : e' (operandJob lenient tokens) w = e (operandJob lenient tokens) w)
    (hnext : ∀ r, e (operandJob lenient tokens) w = some r → r.outcome = .complete →
      r.workspace.isUnwinding = false →
      e' (next r.tokens) r.workspace = e (next r.tokens) r.workspace) :
    throughOperand e' lenient done next tokens w = throughOperand e lenient done next tokens w := by
  rw [throughOperand, throughOperand, operand_eq, operand_eq, hoperand]
  refine Option.bind_congr fun r hr => ?_
  cases hcomplete : r.outcome with
  | complete =>
    cases hw : r.workspace.isUnwinding with
    | true => rfl
    | false => simp only [hnext r hr hcomplete hw]
  | incomplete => rfl
  | failed cause => rfl

variable [Commands κ]

theorem stepSequence_congr {lenient : Bool} {tokens : List Token}
    (h : ∀ job' w', Job.Asks e (.sequence lenient tokens) w job' w' → e' job' w' = e job' w') :
    stepSequence e' lenient tokens w = stepSequence e lenient tokens w := by
  cases hw : w.isUnwinding with
  | true => simp only [stepSequence, hw, if_true]
  | false =>
    cases htokens : tokens.dropWhile Token.isLiteral with
    | nil => simp only [stepSequence, htokens]
    | cons t rest =>
      simp only [stepSequence, htokens, h _ _ (.statement hw htokens)]
      refine ite_congr rfl (fun _ => rfl) fun _ => Option.bind_congr fun r hr => ?_
      cases hcomplete : r.outcome with
      | complete => simp only [h _ _ (.statements hw htokens hr hcomplete)]
      | incomplete => rfl
      | failed cause => rfl

/-- A call depends on its inputs, and then on the procedures that are called with them. -/
theorem stepWord_congr {lenient operand : Bool} {tokens : List Token}
    (h : ∀ job' w', Job.Asks e (.word lenient operand tokens) w job' w' → e' job' w' = e job' w') :
    stepWord e' lenient operand tokens w = stepWord e lenient operand tokens w := by
  cases tokens with
  | nil => rfl
  | cons t rest =>
    simp only [stepWord]
    cases hlookup : w.lookup t.text with
    | nil => rfl
    | cons first others =>
      have hcall : callWord e' operand t first others rest w =
          callWord e operand t first others rest w := by
        rw [callWord, callWord, gather_congr fun tokens w' hseeks => h _ _ (.input hlookup hseeks)]
        -- the procedures are called only where all inputs are there
        refine Option.bind_congr fun g hg => ?_
        cases g with
        | halted r => rfl
        | unwound rest w => rfl
        | ready slots rest w =>
          simp only [callAll_congr fun p w' hcomes => h _ _ (.call hlookup hg hcomes)]
      simp only [hcall]

theorem stepArgument_congr {tokens : List Token}
    (h : ∀ job' w', Job.Asks e (.argument tokens) w job' w' → e' job' w' = e job' w') :
    stepArgument e' tokens w = stepArgument e tokens w := by
  cases tokens with
  | nil => rfl
  | cons t rest =>
    cases t
    case literal text v => exact h _ _ .value
    case operator op => rfl
    all_goals
      rw [stepArgument_operand rfl, stepArgument_operand rfl]
      exact throughOperand_congr (h _ _ (.operand rfl)) fun r hr hcomplete hw =>
        h _ _ (.argument rfl hr hcomplete hw)

theorem stepChain_congr {window rest : List Token}
    (h : ∀ job' w', Job.Asks e (.chain window rest) w job' w' → e' job' w' = e job' w') :
    stepChain e' window rest w = stepChain e window rest w := by
  rcases rest with _ | ⟨op, rest⟩
  · rfl
  cases op
  case operator op =>
    cases rest with
    | nil => rfl
    | cons t rest =>
      cases t
      case literal text v => exact h _ _ .chainValue
      case operator op' => rfl
      all_goals
        rw [stepChain_operand window op rfl, stepChain_operand window op rfl]
        exact throughOperand_congr (h _ _ (.chainOperand rfl)) fun r hr hcomplete hw =>
          h _ _ (.chain rfl hr hcomplete hw)
  all_goals rfl

theorem stepExpression_congr {source : String} {children rest : List Token}
    (h : ∀ job' w', Job.Asks e (.expression source children rest) w job' w' →
      e' job' w' = e job' w') :
    stepExpression e' source children rest w = stepExpression e source children rest w := by
  cases hchildren : children.dropWhile isSettled with
  | nil => simp only [stepExpression, hchildren]
  | cons t more =>
    simp only [stepExpression, hchildren, operand_eq, h _ _ (.child hchildren)]
    refine Option.bind_congr fun r hr => ?_
    cases hcomplete : r.outcome with
    | complete =>
      cases hw : r.workspace.isUnwinding with
      | true => rfl
      | false => exact h _ _ (.children hchildren hr hcomplete hw)
    | incomplete => rfl
    | failed cause => rfl

/-- What a procedure does depends on the statements that it runs. -/
theorem stepInvoke_congr {p : Procedure κ} {inputs : List Value}
    (h : ∀ job' w', Job.Asks e (.invoke p inputs) w job' w' → e' job' w' = e job' w') :
    stepInvoke e' p inputs w = stepInvoke e p inputs w := by
  cases hp : p.kind with
  | definition d => simp only [stepInvoke, hp, h _ _ (.body hp)]
  | command code =>
    cases heffect : Commands.perform code (w.pushFrame none) inputs with
    | mk w' action =>
      have hcarry : carryOut e' action w' = carryOut e action w' := by
        cases action with
        | produce token => rfl
        | fail cause => rfl
        | run items => exact runItems_congr (h _ _ (.items hp heffect))
        | iterate times items =>
          exact iterate_congr fun w'' hround => h _ _ (.round hp heffect hround)
      simp only [stepInvoke, hp, heffect, hcarry]

/-- **A step depends on the jobs that it asks for and on nothing else of its evaluator.** -/
theorem Job.step_congr {job : Job κ}
    (h : ∀ job' w', job.Asks e w job' w' → e' job' w' = e job' w') :
    job.step e' w = job.step e w := by
  cases job with
  | sequence lenient tokens => exact stepSequence_congr h
  | statement lenient tokens =>
    rcases tokens with _ | ⟨t, rest⟩
    · rfl
    · cases t <;> first | rfl | exact h _ _ .token
  | token lenient tokens =>
    rcases tokens with _ | ⟨t, rest⟩
    · rfl
    · cases t <;> first | rfl | exact h _ _ .word | exact h _ _ .expression
  | word lenient operand tokens => exact stepWord_congr h
  | argument tokens => exact stepArgument_congr h
  | chain window rest => exact stepChain_congr h
  | expression source children rest => exact stepExpression_congr h
  | invoke p inputs => exact stepInvoke_congr h

end Congr

/-! ## The procedures stay the same -/

section Registry

variable [Commands κ] {A : Procedure κ → Prop} {R : Workspace κ → Workspace κ → Prop}
  {e : Evaluator κ} {w w' : Workspace κ}

omit [Commands κ] in
theorem admits_operandJob (lenient : Bool) (tokens : List Token) :
    (operandJob lenient tokens).Admits A := by
  unfold operandJob
  split <;> trivial

variable (hR : Kept A R) (he : e.Keeps A R)

include hR

/-- Leaving a frame changes no procedure, so a command itself does not. -/
theorem Kept.perform {p : Procedure κ} {code : κ} {inputs : List Value} {action : Action}
    (hcode : p.kind = .command code) (hp : A p)
    (h : Commands.perform code (w.pushFrame none) inputs = (w', action)) :
    w'.registry = w.registry := by
  have hleft : R w (Commands.perform code (w.pushFrame none) inputs).1.popFrame :=
    hR.command inputs hcode hp (hR.refl _)
  rw [h] at hleft
  have hregistry := hR.registry hleft
  exact hregistry

include he

/-- The registry is the same when an input is looked for. -/
theorem Kept.seeksInput {count : Nat} {tokens tokens' : List Token} (hw : w.Admits A)
    (h : SeeksInput e count tokens w tokens' w') : w'.registry = w.registry := by
  induction h with
  | here => rfl
  | later h _ _ _ ih =>
    have hr := he _ _ _ h trivial hw
    exact (ih (hR.admits hr hw)).trans (hR.registry hr)

/-- The registry is the same when a procedure is called, as the calls before it kept it. -/
theorem Kept.comesToCall {inputs : List Value} {procedures : List (Procedure κ)} {p : Procedure κ}
    (hp : ∀ q ∈ procedures, A q) (hw : w.Admits A)
    (h : ComesToCall e inputs procedures w p w') : w'.registry = w.registry := by
  induction h with
  | here => rfl
  | later h _ _ _ ih =>
    obtain ⟨hq, hrest⟩ := List.forall_mem_cons.1 hp
    have hr := he _ _ _ h hq hw
    exact (ih hrest (hR.admits hr hw)).trans (hR.registry hr)

/-- The registry is the same at the beginning of every round. -/
theorem Kept.comesToRound {items : List Token} {times number : Nat} (hw : w.Admits A)
    (h : ComesToRound e items times number w w') : w'.registry = w.registry := by
  induction h with
  | here => rfl
  | later h _ _ _ ih =>
    have hr := hR.iteration _ (he.runItems hw h)
    exact (ih (hR.admits hr hw)).trans (hR.registry hr)

/-- **A job hands on the registry that it found.** -/
theorem Kept.asks {job job' : Job κ} (hjob : job.Admits A) (hw : w.Admits A)
    (h : job.Asks e w job' w') : w'.registry = w.registry := by
  cases h with
  -- these jobs begin where the job itself did
  | statement | token | word | expression | value | operand | chainValue | chainOperand | child
  | body => rfl
  | statements _ _ hr => exact hR.registry (he _ _ _ hr trivial hw)
  | input _ h => exact hR.seeksInput he hw h
  | call hlookup hready h =>
    have hfound := hR.gather he hw hready
    have hcalls := hR.comesToCall he (fun p hp => hw _ p (hlookup ▸ hp)) (hR.admits hfound hw) h
    exact hcalls.trans (hR.registry hfound)
  | argument _ hr => exact hR.registry (he _ _ _ hr (admits_operandJob _ _) hw)
  | chain _ hr => exact hR.registry (he _ _ _ hr (admits_operandJob _ _) hw)
  | children _ hr => exact hR.registry (he _ _ _ hr (admits_operandJob _ _) hw)
  | items hcode h => exact hR.perform hcode hjob h
  -- a later round begins where the rounds before it ended
  | round hcode h hround =>
    have hperform := hR.perform hcode hjob h
    have hadmits : Workspace.Admits _ A := fun name p hp => hw name p (by
      rw [Workspace.lookup, hperform] at hp
      exact hp)
    exact (hR.comesToRound he hadmits hround).trans hperform

omit [Commands κ] hR he in
/-- Only the procedures of the word are called. -/
theorem ComesToCall.mem {inputs : List Value} {procedures : List (Procedure κ)} {p : Procedure κ}
    (h : ComesToCall e inputs procedures w p w') : p ∈ procedures := by
  induction h with
  | here => exact List.mem_cons_self
  | later _ _ _ _ ih => exact List.mem_cons_of_mem _ ih

/-- **A job asks for calls of admitted procedures only.** -/
theorem Kept.asks_admits {job job' : Job κ} (hjob : job.Admits A) (hw : w.Admits A)
    (h : job.Asks e w job' w') : job'.Admits A ∧ w'.Admits A := by
  have hregistry := hR.asks he hjob hw h
  have hw' : w'.Admits A := by
    intro name p hp
    rw [Workspace.lookup, hregistry] at hp
    exact hw name p hp
  refine ⟨?_, hw'⟩
  cases h with
  | call hlookup _ hcall => exact hw _ _ (hlookup ▸ hcall.mem)
  | operand | chainOperand | child => exact admits_operandJob _ _
  | _ => trivial

end Registry

/-! ## Evaluation within a property -/

variable [Commands κ]

open Classical in
/-- Does a job like `eval`, but gives up on every job for which `G` does not hold. -/
noncomputable def evalWithin (G : Job κ → Workspace κ → Prop) : Nat → Evaluator κ
  | 0 => fun _ _ => none
  | fuel + 1 => fun job w => if G job w then job.step (evalWithin G fuel) w else none

/-- **Evaluation within a property gives the same results**, if the property follows from an
invariant that every job hands on to the jobs it asks for. -/
theorem evalWithin_eq {G I : Job κ → Workspace κ → Prop} (himplies : ∀ job w, I job w → G job w)
    (hasks : ∀ e : Evaluator κ, (evaluate : Evaluator κ).Extends e →
      ∀ job w job' w', I job w → job.Asks e w job' w' → I job' w')
    {n : Nat} {job : Job κ} {w : Workspace κ} (h : I job w) :
    evalWithin G n job w = eval n job w := by
  induction n generalizing job w with
  | zero => rfl
  | succ n ih =>
    simp only [evalWithin, if_pos (himplies job w h)]
    exact Job.step_congr fun job' w' hask => ih (hasks _ (evaluate_extends n) _ _ _ _ h hask)

/-! ## All jobs that are begun -/

/-- In the course of `job`, done within the bound `n`, the job `job'` is begun in the workspace
`w'`. -/
inductive Job.Begins : Nat → Job κ → Workspace κ → Job κ → Workspace κ → Prop where
  | itself {n job w} : Begins (n + 1) job w job w
  | asked {n job w job' w' job'' w''} (h : job.Asks (eval n) w job' w')
    (hlater : Begins n job' w' job'' w'') : Begins (n + 1) job w job'' w''

/-- **What every job hands on holds of all jobs that are begun.** -/
theorem Job.Begins.invariant {I : Job κ → Workspace κ → Prop}
    (hasks : ∀ e : Evaluator κ, (evaluate : Evaluator κ).Extends e →
      ∀ job w job' w', I job w → job.Asks e w job' w' → I job' w')
    {n : Nat} {job job' : Job κ} {w w' : Workspace κ} (h : job.Begins n w job' w')
    (hjob : I job w) : I job' w' := by
  induction h with
  | itself => exact hjob
  | asked hask _ ih => exact ih (hasks _ (evaluate_extends _) _ _ _ _ hjob hask)

/-- **The registry is the same when any job is begun**, if only admitted procedures are called. -/
theorem Kept.begins {A : Procedure κ → Prop} {R : Workspace κ → Workspace κ → Prop} (hR : Kept A R)
    {n : Nat} {job job' : Job κ} {w w' : Workspace κ} (h : job.Begins n w job' w')
    (hjob : job.Admits A) (hw : w.Admits A) :
    job'.Admits A ∧ w'.Admits A ∧ w'.registry = w.registry := by
  refine h.invariant (I := fun job' w' => job'.Admits A ∧ w'.Admits A ∧
    w'.registry = w.registry) ?_ ⟨hjob, hw, rfl⟩
  rintro e hext job₁ w₁ job₂ w₂ ⟨hjob₁, hw₁, hregistry⟩ hask
  have hkeeps := hR.keeps_of_extends hext
  obtain ⟨hjob₂, hw₂⟩ := hR.asks_admits hkeeps hjob₁ hw₁ hask
  exact ⟨hjob₂, hw₂, (hR.asks hkeeps hjob₁ hw₁ hask).trans hregistry⟩

end Logo
