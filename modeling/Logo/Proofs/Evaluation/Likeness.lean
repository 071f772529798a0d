import Logo.Proofs.Evaluation.Equations

/-!
# Workspaces that look alike

Two workspaces may differ in a way that no program can find out. Such a difference is given by a
relation that all operations on workspaces keep, and across which all that is read is the same
(`Likeness`). Whether it stays hidden depends on the commands, too: they must do alike in workspaces
that look alike (`Respected`).

The relation may hold for some procedures only. These must be all that can be called.

* `Likeness.eval`: a job that is done in two workspaces that look alike ends alike, or gives up in
  both.
-/

namespace Logo

variable {κ : Type}

/-- A relation between workspaces that no operation tells apart: what is read is the same, and what
is changed alike stays alike. -/
structure Likeness (A : Procedure κ → Prop) (R : Workspace κ → Workspace κ → Prop) : Prop where
  admits : ∀ {w w'}, R w w' → w.Admits A
  registry : ∀ {w w'}, R w w' → w'.registry = w.registry
  repeats : ∀ {w w'}, R w w' → w'.repeats = w.repeats
  signal : ∀ {w w'}, R w w' → w'.signal = w.signal
  inProcedure : ∀ {w w'}, R w w' → w'.scope.inProcedure = w.scope.inProcedure
  write : ∀ {w w'} line, R w w' → R (w.write line) (w'.write line)
  narrate : ∀ {w w'} note, R w w' → R (w.narrate note) (w'.narrate note)
  enlist : ∀ {w w'} p, A p → R w w' →
    R { w with registry := w.registry.register p } { w' with registry := w'.registry.register p }
  addModule : ∀ {w w'} name, R w w' →
    R { w with modules := w.modules ++ [name] } { w' with modules := w'.modules ++ [name] }
  read : ∀ {w w'} name, R w w' → (w'.getVariable name).1 = (w.getVariable name).1 ∧
    R (w.getVariable name).2 (w'.getVariable name).2
  set : ∀ {w w'} name v, R w w' → R (w.setVariable name v) (w'.setVariable name v)
  clear : ∀ {w w'} name, R w w' → R (w.clearVariable name) (w'.clearVariable name)
  clearAll : ∀ {w w'}, R w w' → R w.clearVariables w'.clearVariables
  pushFrame : ∀ {w w'} frame, R w w' → R (w.pushFrame frame) (w'.pushFrame frame)
  popFrame : ∀ {w w'}, R w w' → R w.popFrame w'.popFrame
  raise : ∀ {w w'} signal, R w w' → R (w.raise signal) (w'.raise signal)
  takeSignal : ∀ {w w'}, R w w' → R w.takeSignal.2 w'.takeSignal.2
  pushRepeat : ∀ {w w'} number, R w w' → R (w.pushRepeat number) (w'.pushRepeat number)
  popRepeat : ∀ {w w'}, R w w' → R w.popRepeat w'.popRepeat
  resetExecution : ∀ {w w'}, R w w' → R w.resetExecution w'.resetExecution

/-- What two commands leave and ask for is alike. -/
def AlikeEffects (R : Workspace κ → Workspace κ → Prop) (x x' : Workspace κ × Action) : Prop :=
  x'.2 = x.2 ∧ R x.1 x'.1

/-- The commands of admitted procedures do alike in workspaces that look alike. -/
def Respected [Commands κ] (A : Procedure κ → Prop) (R : Workspace κ → Workspace κ → Prop) : Prop :=
  ∀ ⦃p code w w'⦄ inputs, p.kind = .command code → A p → R w w' →
    AlikeEffects R (Commands.perform code w inputs) (Commands.perform code w' inputs)

/-- Two jobs ended alike. -/
inductive Result.Alike (R : Workspace κ → Workspace κ → Prop) : Result κ → Result κ → Prop where
  | intro {w w' : Workspace κ} (outcome : Outcome) (tokens : List Token) (h : R w w') :
    Alike R ⟨outcome, tokens, w⟩ ⟨outcome, tokens, w'⟩

/-- The inputs of two calls were found alike. -/
inductive Gathered.Alike (R : Workspace κ → Workspace κ → Prop) :
    Gathered κ → Gathered κ → Prop where
  | ready {w w' : Workspace κ} (slots rest : List Token) (h : R w w') :
    Alike R (ready slots rest w) (ready slots rest w')
  | unwound {w w' : Workspace κ} (tokens : List Token) (h : R w w') :
    Alike R (unwound tokens w) (unwound tokens w')
  | halted {r r' : Result κ} (h : r.Alike R r') : Alike R (halted r) (halted r')

/-- The evaluator does a job alike in workspaces that look alike. -/
def Evaluator.Respects (A : Procedure κ → Prop) (R : Workspace κ → Workspace κ → Prop)
    (e : Evaluator κ) : Prop :=
  ∀ ⦃job w w'⦄, job.Admits A → R w w' → Option.Rel (Result.Alike R) (e job w) (e job w')

theorem rel_bind {α β : Type} {S : α → α → Prop} {T : β → β → Prop} {x x' : Option α}
    {f f' : α → Option β} (h : Option.Rel S x x')
    (hf : ∀ a a', S a a' → Option.Rel T (f a) (f' a')) :
    Option.Rel T (x.bind f) (x'.bind f') := by
  cases h with
  | none => exact .none
  | some h => exact hf _ _ h

/-! ## One step -/

section Step

variable {A : Procedure κ → Prop} {R : Workspace κ → Workspace κ → Prop} {e : Evaluator κ}
  {w w' : Workspace κ}

theorem Result.Alike.after {r r' : Result κ} (h : r.Alike R r') (done : List Token) :
    (r.after done).Alike R (r'.after done) := by
  obtain ⟨outcome, tokens, hw⟩ := h
  exact .intro _ _ hw

theorem Gathered.Alike.push {g g' : Gathered κ} (h : g.Alike R g') (slot : List Token) :
    (g.push slot).Alike R (g'.push slot) := by
  cases h with
  | ready slots rest hw => exact .ready _ _ hw
  | unwound tokens hw => exact .unwound _ hw
  | halted hr => exact .halted (hr.after slot)

/-- An evaluator that respects a likeness respects it in operands. -/
theorem Evaluator.Respects.operand (he : e.Respects A R) (lenient : Bool) (tokens : List Token)
    (h : R w w') :
    Option.Rel (Result.Alike R) (operand e lenient tokens w) (operand e lenient tokens w') := by
  unfold Logo.operand
  split
  · exact he trivial h
  · exact he trivial h

/-- An evaluator that respects a likeness respects it in lists that are run. -/
theorem Evaluator.Respects.runItems (he : e.Respects A R) (items : List Token) (h : R w w') :
    Option.Rel (Result.Alike R) (runItems e items w) (runItems e items w') := by
  refine rel_bind (he trivial h) ?_
  rintro _ _ ⟨outcome, tokens, hw⟩
  cases outcome <;> exact .some (.intro _ _ hw)

theorem Evaluator.Respects.stepStatement (he : e.Respects A R) (lenient : Bool)
    (tokens : List Token) (h : R w w') :
    Option.Rel (Result.Alike R) (stepStatement e lenient tokens w)
      (stepStatement e lenient tokens w') := by
  unfold Logo.stepStatement
  split
  case h_6 => exact he trivial h
  all_goals exact .some (.intro _ _ h)

variable (hR : Likeness A R) (he : e.Respects A R)

include hR

theorem Likeness.isUnwinding (h : R w w') : w'.isUnwinding = w.isUnwinding := by
  rw [Workspace.isUnwinding, hR.signal h, Workspace.isUnwinding]

theorem Likeness.lookup (h : R w w') (name : String) : w'.lookup name = w.lookup name := by
  rw [Workspace.lookup, hR.registry h, Workspace.lookup]

include he

/-- Both sides begin with the same statement, and go on in the same way behind it. -/
theorem Likeness.stepSequence (lenient : Bool) (tokens : List Token) (h : R w w') :
    Option.Rel (Result.Alike R) (stepSequence e lenient tokens w)
      (stepSequence e lenient tokens w') := by
  unfold Logo.stepSequence
  rw [hR.isUnwinding h]
  split
  · exact .some (.intro _ _ h)
  split
  · exact .some (.intro _ _ h)
  refine rel_bind (he trivial h) ?_
  -- outcome and tokens of the statement are the same on both sides
  rintro _ _ ⟨outcome, tokens, hw⟩
  cases outcome with
  | complete =>
    refine rel_bind (he trivial hw) fun r r' hr => ?_
    exact .some (hr.after _)
  | incomplete => exact .some (.intro _ _ hw)
  | failed cause => exact .some (.intro _ _ hw)

theorem Likeness.stepToken (lenient : Bool) (tokens : List Token) (h : R w w') :
    Option.Rel (Result.Alike R) (stepToken e lenient tokens w) (stepToken e lenient tokens w') := by
  unfold Logo.stepToken
  split
  · exact .some (.intro _ _ h)
  · exact he trivial h
  · exact he trivial h
  · exact .some (.intro _ _ h)
  · rename_i text rest
    obtain ⟨hvalue, hw⟩ := hR.read ((Token.reference text).variableName?.getD "") h
    simp only [hvalue]
    exact .some (.intro _ _ hw)
  · exact .some (.intro _ _ h)
  · exact .some (.intro _ _ h)

/-- Both sides find the same inputs. -/
theorem Likeness.gather (count : Nat) (tokens : List Token) (h : R w w') :
    Option.Rel (Gathered.Alike R) (gather e count tokens w) (gather e count tokens w') := by
  induction count generalizing tokens w w' with
  | zero => exact .some (.ready _ _ h)
  | succ count ih =>
    refine rel_bind (he trivial h) ?_
    rintro _ _ ⟨outcome, tokens, hw⟩
    cases outcome with
    | complete =>
      simp only [hR.isUnwinding hw]
      split
      · exact .some (.unwound _ hw)
      · refine rel_bind (ih _ hw) fun g g' hg => ?_
        exact .some (hg.push _)
    | incomplete => exact .some (.halted (.intro _ _ hw))
    | failed cause => exact .some (.halted (.intro _ _ hw))

/-- Both sides call the same procedures, one after the other. -/
theorem Likeness.callAll (inputs : List Value) {procedures : List (Procedure κ)}
    (hp : ∀ p ∈ procedures, A p) (produced : Option Token) (h : R w w') :
    Option.Rel (Result.Alike R) (callAll e inputs procedures produced w)
      (callAll e inputs procedures produced w') := by
  induction procedures generalizing produced w w' with
  | nil => exact .some (.intro _ _ h)
  | cons p rest ih =>
    obtain ⟨hp, hrest⟩ := List.forall_mem_cons.1 hp
    have hcall : (Job.invoke p inputs).Admits A := hp
    refine rel_bind (he hcall h) ?_
    rintro _ _ ⟨outcome, tokens, hw⟩
    cases outcome with
    | complete =>
      simp only [hR.isUnwinding hw]
      split
      · exact .some (.intro _ _ hw)
      · exact ih hrest _ hw
    | incomplete => exact .some (.intro _ _ hw)
    | failed cause => exact .some (.intro _ _ hw)

theorem Likeness.callWord (operand : Bool) (token : Token) {first : Procedure κ}
    {others : List (Procedure κ)} (hp : ∀ p ∈ first :: others, A p) (rest : List Token)
    (h : R w w') :
    Option.Rel (Result.Alike R) (callWord e operand token first others rest w)
      (callWord e operand token first others rest w') := by
  refine rel_bind (hR.gather he _ _ h) fun g g' hg => ?_
  cases hg with
  | halted hr => exact .some (hr.after _)
  | unwound tokens hw => exact .some (.intro _ _ hw)
  | ready slots rest hw =>
    refine rel_bind (hR.callAll he _ hp none hw) ?_
    rintro _ _ ⟨outcome, tokens, hw⟩
    cases outcome <;> exact .some (.intro _ _ hw)

/-- A word calls the same procedures with the same inputs on both sides. -/
theorem Likeness.stepWord (lenient operand : Bool) (tokens : List Token) (h : R w w') :
    Option.Rel (Result.Alike R) (stepWord e lenient operand tokens w)
      (stepWord e lenient operand tokens w') := by
  cases tokens with
  | nil => exact .some (.intro _ _ h)
  | cons token rest =>
    simp only [Logo.stepWord, hR.lookup h]
    split
    · exact .some (.intro _ _ h)
    split
    · exact .some (.intro _ _ h)
    cases hlookup : w.lookup token.text with
    | cons first others =>
      have hp : ∀ p ∈ first :: others, A p := fun p hp => hR.admits h _ p (hlookup ▸ hp)
      exact hR.callWord he _ _ hp _ h
    | nil =>
      simp only
      split <;> exact .some (.intro _ _ h)

/-- Both sides find the same operand, and go on with the same tokens. -/
theorem Likeness.throughOperand (lenient : Bool) (done : List Token) {next : List Token → Job κ}
    (hnext : ∀ tokens, (next tokens).Admits A) (tokens : List Token) (h : R w w') :
    Option.Rel (Result.Alike R) (throughOperand e lenient done next tokens w)
      (throughOperand e lenient done next tokens w') := by
  refine rel_bind (he.operand lenient tokens h) ?_
  rintro _ _ ⟨outcome, tokens, hw⟩
  cases outcome with
  | complete =>
    simp only [hR.isUnwinding hw]
    split
    · exact .some (.intro _ _ hw)
    · exact he (hnext _) hw
  | incomplete => exact .some (.intro _ _ hw)
  | failed cause => exact .some (.intro _ _ hw)

theorem Likeness.stepArgument (tokens : List Token) (h : R w w') :
    Option.Rel (Result.Alike R) (stepArgument e tokens w) (stepArgument e tokens w') := by
  cases tokens with
  | nil => exact .some (.intro _ _ h)
  | cons t rest =>
    cases t
    case literal text v => exact he trivial h
    case operator op => exact .some (.intro _ _ h)
    all_goals
      rw [stepArgument_operand rfl, stepArgument_operand rfl]
      refine hR.throughOperand he _ _ ?_ _ h
      exact fun _ => trivial

omit hR he in
theorem alike_closeChain (window rest : List Token) (h : R w w') :
    (closeChain window rest w).Alike R (closeChain window rest w') := by
  unfold closeChain
  repeat' split
  all_goals exact .intro _ _ h

theorem Likeness.stepChain (window rest : List Token) (h : R w w') :
    Option.Rel (Result.Alike R) (stepChain e window rest w) (stepChain e window rest w') := by
  rcases rest with _ | ⟨op, rest⟩
  · exact .some (alike_closeChain _ _ h)
  cases op
  case operator op =>
    cases rest with
    | nil => exact .some (.intro _ _ h)
    | cons t rest =>
      cases t
      case literal text v => exact he trivial h
      case operator op' => exact .some (.intro _ _ h)
      all_goals
        rw [stepChain_operand window op rfl, stepChain_operand window op rfl]
        refine hR.throughOperand he _ _ ?_ _ h
        exact fun _ => trivial
  all_goals exact .some (alike_closeChain _ _ h)

omit hR he in
theorem alike_closeExpression (source : String) (children rest : List Token) (h : R w w') :
    (closeExpression source children rest w).Alike R (closeExpression source children rest w') := by
  unfold closeExpression
  repeat' split
  all_goals exact .intro _ _ h

/-- Both sides evaluate the same operands, and reduce the same values. -/
theorem Likeness.stepExpression (source : String) (children rest : List Token) (h : R w w') :
    Option.Rel (Result.Alike R) (stepExpression e source children rest w)
      (stepExpression e source children rest w') := by
  unfold Logo.stepExpression
  split
  · exact .some (alike_closeExpression _ _ _ h)
  refine rel_bind (he.operand _ _ h) ?_
  rintro _ _ ⟨outcome, tokens, hw⟩
  cases outcome with
  | complete =>
    simp only [hR.isUnwinding hw]
    split
    · exact .some (.intro _ _ hw)
    · exact he trivial hw
  | incomplete => exact .some (.intro _ _ hw)
  | failed cause => exact .some (.intro _ _ hw)

/-- Both sides begin the same rounds. -/
theorem Likeness.iterate (items : List Token) (times number : Nat) (h : R w w') :
    Option.Rel (Result.Alike R) (iterate e items times number w)
      (iterate e items times number w') := by
  induction times generalizing number w w' with
  | zero => exact .some (.intro _ _ h)
  | succ times ih =>
    rw [iterate_succ, iterate_succ]
    refine rel_bind (he.runItems items (hR.pushRepeat number h)) ?_
    rintro _ _ ⟨outcome, tokens, hw⟩
    have hleft := hR.popRepeat hw
    cases outcome with
    | complete =>
      simp only [hR.isUnwinding hleft]
      split
      · exact .some (.intro _ _ hleft)
      · exact ih _ hleft
    | incomplete => exact .some (.intro _ _ hleft)
    | failed cause => exact .some (.intro _ _ hleft)

theorem Likeness.carryOut (action : Action) (h : R w w') :
    Option.Rel (Result.Alike R) (carryOut e action w) (carryOut e action w') := by
  cases action with
  | produce token => exact .some (.intro _ _ h)
  | fail cause => exact .some (.intro _ _ h)
  | run items => exact he.runItems items h
  | iterate times items => exact hR.iterate he items times 1 h

omit he in
/-- The request to leave a definition is the same in both workspaces. -/
theorem Likeness.bodyResult (outcome : Outcome) (tokens : List Token) (h : R w w') :
    (bodyResult ⟨outcome, tokens, w⟩).Alike R (bodyResult ⟨outcome, tokens, w'⟩) := by
  have hframe := hR.popFrame h
  have hsignal : w'.popFrame.signal = w.popFrame.signal := hR.signal hframe
  have hleft := hR.takeSignal hframe
  unfold Logo.bodyResult
  simp only [Workspace.takeSignal, hsignal] at hleft ⊢
  split <;> exact .intro _ _ hleft

variable [Commands κ] (hcommands : Respected A R)

include hcommands

/-- A command asks for the same on both sides, by assumption; a definition runs its body. -/
theorem Likeness.stepInvoke {p : Procedure κ} (hp : A p) (inputs : List Value) (h : R w w') :
    Option.Rel (Result.Alike R) (stepInvoke e p inputs w) (stepInvoke e p inputs w') := by
  unfold Logo.stepInvoke
  split
  · rename_i code hcode
    -- what the command asks for is the same on both sides
    obtain ⟨haction, hw⟩ := hcommands inputs hcode hp (hR.pushFrame none h)
    simp only [haction]
    refine rel_bind (hR.carryOut he _ hw) ?_
    rintro _ _ ⟨outcome, tokens, hw⟩
    exact .some (.intro _ _ (hR.popFrame hw))
  · refine rel_bind (he trivial (hR.pushFrame _ h)) ?_
    rintro _ _ ⟨outcome, tokens, hw⟩
    exact .some (hR.bodyResult _ _ hw)

/-- **One step respects what its jobs respect.** -/
theorem Likeness.step {job : Job κ} (hjob : job.Admits A) (h : R w w') :
    Option.Rel (Result.Alike R) (job.step e w) (job.step e w') := by
  cases job with
  | sequence lenient tokens => exact hR.stepSequence he lenient tokens h
  | statement lenient tokens => exact he.stepStatement lenient tokens h
  | token lenient tokens => exact hR.stepToken he lenient tokens h
  | word lenient operand tokens => exact hR.stepWord he lenient operand tokens h
  | argument tokens => exact hR.stepArgument he tokens h
  | chain window rest => exact hR.stepChain he window rest h
  | expression source children rest => exact hR.stepExpression he source children rest h
  | invoke p inputs => exact hR.stepInvoke he hcommands hjob inputs h

end Step

/-- **A job ends alike in workspaces that look alike**, or the bound is too small for both. -/
theorem Likeness.eval [Commands κ] {A : Procedure κ → Prop} {R : Workspace κ → Workspace κ → Prop}
    (hR : Likeness A R) (hcommands : Respected A R) (n : Nat) :
    (Logo.eval n : Evaluator κ).Respects A R := by
  -- a step with the bound `n + 1` has the evaluator with the bound `n`
  induction n with
  | zero => exact fun _ _ _ _ _ => .none
  | succ n ih => exact fun _ _ _ hjob h => hR.step ih hcommands hjob h

end Logo
