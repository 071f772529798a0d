import Logo.Proofs.Evaluation.Limit

/-!
# What evaluation keeps

Evaluation changes the workspace in four ways: it reads a variable, it enters and leaves an
iteration, a command, or a definition. A relation between the workspace before a job and the one
after it that each of these keeps (`Kept`) is kept by every job.

The relation may hold for some procedures only. These must be all that can be called, that is all
that are registered, and the relation must keep the registry.

* `Kept.eval`: every job keeps the relation.
-/

namespace Logo

variable {κ : Type}

/-- All procedures that can be called are admitted. -/
def Workspace.Admits (w : Workspace κ) (A : Procedure κ → Prop) : Prop :=
  ∀ name, ∀ p ∈ w.lookup name, A p

/-- A job that calls a procedure calls an admitted one. -/
def Job.Admits (A : Procedure κ → Prop) : Job κ → Prop
  | .invoke p _ => A p
  | _ => True

/-- A relation that is kept wherever evaluation changes the workspace. -/
structure Kept [Commands κ] (A : Procedure κ → Prop) (R : Workspace κ → Workspace κ → Prop) :
    Prop where
  refl : ∀ w, R w w
  trans : ∀ {u v w}, R u v → R v w → R u w
  registry : ∀ {w w'}, R w w' → w'.registry = w.registry
  read : ∀ w name, R w (w.getVariable name).2
  iteration : ∀ {w w'} number, R (w.pushRepeat number) w' → R w w'.popRepeat
  command : ∀ {w w' p code} inputs, p.kind = .command code → A p →
    R (Commands.perform code (w.pushFrame none) inputs).1 w' → R w w'.popFrame
  definition : ∀ {w w'} table, R (w.pushFrame (some table)) w' → R w w'.popFrame.takeSignal.2

/-- The workspace in which the search for inputs ended. -/
def Gathered.workspace : Gathered κ → Workspace κ
  | ready _ _ w => w
  | unwound _ w => w
  | halted r => r.workspace

@[simp]
theorem Gathered.workspace_push (slot : List Token) (g : Gathered κ) :
    (g.push slot).workspace = g.workspace := by
  cases g <;> rfl

@[simp]
theorem Result.workspace_after (done : List Token) (r : Result κ) :
    (r.after done).workspace = r.workspace := rfl

@[simp]
theorem Result.outcome_after (done : List Token) (r : Result κ) :
    (r.after done).outcome = r.outcome := rfl

@[simp]
theorem Result.tokens_after (done : List Token) (r : Result κ) :
    (r.after done).tokens = done ++ r.tokens := rfl

/-! ## One step -/

section Step

variable {A : Procedure κ → Prop} {R : Workspace κ → Workspace κ → Prop} {e : Evaluator κ}
  {w : Workspace κ} {r : Result κ}

/-- The evaluator keeps the relation. -/
def Evaluator.Keeps (A : Procedure κ → Prop) (R : Workspace κ → Workspace κ → Prop)
    (e : Evaluator κ) : Prop :=
  ∀ job w r, e job w = some r → job.Admits A → w.Admits A → R w r.workspace

/-- What an evaluator keeps, it keeps in operands. -/
theorem Evaluator.Keeps.operand (he : e.Keeps A R) {lenient : Bool} {tokens : List Token}
    (hw : w.Admits A) (h : operand e lenient tokens w = some r) : R w r.workspace := by
  unfold Logo.operand at h
  split at h
  · exact he _ _ _ h trivial hw
  · exact he _ _ _ h trivial hw

/-- What an evaluator keeps, it keeps in lists that are run. -/
theorem Evaluator.Keeps.runItems (he : e.Keeps A R) {items : List Token} (hw : w.Admits A)
    (h : runItems e items w = some r) : R w r.workspace := by
  obtain ⟨r1, h1, h⟩ := Option.bind_eq_some_iff.1 h
  have hr1 := he _ _ _ h1 trivial hw
  split at h <;> cases h <;> exact hr1

variable [Commands κ] (hR : Kept A R) (he : e.Keeps A R)

include hR

/-- The procedures that are admitted stay the same, so that the next job may begin. -/
theorem Kept.admits {w' : Workspace κ} (h : R w w') (hw : w.Admits A) : w'.Admits A := by
  intro name p hp
  rw [Workspace.lookup, hR.registry h] at hp
  exact hw name p hp

include he

/-- A sequence keeps what its statements keep. -/
theorem Kept.stepSequence {lenient : Bool} {tokens : List Token} (hw : w.Admits A)
    (h : stepSequence e lenient tokens w = some r) : R w r.workspace := by
  unfold Logo.stepSequence at h
  split at h
  · cases h; exact hR.refl w
  split at h
  · cases h; exact hR.refl w
  obtain ⟨r1, h1, h⟩ := Option.bind_eq_some_iff.1 h
  have hr1 := he _ _ _ h1 trivial hw
  split at h
  · obtain ⟨r2, h2, h⟩ := Option.bind_eq_some_iff.1 h
    cases h
    have hr2 := he _ _ _ h2 trivial (hR.admits hr1 hw)
    exact hR.trans hr1 hr2
  · cases h; exact hr1

theorem Kept.stepStatement {lenient : Bool} {tokens : List Token} (hw : w.Admits A)
    (h : stepStatement e lenient tokens w = some r) : R w r.workspace := by
  unfold Logo.stepStatement at h
  split at h
  case h_6 => exact he _ _ _ h trivial hw
  all_goals cases h; exact hR.refl w

theorem Kept.stepToken {lenient : Bool} {tokens : List Token} (hw : w.Admits A)
    (h : stepToken e lenient tokens w = some r) : R w r.workspace := by
  unfold Logo.stepToken at h
  split at h
  · cases h; exact hR.refl w
  · exact he _ _ _ h trivial hw
  · exact he _ _ _ h trivial hw
  · cases h; exact hR.refl w
  · cases h; exact hR.read w _
  · cases h; exact hR.refl w
  · cases h; exact hR.refl w

/-- The search for inputs keeps what each input keeps. -/
theorem Kept.gather {count : Nat} {tokens : List Token} {g : Gathered κ} (hw : w.Admits A)
    (h : gather e count tokens w = some g) : R w g.workspace := by
  induction count generalizing tokens w g with
  | zero => cases h; exact hR.refl w
  | succ count ih =>
    obtain ⟨r1, h1, h⟩ := Option.bind_eq_some_iff.1 h
    -- one input after the other, each in the workspace that the one before it left
    have hr1 := he _ _ _ h1 trivial hw
    split at h
    · split at h
      · cases h; exact hr1
      · obtain ⟨g', hg', h⟩ := Option.bind_eq_some_iff.1 h
        cases h
        rw [Gathered.workspace_push]
        exact hR.trans hr1 (ih (hR.admits hr1 hw) hg')
    · cases h; exact hr1

/-- Calls keep what each call keeps, if all procedures are admitted. -/
theorem Kept.callAll {inputs : List Value} {procedures : List (Procedure κ)}
    {produced : Option Token} (hp : ∀ p ∈ procedures, A p) (hw : w.Admits A)
    (h : callAll e inputs procedures produced w = some r) : R w r.workspace := by
  induction procedures generalizing produced w with
  | nil => cases h; exact hR.refl w
  | cons p rest ih =>
    obtain ⟨hp, hrest⟩ := List.forall_mem_cons.1 hp
    obtain ⟨r1, h1, h⟩ := Option.bind_eq_some_iff.1 h
    have hr1 := he _ _ _ h1 hp hw
    split at h
    · simp only at h
      split at h
      · cases h; exact hr1
      · exact hR.trans hr1 (ih hrest (hR.admits hr1 hw) h)
    · cases h; exact hr1

/-- A call keeps what its inputs and its procedures keep. -/
theorem Kept.callWord {operand : Bool} {token : Token} {first : Procedure κ}
    {others : List (Procedure κ)} {rest : List Token} (hp : ∀ p ∈ first :: others, A p)
    (hw : w.Admits A) (h : callWord e operand token first others rest w = some r) :
    R w r.workspace := by
  -- first the inputs, then the procedures
  obtain ⟨g, hg, h⟩ := Option.bind_eq_some_iff.1 h
  have hrg := hR.gather he hw hg
  split at h
  · cases h; exact hrg
  · cases h; exact hrg
  · obtain ⟨r1, h1, h⟩ := Option.bind_eq_some_iff.1 h
    have hr1 := hR.trans hrg (hR.callAll he hp (hR.admits hrg hw) h1)
    split at h
    · cases h; exact hr1
    · cases h; exact hr1

/-- The procedures of a word are admitted by the workspace that they are looked up in. -/
theorem Kept.stepWord {lenient operand : Bool} {tokens : List Token} (hw : w.Admits A)
    (h : stepWord e lenient operand tokens w = some r) : R w r.workspace := by
  unfold Logo.stepWord at h
  split at h
  · cases h; exact hR.refl w
  simp only at h
  split at h
  · cases h; exact hR.refl w
  split at h
  · cases h; exact hR.refl w
  split at h
  · rename_i first others hlookup
    exact hR.callWord he (fun p hp => hw _ p (hlookup ▸ hp)) hw h
  · split at h <;> cases h <;> exact hR.refl w

theorem Kept.stepArgument {tokens : List Token} (hw : w.Admits A)
    (h : stepArgument e tokens w = some r) : R w r.workspace := by
  unfold Logo.stepArgument at h
  split at h
  · cases h; exact hR.refl w
  · exact he _ _ _ h trivial hw
  · cases h; exact hR.refl w
  obtain ⟨r1, h1, h⟩ := Option.bind_eq_some_iff.1 h
  have hr1 := he.operand hw h1
  split at h
  · split at h
    · cases h; exact hr1
    · exact hR.trans hr1 (he _ _ _ h trivial (hR.admits hr1 hw))
  · cases h; exact hr1

omit he in
theorem Kept.closeChain (window rest : List Token) : R w (closeChain window rest w).workspace := by
  unfold Logo.closeChain
  repeat' split
  all_goals exact hR.refl w

theorem Kept.stepChain {window rest : List Token} (hw : w.Admits A)
    (h : stepChain e window rest w = some r) : R w r.workspace := by
  unfold Logo.stepChain at h
  split at h
  · split at h
    · cases h; exact hR.refl w
    · exact he _ _ _ h trivial hw
    · cases h; exact hR.refl w
    obtain ⟨r1, h1, h⟩ := Option.bind_eq_some_iff.1 h
    have hr1 := he.operand hw h1
    split at h
    · split at h
      · cases h; exact hr1
      · exact hR.trans hr1 (he _ _ _ h trivial (hR.admits hr1 hw))
    · cases h; exact hr1
  · cases h; exact hR.closeChain window rest

/-- An expression keeps what its operands keep; closing it does not touch the workspace. -/
theorem Kept.stepExpression {source : String} {children rest : List Token} (hw : w.Admits A)
    (h : stepExpression e source children rest w = some r) : R w r.workspace := by
  unfold Logo.stepExpression at h
  split at h
  · cases h
    unfold closeExpression
    repeat' split
    all_goals exact hR.refl w
  obtain ⟨r1, h1, h⟩ := Option.bind_eq_some_iff.1 h
  have hr1 := he.operand hw h1
  split at h
  · split at h
    · cases h; exact hr1
    · exact hR.trans hr1 (he _ _ _ h trivial (hR.admits hr1 hw))
  · cases h; exact hr1
  · cases h; exact hr1

/-- An iteration keeps what each round keeps, together with the number that it is entered with. -/
theorem Kept.iterate {items : List Token} {times number : Nat} (hw : w.Admits A)
    (h : iterate e items times number w = some r) : R w r.workspace := by
  induction times generalizing number w with
  | zero => cases h; exact hR.refl w
  | succ times ih =>
    unfold Logo.iterate at h
    split at h
    · cases h
    rename_i r1 h1
    -- entering an iteration changes no procedure
    have hr1 := hR.iteration number (he.runItems hw h1)
    simp only at h
    split at h
    · split at h
      · cases h; exact hr1
      · exact hR.trans hr1 (ih (hR.admits hr1 hw) h)
    · cases h; exact hr1

theorem Kept.carryOut {action : Action} (hw : w.Admits A)
    (h : carryOut e action w = some r) : R w r.workspace := by
  cases action with
  | produce token => cases h; exact hR.refl w
  | fail cause => cases h; exact hR.refl w
  | run items => exact he.runItems hw h
  | iterate times items => exact hR.iterate he hw h

omit hR he [Commands κ] in
/-- When a definition is left, its frame and the request to leave are taken away. -/
theorem workspace_bodyResult (r : Result κ) :
    (bodyResult r).workspace = r.workspace.popFrame.takeSignal.2 := by
  unfold bodyResult
  simp only
  split <;> rfl

/-- A call of a procedure keeps what holds between entering and leaving its frame. -/
theorem Kept.stepInvoke {p : Procedure κ} {inputs : List Value} (hp : A p) (hw : w.Admits A)
    (h : stepInvoke e p inputs w = some r) : R w r.workspace := by
  unfold Logo.stepInvoke at h
  split at h
  · rename_i code hcode
    obtain ⟨r1, h1, h⟩ := Option.bind_eq_some_iff.1 h
    cases h
    have hleft : R w (Commands.perform code (w.pushFrame none) inputs).1.popFrame :=
      hR.command inputs hcode hp (hR.refl _)
    -- leaving the frame changes no procedure, so the command itself did not
    have hperform := hR.admits hleft hw
    exact hR.command inputs hcode hp (hR.carryOut he hperform h1)
  · obtain ⟨r1, h1, h⟩ := Option.bind_eq_some_iff.1 h
    cases h
    rw [workspace_bodyResult]
    exact hR.definition _ (he _ _ _ h1 trivial hw)

/-- **One step keeps what its jobs keep.** -/
theorem Kept.step {job : Job κ} (hjob : job.Admits A) (hw : w.Admits A)
    (h : job.step e w = some r) : R w r.workspace := by
  cases job with
  | sequence lenient tokens => exact hR.stepSequence he hw h
  | statement lenient tokens => exact hR.stepStatement he hw h
  | token lenient tokens => exact hR.stepToken he hw h
  | word lenient operand tokens => exact hR.stepWord he hw h
  | argument tokens => exact hR.stepArgument he hw h
  | chain window rest => exact hR.stepChain he hw h
  | expression source children rest => exact hR.stepExpression he hw h
  | invoke p inputs => exact hR.stepInvoke he hjob hw h

end Step

/-- **Every job keeps the relation**, if it calls admitted procedures only. -/
theorem Kept.eval [Commands κ] {A : Procedure κ → Prop} {R : Workspace κ → Workspace κ → Prop}
    (hR : Kept A R) (n : Nat) : (Logo.eval n : Evaluator κ).Keeps A R := by
  intro job w r h
  exact eval_induction (P := fun job w r => job.Admits A → w.Admits A → R w r.workspace)
    (fun e _ he job w r h hjob hw => hR.step he hjob hw h) h

/-- An evaluator whose results are those of evaluation keeps what evaluation keeps. -/
theorem Kept.keeps_of_extends [Commands κ] {A : Procedure κ → Prop}
    {R : Workspace κ → Workspace κ → Prop} (hR : Kept A R) {e : Evaluator κ}
    (hext : (evaluate : Evaluator κ).Extends e) : e.Keeps A R := by
  intro job w r h hjob hw
  obtain ⟨n, hn⟩ := evaluate_eq_some_iff.1 (hext _ _ _ h)
  exact hR.eval n _ _ _ hn hjob hw

/-- Names call the same procedures after a job. -/
theorem Kept.lookup_of_evaluate [Commands κ] {A : Procedure κ → Prop}
    {R : Workspace κ → Workspace κ → Prop} (hR : Kept A R) {job : Job κ} {w : Workspace κ}
    {r : Result κ} (h : evaluate job w = some r) (hjob : job.Admits A) (hw : w.Admits A)
    (name : String) : r.workspace.lookup name = w.lookup name := by
  have hr := hR.keeps_of_extends (fun _ _ _ h => h) _ _ _ h hjob hw
  rw [Workspace.lookup, hR.registry hr, Workspace.lookup]

theorem Job.admits_all (job : Job κ) : job.Admits fun _ => True := by
  cases job <;> trivial

end Logo
