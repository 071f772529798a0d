import Logo.Host
import Logo.Proofs.Evaluation.Likeness

/-!
# Primitives in workspaces that look alike

A primitive looks at its inputs, at variables and procedures, at the number of the innermost
iteration, and at whether a definition is running. All of that is the same in workspaces that look
alike, and what a primitive changes it changes by operations that keep the likeness.

* `Primitive.alike_perform`: a primitive does alike in workspaces that look alike.
-/

namespace Logo.Primitive

variable {κ : Type} {A : Procedure κ → Prop} {R : Workspace κ → Workspace κ → Prop}
  {p : Primitive} {w w' : Workspace κ} {inputs : List Value} {index : Nat}

/-! ## Effects that leave the workspace alone -/

section Untouched

variable (h : R w w')

include h

/-- What is the same on both sides and leaves the workspaces alone is alike. -/
theorem alike_untouched (action : Action) : AlikeEffects R (w, action) (w', action) :=
  ⟨rfl, h⟩

/-- Both sides are given the same inputs, and read the same one. -/
theorem alike_withInput {next next' : Value → Effect κ}
    (hnext : ∀ v, AlikeEffects R (next v) (next' v)) :
    AlikeEffects R (p.withInput w inputs index next) (p.withInput w' inputs index next') := by
  unfold withInput
  split
  · exact hnext _
  · exact alike_untouched h _

theorem alike_answer (v : Value) : AlikeEffects R (answer w v) (answer w' v) :=
  alike_untouched h _

end Untouched

/-! ## Inputs -/

variable (hR : Likeness A R) (h : R w w')

include hR h

theorem alike_write (line : String) :
    AlikeEffects R (finish (w.write line)) (finish (w'.write line)) :=
  alike_untouched (hR.write line h) _

theorem alike_refuse (v : Value) : AlikeEffects R (p.refuse w v) (p.refuse w' v) :=
  alike_write hR h _

theorem alike_withList {next next' : List Token → Effect κ}
    (hnext : ∀ items, AlikeEffects R (next items) (next' items)) :
    AlikeEffects R (p.withList w inputs index next) (p.withList w' inputs index next') := by
  refine alike_withInput h fun v => ?_
  split
  · exact hnext _
  · exact alike_refuse hR h v

theorem alike_withCondition {next next' : Bool → Effect κ}
    (hnext : ∀ b, AlikeEffects R (next b) (next' b)) :
    AlikeEffects R (p.withCondition w inputs next) (p.withCondition w' inputs next') := by
  refine alike_withInput h fun v => ?_
  split
  · exact hnext _
  · exact alike_refuse hR h v

theorem alike_withCount {next next' : Nat → Effect κ}
    (hnext : ∀ n, AlikeEffects R (next n) (next' n)) :
    AlikeEffects R (p.withCount w inputs next) (p.withCount w' inputs next') := by
  refine alike_withInput h fun v => ?_
  split
  · exact hnext _
  · exact alike_refuse hR h v

/-- A name finds the same procedure on both sides. -/
theorem alike_withNamed {next next' : Procedure κ → Effect κ}
    (hnext : ∀ q, AlikeEffects R (next q) (next' q)) :
    AlikeEffects R (p.withNamed w inputs next) (p.withNamed w' inputs next') := by
  refine alike_withInput h fun v => ?_
  split
  · exact alike_refuse hR h v
  rw [hR.lookup h]
  split
  · exact hnext _
  · exact alike_write hR h _

/-! ## Families of primitives -/

/-- Arithmetic does not look at the workspace. -/
theorem alike_performNumeric (f : Decimal → Decimal → Except RuntimeError Value) :
    AlikeEffects R (p.performNumeric f w inputs) (p.performNumeric f w' inputs) := by
  refine alike_withInput h fun a => alike_withInput h fun b => ?_
  split
  · split
    · exact alike_answer h _
    · exact alike_untouched h _
  · exact alike_refuse hR h a
  · exact alike_refuse hR h b

theorem alike_performLogical {f f' : List Bool → Effect κ}
    (hf : ∀ bs, AlikeEffects R (f bs) (f' bs)) :
    AlikeEffects R (p.performLogical f w inputs) (p.performLogical f' w' inputs) := by
  unfold performLogical
  split
  · exact hf _
  · exact alike_refuse hR h _

/-- Taking a value apart does not look at the workspace. -/
theorem alike_performTakeApart (side : End) (ofItems : Token × List Token → Value)
    (ofChars : Char × List Char → Value) :
    AlikeEffects R (p.performTakeApart side ofItems ofChars w inputs)
      (p.performTakeApart side ofItems ofChars w' inputs) := by
  refine alike_withInput h fun v => ?_
  split
  · split
    · exact alike_answer h _
    · exact alike_refuse hR h v
  · split
    · exact alike_answer h _
    · exact alike_refuse hR h v

/-! ## Single primitives -/

theorem alike_performMake : AlikeEffects R (performMake w inputs) (performMake w' inputs) := by
  refine alike_withInput h fun name => ?_
  split
  · exact alike_refuse hR h name
  · exact alike_refuse hR h name
  · exact alike_withInput h fun v => alike_untouched (hR.set _ v h) _

/-- Both sides read the same value, and both may get a global variable. -/
theorem alike_performThing : AlikeEffects R (performThing w inputs) (performThing w' inputs) := by
  refine alike_withInput h fun name => ?_
  split
  · exact alike_refuse hR h name
  · rename_i text _
    obtain ⟨hvalue, hw⟩ := hR.read text h
    simp only [hvalue]
    exact alike_answer hw _

theorem alike_performErase : AlikeEffects R (performErase w inputs) (performErase w' inputs) := by
  refine alike_withInput h fun name => ?_
  split
  · exact alike_refuse hR h name
  · exact alike_untouched (hR.clear _ h) _

/-- Both sides are in the same round. -/
theorem alike_performIteration : AlikeEffects R (performIteration w) (performIteration w') := by
  unfold performIteration
  rw [hR.repeats h]
  exact alike_answer h _

/-- Both sides are inside a procedure, or neither is. -/
theorem alike_performOutput :
    AlikeEffects R (performOutput w inputs) (performOutput w' inputs) := by
  unfold performOutput
  rw [hR.inProcedure h]
  split
  · exact alike_withInput h fun v => alike_untouched (hR.raise _ h) _
  · exact alike_untouched h _

theorem alike_performStop : AlikeEffects R (performStop w) (performStop w') := by
  unfold performStop
  rw [hR.inProcedure h]
  split
  · exact alike_untouched (hR.raise _ h) _
  · exact alike_untouched h _

theorem alike_performIfTrue :
    AlikeEffects R (performIfTrue w inputs) (performIfTrue w' inputs) := by
  refine alike_withCondition hR h fun condition => alike_withList hR h fun items => ?_
  split <;> exact alike_untouched h _

theorem alike_performNegation :
    AlikeEffects R (performNegation w inputs) (performNegation w' inputs) := by
  refine alike_performLogical hR h fun bs => ?_
  split
  · exact alike_answer h _
  · exact alike_untouched h _

theorem alike_performCount : AlikeEffects R (performCount w inputs) (performCount w' inputs) := by
  refine alike_withInput h fun v => ?_
  split
  · exact alike_answer h _
  · exact alike_answer h _
  · exact alike_refuse hR h v

theorem alike_performWord : AlikeEffects R (performWord w inputs) (performWord w' inputs) := by
  refine alike_withInput h fun a => alike_withInput h fun b => ?_
  split
  · exact alike_answer h _
  · exact alike_refuse hR h a
  · exact alike_refuse hR h b

theorem alike_performItem : AlikeEffects R (performItem w inputs) (performItem w' inputs) := by
  refine alike_withCount hR h fun position => alike_withInput h fun v => ?_
  split
  · split
    · exact alike_answer h _
    · exact alike_untouched h _
  · split
    · exact alike_answer h _
    · exact alike_untouched h _
  · exact alike_refuse hR h v

theorem alike_performHelp : AlikeEffects R (performHelp w inputs) (performHelp w' inputs) := by
  refine alike_withNamed hR h fun q => ?_
  simp only
  split
  · exact alike_write hR h _
  · exact alike_write hR (hR.write _ h) _

/-- The names of all procedures are the same on both sides. -/
theorem alike_performProcedures : AlikeEffects R (performProcedures w) (performProcedures w') := by
  unfold performProcedures
  rw [hR.registry h]
  exact alike_answer h _

/-- **A primitive does alike in workspaces that look alike.** -/
theorem alike_perform (p : Primitive) (inputs : List Value) :
    AlikeEffects R (p.perform w inputs) (p.perform w' inputs) := by
  -- one primitive after the other; the families share a case
  cases p with
  | print | display => exact alike_withInput h fun v => alike_write hR h _
  | make => exact alike_performMake hR h
  | thing => exact alike_performThing hR h
  | erase => exact alike_performErase hR h
  | eraseAll => exact alike_untouched (hR.clearAll h) _
  | loop =>
    exact alike_withCount hR h fun times => alike_withList hR h fun items => alike_untouched h _
  | iteration => exact alike_performIteration hR h
  | run => exact alike_withList hR h fun items => alike_untouched h _
  | ifTrue => exact alike_performIfTrue hR h
  | ifElse =>
    exact alike_withCondition hR h fun condition => alike_withList hR h fun yes =>
      alike_withList hR h fun no => alike_untouched h _
  | output => exact alike_performOutput hR h
  | stop => exact alike_performStop hR h
  | sum | difference | product | quotient | less | greater =>
    unfold perform
    exact alike_performNumeric hR h _
  | equal => exact alike_withInput h fun a => alike_withInput h fun b => alike_answer h _
  | negation => exact alike_performNegation hR h
  | conjunction | disjunction => exact alike_performLogical hR h fun bs => alike_answer h _
  | first | last | butFirst | butLast => exact alike_performTakeApart hR h _ _ _
  | count => exact alike_performCount hR h
  | isEmpty | isNumber | isWord | isList => exact alike_withInput h fun v => alike_answer h _
  | word => exact alike_performWord hR h
  | list | sentence => exact alike_answer h _
  | putFirst | putLast =>
    exact alike_withList hR h fun items => alike_withInput h fun v => alike_answer h _
  | item => exact alike_performItem hR h
  | help => exact alike_performHelp hR h
  | printOut => exact alike_withNamed hR h fun q => alike_write hR h _
  | procedures => exact alike_performProcedures hR h

end Logo.Primitive
