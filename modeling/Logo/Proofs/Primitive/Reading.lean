import Logo.Primitive.Perform

/-!
# What primitives read

A primitive that is handed fewer inputs than it reads complains about a missing input. With as many
inputs as it declares, no primitive does (`Primitive.inRange_perform`).
-/

namespace Logo

variable {κ : Type}

/-- The action is not a complaint about a missing input. -/
def Action.InRange (action : Action) : Prop :=
  ∀ name, action ≠ .fail (.missingInput name)

namespace Primitive

variable {p : Primitive} {w : Workspace κ} {inputs : List Value}

/-- Refusing an input is no error. -/
theorem inRange_refuse (v : Value) : (p.refuse w v).2.InRange := by
  intro name h
  cases h

theorem inRange_answer (v : Value) : (answer w v).2.InRange := by
  intro name h
  cases h

theorem inRange_finish : (finish w).2.InRange := by
  intro name h
  cases h

section Inputs

variable (hinputs : inputs.length = p.info.inputs)

include hinputs

/-- An input is there if its index is below the number that is declared. -/
theorem inRange_withInput {index : Nat} {next : Value → Effect κ} (hindex : index < p.info.inputs)
    (h : ∀ v, (next v).2.InRange) : (p.withInput w inputs index next).2.InRange := by
  rw [← hinputs] at hindex
  rw [withInput, List.getElem?_eq_getElem hindex]
  exact h _

/-- An input that is declared is there to be looked at. -/
theorem inRange_withList {index : Nat} {next : List Token → Effect κ}
    (hindex : index < p.info.inputs) (h : ∀ items, (next items).2.InRange) :
    (p.withList w inputs index next).2.InRange := by
  refine inRange_withInput hinputs hindex fun v => ?_
  split
  · exact h _
  · exact inRange_refuse v

theorem inRange_withCondition {next : Bool → Effect κ} (hindex : 0 < p.info.inputs)
    (h : ∀ b, (next b).2.InRange) : (p.withCondition w inputs next).2.InRange := by
  refine inRange_withInput hinputs hindex fun v => ?_
  split
  · exact h _
  · exact inRange_refuse v

theorem inRange_withCount {next : Nat → Effect κ} (hindex : 0 < p.info.inputs)
    (h : ∀ n, (next n).2.InRange) : (p.withCount w inputs next).2.InRange := by
  refine inRange_withInput hinputs hindex fun v => ?_
  split
  · exact h _
  · exact inRange_refuse v

theorem inRange_withNamed {next : Procedure κ → Effect κ} (hindex : 0 < p.info.inputs)
    (h : ∀ q, (next q).2.InRange) : (p.withNamed w inputs next).2.InRange := by
  refine inRange_withInput hinputs hindex fun v => ?_
  split
  · exact inRange_refuse v
  split
  · exact h _
  · exact inRange_finish

/-- Arithmetic reads its two inputs, and its function does not complain of missing ones. -/
theorem inRange_performNumeric {f : Decimal → Decimal → Except RuntimeError Value}
    (hindex : 1 < p.info.inputs) (hf : ∀ x y name, f x y ≠ .error (.missingInput name)) :
    (p.performNumeric f w inputs).2.InRange := by
  refine inRange_withInput hinputs (by omega) fun a => inRange_withInput hinputs hindex fun b => ?_
  split
  · split
    · exact inRange_answer _
    · rename_i x y _ _ _ cause hcause
      intro name h
      cases h
      exact hf x y name hcause
  · exact inRange_refuse a
  · exact inRange_refuse b

omit hinputs in
/-- Truth values are read from all inputs, or from none. -/
theorem length_flags {bs : List Bool} (h : flags inputs = .ok bs) :
    bs.length = inputs.length := by
  induction inputs generalizing bs with
  | nil => cases h; rfl
  | cons v rest ih =>
    unfold flags at h
    split at h
    · cases hrest : flags rest with
      | ok cs =>
        rw [hrest] at h
        cases h
        rw [List.length_cons, List.length_cons, ih hrest]
      | error u =>
        rw [hrest] at h
        cases h
    · cases h

theorem inRange_performLogical {f : List Bool → Effect κ}
    (h : ∀ bs, bs.length = p.info.inputs → (f bs).2.InRange) :
    (p.performLogical f w inputs).2.InRange := by
  unfold performLogical
  split
  · rename_i bs hbs
    exact h bs ((length_flags hbs).trans hinputs)
  · exact inRange_refuse _

theorem inRange_performTakeApart (hindex : 0 < p.info.inputs) (side : End)
    (ofItems : Token × List Token → Value) (ofChars : Char × List Char → Value) :
    (p.performTakeApart side ofItems ofChars w inputs).2.InRange := by
  refine inRange_withInput hinputs hindex fun v => ?_
  split
  · split
    · exact inRange_answer _
    · exact inRange_refuse v
  · split
    · exact inRange_answer _
    · exact inRange_refuse v

end Inputs

theorem inRange_performMake (hinputs : inputs.length = make.info.inputs) :
    (performMake w inputs).2.InRange := by
  refine inRange_withInput hinputs (by decide) fun name => ?_
  split
  · exact inRange_refuse name
  · exact inRange_refuse name
  · exact inRange_withInput hinputs (by decide) fun v => inRange_finish

theorem inRange_performThing (hinputs : inputs.length = thing.info.inputs) :
    (performThing w inputs).2.InRange := by
  refine inRange_withInput hinputs (by decide) fun name => ?_
  split
  · exact inRange_refuse name
  · exact inRange_answer _

theorem inRange_performErase (hinputs : inputs.length = erase.info.inputs) :
    (performErase w inputs).2.InRange := by
  refine inRange_withInput hinputs (by decide) fun name => ?_
  split
  · exact inRange_refuse name
  · exact inRange_finish

theorem inRange_performOutput (hinputs : inputs.length = output.info.inputs) :
    (performOutput w inputs).2.InRange := by
  unfold performOutput
  split
  · exact inRange_withInput hinputs (by decide) fun v => inRange_finish
  · exact fun name h => by cases h

theorem inRange_performStop : (performStop w).2.InRange := by
  unfold performStop
  split
  · exact inRange_finish
  · exact fun name h => by cases h

theorem inRange_performNegation (hinputs : inputs.length = negation.info.inputs) :
    (performNegation w inputs).2.InRange := by
  refine inRange_performLogical hinputs fun bs hbs => ?_
  split
  · exact inRange_answer _
  · cases hbs

theorem inRange_performCount (hinputs : inputs.length = count.info.inputs) :
    (performCount w inputs).2.InRange := by
  refine inRange_withInput hinputs (by decide) fun v => ?_
  split
  · exact inRange_answer _
  · exact inRange_answer _
  · exact inRange_refuse v

theorem inRange_performWord (hinputs : inputs.length = word.info.inputs) :
    (performWord w inputs).2.InRange := by
  refine inRange_withInput hinputs (by decide) fun a =>
    inRange_withInput hinputs (by decide) fun b => ?_
  split
  · exact inRange_answer _
  · exact inRange_refuse a
  · exact inRange_refuse b

/-- The position and the value are both declared; a position without an item is an error of its
own. -/
theorem inRange_performItem (hinputs : inputs.length = item.info.inputs) :
    (performItem w inputs).2.InRange := by
  refine inRange_withCount hinputs (by decide) fun position =>
    inRange_withInput hinputs (by decide) fun v => ?_
  split
  · split
    · exact inRange_answer _
    · exact fun name h => by cases h
  · split
    · exact inRange_answer _
    · exact fun name h => by cases h
  · exact inRange_refuse v

/-- **A primitive that is handed as many inputs as it declares misses none.** -/
theorem inRange_perform (p : Primitive) (w : Workspace κ)
    (hinputs : inputs.length = p.info.inputs) : (p.perform w inputs).2.InRange := by
  -- each primitive reads inputs whose positions are below the number that it declares
  cases p with
  | print => exact inRange_withInput hinputs (by decide) fun v => inRange_finish
  | display => exact inRange_withInput hinputs (by decide) fun v => inRange_finish
  | make => exact inRange_performMake hinputs
  | thing => exact inRange_performThing hinputs
  | erase => exact inRange_performErase hinputs
  | eraseAll => exact inRange_finish
  | loop =>
    exact inRange_withCount hinputs (by decide) fun times =>
      inRange_withList hinputs (by decide) fun items name h => by cases h
  | iteration => exact inRange_answer _
  | run => exact inRange_withList hinputs (by decide) fun items name h => by cases h
  | ifTrue =>
    refine inRange_withCondition hinputs (by decide) fun condition =>
      inRange_withList hinputs (by decide) fun items => ?_
    split
    · exact fun name h => by cases h
    · exact inRange_finish
  | ifElse =>
    exact inRange_withCondition hinputs (by decide) fun condition =>
      inRange_withList hinputs (by decide) fun yes =>
        inRange_withList hinputs (by decide) fun no name h => by cases h
  | output => exact inRange_performOutput hinputs
  | stop => exact inRange_performStop
  | sum => exact inRange_performNumeric hinputs (by decide) fun x y name h => by cases h
  | difference => exact inRange_performNumeric hinputs (by decide) fun x y name h => by cases h
  | product => exact inRange_performNumeric hinputs (by decide) fun x y name h => by cases h
  | quotient =>
    refine inRange_performNumeric hinputs (by decide) fun x y name => ?_
    unfold Operator.divideNumbers
    split <;> exact fun h => by cases h
  | equal =>
    exact inRange_withInput hinputs (by decide) fun a =>
      inRange_withInput hinputs (by decide) fun b => inRange_answer _
  | less => exact inRange_performNumeric hinputs (by decide) fun x y name h => by cases h
  | greater => exact inRange_performNumeric hinputs (by decide) fun x y name h => by cases h
  | negation => exact inRange_performNegation hinputs
  | conjunction => exact inRange_performLogical hinputs fun bs _ => inRange_answer _
  | disjunction => exact inRange_performLogical hinputs fun bs _ => inRange_answer _
  | first => exact inRange_performTakeApart hinputs (by decide) _ _ _
  | last => exact inRange_performTakeApart hinputs (by decide) _ _ _
  | butFirst => exact inRange_performTakeApart hinputs (by decide) _ _ _
  | butLast => exact inRange_performTakeApart hinputs (by decide) _ _ _
  | count => exact inRange_performCount hinputs
  | isEmpty => exact inRange_withInput hinputs (by decide) fun v => inRange_answer _
  | isNumber => exact inRange_withInput hinputs (by decide) fun v => inRange_answer _
  | isWord => exact inRange_withInput hinputs (by decide) fun v => inRange_answer _
  | isList => exact inRange_withInput hinputs (by decide) fun v => inRange_answer _
  | word => exact inRange_performWord hinputs
  | list => exact inRange_answer _
  | sentence => exact inRange_answer _
  | putFirst =>
    exact inRange_withList hinputs (by decide) fun items =>
      inRange_withInput hinputs (by decide) fun v => inRange_answer _
  | putLast =>
    exact inRange_withList hinputs (by decide) fun items =>
      inRange_withInput hinputs (by decide) fun v => inRange_answer _
  | item => exact inRange_performItem hinputs
  | help => exact inRange_withNamed hinputs (by decide) fun q => inRange_finish
  | printOut => exact inRange_withNamed hinputs (by decide) fun q => inRange_finish
  | procedures => exact inRange_answer _

end Primitive

end Logo
