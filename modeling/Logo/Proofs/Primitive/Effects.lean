import Logo.Primitive.Perform

/-!
# What primitives leave

A primitive does one of few things to the workspace: it writes, it touches a variable, it asks to
leave the running procedure, or it leaves the workspace alone. One that asks for a list to be run has
left it alone.

* `Primitive.Leaves`: these things.
* `Primitive.leaves_perform`: there are no others.
-/

namespace Logo.Primitive

variable {κ : Type}

/-- What a primitive leaves of the workspace `w`, and what it asks for. -/
inductive Leaves (w : Workspace κ) : Effect κ → Prop where
  | fail (cause : RuntimeError) : Leaves w (w, .fail cause)
  | nothing : Leaves w (finish w)
  | answer (v : Value) : Leaves w (answer w v)
  | write (line : String) : Leaves w (finish (w.write line))
  | writeTwo (line line' : String) : Leaves w (finish ((w.write line).write line'))
  | read (name : String) :
    Leaves w (Primitive.answer (w.getVariable name).2 (w.getVariable name).1)
  | set (name : String) (v : Value) : Leaves w (finish (w.setVariable name v))
  | clear (name : String) : Leaves w (finish (w.clearVariable name))
  | clearAll : Leaves w (finish w.clearVariables)
  | raise (signal : Signal) (h : w.scope.inProcedure = true) : Leaves w (finish (w.raise signal))
  | run (items : List Token) : Leaves w (w, .run items)
  | iterate (times : Nat) (items : List Token) : Leaves w (w, .iterate times items)

variable {p : Primitive} {w w' : Workspace κ} {inputs : List Value}

/-! ## Inputs -/

/-- Refusing an input writes a message, and does nothing else. -/
theorem leaves_refuse (v : Value) : Leaves w (p.refuse w v) :=
  .write _

/-- Looking at an input does nothing. -/
theorem leaves_withInput {index : Nat} {next : Value → Effect κ} (h : ∀ v, Leaves w (next v)) :
    Leaves w (p.withInput w inputs index next) := by
  unfold withInput
  split
  · exact h _
  · exact .fail _

theorem leaves_withList {index : Nat} {next : List Token → Effect κ}
    (h : ∀ items, Leaves w (next items)) : Leaves w (p.withList w inputs index next) := by
  refine leaves_withInput fun v => ?_
  split
  · exact h _
  · exact leaves_refuse v

theorem leaves_withCondition {next : Bool → Effect κ} (h : ∀ b, Leaves w (next b)) :
    Leaves w (p.withCondition w inputs next) := by
  refine leaves_withInput fun v => ?_
  split
  · exact h _
  · exact leaves_refuse v

theorem leaves_withCount {next : Nat → Effect κ} (h : ∀ n, Leaves w (next n)) :
    Leaves w (p.withCount w inputs next) := by
  refine leaves_withInput fun v => ?_
  split
  · exact h _
  · exact leaves_refuse v

/-- Looking for a procedure by its name does nothing, and a name without one is reported. -/
theorem leaves_withNamed {next : Procedure κ → Effect κ} (h : ∀ q, Leaves w (next q)) :
    Leaves w (p.withNamed w inputs next) := by
  refine leaves_withInput fun v => ?_
  split
  · exact leaves_refuse v
  split
  · exact h _
  · exact .write _

/-! ## Families of primitives -/

/-- Arithmetic leaves the workspace alone. -/
theorem leaves_performNumeric (f : Decimal → Decimal → Except RuntimeError Value) :
    Leaves w (p.performNumeric f w inputs) := by
  refine leaves_withInput fun a => leaves_withInput fun b => ?_
  split
  · split
    · exact .answer _
    · exact .fail _
  · exact leaves_refuse a
  · exact leaves_refuse b

theorem leaves_performLogical {f : List Bool → Effect κ} (h : ∀ bs, Leaves w (f bs)) :
    Leaves w (p.performLogical f w inputs) := by
  unfold performLogical
  split
  · exact h _
  · exact leaves_refuse _

/-- Taking a value apart leaves the workspace alone. -/
theorem leaves_performTakeApart (side : End) (ofItems : Token × List Token → Value)
    (ofChars : Char × List Char → Value) :
    Leaves w (p.performTakeApart side ofItems ofChars w inputs) := by
  refine leaves_withInput fun v => ?_
  split
  · split
    · exact .answer _
    · exact leaves_refuse v
  · split
    · exact .answer _
    · exact leaves_refuse v

/-! ## Single primitives -/

theorem leaves_performMake : Leaves w (performMake w inputs) := by
  refine leaves_withInput fun name => ?_
  split
  · exact leaves_refuse name
  · exact leaves_refuse name
  · exact leaves_withInput fun v => .set _ v

/-- A variable that is read may become a global one. -/
theorem leaves_performThing : Leaves w (performThing w inputs) := by
  refine leaves_withInput fun name => ?_
  split
  · exact leaves_refuse name
  · exact .read _

theorem leaves_performErase : Leaves w (performErase w inputs) := by
  refine leaves_withInput fun name => ?_
  split
  · exact leaves_refuse name
  · exact .clear _

/-- The commands that leave a procedure do nothing outside of any. -/
theorem leaves_performOutput : Leaves w (performOutput w inputs) := by
  unfold performOutput
  split
  · rename_i h
    exact leaves_withInput fun v => .raise _ h
  · exact .fail _

/-- Outside of a procedure there is nothing to stop, and an error is all that comes of it. -/
theorem leaves_performStop : Leaves w (performStop w) := by
  unfold performStop
  split
  · rename_i h
    exact .raise _ h
  · exact .fail _

theorem leaves_performIfTrue : Leaves w (performIfTrue w inputs) := by
  refine leaves_withCondition fun condition => leaves_withList fun items => ?_
  split
  · exact .run items
  · exact .nothing

theorem leaves_performNegation : Leaves w (performNegation w inputs) := by
  refine leaves_performLogical fun bs => ?_
  split
  · exact .answer _
  · exact .fail _

theorem leaves_performCount : Leaves w (performCount w inputs) := by
  refine leaves_withInput fun v => ?_
  split
  · exact .answer _
  · exact .answer _
  · exact leaves_refuse v

theorem leaves_performWord : Leaves w (performWord w inputs) := by
  refine leaves_withInput fun a => leaves_withInput fun b => ?_
  split
  · exact .answer _
  · exact leaves_refuse a
  · exact leaves_refuse b

theorem leaves_performItem : Leaves w (performItem w inputs) := by
  refine leaves_withCount fun position => leaves_withInput fun v => ?_
  split
  · split
    · exact .answer _
    · exact .fail _
  · split
    · exact .answer _
    · exact .fail _
  · exact leaves_refuse v

theorem leaves_performHelp : Leaves w (performHelp w inputs) := by
  refine leaves_withNamed fun q => ?_
  simp only
  split
  · exact .write _
  · exact .writeTwo _ _

/-- **What a primitive leaves**, whatever its inputs are. -/
theorem leaves_perform (p : Primitive) (w : Workspace κ) (inputs : List Value) :
    Leaves w (p.perform w inputs) := by
  -- one primitive after the other; the families share a case
  cases p with
  | print => exact leaves_withInput fun v => .write _
  | display => exact leaves_withInput fun v => .write _
  | make => exact leaves_performMake
  | thing => exact leaves_performThing
  | erase => exact leaves_performErase
  | eraseAll => exact .clearAll
  | loop => exact leaves_withCount fun times => leaves_withList fun items => .iterate times items
  | iteration => exact .answer _
  | run => exact leaves_withList fun items => .run items
  | ifTrue => exact leaves_performIfTrue
  | ifElse =>
    exact leaves_withCondition fun condition => leaves_withList fun yes =>
      leaves_withList fun no => .run _
  | output => exact leaves_performOutput
  | stop => exact leaves_performStop
  | sum | difference | product | quotient | less | greater =>
    unfold perform
    exact leaves_performNumeric _
  | equal => exact leaves_withInput fun a => leaves_withInput fun b => .answer _
  | negation => exact leaves_performNegation
  | conjunction | disjunction => exact leaves_performLogical fun bs => .answer _
  | first | last | butFirst | butLast => exact leaves_performTakeApart _ _ _
  | count => exact leaves_performCount
  | isEmpty | isNumber | isWord | isList => exact leaves_withInput fun v => .answer _
  | word => exact leaves_performWord
  | list | sentence | procedures => exact .answer _
  | putFirst | putLast => exact leaves_withList fun items => leaves_withInput fun v => .answer _
  | item => exact leaves_performItem
  | help => exact leaves_performHelp
  | printOut => exact leaves_withNamed fun q => .write _

/-- A primitive that asks for a list to be run has left the workspace alone. -/
theorem perform_run {items : List Token} (h : p.perform w inputs = (w', .run items)) : w' = w := by
  have hleaves := leaves_perform p w inputs
  rw [h] at hleaves
  cases hleaves with
  | run => rfl

/-- Only a loop asks for rounds, and it has done nothing before. -/
theorem perform_iterate {times : Nat} {items : List Token}
    (h : p.perform w inputs = (w', .iterate times items)) : w' = w := by
  have hleaves := leaves_perform p w inputs
  rw [h] at hleaves
  cases hleaves with
  | iterate => rfl

end Logo.Primitive
