import Logo.Primitive.Arithmetic
import Logo.Primitive.Inspection
import Logo.Primitive.Lists
import Logo.Primitive.Variables

/-!
# What the primitives do

* `Primitive.perform` performs any primitive, in a workspace with commands of any type.
* `Primitive.asModule` is the module that makes them known.
-/

namespace Logo.Primitive

variable {κ : Type}

/-- Performs a primitive. -/
def perform (p : Primitive) (w : Workspace κ) (inputs : List Value) : Effect κ :=
  match p with
  | print => print.withInput w inputs 0 fun v => finish (w.write v.printed)
  | display => display.withInput w inputs 0 fun v => finish (w.write v.render)
  | make => performMake w inputs
  | thing => performThing w inputs
  | erase => performErase w inputs
  | eraseAll => finish w.clearVariables
  | loop => performLoop w inputs
  | iteration => performIteration w
  | run => performRun w inputs
  | ifTrue => performIfTrue w inputs
  | ifElse => performIfElse w inputs
  | output => performOutput w inputs
  | stop => performStop w
  | sum => performSum w inputs
  | difference => performDifference w inputs
  | product => performProduct w inputs
  | quotient => performQuotient w inputs
  | equal => performEqual w inputs
  | less => performLess w inputs
  | greater => performGreater w inputs
  | negation => performNegation w inputs
  | conjunction => performConjunction w inputs
  | disjunction => performDisjunction w inputs
  | first => first.performPiece .front w inputs
  | last => last.performPiece .back w inputs
  | butFirst => butFirst.performRest .front w inputs
  | butLast => butLast.performRest .back w inputs
  | count => performCount w inputs
  | isEmpty => isEmpty.performTest isEmptyValue w inputs
  | isNumber => isNumber.performTest (·.number?.isSome) w inputs
  | isWord => isWord.performTest (·.wordText?.isSome) w inputs
  | isList => isList.performTest (·.list?.isSome) w inputs
  | word => performWord w inputs
  | list => performList w inputs
  | sentence => performSentence w inputs
  | putFirst => performPutFirst w inputs
  | putLast => performPutLast w inputs
  | item => performItem w inputs
  | help => performHelp w inputs
  | printOut => performPrintOut w inputs
  | procedures => performProcedures w

/-- The primitives as a module, with `code` for their codes. -/
def asModule (code : Primitive → κ) : Module κ :=
  ⟨"primitives", all.map fun p => p.procedure (code p)⟩

end Logo.Primitive
