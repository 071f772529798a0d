import Logo.Narration
import Logo.Registry
import Logo.Scope

/-!
# Workspaces

All that lasts while programs run: variables, procedures, what was written, and where the running
procedures are.
-/

namespace Logo

/-- The request to leave the running procedure. -/
inductive Signal where
  /-- With a value. -/
  | output (v : Value)
  /-- Without a value. -/
  | stop

/-- Commands that a host supplies together. -/
structure Module (κ : Type) where
  /-- The name of the module. -/
  name : String
  /-- The procedures of the module. -/
  procedures : List (Procedure κ)

/-- The state of a session, whose commands are given by codes of type `κ`. -/
structure Workspace (κ : Type) where
  /-- The variables. -/
  scope : Scope := {}
  /-- The procedures. -/
  registry : Registry κ := {}
  /-- Names of the loaded modules, in the order of loading. -/
  modules : List String := []
  /-- The lines that were written. -/
  output : Array String := #[]
  /-- The notes that were recorded. -/
  notes : Array Note := #[]
  /-- Which notes are recorded. -/
  verbosity : Verbosity := .silent
  /-- The pending request to leave a procedure. -/
  signal : Option Signal := none
  /-- Numbers of the running iterations, innermost first. -/
  repeats : List Nat := []
  /-- How many parcels were made. -/
  parcels : Nat := 0

namespace Workspace

variable {κ : Type}

instance : Inhabited (Workspace κ) := ⟨{}⟩

/-! ## Output -/

/-- Writes a line. -/
def write (w : Workspace κ) (line : String) : Workspace κ :=
  { w with output := w.output.push line }

/-- Writes the message of an error. -/
def report (w : Workspace κ) (cause : RuntimeError) : Workspace κ :=
  w.write cause.message

/-- Writes that a procedure does not take a value. -/
def reject (w : Workspace κ) (procedure : String) (v : Value) : Workspace κ :=
  w.report (.typeMismatch procedure v.describe)

/-- Records a note, if the workspace is set to record it. -/
def narrate (w : Workspace κ) (note : Note) : Workspace κ :=
  if w.verbosity.admits note.level then { w with notes := w.notes.push note } else w

/-! ## Procedures -/

/-- Registers a procedure. -/
def register (w : Workspace κ) (p : Procedure κ) : Workspace κ :=
  { w with registry := w.registry.register p }.narrate (.registered p.name p.inputs)

/-- Loads a module: registers its procedures in order. -/
def load (w : Workspace κ) (m : Module κ) : Workspace κ :=
  let w := m.procedures.foldl register w
  { w with modules := w.modules ++ [m.name] }.narrate (.loaded m.name m.procedures.length)

/-- The procedures that a name calls. -/
def lookup (w : Workspace κ) (name : String) : List (Procedure κ) :=
  w.registry.lookup name

/-! ## Variables -/

/-- Reads a variable. -/
def getVariable (w : Workspace κ) (name : String) : Value × Workspace κ :=
  let (v, scope) := w.scope.get name
  (v, { w with scope })

/-- Gives a variable a value. -/
def setVariable (w : Workspace κ) (name : String) (v : Value) : Workspace κ :=
  { w with scope := w.scope.set name v }

/-- Removes a variable. -/
def clearVariable (w : Workspace κ) (name : String) : Workspace κ :=
  { w with scope := w.scope.clear name }

/-- Removes all variables of the innermost procedure, or all globals. -/
def clearVariables (w : Workspace κ) : Workspace κ :=
  { w with scope := w.scope.clearAll }

/-- Enters a call. -/
def pushFrame (w : Workspace κ) (frame : Frame) : Workspace κ :=
  { w with scope := { w.scope with frames := frame :: w.scope.frames } }

/-- Leaves the innermost call. -/
def popFrame (w : Workspace κ) : Workspace κ :=
  { w with scope := { w.scope with frames := w.scope.frames.tail } }

/-! ## Control -/

/-- Asks the running procedure to end. -/
def raise (w : Workspace κ) (signal : Signal) : Workspace κ :=
  { w with signal := some signal }

/-- Whether a procedure is being left. -/
def isUnwinding (w : Workspace κ) : Bool :=
  w.signal.isSome

/-- Takes the pending request to leave a procedure. -/
def takeSignal (w : Workspace κ) : Option Signal × Workspace κ :=
  (w.signal, { w with signal := none })

/-- Enters an iteration. -/
def pushRepeat (w : Workspace κ) (number : Nat) : Workspace κ :=
  { w with repeats := number :: w.repeats }

/-- Leaves the innermost iteration. -/
def popRepeat (w : Workspace κ) : Workspace κ :=
  { w with repeats := w.repeats.tail }

/-- Makes a parcel that differs from all made before. -/
def makeParcel (w : Workspace κ) : Parcel × Workspace κ :=
  (.made w.parcels, { w with parcels := w.parcels + 1 })

/-- Forgets the running calls and iterations and the pending request. -/
def resetExecution (w : Workspace κ) : Workspace κ :=
  { w with scope := { w.scope with frames := [] }, signal := none, repeats := [] }

end Workspace

end Logo
