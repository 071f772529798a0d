import Logo.Table
import Logo.Token

/-!
# Variables

A variable is looked up from the innermost frame outwards and then among the globals. Names are
folded to lowercase. A procedure that was defined by the program has a frame with its inputs. A
command has a transparent frame, which binds nothing.

* `Scope.get` reads a variable, and makes it a global without a value if it is bound nowhere.
* `Scope.set` and `Scope.clear` act on the innermost frame that binds the name, or on the globals.
-/

namespace Logo

/-- The variables of one call; `none` is a transparent frame. -/
abbrev Frame :=
  Option (Table Value)

/-- All variables that can be seen. -/
structure Scope where
  /-- Variables outside of any procedure. -/
  globals : Table Value := .empty
  /-- The frames of the running calls, innermost first. -/
  frames : List Frame := []
  deriving Inhabited

namespace Scope

/-- The value that the innermost frame with the name gives it. -/
def findLocal? (key : String) (frames : List Frame) : Option Value :=
  frames.findSome? fun frame => frame.bind (·.find? key)

/-- Changes the innermost frame that binds the name; `none` if no frame does. -/
def updateLocal? (key : String) (f : Table Value → Table Value) : List Frame → Option (List Frame)
  | [] => none
  | none :: rest => (updateLocal? key f rest).map (none :: ·)
  | some table :: rest =>
    if table.contains key then some (some (f table) :: rest)
    else (updateLocal? key f rest).map (some table :: ·)

/-- Reads a variable. -/
def get (s : Scope) (name : String) : Value × Scope :=
  let key := Text.lowercase name
  match (findLocal? key s.frames).or (s.globals.find? key) with
  | some v => (v, s)
  | none => (.unknown, { s with globals := s.globals.insert key .unknown })

/-- Gives a variable a value. -/
def set (s : Scope) (name : String) (v : Value) : Scope :=
  let key := Text.lowercase name
  match updateLocal? key (·.insert key v) s.frames with
  | some frames => { s with frames }
  | none => { s with globals := s.globals.insert key v }

/-- Removes a variable. -/
def clear (s : Scope) (name : String) : Scope :=
  let key := Text.lowercase name
  match updateLocal? key (·.erase key) s.frames with
  | some frames => { s with frames }
  | none => { s with globals := s.globals.erase key }

/-- Empties the innermost frame that is not transparent; `none` if there is none. -/
def clearLocals? : List Frame → Option (List Frame)
  | [] => none
  | none :: rest => (clearLocals? rest).map (none :: ·)
  | some _ :: rest => some (some .empty :: rest)

/-- Removes all variables of the innermost frame that is not transparent, or all globals. -/
def clearAll (s : Scope) : Scope :=
  match clearLocals? s.frames with
  | some frames => { s with frames }
  | none => { s with globals := .empty }

/-- Whether a procedure that was defined by the program is running. -/
def inProcedure (s : Scope) : Bool :=
  s.frames.any Option.isSome

end Scope

end Logo
