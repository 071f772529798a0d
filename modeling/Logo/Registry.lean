import Logo.Procedure

/-!
# Registered procedures

Every procedure that was ever registered is kept in order. The index tells which procedures a name
calls. A name that a fixed procedure has never changes hands.
-/

namespace Logo

/-- The procedures of a session. -/
structure Registry (κ : Type) where
  /-- All procedures, in the order of their registration. -/
  procedures : List (Procedure κ) := []
  /-- The procedures that each name calls, in the order of their registration. -/
  index : Table (List (Procedure κ)) := .empty

namespace Registry

variable {κ : Type}

instance : Inhabited (Registry κ) := ⟨{}⟩

/-- The procedures that share a name, when `p` is registered under it too. -/
def enlist (p : Procedure κ) (holders : List (Procedure κ)) : List (Procedure κ) :=
  if holders.any (·.redefinability == .fixed) then holders
  else if p.redefinability == .alongside then holders ++ [p]
  else [p]

/-- Registers a procedure under one name. -/
def enlistUnder (p : Procedure κ) (index : Table (List (Procedure κ))) (name : String) :
    Table (List (Procedure κ)) :=
  index.insert name (enlist p ((index.find? name).getD []))

/-- Registers a procedure under all its names. -/
def register (r : Registry κ) (p : Procedure κ) : Registry κ :=
  { procedures := r.procedures ++ [p], index := p.names.foldl (enlistUnder p) r.index }

/-- The procedures that a name calls, written in any case. -/
def lookup (r : Registry κ) (name : String) : List (Procedure κ) :=
  (r.index.find? (Text.lowercase name)).getD []

/-- Whether a name belongs to a fixed procedure. -/
def isFixed (r : Registry κ) (name : String) : Bool :=
  (r.lookup name).any (·.redefinability == .fixed)

/-- The names that call a procedure, in order. -/
def names (r : Registry κ) : List String :=
  (r.index.entries.filter fun e => !e.2.isEmpty).map Prod.fst

end Registry

end Logo
