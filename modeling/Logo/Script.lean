import Logo.Session
import Logo.Text.Lines

/-!
# Scripts

A script is carried out line by line, up to the first error. It must not end in the middle of
anything.
-/

namespace Logo.Session

variable {κ : Type} [Commands κ]

/-- Takes lines up to the first error; `status` is that of the line before. -/
def tryLines (s : Session κ) (fuel : Nat) (status : Status) :
    List String → Option (Except InterpretError Status × Session κ)
  | [] => some (.ok status, s)
  | line :: rest => do
    match ← s.tryInterpret fuel line with
    | (.ok status, s) => tryLines s fuel status rest
    | (.error e, s) => return (.error e, s)

/-- Carries out a script. -/
def runScript (s : Session κ) (fuel : Nat) (source : String) :
    Option (Except InterpretError Unit × Session κ) := do
  match ← s.tryLines fuel .complete (Text.lines source) with
  | (.ok .complete, s) => return (.ok (), s)
  | (.ok .incomplete, s) => return (.error .unexpectedEnd, s.reset)
  | (.error e, s) => return (.error e, s)

end Logo.Session
