import Logo.Token.Scan

/-!
# Tokens from line after line

A list or an expression may go on over several lines. The text from its opening bracket on is
carried over, and the next line is put behind it.
-/

namespace Logo

/-- A reader of lines, with the text that is carried over to the next line. -/
structure Reader where
  /-- The unfinished text; empty if nothing is carried over. -/
  carried : String := ""
  deriving DecidableEq, Repr, Inhabited

namespace Reader

/-- Whether an unfinished list or expression is carried over. -/
def isPending (r : Reader) : Bool :=
  !r.carried.isEmpty

/-- The text that is split when the line arrives. -/
def join (r : Reader) (line : String) : String :=
  if r.carried.isEmpty then line else r.carried ++ "\n" ++ line

/-- Reads a line. -/
def read (r : Reader) (line : String) : Scan × Reader :=
  match tokenize (r.join line) with
  | .incomplete tokens remainder => (.incomplete tokens remainder, ⟨remainder⟩)
  | result => (result, ⟨""⟩)

end Reader

end Logo
