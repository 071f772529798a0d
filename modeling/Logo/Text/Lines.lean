/-!
# Lines

A text as the lines it holds. A line ends at a line feed, and a carriage return right before the
line feed belongs to the ending. The last line may lack its ending; no line follows a last ending.
-/

namespace Logo.Text

/-- The line without a carriage return at its end. -/
def dropReturn (line : List Char) : List Char :=
  if line.getLast? = some '\r' then line.dropLast else line

/-- The lines of `cs`, where `line` holds what the current line has so far, latest first. -/
def linesFrom (line : List Char) : List Char → List String
  | [] => if line.isEmpty then [] else [String.ofList line.reverse]
  | c :: rest =>
    if c = '\n' then String.ofList (dropReturn line.reverse) :: linesFrom [] rest
    else linesFrom (c :: line) rest

/-- The lines of a text. -/
def lines (s : String) : List String :=
  linesFrom [] s.toList

end Logo.Text
