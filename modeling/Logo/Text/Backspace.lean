import Logo.Text.Cluster

/-!
# Backspaces

A line that was not typed at a terminal may hold backspaces. Each takes back the cluster before it
that is still there.

* `applyBackspaces` is the line that remains.
-/

namespace Logo.Text

/-- What has been typed: the characters, latest first, and the sizes of the clusters that a
backspace can take back, latest first. A size is a number of bytes and is itself kept in a byte. -/
structure Typed where
  /-- The characters, latest first. -/
  text : List Char := []
  /-- The sizes of the clusters, latest first. -/
  sizes : List Nat := []

/-- The number of bytes that characters take. -/
def byteCount : List Char → Nat
  | [] => 0
  | c :: rest => c.utf8Size + byteCount rest

/-- Takes back the characters of the last `bytes` bytes; the text is given latest first. -/
def dropBytes (bytes : Nat) : List Char → List Char
  | [] => []
  | c :: rest => if bytes = 0 then c :: rest else dropBytes (bytes - c.utf8Size) rest

/-- Types a cluster. -/
def Typed.enter (t : Typed) (cluster : List Char) : Typed :=
  if cluster == ['\x08'] then
    match t.sizes with
    | [] => t
    | bytes :: sizes => ⟨dropBytes bytes t.text, sizes⟩
  else ⟨cluster.reverse ++ t.text, byteCount cluster % 256 :: t.sizes⟩

/-- The line that remains when its backspaces have done their work. -/
def applyBackspaces (line : String) : String :=
  if line.toList.contains '\x08' then
    String.ofList ((clusters line.toList).foldl Typed.enter {}).text.reverse
  else line

end Logo.Text
