import Logo.CommandLine

/-!
# The program

Reading and printing around `Logo.CommandLine`.
-/

namespace Logo.CommandLine

/-- Prints what a session wrote and recorded, and returns the session without it. -/
def flush (elapsed : String) (s : Session (Command Shell)) : IO (Session (Command Shell)) := do
  for line in s.workspace.output do
    IO.println line
  for note in s.workspace.notes do
    IO.eprintln (note.render elapsed)
  return { s with workspace := { s.workspace with output := #[], notes := #[] } }

/-- The line without its ending, when its backspaces have done their work. -/
def chomp (line : String) : String :=
  Text.applyBackspaces ((Text.lines line).headD "")

/-- Takes lines from the standard input until it ends or the program is left. -/
partial def interact (input : IO.FS.Stream) (s : Session (Command Shell)) : IO Unit := do
  let line ← input.getLine
  if line.isEmpty then return
  let started ← IO.monoNanosNow
  match s.tryInterpret ampleFuel (chomp line) with
  | none => return
  | some r =>
    let elapsed := toString ((← IO.monoNanosNow) - started) ++ "ns"
    if isQuit r.1 then
      discard (flush elapsed r.2)
    else
      interact input (← flush elapsed (Session.conclude r).2)

/-- Reads a file, if it can be read. -/
def readFile? (name : String) : IO (Option String) := do
  try
    return some (← IO.FS.readFile name)
  catch _ =>
    return none

/-- Carries out the contents of the arguments. -/
def runContents (o : Options) (contents : String) : IO UInt32 := do
  let source ← if o.file then readFile? contents else pure (some contents)
  let started ← IO.monoNanosNow
  match runOptions ampleFuel o "" fun _ => source with
  | none => return 1
  | some e =>
    let elapsed := toString ((← IO.monoNanosNow) - started) ++ "ns"
    discard (flush elapsed e.session)
    for line in e.messages do
      IO.eprintln line
    return e.code.toUInt32

end Logo.CommandLine

open Logo CommandLine in
/-- Runs the program. -/
def main (args : List String) : IO UInt32 := do
  match Options.parse? {} args with
  | none =>
    IO.eprint usage.stderr
    return usage.code.toUInt32
  | some o =>
    match o.contents with
    | some contents => runContents o contents
    | none =>
      interact (← IO.getStdin) (← flush "0ns" (startSession o))
      return 0
