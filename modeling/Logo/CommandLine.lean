import Logo.Script
import Logo.Text.Backspace

/-!
# The command line

The program takes a script, or with `--file` the name of one, and carries it out. Without either it
takes lines from the standard input, in which a backspace takes back what stands before it. What
programs write goes to the standard output, narration and the error of a script to the standard
error.

* `CommandLine.run` is what the program does, given its arguments, its input and the files.
-/

namespace Logo.CommandLine

/-! ## Arguments -/

/-- What the arguments ask for. -/
structure Options where
  /-- Whether the contents are the name of a file. -/
  file : Bool := false
  /-- How much is narrated. -/
  verbosity : Verbosity := .silent
  /-- A script, or the name of a file. -/
  contents : Option String := none

/-- Takes the name of a level. -/
def Options.withVerbosity? (o : Options) (name : String) : Option Options :=
  (Verbosity.ofName? name).map fun verbosity => { o with verbosity }

/-- Takes the argument that is not an option, of which there is at most one. -/
def Options.withContents? (o : Options) (contents : String) : Option Options :=
  match o.contents with
  | none => some { o with contents := some contents }
  | some _ => none

/-- What is left to do after a group of short options. -/
inductive ShortOptions where
  /-- Nothing. -/
  | done (o : Options)
  /-- The next argument is the name of a level. -/
  | wantsVerbosity (o : Options)

/-- Takes a group of short options, such as `fv` in `-fv terse`. The name of a level may follow its
letter directly or after an equals sign. -/
def shortOptions? (o : Options) : List Char → Option ShortOptions
  | [] => some (.done o)
  | 'f' :: rest => shortOptions? { o with file := true } rest
  | ['v'] => some (.wantsVerbosity o)
  | 'v' :: '=' :: name => (o.withVerbosity? (String.ofList name)).map .done
  | 'v' :: name => (o.withVerbosity? (String.ofList name)).map .done
  | _ => none

/-- What kind of argument a text is. -/
inductive Argument where
  /-- The argument `--`, behind which there are no options. -/
  | separator
  /-- An option with a long name. -/
  | long (name : List Char)
  /-- A group of options with one letter each. -/
  | short (letters : List Char)
  /-- Anything else. -/
  | plain

/-- The kind of an argument. -/
def Argument.ofString (s : String) : Argument :=
  match s.toList with
  | ['-', '-'] => .separator
  | '-' :: '-' :: name => .long name
  | '-' :: c :: letters => .short (c :: letters)
  | _ => .plain

/-- The arguments behind a separator. -/
def plainOptions? (o : Options) (args : List String) : Option Options :=
  args.foldlM Options.withContents? o

/-- Reads the arguments. There is no result if they are not understood. -/
def Options.parse? (o : Options) : List String → Option Options
  | [] => some o
  | arg :: rest =>
    match Argument.ofString arg with
    | .separator => plainOptions? o rest
    | .plain => do parse? (← o.withContents? arg) rest
    | .short letters => do
      match ← shortOptions? o letters with
      | .done o => parse? o rest
      | .wantsVerbosity o =>
        match rest with
        | name :: rest => do parse? (← o.withVerbosity? name) rest
        | [] => none
    | .long name =>
      if name = "file".toList then parse? { o with file := true } rest
      else if name = "verbosity".toList then
        match rest with
        | value :: rest => do parse? (← o.withVerbosity? value) rest
        | [] => none
      else if "verbosity=".toList.isPrefixOf name then do
        parse? (← o.withVerbosity? (String.ofList (name.drop "verbosity=".length))) rest
      else none

/-! ## The shell -/

/-- The command of the program itself. -/
inductive Shell where
  /-- Ends the program. -/
  | bye

instance : Host Shell where
  perform
    | .bye, w, _ => (w, .fail .quit)

/-- The module with the command of the program. -/
def shellModule : Module (Command Shell) :=
  ⟨"shell",
    [(Procedure.command "bye" 0 (.host .bye) |>.withAliases ["quit"]).withHelp
      "Leaves logoterp." ""]⟩

/-- The session at the start of the program. -/
def startSession (o : Options) : Session (Command Shell) :=
  (Session.start o.verbosity).load shellModule

/-! ## Runs -/

/-- What a run of the program leaves: the exit code, and messages besides those of the session. -/
structure Ending where
  /-- The exit code. -/
  code : Nat
  /-- Lines for the standard error. -/
  messages : List String
  /-- The session at the end. -/
  session : Session (Command Shell)

/-- Whether the program is to end. -/
def isQuit : Except InterpretError Status → Bool
  | .error (.runtime .quit) => true
  | _ => false

/-- Takes lines until they end or the program is left. -/
def runLines (fuel : Nat) (s : Session (Command Shell)) :
    List String → Option (Session (Command Shell))
  | [] => some s
  | line :: rest => do
    let r ← s.tryInterpret fuel (Text.applyBackspaces line)
    if isQuit r.1 then return r.2 else runLines fuel (Session.conclude r).2 rest

/-- Carries out a script. -/
def runSource (fuel : Nat) (s : Session (Command Shell)) (source : String) : Option Ending := do
  match ← s.runScript fuel source with
  | (.ok (), s) => return ⟨0, [], s⟩
  | (.error (.runtime .quit), s) => return ⟨0, [], s⟩
  | (.error e, s) => return ⟨1, [e.message], s⟩

/-- The message about a file that cannot be read. -/
def unreadable (name : String) : String :=
  "Failed to read the input file '" ++ name ++ "'. Perhaps this file does not exist?"

/-- Runs the program, with `input` for the lines of the standard input and `read?` for the files. -/
def runOptions (fuel : Nat) (o : Options) (input : String) (read? : String → Option String) :
    Option Ending :=
  let s := startSession o
  match o.contents with
  | none => (runLines fuel s (Text.lines input)).map fun s => ⟨0, [], s⟩
  | some contents =>
    if o.file then
      match read? contents with
      | some source => runSource fuel s source
      | none => some ⟨1, [unreadable contents], s⟩
    else runSource fuel s contents

/-- What a run of the program shows. -/
structure Transcript where
  /-- The exit code. -/
  code : Nat
  /-- The standard output. -/
  stdout : String
  /-- The standard error. -/
  stderr : String

/-- Lines as text. -/
def unlines (lines : List String) : String :=
  String.join (lines.map (· ++ "\n"))

/-- What a run shows, with `elapsed` for the time that is told in notes. -/
def Ending.transcript (e : Ending) (elapsed : String) : Transcript :=
  { code := e.code
    stdout := unlines e.session.workspace.output.toList
    stderr := unlines (e.session.workspace.notes.toList.map (Note.render elapsed) ++ e.messages) }

/-- The answer to arguments that are not understood. -/
def usage : Transcript :=
  ⟨2, "", "Usage: [--file] [--verbosity <LEVEL>] [CONTENTS]\n"⟩

/-- What the program does. -/
def run (fuel : Nat) (elapsed : String) (args : List String) (input : String)
    (read? : String → Option String) : Option Transcript :=
  match Options.parse? {} args with
  | none => some usage
  | some o => (runOptions fuel o input read?).map (·.transcript elapsed)

end Logo.CommandLine
