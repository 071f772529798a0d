import Logo.Evaluation.Basic

/-!
# The primitives

The commands that every session has. Each has a name, perhaps aliases, a number of inputs, and a
line of help. `Primitive.all` lists them in the order in which they are registered.
-/

namespace Logo

/-- A command that every session has. -/
inductive Primitive where
  | print | display
  | make | thing | erase | eraseAll
  | loop | iteration | run | ifTrue | ifElse | output | stop
  | sum | difference | product | quotient
  | equal | less | greater | negation | conjunction | disjunction
  | first | last | butFirst | butLast | count
  | isEmpty | isNumber | isWord | isList
  | word | list | sentence | putFirst | putLast | item
  | help | printOut | procedures
  deriving DecidableEq, Repr

namespace Primitive

/-- What is known of a primitive apart from what it does. -/
structure Info where
  /-- The name. -/
  name : String
  /-- Further names. -/
  aliases : List String
  /-- The number of inputs. -/
  inputs : Nat
  /-- What it does, in one line. -/
  help : String
  /-- Inputs to show how it is called. -/
  sample : String

/-- Name, aliases, number of inputs, help and sample inputs of a primitive. -/
def info : Primitive → Info
  | print =>
    ⟨"print", ["pr"], 1, "Prints a value; a list loses its outer brackets.", "[hello world]"⟩
  | display => ⟨"show", [], 1, "Prints a value exactly as it would be written.", "[hello world]"⟩
  | make => ⟨"make", [], 2, "Gives a variable a value.", "\"size 10"⟩
  | thing => ⟨"thing", [], 1, "Outputs the value of a variable.", "\"size"⟩
  | erase => ⟨"erase", ["ern"], 1, "Removes a variable.", "\"size"⟩
  | eraseAll => ⟨"erall", [], 0, "Removes every variable in the current scope.", ""⟩
  | loop => ⟨"repeat", [], 2, "Runs a list a number of times.", "4 [print repcount]"⟩
  | iteration =>
    ⟨"repcount", [], 0, "Outputs the iteration number of the innermost repeat.", ""⟩
  | run => ⟨"run", [], 1, "Runs a list and outputs what it leaves behind.", "[print 1]"⟩
  | ifTrue => ⟨"if", [], 2, "Runs a list when a condition is true.", "true [print \"yes]"⟩
  | ifElse =>
    ⟨"ifelse", [], 3, "Runs the first list when a condition is true, the second otherwise.",
      "false [print \"yes] [print \"no]"⟩
  | output => ⟨"output", ["op"], 1, "Leaves the current procedure with a value.", ":n * 2"⟩
  | stop => ⟨"stop", [], 0, "Leaves the current procedure.", ""⟩
  | sum => ⟨"sum", [], 2, "Outputs the sum of two numbers.", "2 3"⟩
  | difference => ⟨"difference", [], 2, "Outputs the first number minus the second.", "5 3"⟩
  | product => ⟨"product", [], 2, "Outputs the product of two numbers.", "4 5"⟩
  | quotient => ⟨"quotient", [], 2, "Outputs the first number divided by the second.", "7 2"⟩
  | equal => ⟨"equalp", [], 2, "Outputs true if two values are equal.", "\"a \"a"⟩
  | less => ⟨"lessp", [], 2, "Outputs true if the first number is smaller.", "1 2"⟩
  | greater => ⟨"greaterp", [], 2, "Outputs true if the first number is larger.", "2 1"⟩
  | negation => ⟨"not", [], 1, "Outputs the opposite of a boolean.", "true"⟩
  | conjunction => ⟨"and", [], 2, "Outputs true if both inputs are true.", "true false"⟩
  | disjunction => ⟨"or", [], 2, "Outputs true if either input is true.", "true false"⟩
  | first =>
    ⟨"first", [], 1, "Outputs the first item of a list or character of a word.", "[a b c]"⟩
  | last =>
    ⟨"last", [], 1, "Outputs the last item of a list or character of a word.", "[a b c]"⟩
  | butFirst =>
    ⟨"butfirst", ["bf"], 1, "Outputs everything but the first item or character.", "[a b c]"⟩
  | butLast =>
    ⟨"butlast", ["bl"], 1, "Outputs everything but the last item or character.", "[a b c]"⟩
  | count => ⟨"count", [], 1, "Outputs the number of items or characters.", "[a b c]"⟩
  | isEmpty => ⟨"emptyp", [], 1, "Outputs true for the empty list and the empty word.", "[]"⟩
  | isNumber => ⟨"numberp", [], 1, "Outputs true if the input is a number.", "42"⟩
  | isWord => ⟨"wordp", [], 1, "Outputs true if the input is a word.", "\"abc"⟩
  | isList => ⟨"listp", [], 1, "Outputs true if the input is a list.", "[a b]"⟩
  | word => ⟨"word", [], 2, "Outputs two words joined into one.", "\"sun \"flower"⟩
  | list => ⟨"list", [], 2, "Outputs a list of its two inputs.", "\"a [b c]"⟩
  | sentence =>
    ⟨"sentence", ["se"], 2, "Outputs a list of its inputs, with list inputs spliced in.",
      "[a b] [c d]"⟩
  | putFirst => ⟨"fput", [], 2, "Outputs a list with a new first item.", "\"a [b c]"⟩
  | putLast => ⟨"lput", [], 2, "Outputs a list with a new last item.", "\"c [a b]"⟩
  | item => ⟨"item", [], 2, "Outputs the item at a position, counting from 1.", "2 [a b c]"⟩
  | help => ⟨"help", [], 1, "Describes a procedure.", "\"repeat"⟩
  | printOut => ⟨"po", [], 1, "Prints the definition of a procedure.", "\"square"⟩
  | procedures => ⟨"procedures", [], 0, "Outputs the names of every callable procedure.", ""⟩

/-- All primitives, in the order of their registration. -/
def all : List Primitive :=
  [print, display, make, thing, erase, eraseAll, loop, iteration, run, ifTrue, ifElse, output, stop,
    sum, difference, product, quotient, equal, less, greater, negation, conjunction, disjunction,
    first, last, butFirst, butLast, count, isEmpty, isNumber, isWord, isList, word, list, sentence,
    putFirst, putLast, item, help, printOut, procedures]

/-- The name of a primitive. -/
def name (p : Primitive) : String :=
  p.info.name

/-- The procedure of a primitive, whose code is `code`. -/
def procedure {κ : Type} (p : Primitive) (code : κ) : Procedure κ :=
  ((Procedure.command p.name p.info.inputs code).withAliases p.info.aliases).withHelp p.info.help
    p.info.sample

/-! ## What primitives do in the end -/

/-- What a performed command leaves: the workspace, and what it asks for. -/
abbrev Effect (κ : Type) :=
  Workspace κ × Action

variable {κ : Type}

/-- Nothing is produced. -/
def finish (w : Workspace κ) : Effect κ :=
  (w, .produce none)

/-- A value is produced. -/
def answer (w : Workspace κ) (v : Value) : Effect κ :=
  (w, .produce (some (.ofValue v)))

/-- An input is refused: that is written, and nothing is produced. -/
def refuse (p : Primitive) (w : Workspace κ) (v : Value) : Effect κ :=
  finish (w.reject p.name v)

/-- Goes on with the input at an index. -/
def withInput (p : Primitive) (w : Workspace κ) (inputs : List Value) (index : Nat)
    (next : Value → Effect κ) : Effect κ :=
  match inputs[index]? with
  | some v => next v
  | none => (w, .fail (.missingInput p.name))

end Primitive

end Logo
