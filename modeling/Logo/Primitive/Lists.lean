import Logo.Primitive.Control
import Logo.Text.Blank
import Logo.Token.Word

/-!
# Primitives on words and lists

Words and lists are taken apart, put together, counted and told apart. A number or a truth value is
taken apart as the word that it is written as.

* `Token.ofItem` is the token that stands for a value in a list.
-/

namespace Logo

/-- The characters of a value that can be taken apart as a word. -/
def Value.wordText? : Value → Option String
  | .text s => some s
  | .word s => some s
  | .number n => some n.render
  | .bool b => some (Value.bool b).render
  | _ => none

/-- A piece of a word as a value: a numeral is a number, anything else is a word. -/
def Value.ofPiece (piece : String) : Value :=
  match Decimal.parse? piece with
  | some n => .number n
  | none => .word piece

/-- The token that stands for a value in a list. Text without blanks is stored as the token that it
would be in the source, so that a list that was put together can be run. -/
def Token.ofItem : Value → Token
  | .text s => ofText (.text s) s
  | .word s => ofText (.word s) s
  | .list children => .list children
  | v => .ofValue v
where
  /-- The token of a value that is the text `s`. -/
  ofText (v : Value) (s : String) : Token :=
    if s.isEmpty || s.toList.any Text.isBlank then .ofValue v else .ofWord s

namespace Primitive

variable {κ : Type}

/-- Whether a piece is taken from the front or from the back. -/
inductive End where
  /-- The front. -/
  | front
  /-- The back. -/
  | back

/-- The piece at one end of a list, and what is left. -/
def End.split? {α : Type} : End → List α → Option (α × List α)
  | front, a :: rest => some (a, rest)
  | front, [] => none
  | back, items => items.getLast?.map fun a => (a, items.dropLast)

/-- Takes a piece from one end of a word or a list. What is empty is refused. -/
def performTakeApart (p : Primitive) (side : End) (ofItems : Token × List Token → Value)
    (ofChars : Char × List Char → Value) (w : Workspace κ) (inputs : List Value) : Effect κ :=
  p.withInput w inputs 0 fun v =>
    match v.list? with
    | some items =>
      match side.split? items with
      | some parts => answer w (ofItems parts)
      | none => p.refuse w v
    | none =>
      match v.wordText?.bind fun s => side.split? s.toList with
      | some parts => answer w (ofChars parts)
      | none => p.refuse w v

/-- Takes the piece itself. -/
def performPiece (p : Primitive) (side : End) (w : Workspace κ) (inputs : List Value) : Effect κ :=
  p.performTakeApart side (fun parts => parts.1.datum)
    (fun parts => .ofPiece (String.singleton parts.1)) w inputs

/-- Takes what is left without the piece. -/
def performRest (p : Primitive) (side : End) (w : Workspace κ) (inputs : List Value) : Effect κ :=
  p.performTakeApart side (fun parts => .list parts.2)
    (fun parts => .word (String.ofList parts.2)) w inputs

/-- The command `count thing`: the number of items or characters. -/
def performCount (w : Workspace κ) (inputs : List Value) : Effect κ :=
  count.withInput w inputs 0 fun v =>
    match v.list?, v.wordText? with
    | some items, _ => answer w (.number (.ofNat items.length))
    | none, some s => answer w (.number (.ofNat s.length))
    | none, none => count.refuse w v

/-- Asks a question about a value. -/
def performTest (p : Primitive) (test : Value → Bool) (w : Workspace κ) (inputs : List Value) :
    Effect κ :=
  p.withInput w inputs 0 fun v => answer w (.bool (test v))

/-- Whether a value is the empty list or an empty word. -/
def isEmptyValue : Value → Bool
  | .list items => items.isEmpty
  | .text s => s.isEmpty
  | .word s => s.isEmpty
  | _ => false

/-- The command `word a b`: two words joined to one. -/
def performWord (w : Workspace κ) (inputs : List Value) : Effect κ :=
  word.withInput w inputs 0 fun a =>
    word.withInput w inputs 1 fun b =>
      match a.wordText?, b.wordText? with
      | some s, some t => answer w (.word (s ++ t))
      | none, _ => word.refuse w a
      | _, none => word.refuse w b

/-- The command `list a b`: a list of two items. -/
def performList (w : Workspace κ) (inputs : List Value) : Effect κ :=
  answer w (.list (inputs.map Token.ofItem))

/-- The items that a value adds to a sentence. -/
def sentenceItems : Value → List Token
  | .list items => items
  | v => [Token.ofItem v]

/-- The command `sentence a b`: the items of both inputs, a list standing for its items. -/
def performSentence (w : Workspace κ) (inputs : List Value) : Effect κ :=
  answer w (.list (inputs.flatMap sentenceItems))

/-- The command `fput thing list`: the list with an item in front. -/
def performPutFirst (w : Workspace κ) (inputs : List Value) : Effect κ :=
  putFirst.withList w inputs 1 fun items =>
    putFirst.withInput w inputs 0 fun v => answer w (.list (Token.ofItem v :: items))

/-- The command `lput thing list`: the list with an item at its end. -/
def performPutLast (w : Workspace κ) (inputs : List Value) : Effect κ :=
  putLast.withList w inputs 1 fun items =>
    putLast.withInput w inputs 0 fun v => answer w (.list (items ++ [Token.ofItem v]))

/-- The entry of a list at a position, counted from one. -/
def entryAt? {α : Type} (items : List α) : Nat → Option α
  | 0 => none
  | position + 1 => items[position]?

/-- The complaint about a position without an item. -/
def noItem (position : Nat) : RuntimeError :=
  .invalidInput item.name ("there is no item " ++ toString position)

/-- The command `item position thing`: the item or character there, counted from one. -/
def performItem (w : Workspace κ) (inputs : List Value) : Effect κ :=
  item.withCount w inputs fun position =>
    item.withInput w inputs 1 fun v =>
      match v.list?, v.wordText? with
      | some items, _ =>
        match entryAt? items position with
        | some token => answer w token.datum
        | none => (w, .fail (noItem position))
      | none, some s =>
        match entryAt? s.toList position with
        | some c => answer w (.ofPiece (String.singleton c))
        | none => (w, .fail (noItem position))
      | none, none => item.refuse w v

end Primitive

end Logo
