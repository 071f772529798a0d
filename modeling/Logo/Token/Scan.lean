import Logo.Error
import Logo.Text.Blank
import Logo.Token.Word

/-!
# Source text to tokens

A text is split into tokens from left to right. What stands between brackets is split on its own
once the closing bracket is found. Only brackets of the same kind are counted in the search for it,
and brackets in comments are not counted at all.

* `tokenize` splits a text. It is complete, or it ends inside brackets and the text from the opening
  bracket on is handed back, or it fails.
-/

namespace Logo

/-- The two kinds of brackets. -/
inductive Bracket where
  /-- Square brackets, around a list. -/
  | square
  /-- Parentheses, around an expression. -/
  | round
  deriving DecidableEq, Repr

namespace Bracket

/-- The bracket that opens. -/
def opening : Bracket → Char
  | square => '['
  | round => '('

/-- The bracket that closes. -/
def closing : Bracket → Char
  | square => ']'
  | round => ')'

/-- The kind that a character opens. -/
def ofOpening? : Char → Option Bracket
  | '[' => some square
  | '(' => some round
  | _ => none

/-- The token of what stands between two brackets. -/
def token : Bracket → List Token → Token
  | square, children => .list children
  | round, children => .expression children

/-- Splits a text at the bracket that closes, which is left out: the inside and what follows. There
are `depth` further brackets of the kind to close before it, and `inComment` tells whether the text
begins inside a comment. -/
def split (b : Bracket) (depth : Nat) (inComment : Bool) :
    List Char → Option (List Char × List Char)
  | [] => none
  | c :: cs =>
    if inComment then
      (split b depth (c != '\n') cs).map fun (inside, rest) => (c :: inside, rest)
    else if c = b.closing then
      match depth with
      | 0 => some ([], cs)
      | depth + 1 => (split b depth false cs).map fun (inside, rest) => (c :: inside, rest)
    else
      let depth := if c = b.opening then depth + 1 else depth
      (split b depth (c == ';') cs).map fun (inside, rest) => (c :: inside, rest)

/-- The inside, the closing bracket and what follows make up the text. -/
theorem eq_of_split (b : Bracket) {depth : Nat} {inComment : Bool} {cs inside rest : List Char}
    (h : b.split depth inComment cs = some (inside, rest)) : cs = inside ++ b.closing :: rest := by
  induction cs generalizing depth inComment inside with
  | nil => simp [split] at h
  | cons c cs ih =>
    unfold split at h
    split at h
    · obtain ⟨⟨i, r⟩, hi, he⟩ := Option.map_eq_some_iff.1 h
      cases he
      rw [ih hi]
      rfl
    · split at h
      · rename_i hc
        cases depth with
        | zero =>
          simp only [Option.some.injEq, Prod.mk.injEq] at h
          obtain ⟨rfl, rfl⟩ := h
          simp [hc]
        | succ depth =>
          obtain ⟨⟨i, r⟩, hi, he⟩ := Option.map_eq_some_iff.1 h
          cases he
          rw [ih hi]
          rfl
      · obtain ⟨⟨i, r⟩, hi, he⟩ := Option.map_eq_some_iff.1 h
        cases he
        rw [ih hi]
        rfl

end Bracket

/-- What a text splits into. -/
inductive Scan where
  /-- The whole text. -/
  | complete (tokens : List Token)
  /-- The tokens before brackets that are not closed, and the text from the opening bracket on. -/
  | incomplete (tokens : List Token) (remainder : String)
  /-- The text cannot be split. -/
  | failure (cause : ScanError)

/-- The scan with one more token in front. -/
def Scan.push (token : Token) : Scan → Scan
  | complete tokens => complete (token :: tokens)
  | incomplete tokens remainder => incomplete (token :: tokens) remainder
  | failure cause => failure cause

/-- Whether a character goes on with a word. Operators are part of a word only if it is quoted. -/
def continuesWord (quoted : Bool) (c : Char) : Bool :=
  !Text.isBlank c && c != '[' && c != ']' && c != '(' && c != ')' && c != ';' &&
    (quoted || (Operator.ofSymbol? c).isNone)

/-- Whether a minus sign between `previous` and `rest` begins a numeral: a digit follows, and what
stands before it cannot be an operand. -/
def beginsNumeral (previous : Option Char) (rest : List Char) : Bool :=
  rest.head?.any Char.isDigit &&
    previous.all fun p => Text.isBlank p || (Operator.ofSymbol? p).isSome

/-- The operator at the head of a text, unless it begins a numeral. -/
def leadingOperator? (previous : Option Char) (c : Char) (rest : List Char) : Option Operator :=
  if c = '-' && beginsNumeral previous rest then none else Operator.ofSymbol? c

/-- The complaint about a text that begins with a bracket and does not close it where it must. -/
def unterminated (text : String) : ScanError :=
  if text.toList.head? = some '[' then .unterminatedList text else .unterminatedExpression text

/-- Splits a text that stands between two words; `previous` is the character before it. -/
def scan (previous : Option Char) : List Char → Scan
  | [] => .complete []
  | c :: rest =>
    if Text.isBlank c then scan (some c) rest
    else if c = ';' then
      (scan (some c) (rest.dropWhile (· != '\n'))).push
        (.comment (String.ofList (c :: rest.takeWhile (· != '\n'))))
    else if c = ']' || c = ')' then .failure (.unexpectedClose c)
    else
      match Bracket.ofOpening? c with
      | some b =>
        match _h : b.split 0 false rest with
        | none => .incomplete [] (String.ofList (c :: rest))
        | some (inside, after) =>
          match scan none inside with
          | .complete children => (scan (some b.closing) after).push (b.token children)
          | .incomplete _ remainder =>
            .failure (unterminated remainder)
          | .failure cause => .failure cause
      | none =>
        match leadingOperator? previous c rest with
        | some op => (scan (some c) rest).push (.operator op)
        | none =>
          let word := c :: rest.takeWhile (continuesWord (c = '"'))
          (scan word.getLast? (rest.dropWhile (continuesWord (c = '"')))).push (.ofChars word)
termination_by cs => cs.length
decreasing_by
  · exact Nat.lt_succ_self _
  · exact Nat.lt_succ_of_le (List.dropWhile_suffix _).length_le
  · rw [List.length_cons, b.eq_of_split _h, List.length_append]; omega
  · rw [List.length_cons, b.eq_of_split _h, List.length_append, List.length_cons]; omega
  · exact Nat.lt_succ_self _
  · exact Nat.lt_succ_of_le (List.dropWhile_suffix _).length_le

/-- Splits a text into tokens. -/
def tokenize (text : String) : Scan :=
  scan none text.toList

end Logo
