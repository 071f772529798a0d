import Logo.Operator.Apply

/-!
# Reduction of operands and operators

A run of values and operators comes down to one value. Each operator has a tier of its own: all
products are taken before any quotient, then sums, then differences, then comparisons. Inside a tier
the leftmost operator goes first.

* `reduce` gives the value, or the reason why there is none, and what is left of the run.
-/

namespace Logo

/-- What is left of a run, and why its reduction stopped if it did. -/
structure Reduction where
  /-- The run as far as it was reduced. -/
  tokens : List Token
  /-- Why the reduction stopped. -/
  error : Option RuntimeError

/-- Applies every `op` in `rest`, from left to right; `done` is what stands before `rest`, nearest
first, and holds no `op`. -/
def reduceTier (op : Operator) (done : List Token) : List Token → Reduction
  | [] => ⟨done.reverse, none⟩
  | token :: rest =>
    if token.operator? = some op then
      match done, rest with
      | .literal s a :: done', .literal t b :: rest' =>
        match op.apply a b with
        | .ok v => reduceTier op (.ofValue v :: done') rest'
        | .error e =>
          ⟨done'.reverse ++ .literal s a :: token :: .literal t b :: rest', some e⟩
      | _, _ => ⟨done.reverse ++ token :: rest, some (.missingOperand op.text)⟩
    else reduceTier op (token :: done) rest

/-- Applies the operators of each tier in turn. -/
def reduceTiers : List Operator → List Token → Reduction
  | [], tokens => ⟨tokens, none⟩
  | op :: ops, tokens =>
    let r := reduceTier op [] tokens
    match r.error with
    | none => reduceTiers ops r.tokens
    | some _ => r

/-- The value that a run of values and operators comes down to, and what is left of the run. -/
def reduce (tokens : List Token) : Except RuntimeError Value × List Token :=
  let r := reduceTiers Operator.precedence tokens
  match r.error, r.tokens with
  | some e, rest => (.error e, rest)
  | none, [.literal _ v] => (.ok v, r.tokens)
  | none, rest => (.error (.malformedExpression (joinTokens tokens)), rest)

end Logo
