import Logo.Proofs.Evaluation.Asking
import Logo.Proofs.Evaluation.Waiting

/-!
# Jobs on two sequences

Two sequences may differ in tokens that play no part. That a job on the one ends like the same job on
the other is shown step by step, and most of what a step does with the results of its jobs has
nothing to do with the difference.

* `Follows`: where there is one result, there is the other.
* `Simulation`: which sequences and which results belong together, and in which workspaces.
* `Simulation.stepSequence` and the lemmas behind it: each kind of step, given its jobs. What is left
  to show for a simulation is what becomes of the tokens in which the sequences differ.
-/

namespace Logo

variable {κ : Type} {α β : Type}

/-! ## One result after the other -/

/-- Where `x` has a result, `x'` has one to which it is related. -/
def Follows (S : α → α → Prop) (x x' : Option α) : Prop :=
  ∀ a, x = some a → ∃ a', x' = some a' ∧ S a a'

theorem follows_some {S : α → α → Prop} {a a' : α} (h : S a a') :
    Follows S (some a) (some a') := by
  intro b hb
  cases hb
  exact ⟨a', rfl, h⟩

/-- Where one side goes on, the other side goes on in the same way. -/
theorem Follows.bind {S : α → α → Prop} {T : β → β → Prop} {x x' : Option α} {f f' : α → Option β}
    (h : Follows S x x')
    (hf : ∀ a a', x = some a → x' = some a' → S a a' → Follows T (f a) (f' a')) :
    Follows T (x.bind f) (x'.bind f') := by
  intro b hb
  obtain ⟨a, ha, hb⟩ := Option.bind_eq_some_iff.1 hb
  obtain ⟨a', ha', hS⟩ := h a ha
  rw [ha', Option.bind_some]
  exact hf a a' ha ha' hS b hb

theorem Follows.map {S : α → α → Prop} {T : β → β → Prop} {x x' : Option α} {f f' : α → β}
    (h : Follows S x x') (hf : ∀ a a', S a a' → T (f a) (f' a')) :
    Follows T (x.map f) (x'.map f') := by
  rw [Option.map_eq_bind, Option.map_eq_bind]
  exact h.bind fun a a' _ _ ha => follows_some (hf a a' ha)

/-! ## Results that belong together -/

/-- Sequences are related by `R`, and results by `S`, in workspaces with the property `I`. Results
that are related ended in the same way and in the same workspace. What an evaluator that `evaluate`
extends leaves has the property again, unless a procedure is being left. -/
structure Simulation [Commands κ] (e : Evaluator κ) (I : Workspace κ → Prop)
    (R : List Token → List Token → Prop) (S : Result κ → Result κ → Prop) : Prop where
  extended : (evaluate : Evaluator κ).Extends e
  outcome : ∀ {r r'}, S r r' → r'.outcome = r.outcome
  workspace : ∀ {r r'}, S r r' → r'.workspace = r.workspace
  tokens : ∀ {r r'}, S r r' → r.outcome = .complete → r.workspace.isUnwinding = false →
    R r.tokens r'.tokens
  after : ∀ {r r'} done, S r r' → S (r.after done) (r'.after done)
  ended : ∀ {rest rest'} outcome w, outcome ≠ .incomplete → R rest rest' →
    S ⟨outcome, rest, w⟩ ⟨outcome, rest', w⟩
  cons : ∀ {rest rest'} t, R rest rest' → R (t :: rest) (t :: rest')
  value : ∀ {tokens tokens'}, R tokens tokens' → BeginsWithValue tokens → BeginsWithValue tokens' →
    ∃ t rest rest', tokens = t :: rest ∧ tokens' = t :: rest' ∧ R rest rest'
  calm : ∀ {w}, I w → w.isUnwinding = false
  kept : ∀ {job w r}, I w → e job w = some r → job.Admits (fun _ => False) →
    r.workspace.isUnwinding = false → I r.workspace

namespace Simulation

variable [Commands κ] {e : Evaluator κ} {I : Workspace κ → Prop}
  {R : List Token → List Token → Prop} {S : Result κ → Result κ → Prop} {w : Workspace κ}
  (hsim : Simulation e I R S)

include hsim

theorem append {rest rest' : List Token} (done : List Token) (h : R rest rest') :
    R (done ++ rest) (done ++ rest') := by
  induction done with
  | nil => exact h
  | cons t done ih => exact hsim.cons t ih

/-- The outcome and the workspace of the first result are those of the second. -/
theorem sameEnd {r r' : Result κ} (h : S r r') :
    S ⟨r.outcome, r.tokens, r.workspace⟩ ⟨r.outcome, r'.tokens, r.workspace⟩ := by
  obtain ⟨outcome', tokens', w'⟩ := r'
  cases hsim.outcome h
  cases hsim.workspace h
  exact h

/-- A statement, and what follows it. -/
theorem stepSequence {lenient : Bool} {t : Token} {rest rest' : List Token} (hw : I w)
    (ht : t.isLiteral = false)
    (hstatement : Follows S (e (.statement lenient (t :: rest)) w)
      (evaluate (.statement lenient (t :: rest')) w))
    (hnext : ∀ {tokens tokens' w}, I w → R tokens tokens' →
      Follows S (e (.sequence lenient tokens) w) (evaluate (.sequence lenient tokens') w)) :
    Follows S (Logo.stepSequence e lenient (t :: rest) w)
      (evaluate (.sequence lenient (t :: rest')) w) := by
  have hcalm := hsim.calm hw
  rw [stepSequence_statement e rest lenient hcalm ht,
    evaluate_sequence_statement rest' lenient hcalm ht]
  refine hstatement.bind fun r r' hr _ hrr' => ?_
  rw [hsim.outcome hrr', hsim.workspace hrr']
  cases hdone : r.outcome with
  | incomplete => exact follows_some hrr'
  | failed cause => exact follows_some hrr'
  | complete =>
    cases hleaving : r.workspace.isUnwinding with
    | false =>
      exact hnext (hsim.kept hw hr trivial hleaving) (hsim.tokens hrr' hdone hleaving)
    | true =>
      -- nothing more is carried out, so that the results are those of the statement
      intro q hq
      have hq' := hsim.extended _ _ _ hq
      rw [evaluate_sequence_unwinding lenient _ hleaving] at hq' ⊢
      cases hq'
      exact ⟨_, rfl, hdone ▸ hsim.sameEnd hrr'⟩

/-- A value before the next statement stays where it is. -/
theorem stepSequence_value {lenient : Bool} {t : Token} {rest rest' : List Token}
    (ht : t.isLiteral = true)
    (hrest : Follows S (Logo.stepSequence e lenient rest w) (evaluate (.sequence lenient rest') w)) :
    Follows S (Logo.stepSequence e lenient (t :: rest) w)
      (evaluate (.sequence lenient (t :: rest')) w) := by
  have hvalue : ∀ u ∈ [t], u.isLiteral = true := fun u hu => List.mem_singleton.1 hu ▸ ht
  show Follows S (Logo.stepSequence e lenient ([t] ++ rest) w)
    (evaluate (.sequence lenient ([t] ++ rest')) w)
  rw [stepSequence_values e lenient hvalue, evaluate_sequence_values lenient hvalue]
  exact hrest.map fun _ _ h => hsim.after [t] h

/-- A statement looks at its first token, which is the same on both sides. -/
theorem stepStatement {lenient : Bool} {t : Token} {rest rest' : List Token} (hrest : R rest rest')
    (htoken : Follows S (e (.token lenient (t :: rest)) w)
      (evaluate (.token lenient (t :: rest')) w)) :
    Follows S (Logo.stepStatement e lenient (t :: rest) w)
      (evaluate (.statement lenient (t :: rest')) w) := by
  have hfailed (cause : RuntimeError) :
      S ⟨.failed cause, t :: rest, w⟩ ⟨.failed cause, t :: rest', w⟩ :=
    hsim.ended _ w (by simp) (hsim.cons t hrest)
  rw [evaluate_eq]
  cases t
  case comment => exact follows_some (hsim.ended _ _ (by simp) hrest)
  case list => exact follows_some (hfailed _)
  case expression => exact follows_some (hfailed _)
  case operator => exact follows_some (hfailed _)
  all_goals exact htoken

/-- A token is replaced by the same value on both sides, or the job is handed on. -/
theorem stepToken {lenient : Bool} {t : Token} {rest rest' : List Token} (hrest : R rest rest')
    (hword : Follows S (e (.word lenient false (t :: rest)) w)
      (evaluate (.word lenient false (t :: rest')) w))
    (hexpression : ∀ {source children}, Follows S (e (.expression source children rest) w)
      (evaluate (.expression source children rest') w)) :
    Follows S (Logo.stepToken e lenient (t :: rest) w)
      (evaluate (.token lenient (t :: rest')) w) := by
  rw [evaluate_eq]
  cases t
  case word => exact hword
  case expression => exact hexpression
  case comment => exact follows_some (hsim.ended _ _ (by simp) hrest)
  all_goals exact follows_some (hsim.ended _ _ (by simp) (hsim.cons _ hrest))

/-- The work behind an operand. -/
theorem throughOperand {lenient : Bool} {done tokens tokens' : List Token}
    {next : List Token → Job κ} (hw : I w)
    (hoperand : Follows S (e (operandJob lenient tokens) w)
      (evaluate (operandJob lenient tokens') w))
    (hnext : ∀ {tokens tokens' w}, I w → R tokens tokens' →
      Follows S (e (next tokens) w) (evaluate (next tokens') w)) :
    Follows S (Logo.throughOperand e lenient done next tokens w)
      (Logo.throughOperand evaluate lenient done next tokens' w) := by
  have hjob : (operandJob lenient tokens : Job κ).Admits fun _ => False := admits_operandJob _ _
  unfold Logo.throughOperand
  rw [operand_eq, operand_eq]
  refine hoperand.bind fun r r' hr _ hrr' => ?_
  rw [hsim.outcome hrr', hsim.workspace hrr']
  cases hdone : r.outcome with
  | incomplete => exact follows_some (hsim.after done hrr')
  | failed cause => exact follows_some (hsim.after done hrr')
  | complete =>
    -- the operand is there; whether evaluation goes on behind it is the same on both sides
    cases hleaving : r.workspace.isUnwinding with
    | false =>
      exact hnext (hsim.kept hw hr hjob hleaving) (hsim.tokens hrr' hdone hleaving)
    | true => exact follows_some (hsim.after done hrr')

/-- An input begins with the same token on both sides. -/
theorem stepArgument {t : Token} {rest rest' : List Token} (hw : I w) (hrest : R rest rest')
    (hchain : Follows S (e (.chain [t] rest) w) (evaluate (.chain [t] rest') w))
    (hoperand : Follows S (e (operandJob true (t :: rest)) w)
      (evaluate (operandJob true (t :: rest')) w))
    (hnext : ∀ {tokens tokens' w}, I w → R tokens tokens' →
      Follows S (e (.argument tokens) w) (evaluate (.argument tokens') w)) :
    Follows S (Logo.stepArgument e (t :: rest) w) (evaluate (.argument (t :: rest')) w) := by
  rw [evaluate_eq]
  cases t
  case literal => exact hchain
  case operator => exact follows_some (hsim.ended _ _ (by simp) (hsim.cons _ hrest))
  all_goals
    rw [stepArgument_operand rfl]
    exact hsim.throughOperand hw hoperand hnext

/-- A run of values goes on with an operator and an operand. -/
theorem stepChain_operator (window : List Token) (op : Operator) {t : Token}
    {rest rest' : List Token} (hw : I w) (hrest : R rest rest')
    (hchain : ∀ {window}, Follows S (e (.chain window rest) w) (evaluate (.chain window rest') w))
    (hoperand : Follows S (e (operandJob false (t :: rest)) w)
      (evaluate (operandJob false (t :: rest')) w))
    (hnext : ∀ {tokens tokens' w}, I w → R tokens tokens' →
      Follows S (e (.chain window tokens) w) (evaluate (.chain window tokens') w)) :
    Follows S (Logo.stepChain e window (.operator op :: t :: rest) w)
      (evaluate (.chain window (.operator op :: t :: rest')) w) := by
  rw [evaluate_eq]
  cases t
  case literal => exact hchain
  case operator =>
    exact follows_some
      (hsim.ended _ _ (by simp) (hsim.append window (hsim.cons _ (hsim.cons _ hrest))))
  all_goals
    rw [stepChain_operand window op rfl]
    exact hsim.throughOperand hw hoperand fun hw h => hnext hw (hsim.cons _ h)

/-- A run of values is closed in the same way, whatever follows it. -/
theorem closeChain (window : List Token) {rest rest' : List Token} (h : R rest rest') :
    S (Logo.closeChain window rest w) (Logo.closeChain window rest' w) := by
  unfold Logo.closeChain
  split
  · exact hsim.ended _ _ (by simp) (hsim.append window h)
  split
  · exact hsim.ended _ _ (by simp) (hsim.cons _ h)
  · exact hsim.ended _ _ (by simp) h

theorem closeExpression {source : String} {children rest rest' : List Token} (h : R rest rest') :
    S (Logo.closeExpression source children rest w)
      (Logo.closeExpression source children rest' w) := by
  unfold Logo.closeExpression
  split
  · exact hsim.ended _ _ (by simp) (hsim.cons _ h)
  split
  · exact hsim.ended _ _ (by simp) (hsim.cons _ h)
  · exact hsim.ended _ _ (by simp) (hsim.cons _ h)

/-- The children of an expression are not part of the sequence. -/
theorem stepExpression {source : String} {children rest rest' : List Token} (hw : I w)
    (hrest : R rest rest')
    (hnext : ∀ {children w}, I w → Follows S (e (.expression source children rest) w)
      (evaluate (.expression source children rest') w)) :
    Follows S (Logo.stepExpression e source children rest w)
      (evaluate (.expression source children rest') w) := by
  have hended (outcome : Outcome) (t : Token) (w : Workspace κ) (hne : outcome ≠ .incomplete) :
      S ⟨outcome, t :: rest, w⟩ ⟨outcome, t :: rest', w⟩ :=
    hsim.ended outcome w hne (hsim.cons t hrest)
  rw [evaluate_eq]
  simp only [Job.step, Logo.stepExpression]
  cases children.dropWhile isSettled with
  | nil => exact follows_some (hsim.closeExpression hrest)
  | cons child more =>
    -- the operand is the same one on both sides
    have hoperand : Follows (fun r r' => r = r') (operand e false (child :: more) w)
        (operand evaluate false (child :: more) w) :=
      fun r hr => ⟨r, (finitary_operand _ _ _).mono hsim.extended hr, rfl⟩
    refine hoperand.bind fun r r' hr _ heq => ?_
    subst heq
    rw [operand_eq] at hr
    cases r.outcome with
    | incomplete => exact follows_some (hended _ _ _ (by simp))
    | failed cause => exact follows_some (hended _ _ _ (by simp))
    | complete =>
      cases hleaving : r.workspace.isUnwinding with
      | false => exact hnext (hsim.kept hw hr (admits_operandJob _ _) hleaving)
      | true => exact follows_some (hended _ _ _ (by simp))

end Simulation

/-! ## Calls -/

/-- The inputs of two calls were found in the same way. -/
inductive Gathered.Matches (R : List Token → List Token → Prop) (S : Result κ → Result κ → Prop) :
    Gathered κ → Gathered κ → Prop where
  | ready (slots : List Token) {rest rest' : List Token} (w : Workspace κ) (h : R rest rest') :
    Matches R S (ready slots rest w) (ready slots rest' w)
  | unwound {tokens tokens' : List Token} (w : Workspace κ)
    (h : S ⟨.complete, tokens, w⟩ ⟨.complete, tokens', w⟩) :
    Matches R S (unwound tokens w) (unwound tokens' w)
  | halted {r r' : Result κ} (h : S r r') : Matches R S (halted r) (halted r')

namespace Simulation

variable [Commands κ] {e : Evaluator κ} {I : Workspace κ → Prop}
  {R : List Token → List Token → Prop} {S : Result κ → Result κ → Prop} {w : Workspace κ}
  (hsim : Simulation e I R S)

include hsim

theorem push {g g' : Gathered κ} (slot : List Token) (h : g.Matches R S g') :
    (g.push slot).Matches R S (g'.push slot) := by
  cases h with
  | ready slots w h => exact .ready _ w h
  | unwound w h => exact .unwound w (hsim.after slot h)
  | halted h => exact .halted (hsim.after slot h)

variable (hargument : ∀ {tokens tokens' w}, I w → R tokens tokens' →
  Follows S (e (.argument tokens) w) (evaluate (.argument tokens') w))

include hargument

/-- The search for inputs finds the same values. -/
theorem gather {count : Nat} {tokens tokens' : List Token} (hw : I w) (h : R tokens tokens') :
    Follows (Gathered.Matches R S) (Logo.gather e count tokens w)
      (Logo.gather evaluate count tokens' w) := by
  induction count generalizing tokens tokens' w with
  | zero => exact follows_some (.ready [] w h)
  | succ count ih =>
    refine (hargument hw h).bind fun r r' hr hr' hrr' => ?_
    rw [hsim.outcome hrr', hsim.workspace hrr']
    cases hdone : r.outcome with
    | incomplete => exact follows_some (.halted hrr')
    | failed cause => exact follows_some (.halted hrr')
    | complete =>
      have hdone' := (hsim.outcome hrr').trans hdone
      cases hleaving : r.workspace.isUnwinding with
      | true => exact follows_some (.unwound r.workspace (hdone ▸ hsim.sameEnd hrr'))
      | false =>
        have hleaving' : r'.workspace.isUnwinding = false := hsim.workspace hrr' ▸ hleaving
        -- both inputs were found, so that they are values
        obtain ⟨-, hvalue, -⟩ := shaped_of_extends hsim.extended _ _ _ hr
        obtain ⟨-, hvalue', -⟩ := shaped_evaluate hr'
        obtain ⟨t, rest, rest', hrest, hrest', hbehind⟩ :=
          hsim.value (hsim.tokens hrr' hdone hleaving) (hvalue hdone hleaving)
            (hvalue' hdone' hleaving')
        rw [hrest, hrest']
        refine (ih (hsim.kept hw hr trivial hleaving) hbehind).bind fun g g' _ _ hg => ?_
        exact follows_some (hsim.push [t] hg)

/-- A call finds the same inputs on both sides, and what follows them stays related. -/
theorem callWord {operand : Bool} {t : Token} {first : Procedure κ} {others : List (Procedure κ)}
    {rest rest' : List Token} (hw : I w) (h : R rest rest') :
    Follows S (Logo.callWord e operand t first others rest w)
      (Logo.callWord evaluate operand t first others rest' w) := by
  refine (hsim.gather hargument hw h).bind fun g g' _ _ hg => ?_
  cases hg with
  | halted hr => exact follows_some (hsim.after [t] hr)
  | unwound w1 hleft => exact follows_some (hsim.after (replacement operand none) hleft)
  | ready slots w1 hbehind =>
    -- the procedures get the same inputs on both sides
    have hcalls : Follows (fun r r' => r = r')
        (callAll e (slots.filterMap Token.value?) (first :: others) none w1)
        (callAll evaluate (slots.filterMap Token.value?) (first :: others) none w1) :=
      fun r hr => ⟨r, (finitary_callAll _ _ _ _).mono hsim.extended hr, rfl⟩
    refine hcalls.bind fun r r' hr _ heq => ?_
    subst heq
    have hne := outcome_callAll (shaped_of_extends hsim.extended) hr
    cases hdone : r.outcome with
    | incomplete => exact absurd hdone hne
    | failed cause => exact follows_some (hsim.ended _ _ (by simp) (hsim.cons t hbehind))
    | complete => exact follows_some (hsim.ended _ _ (by simp) (hsim.append _ hbehind))

/-- A word that stands in both sequences. -/
theorem stepWord {lenient operand : Bool} {t : Token} {rest rest' : List Token} (hw : I w)
    (h : R rest rest') :
    Follows S (Logo.stepWord e lenient operand (t :: rest) w)
      (evaluate (.word lenient operand (t :: rest')) w) := by
  rw [evaluate_eq]
  simp only [Job.step, Logo.stepWord]
  -- truth values and words without a procedure are replaced where they stand
  have hended (outcome : Outcome) (t : Token) (hne : outcome ≠ .incomplete) :
      S ⟨outcome, t :: rest, w⟩ ⟨outcome, t :: rest', w⟩ :=
    hsim.ended outcome w hne (hsim.cons t h)
  split
  · exact follows_some (hended _ _ (by simp))
  split
  · exact follows_some (hended _ _ (by simp))
  split
  · exact hsim.callWord hargument hw h
  split
  · exact follows_some (hended _ _ (by simp))
  · exact follows_some (hended _ _ (by simp))

end Simulation

end Logo
