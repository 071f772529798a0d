import Logo.Proofs.Evaluation.Simulation
import Logo.Session
import Mathlib.Data.List.Chain

/-!
# Comments

A comment is dropped where it is met: before a statement, before an input, or before an operand. So
a sequence is carried out as if it had no comments, with one exception. Whether a run of values goes
on is decided by the token behind its last value, and a comment there hides an operator.

* `SameUpToComments`: two sequences that differ in comments, none of which hides an operator. The
  relation is symmetric, so that one direction is all that has to be shown.
* `agreesUpToComments_evaluate`: every job on the two sequences ends in the same way.
* `execute_without_comments`: comments that do not stand before an operator may be left out.
-/

namespace Logo

variable {κ : Type}

/-! ## Sequences that differ in comments -/

/-- The sequences differ in comments only, and what follows such a comment does not begin with an
operator. -/
inductive SameUpToComments : List Token → List Token → Prop where
  | nil : SameUpToComments [] []
  | cons (t : Token) {tokens tokens' : List Token} (h : SameUpToComments tokens tokens') :
    SameUpToComments (t :: tokens) (t :: tokens')
  | left (text : String) {tokens tokens' : List Token} (h : SameUpToComments tokens tokens')
    (hclear : Clear tokens') : SameUpToComments (.comment text :: tokens) tokens'
  | right (text : String) {tokens tokens' : List Token} (h : SameUpToComments tokens tokens')
    (hclear : Clear tokens) : SameUpToComments tokens (.comment text :: tokens')

/-- The sequence without its comments. -/
def withoutComments (tokens : List Token) : List Token :=
  tokens.filter fun t => !t.isComment

namespace SameUpToComments

variable {tokens tokens' : List Token}

theorem refl (tokens : List Token) : SameUpToComments tokens tokens := by
  induction tokens with
  | nil => exact .nil
  | cons t tokens ih => exact .cons t ih

/-- Each side may be the one with more comments. -/
theorem symm (h : SameUpToComments tokens tokens') : SameUpToComments tokens' tokens := by
  induction h with
  | nil => exact .nil
  | cons t _ ih => exact .cons t ih
  | left text _ hclear ih => exact .right text ih hclear
  | right text _ hclear ih => exact .left text ih hclear

theorem append (before : List Token) (h : SameUpToComments tokens tokens') :
    SameUpToComments (before ++ tokens) (before ++ tokens') := by
  induction before with
  | nil => exact h
  | cons t before ih => exact .cons t ih

/-- An operator that one of the sequences begins with is not hidden in the other. -/
theorem exists_operator {op : Operator} (h : SameUpToComments (.operator op :: tokens) tokens') :
    ∃ rest, tokens' = .operator op :: rest ∧ SameUpToComments tokens rest := by
  cases h with
  | cons _ h => exact ⟨_, rfl, h⟩
  | right text _ hclear => exact absurd (hclear _ rfl) (by simp [Token.isOperator])

/-- No comment hides an operator, so that both sides begin with one or none does. -/
theorem clear (h : SameUpToComments tokens tokens') (hclear : Clear tokens) : Clear tokens' := by
  intro t ht
  cases tokens' with
  | nil => cases ht
  | cons u rest =>
    cases ht
    cases t
    case operator op =>
      obtain ⟨rest', rfl, -⟩ := h.symm.exists_operator
      exact hclear _ rfl
    all_goals rfl

/-- Without comments the sequences are the same. -/
theorem withoutComments_eq (h : SameUpToComments tokens tokens') :
    withoutComments tokens' = withoutComments tokens := by
  induction h with
  | nil => rfl
  | cons t _ ih =>
    unfold withoutComments at ih ⊢
    rw [List.filter_cons, List.filter_cons, ih]
  | left text _ _ ih => simpa [withoutComments, Token.isComment] using ih
  | right text _ _ ih => simpa [withoutComments, Token.isComment] using ih

end SameUpToComments

/-- No comment stands directly before an operator. -/
def NoneHidden (tokens : List Token) : Prop :=
  tokens.IsChain fun t u => t.isComment = true → u.isOperator = false

/-- What follows a comment does not begin with an operator, without the comments in it either. -/
theorem NoneHidden.clear {text : String} {tokens : List Token}
    (h : NoneHidden (.comment text :: tokens)) : Clear (withoutComments tokens) := by
  induction tokens generalizing text with
  | nil => exact clear_nil
  | cons t tokens ih =>
    obtain ⟨hop, hrest⟩ := List.isChain_cons_cons.1 h
    cases t
    case comment text' => exact ih hrest
    all_goals exact clear_cons (hop rfl)

/-- Comments that hide no operator can be left out one by one. -/
theorem NoneHidden.sameUpToComments {tokens : List Token} (h : NoneHidden tokens) :
    SameUpToComments tokens (withoutComments tokens) := by
  induction tokens with
  | nil => exact .nil
  | cons t tokens ih =>
    have hrest : NoneHidden tokens := h.tail
    cases t
    case comment text => exact .left text (ih hrest) h.clear
    all_goals exact .cons _ (ih hrest)

/-! ## Jobs and results -/

/-- The same job on two sequences that differ in comments. A job on the token at the head has the
same token there. -/
inductive Job.SameUpToComments : Job κ → Job κ → Prop where
  | sequence {lenient tokens tokens'} (h : Logo.SameUpToComments tokens tokens') :
    SameUpToComments (.sequence lenient tokens) (.sequence lenient tokens')
  | statement {lenient t rest rest'} (h : Logo.SameUpToComments rest rest') :
    SameUpToComments (.statement lenient (t :: rest)) (.statement lenient (t :: rest'))
  | token {lenient t rest rest'} (h : Logo.SameUpToComments rest rest') :
    SameUpToComments (.token lenient (t :: rest)) (.token lenient (t :: rest'))
  | word {lenient operand t rest rest'} (h : Logo.SameUpToComments rest rest') :
    SameUpToComments (.word lenient operand (t :: rest)) (.word lenient operand (t :: rest'))
  | argument {tokens tokens'} (h : Logo.SameUpToComments tokens tokens') :
    SameUpToComments (.argument tokens) (.argument tokens')
  | chain {window rest rest'} (h : Logo.SameUpToComments rest rest') :
    SameUpToComments (.chain window rest) (.chain window rest')
  | expression {source children rest rest'} (h : Logo.SameUpToComments rest rest') :
    SameUpToComments (.expression source children rest) (.expression source children rest')

theorem Job.SameUpToComments.operand (lenient : Bool) (t : Token) {rest rest' : List Token}
    (h : Logo.SameUpToComments rest rest') :
    Job.SameUpToComments (operandJob lenient (t :: rest) : Job κ)
      (operandJob lenient (t :: rest')) := by
  cases t
  case word => exact .word h
  all_goals exact .token h

/-- The jobs ended in the same way, and what is left differs in comments. -/
structure Result.SameUpToComments (r r' : Result κ) : Prop where
  outcome : r'.outcome = r.outcome
  workspace : r'.workspace = r.workspace
  tokens : Logo.SameUpToComments r.tokens r'.tokens

/-! ## A comment at the head -/

section Head

variable [Commands κ] {w : Workspace κ} {text : String} {tokens : List Token}

theorem evaluate_token_comment (lenient : Bool) :
    evaluate (.token lenient (.comment text :: tokens)) w = some ⟨.complete, tokens, w⟩ := by
  rw [evaluate_eq]
  rfl

theorem evaluate_statement_comment (lenient : Bool) :
    evaluate (.statement lenient (.comment text :: tokens)) w = some ⟨.complete, tokens, w⟩ := by
  rw [evaluate_eq]
  rfl

variable (hw : w.isUnwinding = false)

include hw

/-- A comment before a statement is passed over. -/
theorem evaluate_sequence_comment (lenient : Bool) :
    evaluate (.sequence lenient (.comment text :: tokens)) w =
      evaluate (.sequence lenient tokens) w := by
  rw [evaluate_sequence_statement tokens lenient hw rfl, evaluate_statement_comment]
  rfl

/-- A comment in the place of an operand is dropped, and the search goes on behind it. -/
theorem throughOperand_comment (lenient : Bool) (done : List Token) (next : List Token → Job κ) :
    throughOperand evaluate lenient done next (.comment text :: tokens) w =
      evaluate (next tokens) w := by
  have hdropped : operand evaluate lenient (.comment text :: tokens) w =
      some ⟨.complete, tokens, w⟩ := evaluate_token_comment lenient
  exact throughOperand_of_complete hdropped rfl hw

/-- A comment before an input is passed over. -/
theorem evaluate_argument_comment :
    evaluate (.argument (.comment text :: tokens)) w = evaluate (.argument tokens) w := by
  rw [evaluate_eq]
  exact throughOperand_comment hw true [] .argument

/-- A comment behind an operator is passed over, too: the operator was met already. -/
theorem evaluate_chain_comment (window : List Token) (op : Operator) :
    evaluate (.chain window (.operator op :: .comment text :: tokens)) w =
      evaluate (.chain window (.operator op :: tokens)) w := by
  rw [evaluate_eq]
  exact throughOperand_comment hw false (window ++ [.operator op])
    fun tokens => .chain window (.operator op :: tokens)

end Head

/-! ## One step -/

/-- The evaluator does jobs on sequences that differ in comments in the same way. -/
def Evaluator.AgreesUpToComments [Commands κ] (e : Evaluator κ) : Prop :=
  ∀ ⦃job w job'⦄, w.isUnwinding = false → job.SameUpToComments job' →
    Follows Result.SameUpToComments (e job w) (evaluate job' w)

section Step

variable [Commands κ] {e : Evaluator κ} {w : Workspace κ}
  (hext : (evaluate : Evaluator κ).Extends e)

include hext

/-- What evaluation does with its sequence, apart from the four steps below, does not look at
comments. -/
theorem simulation_comments : Simulation e (fun w => w.isUnwinding = false) SameUpToComments
    Result.SameUpToComments where
  extended := hext
  outcome h := h.outcome
  workspace h := h.workspace
  tokens h _ _ := h.tokens
  after done h := ⟨h.outcome, h.workspace, h.tokens.append done⟩
  ended _ _ _ h := ⟨rfl, rfl, h⟩
  cons t h := .cons t h
  value h hvalue hvalue' := by
    obtain ⟨text, v, rest, rfl⟩ := hvalue
    obtain ⟨text', v', rest', rfl⟩ := hvalue'
    cases h with
    | cons _ h => exact ⟨_, rest, rest', rfl, rfl, h⟩
  calm hw := hw
  kept _ _ _ hw := hw

/-- An evaluator with fewer results drops a comment in the same way. -/
theorem throughOperand_comment_of_extends (hw : w.isUnwinding = false) {lenient : Bool}
    {done tokens : List Token} {text : String} {next : List Token → Job κ} {r : Result κ}
    (h : throughOperand e lenient done next (.comment text :: tokens) w = some r) :
    e (next tokens) w = some r := by
  obtain ⟨r1, h1, -⟩ := Option.bind_eq_some_iff.1 h
  have hdropped := hext _ _ _ h1
  rw [evaluate_token_comment] at hdropped
  cases hdropped
  rwa [throughOperand_of_complete h1 rfl hw] at h

variable (he : e.AgreesUpToComments) (hw : w.isUnwinding = false)

include he hw

namespace SameUpToComments

/-- Comments at the head of either sequence are dropped before the next statement. -/
theorem stepSequence {lenient : Bool} {tokens tokens' : List Token}
    (hsame : SameUpToComments tokens tokens') :
    Follows Result.SameUpToComments (Logo.stepSequence e lenient tokens w)
      (evaluate (.sequence lenient tokens') w) := by
  have hsim := simulation_comments hext
  induction hsame with
  | nil =>
    rw [evaluate_eq]
    simp only [Job.step, Logo.stepSequence, hw]
    exact follows_some ⟨rfl, rfl, .nil⟩
  | right text _ _ ih =>
    rw [evaluate_sequence_comment hw]
    exact ih
  -- a comment is a statement that does nothing, and the sequence goes on behind it
  | left text hsame _ _ =>
    intro r h
    rw [stepSequence_statement e _ lenient hw rfl] at h
    obtain ⟨r1, h1, h⟩ := Option.bind_eq_some_iff.1 h
    have hdropped := hext _ _ _ h1
    rw [evaluate_statement_comment] at hdropped
    cases hdropped
    exact he hw (.sequence hsame) r h
  | cons t hsame ih =>
    cases ht : t.isLiteral with
    | true => exact hsim.stepSequence_value ht ih
    | false =>
      exact hsim.stepSequence hw ht (he hw (.statement hsame)) fun hw h => he hw (.sequence h)

/-- Comments before an input are dropped, in either sequence. -/
theorem stepArgument {tokens tokens' : List Token} (hsame : SameUpToComments tokens tokens') :
    Follows Result.SameUpToComments (Logo.stepArgument e tokens w)
      (evaluate (.argument tokens') w) := by
  -- on the comments in front of the first token that both sequences have
  induction hsame with
  | nil =>
    rw [evaluate_eq]
    exact follows_some ⟨rfl, rfl, .nil⟩
  | right text _ _ ih =>
    rw [evaluate_argument_comment hw]
    exact ih
  | left text hsame _ _ =>
    intro r h
    rw [stepArgument_operand rfl] at h
    exact he hw (.argument hsame) r (throughOperand_comment_of_extends hext hw h)
  | cons t hsame _ =>
    exact (simulation_comments hext).stepArgument hw hsame (he hw (.chain hsame))
      (he hw (.operand true t hsame)) fun hw h => he hw (.argument h)

/-- Behind an operator comments are dropped before the operand. -/
theorem stepChain_operator (window : List Token) (op : Operator) {tokens tokens' : List Token}
    (hsame : SameUpToComments tokens tokens') :
    Follows Result.SameUpToComments (Logo.stepChain e window (.operator op :: tokens) w)
      (evaluate (.chain window (.operator op :: tokens')) w) := by
  -- on the comments between the operator and its operand
  induction hsame with
  | nil =>
    rw [evaluate_eq]
    exact follows_some ⟨rfl, rfl, .refl _⟩
  | right text _ _ ih =>
    rw [evaluate_chain_comment hw]
    exact ih
  | left text hsame _ _ =>
    intro r h
    rw [stepChain_operand window op rfl] at h
    have hnext := throughOperand_comment_of_extends hext hw h
    exact he hw (.chain (.cons _ hsame)) r hnext
  | cons t hsame _ =>
    exact (simulation_comments hext).stepChain_operator window op hw hsame (he hw (.chain hsame))
      (he hw (.operand false t hsame)) fun hw h => he hw (.chain h)

/-- A run of values ends at the same place: no comment hides the operator behind it. -/
theorem stepChain {window rest rest' : List Token} (hsame : SameUpToComments rest rest') :
    Follows Result.SameUpToComments (Logo.stepChain e window rest w)
      (evaluate (.chain window rest') w) := by
  -- whether the run ends here is the same on both sides, as no comment hides an operator
  by_cases hclear : Clear rest
  · have hclose : Logo.stepChain e window rest w = some (closeChain window rest w) := by
      unfold Logo.stepChain
      split
      · exact absurd (hclear _ rfl) (by simp [Token.isOperator])
      · rfl
    rw [hclose, evaluate_chain_close window (hsame.clear hclear)]
    exact follows_some ((simulation_comments hext).closeChain window hsame)
  · cases rest with
    | nil => exact absurd clear_nil hclear
    | cons t rest =>
      cases t
      case operator op =>
        obtain ⟨rest', rfl, hrest⟩ := hsame.exists_operator
        exact stepChain_operator hext he hw window op hrest
      all_goals exact absurd (clear_cons rfl) hclear

end SameUpToComments

end Step

/-! ## Whole runs -/

/-- **Jobs on sequences that differ in comments end in the same way.** -/
theorem agreesUpToComments_evaluate [Commands κ] : (evaluate : Evaluator κ).AgreesUpToComments := by
  intro job w job' hw hsame r h
  -- by induction on the depth of the run on the first side; the second may take another depth
  obtain ⟨n, hn⟩ := evaluate_eq_some_iff.1 h
  refine eval_induction (P := fun job w r => w.isUnwinding = false →
    ∀ job', job.SameUpToComments job' → ∃ r', evaluate job' w = some r' ∧ r.SameUpToComments r')
    (fun e hext hjobs job w r h hw job' hsame => ?_) hn hw job' hsame
  have he : e.AgreesUpToComments := fun job w job' hw hsame r h => hjobs job w r h hw job' hsame
  have hsim := simulation_comments hext
  cases hsame with
  | sequence hsame => exact hsame.stepSequence hext he hw r h
  | statement hsame => exact hsim.stepStatement hsame (he hw (.token hsame)) r h
  | token hsame => exact hsim.stepToken hsame (he hw (.word hsame)) (he hw (.expression hsame)) r h
  | word hsame => exact hsim.stepWord (fun hw h => he hw (.argument h)) hw hsame r h
  | argument hsame => exact hsame.stepArgument hext he hw r h
  | chain hsame => exact hsame.stepChain hext he hw r h
  | expression hsame => exact hsim.stepExpression hw hsame (fun hw => he hw (.expression hsame)) r h

/-- One direction: the first sequence is carried out to its end, and so is the second. -/
theorem exists_execute_of_sameUpToComments [Commands κ] {w : Workspace κ} {fuel : Nat}
    {lenient : Bool} {tokens tokens' : List Token} {r : Result κ}
    (hsame : SameUpToComments tokens tokens') (h : w.execute fuel lenient tokens = some r) :
    ∃ fuel' r', w.execute fuel' lenient tokens' = some r' ∧ r.SameUpToComments r' := by
  have hr := evaluate_extends fuel _ _ _ h
  cases hw : w.isUnwinding with
  | true =>
    rw [evaluate_sequence_unwinding lenient _ hw] at hr
    cases hr
    obtain ⟨n, hn⟩ := evaluate_eq_some_iff.1 (evaluate_sequence_unwinding lenient tokens' hw)
    exact ⟨n, _, hn, rfl, rfl, hsame⟩
  | false =>
    obtain ⟨r', hr', hagrees⟩ := agreesUpToComments_evaluate hw (.sequence hsame) r hr
    obtain ⟨n, hn⟩ := evaluate_eq_some_iff.1 hr'
    exact ⟨n, r', hn, hagrees⟩

/-- **Comments do not count, unless they hide an operator.** A sequence in which no comment stands
directly before an operator is carried out as if it had no comments: it comes to an end exactly if
the other does, with the same outcome, in the same workspace, with the same lines written, and with
the same tokens left, up to comments. -/
theorem execute_without_comments [Commands κ] (w : Workspace κ) (lenient : Bool)
    (tokens : List Token) (h : NoneHidden tokens) :
    ((∃ fuel r, w.execute fuel lenient tokens = some r) ↔
      ∃ fuel r, w.execute fuel lenient (withoutComments tokens) = some r) ∧
    ∀ fuel fuel' r r', w.execute fuel lenient tokens = some r →
      w.execute fuel' lenient (withoutComments tokens) = some r' →
      r'.outcome = r.outcome ∧ r'.workspace = r.workspace ∧
        withoutComments r'.tokens = withoutComments r.tokens := by
  have hsame := h.sameUpToComments
  refine ⟨⟨?_, ?_⟩, ?_⟩
  · rintro ⟨fuel, r, hr⟩
    obtain ⟨fuel', r', hr', -⟩ := exists_execute_of_sameUpToComments hsame hr
    exact ⟨fuel', r', hr'⟩
  · rintro ⟨fuel, r, hr⟩
    obtain ⟨fuel', r', hr', -⟩ := exists_execute_of_sameUpToComments hsame.symm hr
    exact ⟨fuel', r', hr'⟩
  · intro fuel fuel' r r' hr hr'
    obtain ⟨n, q, hq, hagrees⟩ := exists_execute_of_sameUpToComments hsame hr
    cases eval_unique hq hr'
    exact ⟨hagrees.outcome, hagrees.workspace, hagrees.tokens.withoutComments_eq⟩

/-- The call `print sum 1 + 2 3`, with a comment behind the name, behind the operator, between two
inputs and at the end. -/
def remarkedCall : List Token :=
  [.word "print", .comment "; a", .word "sum", .literal "1" (.number ⟨1, 0⟩), .operator .add,
    .comment "; b", .literal "2" (.number ⟨2, 0⟩), .comment "; c", .literal "3" (.number ⟨3, 0⟩),
    .comment "; d"]

/-- The call writes the sum, with comments and without. -/
theorem execute_without_comments_call :
    NoneHidden remarkedCall ∧ ∃ r r' : Result (Command Empty),
      (Workspace.withPrimitives .silent).execute 30 false remarkedCall = some r ∧
      (Workspace.withPrimitives .silent).execute 30 false (withoutComments remarkedCall) = some r' ∧
      r.workspace.output = #["6"] ∧ r'.outcome = r.outcome ∧ r'.workspace = r.workspace := by
  have hnone : NoneHidden remarkedCall := by
    unfold NoneHidden
    decide
  have hruns : ((Workspace.withPrimitives .silent : Workspace (Command Empty)).execute 30 false
      remarkedCall).any (fun r => r.workspace.output = #["6"]) = true := by
    decide +kernel
  have hruns' : ((Workspace.withPrimitives .silent : Workspace (Command Empty)).execute 30 false
      (withoutComments remarkedCall)).isSome = true := by
    decide +kernel
  obtain ⟨r, hr, hwritten⟩ := (Option.any_eq_true _ _).1 hruns
  obtain ⟨r', hr'⟩ := Option.isSome_iff_exists.1 hruns'
  obtain ⟨houtcome, hworkspace, -⟩ :=
    (execute_without_comments _ false remarkedCall hnone).2 30 30 r r' hr hr'
  exact ⟨hnone, r, r', hr, hr', of_decide_eq_true hwritten, houtcome, hworkspace⟩

/-- The call `print 1 + 2`, with a comment before the operator. -/
def hiddenOperator : List Token :=
  [.word "print", .literal "1" (.number ⟨1, 0⟩), .comment "; one", .operator .add,
    .literal "2" (.number ⟨2, 0⟩)]

/-- The comment ends the input at `1`, and the operator is left without an operand. -/
theorem comment_hides_operator :
    ∃ r r' : Result (Command Empty),
      (Workspace.withPrimitives .silent).execute 30 false hiddenOperator = some r ∧
      (Workspace.withPrimitives .silent).execute 30 false (withoutComments hiddenOperator) =
        some r' ∧
      r.outcome = .failed (.missingOperand "+") ∧ r.workspace.output = #["1"] ∧
      r'.outcome = .complete ∧ r'.workspace.output = #["3"] := by
  have hruns : ((Workspace.withPrimitives .silent : Workspace (Command Empty)).execute 30 false
      hiddenOperator).any (fun r => r.outcome = .failed (.missingOperand "+") ∧
        r.workspace.output = #["1"]) = true := by
    decide +kernel
  have hruns' : ((Workspace.withPrimitives .silent : Workspace (Command Empty)).execute 30 false
      (withoutComments hiddenOperator)).any (fun r => r.outcome = .complete ∧
        r.workspace.output = #["3"]) = true := by
    decide +kernel
  obtain ⟨r, hr, hends⟩ := (Option.any_eq_true _ _).1 hruns
  obtain ⟨r', hr', hends'⟩ := (Option.any_eq_true _ _).1 hruns'
  obtain ⟨houtcome, hwritten⟩ := of_decide_eq_true hends
  obtain ⟨houtcome', hwritten'⟩ := of_decide_eq_true hends'
  exact ⟨r, r', hr, hr', houtcome, hwritten, houtcome', hwritten'⟩

end Logo
