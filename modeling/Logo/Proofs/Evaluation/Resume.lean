import Logo.Proofs.Evaluation.Balance
import Logo.Proofs.Evaluation.Waiting
import Logo.Session

/-!
# Work that waits can be taken up

A sequence may be given in two parts. The first part is carried out, and what is left of it is
carried out again with the second part behind it. That is the same as to carry out both parts at
once, wherever the sequence is cut, provided that the second part does not begin with an operator,
which would go on with a run of values that the first part has already reduced.

* `Resumes`: what it means for one job to be taken up.
* `resumable_evaluate`: every job can be taken up.
* `execute_append`: sequences can be carried out in parts.
-/

namespace Logo

variable {κ : Type}

/-- No command changes the registry. -/
def Commands.KeepRegistry (κ : Type) [Commands κ] : Prop :=
  ∀ (code : κ) (w : Workspace κ) (inputs : List Value),
    (Commands.perform code w inputs).1.registry = w.registry

/-- Commands that keep the registry are all that is needed: nothing else in evaluation touches
it. -/
theorem kept_registry [Commands κ] (hκ : Commands.KeepRegistry κ) :
    Kept (fun _ : Procedure κ => True) fun w w' => w'.registry = w.registry where
  refl _ := rfl
  trans h h' := h'.trans h
  registry h := h
  read _ _ := rfl
  iteration _ h := h
  command inputs _ _ h := h.trans (hκ _ _ inputs)
  definition _ h := h

theorem lookup_of_evaluate [Commands κ] (hκ : Commands.KeepRegistry κ) {job : Job κ}
    {w : Workspace κ} {r : Result κ} (h : evaluate job w = some r) (name : String) :
    r.workspace.lookup name = w.lookup name :=
  (kept_registry hκ).lookup_of_evaluate h job.admits_all (fun _ _ _ => trivial) name

/-! ## More tokens behind a sequence -/

/-- The result with more tokens behind what is left. -/
def Result.extend (more : List Token) (r : Result κ) : Result κ :=
  { r with tokens := r.tokens ++ more }

@[simp]
theorem Result.workspace_extend (more : List Token) (r : Result κ) :
    (r.extend more).workspace = r.workspace := rfl

@[simp]
theorem Result.outcome_extend (more : List Token) (r : Result κ) :
    (r.extend more).outcome = r.outcome := rfl

@[simp]
theorem Result.tokens_extend (more : List Token) (r : Result κ) :
    (r.extend more).tokens = r.tokens ++ more := rfl

theorem Result.after_extend (done more : List Token) (r : Result κ) :
    (r.after done).extend more = (r.extend more).after done := by
  simp only [Result.after, Result.extend, List.append_assoc]

/-- The inputs with more tokens behind what is left. -/
def Gathered.extend (more : List Token) : Gathered κ → Gathered κ
  | ready slots rest w => ready slots (rest ++ more) w
  | unwound tokens w => unwound (tokens ++ more) w
  | halted r => halted (r.extend more)

theorem Gathered.push_extend (slot more : List Token) (g : Gathered κ) :
    (g.push slot).extend more = (g.extend more).push slot := by
  cases g with
  | ready slots rest w => rfl
  | unwound tokens w => simp only [push, extend, List.append_assoc]
  | halted r => simp only [push, extend, Result.after_extend]

/-- The work `F` on `tokens` ended with `r`. With more tokens behind it, it ends in the same way, or,
if it waits, it can be taken up where it stopped. -/
structure Resumes (more : List Token) (F : List Token → Workspace κ → Option (Result κ))
    (tokens : List Token) (w : Workspace κ) (r : Result κ) : Prop where
  ended : r.outcome ≠ .incomplete → F (tokens ++ more) w = some (r.extend more)
  waits : r.outcome = .incomplete → F (tokens ++ more) w = F (r.tokens ++ more) r.workspace

namespace Resumes

variable {more tokens : List Token} {F G : List Token → Workspace κ → Option (Result κ)}
  {w : Workspace κ} {r : Result κ}

/-- A job that does not wait has only to be shown to leave the new tokens alone. -/
theorem of_ended (hr : r.outcome ≠ .incomplete) (h : F (tokens ++ more) w = some (r.extend more)) :
    Resumes more F tokens w r :=
  ⟨fun _ => h, fun hr' => absurd hr' hr⟩

theorem of_untouched : Resumes more F tokens w ⟨.incomplete, tokens, w⟩ :=
  ⟨fun hr => absurd rfl hr, fun _ => rfl⟩

/-- Work that begins with other work, and is taken up by taking up that work. -/
theorem of_eq {tokens' : List Token} {w' : Workspace κ} (h : Resumes more F tokens' w' r)
    (hbegin : G (tokens ++ more) w = F (tokens' ++ more) w')
    (htake : r.outcome = .incomplete → G (r.tokens ++ more) r.workspace =
      F (r.tokens ++ more) r.workspace) :
    Resumes more G tokens w r := by
  refine ⟨fun hr => ?_, fun hr => ?_⟩
  · rw [hbegin, h.ended hr]
  · rw [hbegin, h.waits hr, htake hr]

end Resumes

/-! ## One step -/

/-- A job can be taken up. More statements may follow those of a sequence, so that a sequence that is
done is taken up like one that waits. -/
def Job.Resumable [Commands κ] (more : List Token) (w : Workspace κ) (r : Result κ) : Job κ → Prop
  | .sequence lenient tokens =>
    (∀ cause, r.outcome = .failed cause →
      evaluate (.sequence lenient (tokens ++ more)) w = some (r.extend more)) ∧
    ((∀ cause, r.outcome ≠ .failed cause) →
      evaluate (.sequence lenient (tokens ++ more)) w =
        evaluate (.sequence lenient (r.tokens ++ more)) r.workspace)
  | .statement lenient tokens =>
    Resumes more (fun tokens => evaluate (.statement lenient tokens)) tokens w r
  | .token lenient tokens =>
    Resumes more (fun tokens => evaluate (.token lenient tokens)) tokens w r
  | .word lenient operand tokens =>
    Resumes more (fun tokens => evaluate (.word lenient operand tokens)) tokens w r
  | .argument tokens => Resumes more (fun tokens => evaluate (.argument tokens)) tokens w r
  | .chain window rest =>
    Resumes more (fun tokens => evaluate (.chain window (tokens.drop window.length)))
      (window ++ rest) w r
  | .expression source children rest =>
    evaluate (.expression source children (rest ++ more)) w = some (r.extend more)
  | .invoke _ _ => True

section Step

variable [Commands κ] {more : List Token} {e : Evaluator κ} {w : Workspace κ} {r : Result κ}
  (hext : (evaluate : Evaluator κ).Extends e)
  (he : ∀ job w r, e job w = some r → job.Resumable more w r)

include hext he

/-- A statement waits at the word it begins with, and is resumed there. -/
theorem resumes_stepStatement {lenient : Bool} {tokens : List Token}
    (h : stepStatement e lenient tokens w = some r) :
    Resumes more (fun tokens => evaluate (.statement lenient tokens)) tokens w r := by
  cases tokens with
  | nil => cases h; exact .of_untouched
  | cons t rest =>
    -- only words, references and values are handed on to another job
    cases t
    case word | reference | literal =>
      refine .of_eq (he _ _ _ h) (by rw [evaluate_eq]; rfl) fun hr => ?_
      obtain ⟨text, rest', ht, htokens⟩ := ((shaped_of_extends hext _ _ _ h).2 hr).exists_eq
      rw [htokens, evaluate_eq]
      rfl
    all_goals
      cases h
      exact .of_ended (by simp) (by rw [evaluate_eq]; rfl)

/-- Among tokens only a word can wait: expressions fail instead, and the others are values at
once. -/
theorem resumes_stepToken {lenient : Bool} {tokens : List Token}
    (h : stepToken e lenient tokens w = some r) :
    Resumes more (fun tokens => evaluate (.token lenient tokens)) tokens w r := by
  cases tokens with
  | nil => cases h; exact .of_untouched
  | cons t rest =>
    cases t
    case word text =>
      refine .of_eq (he _ _ _ h) (by rw [evaluate_eq]; rfl) fun hr => ?_
      have hhead := (shaped_of_extends hext _ _ _ h).2 hr
      have hsame : SameWord (.word text :: rest) r.tokens := .of_head? hhead
      obtain ⟨_, rest', _, htokens⟩ := hsame.exists_eq
      rw [htokens, evaluate_eq]
      rfl
    case expression children =>
      have hne := shaped_of_extends hext _ _ _ h
      refine .of_ended hne ?_
      have hr := he _ _ _ h
      rw [evaluate_eq]
      exact hr
    all_goals
      cases h
      exact .of_ended (by simp) (by rw [evaluate_eq]; rfl)

/-- An operand is resumed like the job that evaluates it. -/
theorem resumes_operand {lenient : Bool} {t : Token} {rest : List Token}
    (h : operand e lenient (t :: rest) w = some r) :
    Resumes more (operand evaluate lenient) (t :: rest) w r := by
  have hsame := (shaped_operand (shaped_of_extends hext) h).2
  cases t
  case word text =>
    refine .of_eq (he _ _ _ h) rfl fun hr => ?_
    obtain ⟨_, rest', _, htokens⟩ := (hsame hr).exists_eq
    rw [htokens]
    rfl
  all_goals
    refine .of_eq (he _ _ _ h) rfl fun hr => ?_
    obtain ⟨_, _, ht, _⟩ := (hsame hr).exists_eq
    cases ht

/-! ### Calls -/

/-- Inputs that are found, or that fail, do so with more tokens behind them. -/
theorem gather_extend {count : Nat} {tokens : List Token} {g : Gathered κ}
    (h : gather e count tokens w = some g)
    (hg : ∀ r, g = .halted r → r.outcome ≠ .incomplete) :
    gather evaluate count (tokens ++ more) w = some (g.extend more) := by
  induction count generalizing tokens w g with
  | zero => cases h; rfl
  | succ count ih =>
    obtain ⟨r1, h1, hcases⟩ := gather_succ_cases h
    have hr1 : Resumes more (fun tokens => evaluate (.argument tokens)) tokens w r1 := he _ _ _ h1
    obtain ⟨-, hvalue, -⟩ := shaped_of_extends hext _ _ _ h1
    rcases hcases with ⟨hcomplete, hunwind, rfl⟩ | ⟨hcomplete, hunwind, g', hrest, rfl⟩ | ⟨hne, rfl⟩
    · have hended := hr1.ended (by simp [hcomplete])
      exact gather_of_unwinding hended hcomplete hunwind
    · have hended := hr1.ended (by simp [hcomplete])
      -- the input has become a value, and more tokens behind it do not change that
      obtain ⟨text, v, rest, htokens⟩ := hvalue hcomplete hunwind
      rw [htokens] at hrest hg ⊢
      have hgather := ih hrest fun r2 hr2 => hg (r2.after [.literal text v]) (by rw [hr2]; rfl)
      rw [gather_of_value hended hcomplete hunwind (congrArg (· ++ more) htokens),
        Gathered.push_extend]
      exact congrArg (Option.map _) hgather
    · exact gather_of_halted (hr1.ended (hg r1 rfl)) hne

/-- Inputs are found again as they were left, and the search goes on with the missing one. -/
theorem gather_resume (hmore : Clear more) {count : Nat} {tokens : List Token}
    (h : gather e count tokens w = some (.halted r)) (hr : r.outcome = .incomplete) :
    gather evaluate count (tokens ++ more) w =
      gather evaluate count (r.tokens ++ more) r.workspace := by
  induction count generalizing tokens w r with
  | zero => cases h
  | succ count ih =>
    obtain ⟨r1, h1, hcases⟩ := gather_succ_cases h
    have hr1 : Resumes more (fun tokens => evaluate (.argument tokens)) tokens w r1 := he _ _ _ h1
    obtain ⟨-, hvalue, -⟩ := shaped_of_extends hext _ _ _ h1
    rcases hcases with ⟨-, -, hg⟩ | ⟨hcomplete, hunwind, g, hrest, hg⟩ | ⟨-, hg⟩
    · cases hg
    · obtain ⟨text, v, rest, htokens⟩ := hvalue hcomplete hunwind
      rw [htokens] at hrest hg
      cases g with
      | ready slots rest w => cases hg
      | unwound tokens w => cases hg
      | halted r2 =>
        cases hg
        have hended := hr1.ended (by simp [hcomplete])
        obtain ⟨hcalm, hclear⟩ := shaped_gather (shaped_of_extends hext) hrest
        -- the input in front was found before, and is found at once now
        have hagain := evaluate_argument_literal (w := r2.workspace) text v
          ((hclear hr).append hmore)
        rw [gather_of_value hended hcomplete hunwind (congrArg (· ++ more) htokens)]
        refine (congrArg (Option.map _) (ih hrest hr)).trans ?_
        exact (gather_of_value hagain rfl (hcalm hunwind hr) rfl).symm
    · cases hg
      rw [gather, gather, hr1.waits hr]

/-- A call that lacks inputs finds those that it had as values when it is resumed, and goes on with
the new tokens. A call that has its inputs does not look at what follows them. -/
theorem resumes_callWord (hmore : Clear more) {operand : Bool} {token : Token}
    {first : Procedure κ} {others : List (Procedure κ)} {rest : List Token}
    (h : callWord e operand token first others rest w = some r) :
    Resumes more (fun tokens => callWord evaluate operand token first others tokens.tail)
      (token :: rest) w r := by
  obtain ⟨g, hg, h⟩ := Option.bind_eq_some_iff.1 h
  cases g with
  -- an input failed, or it waits
  | halted r1 =>
    cases h
    refine ⟨fun hr => ?_, fun hr => ?_⟩
    · have hgather := gather_extend hext he hg fun r2 hr2 => by cases hr2; exact hr
      simp only [List.cons_append, List.tail_cons, callWord]
      rw [hgather]
      rfl
    · have hgather := gather_resume hext he hmore hg hr
      simp only [List.cons_append, List.tail_cons, Result.tokens_after, Result.workspace_after,
        List.nil_append, callWord]
      rw [hgather]
  | unwound tokens w1 =>
    cases h
    have hgather := gather_extend hext he hg fun r2 hr2 => by cases hr2
    refine .of_ended (by simp) ?_
    simp only [List.cons_append, List.tail_cons, callWord]
    rw [hgather]
    simp [Gathered.extend, Result.extend]
  | ready slots rest1 w1 =>
    -- what follows the inputs has no part in the calls
    have hgather := gather_extend hext he hg fun r2 hr2 => by cases hr2
    obtain ⟨r1, h1, h⟩ := Option.bind_eq_some_iff.1 h
    have hcall := (finitary_callAll _ _ _ _).mono hext h1
    have hne := outcome_callAll (shaped_of_extends hext) h1
    have hended : r.outcome ≠ .incomplete := by
      split at h
      · cases h; simp
      · cases h; exact hne
    refine .of_ended hended ?_
    simp only [List.cons_append, List.tail_cons, callWord]
    rw [hgather]
    simp only [Gathered.extend, Option.bind_eq_bind, Option.bind_some]
    rw [hcall]
    simp only [Option.bind_some]
    split at h
    · cases h
      simp [Result.extend]
    · cases h
      simp [Result.extend]

/-- A word that waits is still there when it is resumed, and calls the same procedures. -/
theorem resumes_stepWord (hκ : Commands.KeepRegistry κ) (hmore : Clear more)
    {lenient operand : Bool} {tokens : List Token}
    (h : stepWord e lenient operand tokens w = some r) :
    Resumes more (fun tokens => evaluate (.word lenient operand tokens)) tokens w r := by
  have hr : evaluate (.word lenient operand tokens) w = some r := by
    rw [evaluate_eq]
    exact (finitary_stepWord _ _ _ _).mono hext h
  cases tokens with
  | nil => cases h; exact .of_untouched
  | cons token rest =>
    simp only [stepWord] at h
    split at h
    · rename_i htrue
      cases h
      refine .of_ended (by simp) ?_
      rw [evaluate_eq]
      simp only [Job.step, stepWord, List.cons_append, if_pos htrue]
      rfl
    rename_i htrue
    split at h
    · rename_i hfalse
      cases h
      refine .of_ended (by simp) ?_
      rw [evaluate_eq]
      simp only [Job.step, stepWord, List.cons_append, if_neg htrue, if_pos hfalse]
      rfl
    rename_i hfalse
    split at h
    · rename_i first others hlookup
      refine .of_eq (resumes_callWord hext he hmore h) ?_ fun hwaits => ?_
      · exact evaluate_word_call htrue hfalse hlookup
      · -- the word still stands at the head, and names the same procedures
        have hhead := (shaped_evaluate hr).2 hwaits
        obtain ⟨rest', htokens⟩ := List.head?_eq_some_iff.1 hhead
        rw [← lookup_of_evaluate hκ hr] at hlookup
        simp only [htokens]
        exact evaluate_word_call htrue hfalse hlookup
    · rename_i hlookup
      cases lenient <;> cases h
      all_goals
        refine .of_ended (by simp) ?_
        rw [evaluate_eq]
        simp only [Job.step, stepWord, List.cons_append, if_neg htrue, if_neg hfalse, hlookup]
        rfl

/-! ### Operands and operators -/

/-- Work that begins with an operand can be taken up, whatever becomes of the operand. -/
theorem resumes_throughOperand {F : List Token → Workspace κ → Option (Result κ)} {lenient : Bool}
    {done : List Token} {next : List Token → Job κ}
    (hF : ∀ tokens w, F (done ++ tokens) w = evaluate (next tokens) w)
    (hstep : ∀ t tokens w, isSettled t = false → evaluate (next (t :: tokens)) w =
      throughOperand evaluate lenient done next (t :: tokens) w)
    (hnext : ∀ tokens w r, e (next tokens) w = some r → Resumes more F (done ++ tokens) w r)
    {t : Token} {rest : List Token} (ht : isSettled t = false)
    (h : throughOperand e lenient done next (t :: rest) w = some r) :
    Resumes more F (done ++ t :: rest) w r := by
  obtain ⟨r1, h1, -⟩ := Option.bind_eq_some_iff.1 h
  have hr1 : Resumes more (operand evaluate lenient) (t :: rest) w r1 := resumes_operand hext he h1
  have hbegin : F (done ++ t :: rest ++ more) w =
      throughOperand evaluate lenient done next (t :: rest ++ more) w := by
    rw [List.append_assoc, hF]
    exact hstep t (rest ++ more) w ht
  by_cases hcomplete : r1.outcome = .complete
  · have hended := hr1.ended (by simp [hcomplete])
    cases hunwind : r1.workspace.isUnwinding with
    | true =>
      rw [throughOperand_of_unwinding h1 hcomplete hunwind] at h
      cases h
      refine .of_ended (by simp [hcomplete]) ?_
      rw [hbegin, Result.after_extend]
      exact throughOperand_of_unwinding hended hcomplete hunwind
    | false =>
      rw [throughOperand_of_complete h1 hcomplete hunwind] at h
      refine .of_eq (hnext _ _ _ h) ?_ fun _ => rfl
      rw [hbegin, List.append_assoc, hF]
      exact throughOperand_of_complete hended hcomplete hunwind
  · rw [throughOperand_of_ne_complete h1 hcomplete] at h
    cases h
    refine ⟨fun hr => ?_, fun hr => ?_⟩
    · rw [hbegin, Result.after_extend]
      exact throughOperand_of_ne_complete (hr1.ended hr) hcomplete
    · -- the operand is a word that still stands there, so that the same path is taken again
      have hsame := (shaped_operand (shaped_of_extends hext) h1).2 hr
      obtain ⟨_, rest', _, htokens⟩ := hsame.exists_eq
      have hwaits := hr1.waits hr
      rw [hbegin, Result.tokens_after, Result.workspace_after, List.append_assoc, hF]
      rw [htokens] at hwaits ⊢
      refine Eq.trans ?_ (hstep t (rest' ++ more) r1.workspace ht).symm
      rw [throughOperand, hwaits]
      rfl

/-- An input is resumed at its operand, or with the run of values that it has become. -/
theorem resumes_stepArgument {tokens : List Token} (h : stepArgument e tokens w = some r) :
    Resumes more (fun tokens => evaluate (.argument tokens)) tokens w r := by
  cases tokens with
  | nil => cases h; exact .of_untouched
  | cons t rest =>
    have hnext : ∀ tokens w r, e (.argument tokens) w = some r →
        Resumes more (fun tokens => evaluate (.argument tokens)) ([] ++ tokens) w r :=
      fun _ _ _ h => he _ _ _ h
    have hoperand (ht : isSettled t = false) :
        Resumes more (fun tokens => evaluate (.argument tokens)) (t :: rest) w r := by
      rw [stepArgument_operand ht] at h
      refine resumes_throughOperand hext he (fun _ _ => rfl) (fun t tokens w ht => ?_) hnext ht h
      rw [evaluate_eq]
      exact stepArgument_operand ht
    cases t
    case literal text v =>
      refine .of_eq (he _ _ _ h) (by rw [evaluate_eq]; rfl) fun hr => ?_
      obtain ⟨-, -, hwindow⟩ := shaped_of_extends hext _ _ _ h
      obtain ⟨rest', htokens⟩ := hwindow hr
      rw [htokens, evaluate_eq]
      rfl
    case operator op =>
      cases h
      exact .of_ended (by simp) (by rw [evaluate_eq]; rfl)
    all_goals exact hoperand rfl

omit [Commands κ] hext he in
/-- A run of values is closed without a look at what follows. -/
theorem closeChain_extend (window rest : List Token) (w : Workspace κ) :
    closeChain window (rest ++ more) w = (closeChain window rest w).extend more := by
  unfold closeChain
  split
  · simp only [Result.extend, List.append_assoc]
  · split <;> rfl

omit [Commands κ] hext he in
theorem outcome_closeChain (window rest : List Token) (w : Workspace κ) :
    (closeChain window rest w).outcome ≠ .incomplete := by
  unfold closeChain
  split
  · simp
  · split <;> simp

omit hext he in
theorem resumes_chain_close (hmore : Clear more) {window rest : List Token} (hrest : Clear rest) :
    Resumes more (fun tokens => evaluate (.chain window (tokens.drop window.length)))
      (window ++ rest) w (closeChain window rest w) := by
  refine .of_ended (outcome_closeChain _ _ _) ?_
  rw [List.append_assoc, List.drop_left, evaluate_chain_close window (hrest.append hmore),
    closeChain_extend]

/-- A run of values that waits at an operand keeps all that it has gone through. -/
theorem resumes_chain_operand {window rest : List Token} {op : Operator} {t : Token}
    (ht : isSettled t = false) (h : stepChain e window (.operator op :: t :: rest) w = some r) :
    Resumes more (fun tokens => evaluate (.chain window (tokens.drop window.length)))
      (window ++ .operator op :: t :: rest) w r := by
  have hnext : ∀ tokens w r, e (.chain window (.operator op :: tokens)) w = some r →
      Resumes more (fun tokens => evaluate (.chain window (tokens.drop window.length)))
        (window ++ [.operator op] ++ tokens) w r := by
    intro tokens w r h
    rw [List.append_assoc]
    exact he _ _ _ h
  rw [stepChain_operand window op ht] at h
  rw [← List.singleton_append, ← List.append_assoc]
  refine resumes_throughOperand hext he (fun tokens w => ?_) (fun t tokens w ht => ?_) hnext ht h
  · rw [List.append_assoc, List.drop_left]
    rfl
  · rw [evaluate_eq]
    exact stepChain_operand window op ht

/-- A value behind an operator is part of the run already. -/
theorem resumes_chain_literal {window rest : List Token} {op : Operator} {text : String}
    {v : Value} (h : e (.chain (window ++ [.operator op, .literal text v]) rest) w = some r) :
    Resumes more (fun tokens => evaluate (.chain window (tokens.drop window.length)))
      (window ++ .operator op :: .literal text v :: rest) w r := by
  have hlonger (tokens : List Token) (w : Workspace κ) :
      evaluate (.chain window (.operator op :: .literal text v :: tokens)) w =
        evaluate (.chain (window ++ [.operator op, .literal text v]) tokens) w := by
    rw [evaluate_eq]
    rfl
  refine .of_eq (he _ _ _ h) ?_ fun hr => ?_
  · rw [List.append_assoc, List.drop_left, List.append_assoc, List.drop_left]
    exact hlonger (rest ++ more) w
  · -- the longer run still begins with this one when it waits
    obtain ⟨-, -, hwindow⟩ := shaped_of_extends hext _ _ _ h
    obtain ⟨rest', htokens⟩ := hwindow hr
    rw [htokens, List.append_assoc (_ ++ _), List.drop_left, List.append_assoc, List.drop_left]
    exact hlonger (rest' ++ more) r.workspace

/-- A run of values is resumed where it waits. It does not wait where it ends, and there the new
tokens must not begin with an operator. -/
theorem resumes_stepChain (hmore : Clear more) {window rest : List Token}
    (h : stepChain e window rest w = some r) :
    Resumes more (fun tokens => evaluate (.chain window (tokens.drop window.length)))
      (window ++ rest) w r := by
  cases rest with
  | nil => cases h; exact resumes_chain_close hmore clear_nil
  | cons t rest =>
    cases t
    case operator op =>
      cases rest with
      | nil => cases h; exact .of_untouched
      | cons t rest =>
        cases t
        case literal text v => exact resumes_chain_literal hext he h
        case operator op' =>
          cases h
          refine .of_ended (by simp) ?_
          rw [List.append_assoc, List.drop_left, evaluate_eq]
          simp only [Result.extend, List.append_assoc]
          rfl
        all_goals exact resumes_chain_operand hext he rfl h
    all_goals
      cases h
      exact resumes_chain_close hmore (clear_cons rfl)

/-- An expression is evaluated by itself, so that nothing behind it matters. -/
theorem extend_stepExpression {source : String} {children rest : List Token}
    (h : stepExpression e source children rest w = some r) :
    evaluate (.expression source children (rest ++ more)) w = some (r.extend more) := by
  rw [evaluate_eq]
  change stepExpression evaluate source children (rest ++ more) w = _
  unfold stepExpression at h ⊢
  split at h
  · cases h
    unfold closeExpression
    split
    · rfl
    · split <;> rfl
  rename_i child others hdrop
  obtain ⟨r1, h1, h⟩ := Option.bind_eq_some_iff.1 h
  -- the children end where the brackets do, so that the operand sees the same sequence
  have hoperand := (finitary_operand _ _ _).mono hext h1
  simp only [hoperand, Option.bind_eq_bind, Option.bind_some]
  cases houtcome : r1.outcome with
  | complete =>
    simp only [houtcome] at h ⊢
    split at h
    · rename_i hunwind
      cases h
      rw [if_pos hunwind]
      rfl
    · rename_i hunwind
      rw [if_neg hunwind]
      exact he _ _ _ h
  | incomplete => simp only [houtcome] at h; cases h; rfl
  | failed cause => simp only [houtcome] at h; cases h; rfl

/-! ### Statements -/

omit hext he in
/-- Values in front of a sequence are passed over before and after. -/
theorem resumable_values {lenient : Bool} {values tokens : List Token}
    (hvalues : ∀ t ∈ values, t.isLiteral = true)
    (h : (Job.sequence lenient tokens).Resumable more w r) :
    (Job.sequence lenient (values ++ tokens)).Resumable more w (r.after values) := by
  obtain ⟨hfailed, htake⟩ := h
  refine ⟨fun cause hcause => ?_, fun hne => ?_⟩
  · rw [List.append_assoc, evaluate_sequence_values lenient hvalues, hfailed cause hcause,
      Result.after_extend]
    rfl
  · rw [List.append_assoc, evaluate_sequence_values lenient hvalues, htake hne, Result.tokens_after,
      Result.workspace_after, List.append_assoc, evaluate_sequence_values lenient hvalues]

/-- A statement that is done hands the rest over; one that waits stands at the head again. -/
theorem resumable_statement {lenient : Bool} {t : Token} {rest : List Token} {r1 : Result κ}
    (hw : w.isUnwinding = false) (ht : t.isLiteral = false)
    (h1 : e (.statement lenient (t :: rest)) w = some r1)
    (h : (match r1.outcome with
      | .complete => e (.sequence lenient r1.tokens) r1.workspace
      | _ => some r1) = some r) :
    (Job.sequence lenient (t :: rest)).Resumable more w r := by
  have hr1 : Resumes more (fun tokens => evaluate (.statement lenient tokens)) (t :: rest) w r1 :=
    he _ _ _ h1
  have hbegin := evaluate_sequence_statement (rest ++ more) lenient hw ht
  cases houtcome : r1.outcome with
  | complete =>
    simp only [houtcome] at h
    rw [← List.cons_append, hr1.ended (by simp [houtcome])] at hbegin
    simp only [Option.bind_some, Result.outcome_extend, houtcome] at hbegin
    obtain ⟨hfailed, htake⟩ := he _ _ _ h
    exact ⟨fun cause hcause => hbegin.trans (hfailed cause hcause),
      fun hne => hbegin.trans (htake hne)⟩
  | incomplete =>
    simp only [houtcome] at h
    cases h
    -- nothing asks to leave a procedure, so that the word at the head is a statement again
    obtain ⟨hcalm, hsame⟩ := shaped_of_extends hext _ _ _ h1
    obtain ⟨text, rest', _, htokens⟩ := (hsame houtcome).exists_eq
    refine ⟨fun cause hcause => ?_, fun _ => ?_⟩
    · rw [houtcome] at hcause
      cases hcause
    · have hagain := evaluate_sequence_statement (rest' ++ more) lenient (hcalm hw houtcome) ht
      have hwaits := hr1.waits houtcome
      simp only [htokens, List.cons_append] at hwaits ⊢
      rw [hbegin, hwaits, hagain]
  | failed cause =>
    simp only [houtcome] at h
    cases h
    refine ⟨fun _ _ => ?_, fun hne => absurd houtcome (hne cause)⟩
    rw [← List.cons_append, hr1.ended (by simp [houtcome])] at hbegin
    rw [hbegin]
    simp only [Option.bind_some, Result.outcome_extend, houtcome]

/-- A sequence is resumed at the statement that waits. -/
theorem resumable_stepSequence {lenient : Bool} {tokens : List Token}
    (h : stepSequence e lenient tokens w = some r) :
    (Job.sequence lenient tokens).Resumable more w r := by
  unfold stepSequence at h
  split at h
  · cases h; exact ⟨nofun, fun _ => rfl⟩
  rename_i hw
  split at h
  · cases h; exact ⟨nofun, fun _ => rfl⟩
  rename_i t rest hdrop
  -- the sequence is cut at its first statement
  have hvalues : ∀ t ∈ tokens.takeWhile Token.isLiteral, t.isLiteral = true :=
    List.all_eq_true.1 List.all_takeWhile
  have ht : t.isLiteral = false := by
    have hhead := List.head?_dropWhile_not Token.isLiteral tokens
    rw [hdrop] at hhead
    exact hhead
  rw [← List.takeWhile_append_dropWhile (p := Token.isLiteral) (l := tokens), hdrop]
  obtain ⟨r1, h1, h⟩ := Option.bind_eq_some_iff.1 h
  rw [Bool.not_eq_true] at hw
  split at h
  · rename_i houtcome
    obtain ⟨r2, h2, h⟩ := Option.bind_eq_some_iff.1 h
    cases h
    exact resumable_values hvalues
      (resumable_statement hext he hw ht h1 (by simp only [houtcome, h2]))
  · cases h
    exact resumable_values hvalues (resumable_statement hext he hw ht h1 (by simp only))

end Step

/-- **Every job can be taken up**, if the tokens behind its sequence do not begin with an
operator. -/
theorem resumable_evaluate [Commands κ] (hκ : Commands.KeepRegistry κ) {more : List Token}
    (hmore : Clear more) {job : Job κ} {w : Workspace κ} {r : Result κ}
    (h : evaluate job w = some r) : job.Resumable more w r := by
  -- by induction on the depth of the run, one kind of job after the other
  obtain ⟨n, hn⟩ := evaluate_eq_some_iff.1 h
  refine eval_induction (P := fun job w r => job.Resumable more w r)
    (fun e hext he job w r h => ?_) hn
  cases job with
  | sequence lenient tokens => exact resumable_stepSequence hext he h
  | statement lenient tokens => exact resumes_stepStatement hext he h
  | token lenient tokens => exact resumes_stepToken hext he h
  | word lenient operand tokens => exact resumes_stepWord hext he hκ hmore h
  | argument tokens => exact resumes_stepArgument hext he h
  | chain window rest => exact resumes_stepChain hext he hmore h
  | expression source children rest => exact extend_stepExpression hext he h
  | invoke p inputs => trivial

/-! ## Sequences in parts -/

/-- **A sequence can be carried out in parts.** A failure of the first part is the failure of the
whole. Otherwise what is left of the first part, with the second part behind it, leads from the
workspace that the first part left to the result of the whole. -/
theorem execute_append [Commands κ] (hκ : Commands.KeepRegistry κ) {w : Workspace κ} {fuel : Nat}
    {lenient : Bool} {tokens more : List Token} {r : Result κ}
    (hmore : ∀ t ∈ more.head?, t.isOperator = false)
    (h : w.execute fuel lenient tokens = some r) :
    (∀ cause, r.outcome = .failed cause → ∃ bound,
      w.execute bound lenient (tokens ++ more) =
        some ⟨.failed cause, r.tokens ++ more, r.workspace⟩) ∧
    (r.outcome = .complete ∨ r.outcome = .incomplete → ∀ q,
      (∃ bound, w.execute bound lenient (tokens ++ more) = some q) ↔
        ∃ bound, r.workspace.execute bound lenient (r.tokens ++ more) = some q) := by
  have hr := evaluate_extends fuel _ _ _ h
  obtain ⟨hfailed, htake⟩ := resumable_evaluate hκ hmore hr
  refine ⟨fun cause hcause => ?_, fun hdone q => ?_⟩
  · have hall := hfailed cause hcause
    rw [Result.extend, hcause] at hall
    exact evaluate_eq_some_iff.1 hall
  · have hne : ∀ cause, r.outcome ≠ .failed cause := by
      rintro cause hcause
      rcases hdone with hdone | hdone <;> rw [hcause] at hdone <;> cases hdone
    unfold Workspace.execute
    rw [← evaluate_eq_some_iff, ← evaluate_eq_some_iff, htake hne]

/-- A host whose commands keep the registry may be added to the primitives. -/
theorem keepRegistry_command {H : Type} [Host H]
    (h : ∀ (c : H) (w : Workspace (Command H)) (inputs : List Value),
      (Host.perform c w inputs).1.registry = w.registry) :
    Commands.KeepRegistry (Command H) := by
  intro code w inputs
  cases code with
  | primitive p => exact (p.balanced_perform w inputs).registry
  | host c => exact h c w inputs

/-- The call `print sum 1 +`, which waits for an operand and for an input. -/
def cutCall : List Token :=
  [.word "print", .word "sum", .literal "1" (.number ⟨1, 0⟩), .operator .add]

/-- The operand `2` and the input `3`. -/
def missingInputs : List Token :=
  [.literal "2" (.number ⟨2, 0⟩), .literal "3" (.number ⟨3, 0⟩)]

/-- The call waits, is taken up, and writes what it writes when it is carried out at once. -/
theorem execute_append_cutCall :
    ∃ r q : Result (Command Empty),
      (Workspace.withPrimitives .silent).execute 30 false cutCall = some r ∧
      r.outcome = .incomplete ∧
      r.workspace.execute 30 false (r.tokens ++ missingInputs) = some q ∧
      q.workspace.output = #["6"] ∧
      ∃ bound, (Workspace.withPrimitives .silent).execute bound false (cutCall ++ missingInputs) =
        some q := by
  have hruns : ((Workspace.withPrimitives .silent : Workspace (Command Empty)).execute 30 false
      cutCall).any (fun r => r.outcome = .incomplete ∧
        (r.workspace.execute 30 false (r.tokens ++ missingInputs)).any
          fun q => q.workspace.output = #["6"]) = true := by
    decide +kernel
  obtain ⟨r, hr, hrest⟩ := (Option.any_eq_true _ _).1 hruns
  obtain ⟨hwaits, hq⟩ := of_decide_eq_true hrest
  obtain ⟨q, hq, hwritten⟩ := (Option.any_eq_true _ _).1 hq
  have hκ : Commands.KeepRegistry (Command Empty) := keepRegistry_command nofun
  have hmore : ∀ t ∈ missingInputs.head?, t.isOperator = false := by
    intro t ht
    cases ht
    rfl
  obtain ⟨-, htake⟩ := execute_append hκ hmore hr
  exact ⟨r, q, hr, hwaits, hq, of_decide_eq_true hwritten, (htake (.inr hwaits) q).2 ⟨30, hq⟩⟩

end Logo
