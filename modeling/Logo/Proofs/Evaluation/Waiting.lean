import Logo.Proofs.Evaluation.Asking

/-!
# How jobs wait for inputs

A sequence that ends too early is left in a form from which its work can go on. The call that waits
still stands at its place, with the inputs that it has as values behind it, and what follows these
values is no operator. No procedure is being left then.

* `Job.Shaped`: what a job leaves when it is done and when it waits.
* `shaped_evaluate`: every job leaves that.
* `waits_in_statement`, `waits_at_word`: what a sequence of statements leaves when it waits.
-/

namespace Logo

variable {κ : Type}

/-- Both sequences begin with the same word, or both are empty. -/
inductive SameWord : List Token → List Token → Prop where
  | nil : SameWord [] []
  | word (text : String) (rest rest' : List Token) :
    SameWord (.word text :: rest) (.word text :: rest')

theorem SameWord.exists_eq {t : Token} {rest tokens : List Token}
    (h : SameWord (t :: rest) tokens) : ∃ text rest', t = .word text ∧ tokens = t :: rest' := by
  cases h with
  | word text _ rest' => exact ⟨text, rest', rfl, rfl⟩

/-- A value stands at the head. -/
def BeginsWithValue (tokens : List Token) : Prop :=
  ∃ text v rest, tokens = .literal text v :: rest

/-- A job that waits has not asked for a procedure to be left. -/
def Calm (w : Workspace κ) (r : Result κ) : Prop :=
  w.isUnwinding = false → r.outcome = .incomplete → r.workspace.isUnwinding = false

/-- What a job leaves. A waiting job leaves the word at its head, or the values and operators that it
has gone through. An input is a value when it is found. Expressions and calls do not wait. -/
def Job.Shaped (w : Workspace κ) (r : Result κ) : Job κ → Prop
  | .sequence _ _ => True
  | .statement _ tokens => Calm w r ∧ (r.outcome = .incomplete → SameWord tokens r.tokens)
  | .token _ tokens => Calm w r ∧ (r.outcome = .incomplete → SameWord tokens r.tokens)
  | .word _ _ tokens => Calm w r ∧ (r.outcome = .incomplete → r.tokens.head? = tokens.head?)
  | .argument _ => Calm w r ∧
      (r.outcome = .complete → r.workspace.isUnwinding = false → BeginsWithValue r.tokens) ∧
      (r.outcome = .incomplete → Clear r.tokens)
  | .chain window _ => Calm w r ∧
      (BeginsWithValue window → r.outcome = .complete → r.workspace.isUnwinding = false →
        BeginsWithValue r.tokens) ∧
      (r.outcome = .incomplete → ∃ rest, r.tokens = window ++ rest)
  | .expression _ _ _ => r.outcome ≠ .incomplete
  | .invoke _ _ => r.outcome ≠ .incomplete

/-! ## One step -/

section Step

variable {w : Workspace κ} {r : Result κ}

theorem calm_of_ne (h : r.outcome ≠ .incomplete) : Calm w r :=
  fun _ hr => absurd hr h

/-- What does not wait is calm, and nothing is to be shown of how it waits. -/
theorem shaped_of_ne {P : Prop} (h : r.outcome ≠ .incomplete) :
    Calm w r ∧ (r.outcome = .incomplete → P) :=
  ⟨calm_of_ne h, fun hr => absurd hr h⟩

/-- What waits at a word does not begin with an operator. -/
theorem SameWord.clear {tokens tokens' : List Token} (h : SameWord tokens tokens') :
    Clear tokens' := by
  cases h with
  | nil => exact clear_nil
  | word text rest rest' => exact clear_cons rfl

theorem SameWord.of_head? {text : String} {rest tokens : List Token}
    (h : tokens.head? = some (.word text)) : SameWord (.word text :: rest) tokens := by
  cases tokens with
  | nil => cases h
  | cons t rest' => cases h; exact .word text rest rest'

variable {e : Evaluator κ} (he : ∀ job w r, e job w = some r → job.Shaped w r)

include he

/-- A statement that waits still begins with its word. -/
theorem shaped_stepStatement {lenient : Bool} {tokens : List Token}
    (h : stepStatement e lenient tokens w = some r) :
    Calm w r ∧ (r.outcome = .incomplete → SameWord tokens r.tokens) := by
  unfold stepStatement at h
  split at h
  case h_1 => cases h; exact ⟨fun hw _ => hw, fun _ => .nil⟩
  case h_6 => exact he _ _ _ h
  all_goals cases h; exact ⟨fun hw _ => hw, nofun⟩

/-- A token that waits is a word, and is still there. -/
theorem shaped_stepToken {lenient : Bool} {tokens : List Token}
    (h : stepToken e lenient tokens w = some r) :
    Calm w r ∧ (r.outcome = .incomplete → SameWord tokens r.tokens) := by
  unfold stepToken at h
  split at h
  case h_1 => cases h; exact ⟨fun hw _ => hw, fun _ => .nil⟩
  case h_2 =>
    obtain ⟨hcalm, hhead⟩ := he _ _ _ h
    exact ⟨hcalm, fun hr => .of_head? (hhead hr)⟩
  case h_3 =>
    have hne := he _ _ _ h
    exact shaped_of_ne hne
  all_goals cases h; exact shaped_of_ne (by simp)

theorem shaped_operand {lenient : Bool} {tokens : List Token}
    (h : operand e lenient tokens w = some r) :
    Calm w r ∧ (r.outcome = .incomplete → SameWord tokens r.tokens) := by
  unfold operand at h
  split at h
  · obtain ⟨hcalm, hhead⟩ := he _ _ _ h
    exact ⟨hcalm, fun hr => .of_head? (hhead hr)⟩
  · exact he _ _ _ h

/-- Inputs that were found are values, and the missing one is not begun with an operator. -/
theorem shaped_gather {count : Nat} {tokens : List Token} {r : Result κ}
    (h : gather e count tokens w = some (.halted r)) :
    Calm w r ∧ (r.outcome = .incomplete → Clear r.tokens) := by
  induction count generalizing tokens w r with
  | zero => cases h
  | succ count ih =>
    obtain ⟨r1, h1, hcases⟩ := gather_succ_cases h
    obtain ⟨hcalm, hvalue, hclear⟩ := he _ _ _ h1
    rcases hcases with ⟨-, -, hg⟩ | ⟨hcomplete, hunwind, g, hrest, hg⟩ | ⟨-, hg⟩
    · cases hg
    · obtain ⟨text, v, rest, htokens⟩ := hvalue hcomplete hunwind
      cases g with
      | ready slots rest w => cases hg
      | unwound tokens w => cases hg
      | halted r2 =>
        cases hg
        obtain ⟨hcalm2, -⟩ := ih hrest
        -- a value was found before, and it stands in front
        refine ⟨fun _ hr => hcalm2 hunwind hr, fun _ => ?_⟩
        rw [htokens]
        exact clear_cons rfl
    · cases hg
      exact ⟨hcalm, hclear⟩

/-- Procedures that are called do not wait. -/
theorem outcome_callAll {inputs : List Value} {procedures : List (Procedure κ)}
    {produced : Option Token} (h : callAll e inputs procedures produced w = some r) :
    r.outcome ≠ .incomplete := by
  induction procedures generalizing produced w with
  | nil => cases h; simp
  | cons p rest ih =>
    obtain ⟨r1, h1, h⟩ := Option.bind_eq_some_iff.1 h
    split at h
    · simp only at h
      split at h
      · cases h; simp
      · exact ih h
    · cases h; exact he _ _ _ h1

/-- A call that waits keeps its word at the head. -/
theorem shaped_callWord {operand : Bool} {token : Token} {first : Procedure κ}
    {others : List (Procedure κ)} {rest : List Token}
    (h : callWord e operand token first others rest w = some r) :
    Calm w r ∧ (r.outcome = .incomplete → r.tokens.head? = some token) := by
  obtain ⟨g, hg, h⟩ := Option.bind_eq_some_iff.1 h
  split at h
  · cases h
    exact ⟨(shaped_gather he hg).1, fun _ => rfl⟩
  · cases h
    exact shaped_of_ne (by simp)
  · -- a call that has its inputs does not wait
    obtain ⟨r1, h1, h⟩ := Option.bind_eq_some_iff.1 h
    have hne := outcome_callAll he h1
    split at h
    · cases h
      exact shaped_of_ne (by simp)
    · cases h
      exact shaped_of_ne hne

theorem shaped_stepWord {lenient operand : Bool} {tokens : List Token}
    (h : stepWord e lenient operand tokens w = some r) :
    Calm w r ∧ (r.outcome = .incomplete → r.tokens.head? = tokens.head?) := by
  unfold stepWord at h
  split at h
  · cases h; exact ⟨fun hw _ => hw, fun _ => rfl⟩
  simp only at h
  split at h
  · cases h; exact shaped_of_ne (by simp)
  split at h
  · cases h; exact shaped_of_ne (by simp)
  split at h
  · exact shaped_callWord he h
  · split at h <;> cases h <;> exact shaped_of_ne (by simp)

/-- Behind an operand the work goes on, unless the operand waits, fails or leaves the procedure. -/
theorem shaped_throughOperand {lenient : Bool} {done tokens : List Token}
    {next : List Token → Job κ} (h : throughOperand e lenient done next tokens w = some r) :
    (∃ tokens' w', w'.isUnwinding = false ∧ e (next tokens') w' = some r) ∨
    (Calm w r ∧ (r.outcome = .complete → r.workspace.isUnwinding = true) ∧
      (r.outcome = .incomplete → ∃ rest, SameWord tokens rest ∧ r.tokens = done ++ rest)) := by
  obtain ⟨r1, h1, -⟩ := Option.bind_eq_some_iff.1 h
  obtain ⟨hcalm, hsame⟩ := shaped_operand he h1
  by_cases hcomplete : r1.outcome = .complete
  · cases hunwind : r1.workspace.isUnwinding with
    | true =>
      rw [throughOperand_of_unwinding h1 hcomplete hunwind] at h
      cases h
      exact Or.inr ⟨hcalm, fun _ => hunwind, fun hr => ⟨_, hsame hr, rfl⟩⟩
    | false =>
      rw [throughOperand_of_complete h1 hcomplete hunwind] at h
      exact Or.inl ⟨_, _, hunwind, h⟩
  · rw [throughOperand_of_ne_complete h1 hcomplete] at h
    cases h
    exact Or.inr ⟨hcalm, fun hr => absurd hr hcomplete, fun hr => ⟨_, hsame hr, rfl⟩⟩

/-- An input that is not yet a value waits where its operand does. -/
theorem shaped_argument_operand {t : Token} {rest : List Token} (ht : isSettled t = false)
    (h : stepArgument e (t :: rest) w = some r) : (Job.argument (t :: rest)).Shaped w r := by
  rw [stepArgument_operand ht] at h
  rcases shaped_throughOperand he h with ⟨tokens, w', hw', hnext⟩ | ⟨hcalm, hcomplete, hwaits⟩
  · obtain ⟨hcalm, hvalue, hclear⟩ := he _ _ _ hnext
    exact ⟨fun _ hr => hcalm hw' hr, hvalue, hclear⟩
  · refine ⟨hcalm, fun hr hw => ?_, fun hr => ?_⟩
    · rw [hcomplete hr] at hw
      cases hw
    · obtain ⟨rest', hsame, htokens⟩ := hwaits hr
      rw [htokens]
      exact hsame.clear

/-- An input is a value when it is found, and does not begin with an operator while it waits. -/
theorem shaped_stepArgument {tokens : List Token} (h : stepArgument e tokens w = some r) :
    (Job.argument tokens).Shaped w r := by
  cases tokens with
  | nil => cases h; exact ⟨fun hw _ => hw, nofun, fun _ => clear_nil⟩
  | cons t rest =>
    cases t
    case literal text v =>
      obtain ⟨hcalm, hvalue, hwindow⟩ := he _ _ _ h
      refine ⟨hcalm, hvalue ⟨text, v, [], rfl⟩, fun hr => ?_⟩
      obtain ⟨rest', htokens⟩ := hwindow hr
      rw [htokens]
      exact clear_cons rfl
    case operator op => cases h; exact ⟨calm_of_ne (by simp), nofun, nofun⟩
    all_goals exact shaped_argument_operand he rfl h

theorem shaped_chain_operand {window rest : List Token} {op : Operator} {t : Token}
    (ht : isSettled t = false) (h : stepChain e window (.operator op :: t :: rest) w = some r) :
    (Job.chain window (.operator op :: t :: rest)).Shaped w r := by
  rw [stepChain_operand window op ht] at h
  rcases shaped_throughOperand he h with ⟨tokens, w', hw', hnext⟩ | ⟨hcalm, hcomplete, hwaits⟩
  · obtain ⟨hcalm, hvalue, hwindow⟩ := he _ _ _ hnext
    exact ⟨fun _ hr => hcalm hw' hr, hvalue, hwindow⟩
  · refine ⟨hcalm, fun _ hr hw => ?_, fun hr => ?_⟩
    · rw [hcomplete hr] at hw
      cases hw
    · obtain ⟨rest', -, htokens⟩ := hwaits hr
      exact ⟨_, htokens.trans (List.append_assoc _ _ _)⟩

omit he in
/-- A run of values that ends is a value. -/
theorem shaped_closeChain (window rest : List Token) :
    (Job.chain window rest).Shaped w (closeChain window rest w) := by
  unfold closeChain
  split
  · refine ⟨calm_of_ne (by simp), fun hwindow _ _ => ?_, nofun⟩
    obtain ⟨text, v, more, rfl⟩ := hwindow
    exact ⟨text, v, _, rfl⟩
  · split
    · exact ⟨calm_of_ne (by simp), fun _ _ _ => ⟨_, _, _, rfl⟩, nofun⟩
    · exact ⟨calm_of_ne (by simp), nofun, nofun⟩

/-- A run of values that waits keeps all that it has gone through in front. -/
theorem shaped_stepChain {window rest : List Token} (h : stepChain e window rest w = some r) :
    (Job.chain window rest).Shaped w r := by
  cases rest with
  | nil => cases h; exact shaped_closeChain window []
  | cons t rest =>
    cases t
    case operator op =>
      cases rest with
      | nil => cases h; exact ⟨fun hw _ => hw, nofun, fun _ => ⟨_, rfl⟩⟩
      | cons t rest =>
        cases t
        case literal text v =>
          obtain ⟨hcalm, hvalue, hwindow⟩ := he _ _ _ h
          refine ⟨hcalm, fun hbegins => hvalue ?_, fun hr => ?_⟩
          · -- the longer run begins with the same value
            obtain ⟨text', v', more, rfl⟩ := hbegins
            exact ⟨text', v', _, rfl⟩
          · obtain ⟨rest', htokens⟩ := hwindow hr
            exact ⟨_, htokens.trans (List.append_assoc _ _ _)⟩
        case operator op' => cases h; exact ⟨calm_of_ne (by simp), nofun, nofun⟩
        all_goals exact shaped_chain_operand he rfl h
    all_goals
      cases h
      exact shaped_closeChain window _

/-- Inside parentheses nothing waits: a call that lacks inputs there is an error. -/
theorem outcome_stepExpression {source : String} {children rest : List Token}
    (h : stepExpression e source children rest w = some r) : r.outcome ≠ .incomplete := by
  unfold stepExpression at h
  split at h
  · cases h
    unfold closeExpression
    repeat' split
    all_goals simp
  obtain ⟨r1, h1, h⟩ := Option.bind_eq_some_iff.1 h
  split at h
  · split at h
    · cases h; simp
    · exact he _ _ _ h
  · cases h; simp
  · cases h; simp

omit he

theorem outcome_runItems {items : List Token} (h : runItems e items w = some r) :
    r.outcome ≠ .incomplete := by
  obtain ⟨r1, h1, h⟩ := Option.bind_eq_some_iff.1 h
  split at h <;> cases h <;> simp

/-- An iteration does not wait, as none of its rounds does. -/
theorem outcome_iterate {items : List Token} {times number : Nat}
    (h : iterate e items times number w = some r) : r.outcome ≠ .incomplete := by
  induction times generalizing number w with
  | zero => cases h; simp
  | succ times ih =>
    unfold iterate at h
    split at h
    · cases h
    rename_i r1 h1
    simp only at h
    split at h
    · split at h
      · cases h; simp
      · exact ih h
    · have hne := outcome_runItems h1
      cases h
      exact hne

/-- A call never waits: what lacks inputs inside it is an error. -/
theorem outcome_stepInvoke [Commands κ] {p : Procedure κ} {inputs : List Value}
    (h : stepInvoke e p inputs w = some r) : r.outcome ≠ .incomplete := by
  unfold stepInvoke at h
  split at h
  · obtain ⟨r1, h1, h⟩ := Option.bind_eq_some_iff.1 h
    cases h
    simp only
    unfold carryOut at h1
    split at h1
    · cases h1; simp
    · cases h1; simp
    · exact outcome_runItems h1
    · exact outcome_iterate h1
  · obtain ⟨r1, h1, h⟩ := Option.bind_eq_some_iff.1 h
    cases h
    unfold bodyResult
    simp only
    split <;> simp

end Step

/-- **Every job leaves what its kind says.** -/
theorem shaped_evaluate [Commands κ] {job : Job κ} {w : Workspace κ} {r : Result κ}
    (h : evaluate job w = some r) : job.Shaped w r := by
  obtain ⟨n, hn⟩ := evaluate_eq_some_iff.1 h
  refine eval_induction (P := fun job w r => job.Shaped w r) (fun e _ he job w r h => ?_) hn
  cases job with
  | sequence lenient tokens => trivial
  | statement lenient tokens => exact shaped_stepStatement he h
  | token lenient tokens => exact shaped_stepToken he h
  | word lenient operand tokens => exact shaped_stepWord he h
  | argument tokens => exact shaped_stepArgument he h
  | chain window rest => exact shaped_stepChain he h
  | expression source children rest => exact outcome_stepExpression he h
  | invoke p inputs => exact outcome_stepInvoke h

theorem shaped_of_extends [Commands κ] {e : Evaluator κ}
    (hext : (evaluate : Evaluator κ).Extends e) :
    ∀ job w r, e job w = some r → job.Shaped w r :=
  fun _ _ _ h => shaped_evaluate (hext _ _ _ h)

/-- **A sequence that waits does so in its last statement**, behind the values that are left of the
statements before it. -/
theorem waits_in_statement [Commands κ] {n : Nat} {lenient : Bool} {tokens : List Token}
    {w : Workspace κ} {r : Result κ} (h : eval n (.sequence lenient tokens) w = some r)
    (hr : r.outcome = .incomplete) :
    ∃ values t rest w' r',
      (Job.sequence lenient tokens).Begins n w (.statement lenient (t :: rest)) w' ∧
      evaluate (.statement lenient (t :: rest)) w' = some r' ∧ r = r'.after values ∧
      ∀ t ∈ values, t.isLiteral = true := by
  induction n generalizing tokens w r with
  | zero => cases h
  | succ n ih =>
    change stepSequence (eval n) lenient tokens w = some r at h
    unfold stepSequence at h
    split at h
    · cases h
      cases hr
    rename_i hw
    have hw : w.isUnwinding = false := by simpa using hw
    split at h
    · cases h
      cases hr
    rename_i t rest htokens
    obtain ⟨r1, h1, h⟩ := Option.bind_eq_some_iff.1 h
    have hvalues : ∀ t ∈ tokens.takeWhile Token.isLiteral, t.isLiteral = true :=
      List.all_eq_true.1 List.all_takeWhile
    split at h
    · -- the statement at the head is done, and a later one waits
      rename_i hcomplete
      obtain ⟨r2, h2, h⟩ := Option.bind_eq_some_iff.1 h
      cases h
      obtain ⟨values, t, rest, w', r', hbegins, hlast, rfl, hliteral⟩ := ih h2 hr
      refine ⟨tokens.takeWhile Token.isLiteral ++ values, t, rest, w', r',
        .asked (.statements hw htokens h1 hcomplete) hbegins, hlast, ?_, fun t ht => ?_⟩
      · rw [Result.after, Result.after, Result.after, List.append_assoc]
      · rcases List.mem_append.1 ht with ht | ht
        · exact hvalues t ht
        · exact hliteral t ht
    · cases h
      cases n with
      | zero => cases h1
      | succ n =>
        exact ⟨_, t, rest, w, r1, .asked (.statement hw htokens) .itself,
          evaluate_extends _ _ _ _ h1, rfl, hvalues⟩

/-- **A sequence that waits has values at its head, and then the word that waits for inputs.** -/
theorem waits_at_word [Commands κ] {n : Nat} {lenient : Bool} {tokens : List Token}
    {w : Workspace κ} {r : Result κ} (h : eval n (.sequence lenient tokens) w = some r)
    (hr : r.outcome = .incomplete) :
    ∃ values text rest, r.tokens = values ++ .word text :: rest ∧
      ∀ t ∈ values, t.isLiteral = true := by
  obtain ⟨values, t, rest, w', r', -, hlast, rfl, hvalues⟩ := waits_in_statement h hr
  obtain ⟨-, hword⟩ := shaped_evaluate hlast
  obtain ⟨text, rest', rfl, htokens⟩ := (hword hr).exists_eq
  exact ⟨values, text, rest', by rw [Result.tokens_after, htokens], hvalues⟩

end Logo
