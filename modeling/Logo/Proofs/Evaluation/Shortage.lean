import Logo.Proofs.Evaluation.Failing
import Logo.Proofs.Evaluation.Waiting
import Logo.Proofs.Operator.Errors

/-!
# Calls that lack inputs

A sequence of statements waits at a word only, and the first procedure of that word takes inputs:
whatever else the work comes to is done or fails. So an error that tells of missing inputs names
such a word, unless a command gives that error of its own accord.

* `Workspace.Expects`: the name calls a procedure that takes inputs.
* `Workspace.WaitsAt`: a sequence is values and then such a name.
* `waitsAt_of_sequence`: what is left of a sequence that waits.
* `expects_of_failed`: the name in an error that tells of missing inputs.
-/

namespace Logo

variable {κ : Type}

/-- The name calls procedures, and the first of them takes inputs. -/
def Workspace.Expects (w : Workspace κ) (name : String) : Prop :=
  ∃ first others, w.lookup name = first :: others ∧ 0 < first.inputs

/-- The tokens are values, and then a word that lacks inputs. -/
def Workspace.WaitsAt (w : Workspace κ) (text : String) (tokens : List Token) : Prop :=
  w.Expects text ∧ ∃ values rest, tokens = values ++ .word text :: rest ∧
    ∀ t ∈ values, t.isLiteral = true

section Words

variable {w w' : Workspace κ} {text : String} {tokens : List Token}

theorem Workspace.Expects.congr (h : w.Expects text) (hlookup : w'.lookup text = w.lookup text) :
    w'.Expects text := by
  unfold Expects
  rw [hlookup]
  exact h

/-- An error that tells of missing inputs names the word at which the tokens wait. -/
theorem Workspace.WaitsAt.pendingWord_eq (h : w.WaitsAt text tokens) :
    pendingWord tokens = text := by
  obtain ⟨-, values, rest, rfl, hvalues⟩ := h
  have hnone : values.find? (!·.isLiteral) = none :=
    List.find?_eq_none.2 fun t ht => by simp [hvalues t ht]
  rw [pendingWord, List.find?_append, hnone]
  rfl

end Words

/-! ## One step -/

/-- A job that waits at its head has a name there that takes inputs. -/
def Job.Lacks (w : Workspace κ) (r : Result κ) : Job κ → Prop
  | .statement _ (t :: _) | .token _ (t :: _) | .word _ _ (t :: _) =>
    r.outcome = .incomplete → w.Expects t.text
  | _ => True

section Step

variable {e : Evaluator κ} {w : Workspace κ} {r : Result κ}

/-- Only a call that takes inputs can wait for them. -/
theorem pos_of_gather {count : Nat} {tokens : List Token}
    (h : gather e count tokens w = some (.halted r)) : 0 < count := by
  cases count with
  | zero => cases h
  | succ count => exact Nat.succ_pos count

variable (hshaped : ∀ job w r, e job w = some r → job.Shaped w r)

include hshaped

/-- A call that waits does so for one of its inputs. -/
theorem pos_of_callWord {operand : Bool} {token : Token} {first : Procedure κ}
    {others : List (Procedure κ)} {rest : List Token}
    (h : callWord e operand token first others rest w = some r) (hr : r.outcome = .incomplete) :
    0 < first.inputs := by
  obtain ⟨g, hg, h⟩ := Option.bind_eq_some_iff.1 h
  split at h
  · exact pos_of_gather hg
  · cases h; cases hr
  · -- with all inputs at hand it is done or fails
    obtain ⟨r1, h1, h⟩ := Option.bind_eq_some_iff.1 h
    have hne := outcome_callAll hshaped h1
    split at h
    · cases h; cases hr
    · cases h; exact absurd hr hne

/-- A word waits because the first procedure of its name takes inputs. -/
theorem lacks_stepWord {lenient operand : Bool} {t : Token} {rest : List Token}
    (h : stepWord e lenient operand (t :: rest) w = some r) (hr : r.outcome = .incomplete) :
    w.Expects t.text := by
  unfold stepWord at h
  simp only at h
  split at h
  · cases h; cases hr
  split at h
  · cases h; cases hr
  split at h
  · rename_i first others hlookup
    exact ⟨first, others, hlookup, pos_of_callWord hshaped h hr⟩
  · split at h <;> cases h <;> cases hr

variable (he : ∀ job w r, e job w = some r → job.Lacks w r)

include he

theorem lacks_stepToken {lenient : Bool} {t : Token} {rest : List Token}
    (h : stepToken e lenient (t :: rest) w = some r) (hr : r.outcome = .incomplete) :
    w.Expects t.text := by
  cases t
  case word => exact he _ _ _ h hr
  case expression => exact absurd hr (hshaped _ _ _ h)
  all_goals cases h; cases hr

omit hshaped in
theorem lacks_stepStatement {lenient : Bool} {t : Token} {rest : List Token}
    (h : stepStatement e lenient (t :: rest) w = some r) (hr : r.outcome = .incomplete) :
    w.Expects t.text := by
  cases t
  case list => cases h; cases hr
  case expression => cases h; cases hr
  case operator => cases h; cases hr
  case comment => cases h; cases hr
  all_goals exact he _ _ _ h hr

end Step

/-! ## Whole runs -/

variable [Commands κ]

/-- **A job that waits at its head has a name there that takes inputs.** -/
theorem lacks_evaluate {job : Job κ} {w : Workspace κ} {r : Result κ}
    (h : evaluate job w = some r) : job.Lacks w r := by
  obtain ⟨n, hn⟩ := evaluate_eq_some_iff.1 h
  refine eval_induction (P := fun job w r => job.Lacks w r) (fun e hext he job w r h => ?_) hn
  have hshaped := shaped_of_extends hext
  cases job with
  | statement lenient tokens =>
    cases tokens with
    | nil => trivial
    | cons t rest => exact lacks_stepStatement he h
  | token lenient tokens =>
    cases tokens with
    | nil => trivial
    | cons t rest => exact lacks_stepToken hshaped he h
  | word lenient operand tokens =>
    cases tokens with
    | nil => trivial
    | cons t rest => exact lacks_stepWord hshaped h
  -- inputs and runs of values wait at a word further inside, of which this says nothing
  | _ => trivial

section Kept

variable {A : Procedure κ → Prop} {R : Workspace κ → Workspace κ → Prop} (hR : Kept A R)
  {n : Nat} {job : Job κ} {w : Workspace κ} {r : Result κ} {text name : String}

include hR

/-- **A sequence that waits has values at its head, and then a word that lacks inputs.** -/
theorem waitsAt_of_sequence {lenient : Bool} {tokens : List Token} (hw : w.Admits A)
    (h : eval n (.sequence lenient tokens) w = some r) (hr : r.outcome = .incomplete) :
    ∃ text, r.workspace.WaitsAt text r.tokens := by
  obtain ⟨values, t, rest, w', r', hbegins, hlast, rfl, hvalues⟩ := waits_in_statement h hr
  obtain ⟨-, hword⟩ := shaped_evaluate hlast
  obtain ⟨text, rest', rfl, htokens⟩ := (hword hr).exists_eq
  have hexpects : w'.Expects text := lacks_evaluate hlast hr
  obtain ⟨-, hw', -⟩ := hR.begins hbegins trivial hw
  exact ⟨text, hexpects.congr (hR.lookup_of_evaluate hlast trivial hw' text), values, rest',
    by rw [Result.tokens_after, htokens], hvalues⟩

/-- An operand waits at the word that it begins with. -/
theorem waitsAt_of_operand {lenient : Bool} {t : Token} {rest : List Token} (hw : w.Admits A)
    (h : evaluate (operandJob lenient (t :: rest)) w = some r) (hr : r.outcome = .incomplete) :
    ∃ text, r.workspace.WaitsAt text r.tokens := by
  have hoperand := (operand_eq evaluate lenient (t :: rest) w).trans h
  obtain ⟨-, hword⟩ := shaped_operand (fun _ _ _ => shaped_evaluate) hoperand
  obtain ⟨text, rest', rfl, htokens⟩ := (hword hr).exists_eq
  have hexpects : w.Expects text := lacks_evaluate h hr
  exact ⟨text, hexpects.congr (hR.lookup_of_evaluate h (admits_operandJob _ _) hw text), [], rest',
    htokens, fun _ ht => absurd ht List.not_mem_nil⟩

/-! ## Errors -/

/-- The word at which a job waits takes inputs from the beginning. -/
theorem Workspace.WaitsAt.expects (h : r.workspace.WaitsAt text r.tokens)
    (hr : evaluate job w = some r) (hjob : job.Admits A) (hw : w.Admits A) :
    w.Expects (pendingWord r.tokens) := by
  rw [h.pendingWord_eq]
  exact h.1.congr (hR.lookup_of_evaluate hr hjob hw text).symm

omit hR in
/-- In the course of the job a command fails with the cause. -/
def Job.CommandFails (n : Nat) (job : Job κ) (w : Workspace κ) (cause : RuntimeError) : Prop :=
  ∃ p inputs code w' w'', job.Begins n w (.invoke p inputs) w' ∧ p.kind = .command code ∧
    Commands.perform code (w'.pushFrame none) inputs = (w'', .fail cause)

/-- **The name in an error that tells of missing inputs calls a procedure that takes inputs**,
unless a command failed with that error. -/
theorem expects_of_failed (hjob : job.Admits A) (hw : w.Admits A) (h : eval n job w = some r)
    (hr : r.outcome = .failed (.notEnoughInputs name)) :
    w.Expects name ∨ job.CommandFails n w (.notEnoughInputs name) := by
  induction n generalizing job w r with
  | zero => cases h
  | succ n ih =>
    have hkeeps := hR.keeps_of_extends (evaluate_extends n)
    -- what a job that is asked for finds, the job itself found
    have hback {job' : Job κ} {w' : Workspace κ} (hask : job.Asks (eval n) w job' w')
        (hexpects : w'.Expects name) : w.Expects name :=
      hexpects.congr (by rw [Workspace.lookup, Workspace.lookup, hR.asks hkeeps hjob hw hask])
    rcases Job.step_failed h hr with ⟨job', w', r', hask, hr', hfails⟩ | hraises
    · obtain ⟨hjob', hw'⟩ := hR.asks_admits hkeeps hjob hw hask
      rcases ih hjob' hw' hr' hfails with
        hexpects | ⟨p, inputs, code, w₁, w₂, hbegins, hfailed⟩
      · exact Or.inl (hback hask hexpects)
      · exact Or.inr ⟨p, inputs, code, w₁, w₂, .asked hask hbegins, hfailed⟩
    cases hraises with
    | chainReduction hreduce => cases reduce_error hreduce
    | reduction hreduce => cases reduce_error hreduce
    | operand hchildren hr' hwaits =>
      have hr' := evaluate_extends n _ _ _ hr'
      obtain ⟨text, hwaitsAt⟩ := waitsAt_of_operand hR hw hr' hwaits
      exact Or.inl (hwaitsAt.expects hR hr' (admits_operandJob _ _) hw)
    | statements hask hr' hwaits =>
      obtain ⟨-, hw'⟩ := hR.asks_admits hkeeps hjob hw hask
      obtain ⟨text, hwaitsAt⟩ := waitsAt_of_sequence hR hw' hr' hwaits
      exact Or.inl (hback hask (hwaitsAt.expects hR (evaluate_extends n _ _ _ hr') trivial hw'))
    | command hcode hperform => exact Or.inr ⟨_, _, _, _, _, .itself, hcode, hperform⟩

/-- A list that is run and lacks inputs names a word that expects them, or a command failed in that
way. -/
theorem expects_of_runList {items : List Token} (hw : w.Admits A) (h : w.runList n items = some r)
    (hr : r.outcome = .failed (.notEnoughInputs name)) :
    w.Expects name ∨ (Job.sequence false items).CommandFails n w (.notEnoughInputs name) := by
  obtain ⟨r1, h1, h⟩ := Option.bind_eq_some_iff.1 h
  split at h
  · cases h; cases hr
  · -- a list cannot wait, so that the error names the word at which it would have
    rename_i hwaits
    cases h; cases hr
    obtain ⟨text, hwaitsAt⟩ := waitsAt_of_sequence hR hw h1 hwaits
    exact Or.inl (hwaitsAt.expects hR (evaluate_extends n _ _ _ h1) trivial hw)
  · rename_i hfails
    cases h; cases hr
    exact expects_of_failed hR trivial hw h1 hfails

end Kept

end Logo
