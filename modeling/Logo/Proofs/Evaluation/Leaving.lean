import Logo.Proofs.Evaluation.Asking
import Logo.Proofs.Session.Rest

/-!
# Nothing runs while a procedure is being left

The commands `output` and `stop` only leave a request behind. It is up to every loop of evaluation
to heed it: from then on no procedure may be called and no variable read, until the definition that
is left has taken the request. A job looks for a request whenever another job is done, and one that
finds a request hands on nothing but a sequence of statements, which ends at once (`Job.Heeds`).

* `heeds_asks`: a job that heeds requests hands on jobs that do.
* `nothing_runs_while_leaving`: so do all jobs that are begun, however deep they nest.
-/

namespace Logo

variable {κ : Type}

/-- The job calls a procedure, or reads a variable. -/
def Job.Acts : Job κ → Prop
  | .invoke _ _ => True
  | .token _ (.reference _ :: _) => True
  | _ => False

/-- While a procedure is being left, the job is a sequence of statements. -/
def Job.Heeds (job : Job κ) (w : Workspace κ) : Prop :=
  w.isUnwinding = true → ∃ lenient tokens, job = .sequence lenient tokens

/-- Where nothing is to be left there is nothing to heed. -/
theorem Job.heeds_of_not_unwinding {job : Job κ} {w : Workspace κ} (hw : w.isUnwinding = false) :
    job.Heeds w := by
  intro hunwinding
  rw [hw] at hunwinding
  cases hunwinding

theorem signal_eq_none_iff {w : Workspace κ} : w.signal = none ↔ w.isUnwinding = false := by
  rw [Workspace.isUnwinding, Option.isSome_eq_false_iff, Option.isNone_iff_eq_none]

/-! ## Loops -/

section Loops

variable {e : Evaluator κ} {w w' : Workspace κ} (hw : w.isUnwinding = false)

include hw

/-- The next input is looked for only if none before it asked to leave a procedure. -/
theorem SeeksInput.isUnwinding {count : Nat} {tokens tokens' : List Token}
    (h : SeeksInput e count tokens w tokens' w') : w'.isUnwinding = false := by
  induction h with
  | here => exact hw
  | later _ _ hnext _ ih => exact ih hnext

/-- Inputs are complete only where no procedure is to be left. -/
theorem isUnwinding_of_gather {count : Nat} {tokens slots rest : List Token}
    (h : gather e count tokens w = some (.ready slots rest w')) : w'.isUnwinding = false := by
  induction count generalizing tokens w slots with
  | zero =>
    cases h
    exact hw
  | succ count ih =>
    obtain ⟨r, -, hcases⟩ := gather_succ_cases h
    rcases hcases with ⟨-, -, hg⟩ | ⟨-, hnext, g, hlater, hg⟩ | ⟨-, hg⟩
    · cases hg
    · cases g with
      | ready slots' rest' w'' =>
        cases hg
        exact ih hnext hlater
      | unwound tokens w => cases hg
      | halted r => cases hg
    · cases hg

/-- No procedure is called any more when one is to be left. -/
theorem ComesToCall.isUnwinding {inputs : List Value} {procedures : List (Procedure κ)}
    {p : Procedure κ} (h : ComesToCall e inputs procedures w p w') : w'.isUnwinding = false := by
  induction h with
  | here => exact hw
  | later _ _ hnext _ ih => exact ih hnext

/-- No round is begun any more when a procedure is to be left. -/
theorem ComesToRound.isUnwinding {items : List Token} {times number : Nat}
    (h : ComesToRound e items times number w w') : w'.isUnwinding = false := by
  induction h with
  | here => exact hw
  | later _ _ hnext _ ih => exact ih hnext

end Loops

/-! ## One job -/

variable {H : Type} [Host H] {e : Evaluator (Command H)} {job job' : Job (Command H)}
  {w w' : Workspace (Command H)}

/-- A command that asks for a list to be run has left the workspace alone. -/
theorem Procedure.IsPlain.perform_run {p : Procedure (Command H)} {code : Command H}
    {inputs : List Value} {items : List Token} (hp : p.IsPlain) (hcode : p.kind = .command code)
    (h : Commands.perform code w inputs = (w', .run items)) : w' = w := by
  cases code with
  | host c => exact absurd hcode (hp c)
  | primitive q => exact Primitive.perform_run h

/-- A command that asks for an iteration has done nothing else. -/
theorem Procedure.IsPlain.perform_iterate {p : Procedure (Command H)} {code : Command H}
    {inputs : List Value} {times : Nat} {items : List Token} (hp : p.IsPlain)
    (hcode : p.kind = .command code)
    (h : Commands.perform code w inputs = (w', .iterate times items)) : w' = w := by
  cases code with
  | host c => exact absurd hcode (hp c)
  | primitive q => exact Primitive.perform_iterate h

/-- **A job that heeds requests hands on jobs that do.** -/
theorem heeds_asks (hjob : job.Admits Procedure.IsPlain) (hheeds : job.Heeds w)
    (h : job.Asks e w job' w') : job'.Heeds w' := by
  -- a sequence looks for a request itself; any other job begins without one
  by_cases hsequence : ∃ lenient tokens, job = .sequence lenient tokens
  · obtain ⟨lenient, tokens, rfl⟩ := hsequence
    cases h with
    | statement hw => exact Job.heeds_of_not_unwinding hw
    | statements => exact fun _ => ⟨_, _, rfl⟩
  have hw : w.isUnwinding = false := Bool.eq_false_iff.2 fun hw => hsequence (hheeds hw)
  apply Job.heeds_of_not_unwinding
  cases h with
  | statement hw => exact hw
  | statements => exact absurd ⟨_, _, rfl⟩ hsequence
  | token | word | expression | value | operand | chainValue | chainOperand | child => exact hw
  | input _ hseeks => exact hseeks.isUnwinding hw
  | call _ hready hcall => exact hcall.isUnwinding (isUnwinding_of_gather hw hready)
  | argument _ _ _ hnext => exact hnext
  | chain _ _ _ hnext => exact hnext
  | children _ _ _ hnext => exact hnext
  | items hcode hperform =>
    rw [Procedure.IsPlain.perform_run hjob hcode hperform]
    exact hw
  | round hcode hperform hround =>
    rw [Procedure.IsPlain.perform_iterate hjob hcode hperform] at hround
    have hframe : (w.pushFrame none).isUnwinding = false := hw
    exact hround.isUnwinding hframe
  | body => exact hw

/-! ## All jobs -/

/-- The invariant: only primitives and definitions can be called, and the job heeds requests. -/
structure Job.IsHeedful (job : Job (Command H)) (w : Workspace (Command H)) : Prop where
  plain : job.Admits Procedure.IsPlain
  plainProcedures : w.Admits Procedure.IsPlain
  heeds : job.Heeds w

/-- Every job that is asked for heeds a request to leave. -/
theorem isHeedful_asks (hext : (evaluate : Evaluator (Command H)).Extends e)
    (hjob : job.IsHeedful w) (h : job.Asks e w job' w') : job'.IsHeedful w' := by
  obtain ⟨hplain, hw⟩ :=
    kept_balanced.asks_admits (keeps_of_extends hext) hjob.plain hjob.plainProcedures h
  exact ⟨hplain, hw, heeds_asks hjob.plain hjob.heeds h⟩

omit [Host H] in
/-- A job that heeds requests calls nothing and reads nothing while one is pending. -/
theorem Job.Heeds.signal_eq_none (h : job.Heeds w) (hacts : job.Acts) : w.signal = none := by
  rw [signal_eq_none_iff, Bool.eq_false_iff]
  intro hw
  obtain ⟨lenient, tokens, rfl⟩ := h hw
  exact hacts

/-- **Nothing runs while a procedure is being left.** Where only primitives and definitions can be
called, every job that is begun without a request gives the result that it would have if evaluation
gave up at the first call, and at the first reading of a variable, for which a request is pending.
In the course of it nothing is begun while a request is pending but sequences of statements, which
end at once and leave everything as it is. -/
theorem nothing_runs_while_leaving (n : Nat) (job : Job (Command H)) (w : Workspace (Command H))
    (hjob : job.Admits Procedure.IsPlain) (hw : w.Admits Procedure.IsPlain)
    (hsignal : w.signal = none) :
    evalWithin (fun job w => job.Acts → w.signal = none) n job w = eval n job w ∧
    ∀ job' w', job.Begins n w job' w' → w'.signal ≠ none →
      ∃ lenient tokens, job' = .sequence lenient tokens ∧
        ∀ e, job'.step e w' = some ⟨.complete, tokens, w'⟩ := by
  have hstart : job.IsHeedful w :=
    ⟨hjob, hw, Job.heeds_of_not_unwinding (signal_eq_none_iff.1 hsignal)⟩
  constructor
  · exact evalWithin_eq (fun _ _ h => h.heeds.signal_eq_none)
      (fun _ hext _ _ _ _ h hask => isHeedful_asks hext h hask) hstart
  · intro job' w' hbegins hpending
    have hheedful : job'.IsHeedful w' :=
      hbegins.invariant (fun _ hext _ _ _ _ h hask => isHeedful_asks hext h hask) hstart
    have hunwinding : w'.isUnwinding = true := Option.isSome_iff_ne_none.2 hpending
    obtain ⟨lenient, tokens, rfl⟩ := hheedful.heeds hunwinding
    refine ⟨lenient, tokens, rfl, fun e => ?_⟩
    exact if_pos hunwinding

/-- The statement `repeat 2 [print 2 * sum (1 + run [output 5]) :y]`, and `print :z` behind it. -/
def outputInOperand : List Token :=
  [.word "repeat", .literal "2" (.number ⟨2, 0⟩),
    .list [.word "print", .literal "2" (.number ⟨2, 0⟩), .operator .multiply, .word "sum",
      .expression [.literal "1" (.number ⟨1, 0⟩), .operator .add, .word "run",
        .list [.word "output", .literal "5" (.number ⟨5, 0⟩)]],
      .reference ":y"],
    .word "print", .reference ":z"]

/-- The command `output` in a list, in an expression, in an input, in an operand, in an input, in an
iteration: nothing is written and no variable read, and the statement behind it is passed over. -/
theorem nothing_runs_while_leaving_nested :
    insideProcedure.Admits Procedure.IsPlain ∧ insideProcedure.signal = none ∧
    (∃ r, evalWithin (fun job w => job.Acts → w.signal = none) 40
        (.sequence false outputInOperand) insideProcedure = some r ∧ r.workspace.signal ≠ none ∧
      r.workspace.output = #[] ∧ r.workspace.scope.globals.entries = []) ∧
    ∃ lenient tokens w', (Job.sequence false outputInOperand).Begins 40 insideProcedure
        (.sequence lenient tokens) w' ∧ w'.signal ≠ none ∧
      ∀ e, (Job.sequence lenient tokens).step e w' = some ⟨.complete, tokens, w'⟩ := by
  obtain ⟨hplain, hsignal⟩ : insideProcedure.Admits Procedure.IsPlain ∧
      insideProcedure.signal = none := (Workspace.resting_withPrimitives _).inFrame _
  have hrun : (eval 40 (.sequence false outputInOperand) insideProcedure).any (fun r =>
      r.workspace.isUnwinding && r.workspace.output.isEmpty &&
        r.workspace.scope.globals.entries.isEmpty) = true := by
    decide +kernel
  have hfirst : (eval 39 (.statement false outputInOperand) insideProcedure).any (fun r =>
      r.outcome = .complete && r.workspace.isUnwinding) = true := by
    decide +kernel
  obtain ⟨r, hr, hends⟩ := (Option.any_eq_true _ _).1 hrun
  obtain ⟨r1, hr1, hleft⟩ := (Option.any_eq_true _ _).1 hfirst
  simp only [Bool.and_eq_true, Array.isEmpty_iff, List.isEmpty_iff, decide_eq_true_eq]
    at hends hleft
  obtain ⟨⟨hpending, houtput⟩, hglobals⟩ := hends
  -- the rest of the sequence is begun although the request is pending
  have hbegins : (Job.sequence false outputInOperand).Begins 40 insideProcedure
      (.sequence false r1.tokens) r1.workspace :=
    .asked (.statements (signal_eq_none_iff.1 hsignal) rfl hr1 hleft.1) .itself
  have hne : r1.workspace.signal ≠ none := Option.isSome_iff_ne_none.1 hleft.2
  obtain ⟨hwithin, hquiet⟩ := nothing_runs_while_leaving 40 (.sequence false outputInOperand)
    insideProcedure trivial hplain hsignal
  obtain ⟨lenient, tokens, hsequence, hstep⟩ := hquiet _ _ hbegins hne
  cases hsequence
  exact ⟨hplain, hsignal, ⟨r, hwithin.trans hr, Option.isSome_iff_ne_none.1 hpending, houtput,
    hglobals⟩, _, _, _, hbegins, hne, hstep⟩

end Logo
