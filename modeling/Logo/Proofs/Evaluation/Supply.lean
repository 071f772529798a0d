import Logo.Proofs.Evaluation.Range
import Logo.Proofs.Evaluation.Resume
import Logo.Proofs.Registry.ClosedForm

/-!
# The inputs of a call

A word takes as many inputs as the first procedure of its name declares, and hands the same inputs to
all procedures of the name. A procedure that shares its name gets the number that it declares itself
exactly if the first one declares the same.

* `Job.Calls`: the calls that are made in the course of a job.
* `Job.Calls.length_inputs`: their inputs are those that the first procedure of the name declares.
* `evalWithin_hasInputs`: where procedures with one name agree, every procedure gets the number of
  inputs that it declares.
* `inputs_as_first_declares`: both, after any registrations.
-/

namespace Logo

variable {κ : Type}

section Calls

variable [Commands κ]

/-- In the course of `job`, done within the bound `n` from the workspace `w`, the word `t` is
evaluated in the workspace `w'` and calls `p` with the inputs. -/
inductive Job.Calls :
    Nat → Job κ → Workspace κ → Token → Workspace κ → Procedure κ → List Value → Prop where
  | word {n lenient operand t rest w p inputs w'}
    (h : (Job.word lenient operand (t :: rest)).Asks (eval n) w (.invoke p inputs) w') :
    Calls (n + 1) (.word lenient operand (t :: rest)) w t w p inputs
  | asked {n job w job' w' t w'' p inputs} (h : job.Asks (eval n) w job' w')
    (hlater : Calls n job' w' t w'' p inputs) : Calls (n + 1) job w t w'' p inputs

variable {n : Nat} {job job' : Job κ} {w w' : Workspace κ} {t : Token} {p : Procedure κ}
  {inputs : List Value} {e : Evaluator κ}

/-- The values of the inputs that were found are as many as were asked for. -/
theorem length_found_inputs (hext : (evaluate : Evaluator κ).Extends e) {count : Nat}
    {rest slots rest' : List Token} (h : gather e count rest w = some (.ready slots rest' w')) :
    (slots.filterMap Token.value?).length = count := by
  obtain ⟨hlength, hliteral⟩ := gather_ready (shaped_of_extends hext) h
  exact (length_values hliteral).trans hlength

/-- **Every call has the inputs that the first procedure of the name declares.** -/
theorem Job.Calls.length_inputs (h : job.Calls n w t w' p inputs) :
    ∃ first others, w'.lookup t.text = first :: others ∧ p ∈ first :: others ∧
      inputs.length = first.inputs := by
  induction h with
  | word h =>
    cases h with
    | call hlookup hready hcall =>
      exact ⟨_, _, hlookup, hcall.mem, length_found_inputs (evaluate_extends _) hready⟩
  | asked _ _ ih => exact ih

/-! ## Where procedures with one name agree -/

/-- Procedures with the same name declare the same number of inputs. -/
def Workspace.Uniform (w : Workspace κ) : Prop :=
  ∀ name, ∀ p ∈ w.lookup name, ∀ q ∈ w.lookup name, p.inputs = q.inputs

omit [Commands κ] in
theorem Workspace.Uniform.congr (h : w.Uniform) (hregistry : w'.registry = w.registry) :
    w'.Uniform := by
  intro name
  rw [Workspace.lookup, hregistry]
  exact h name

/-- A job that calls a procedure has as many inputs for it as it declares. -/
def Job.HasInputs : Job κ → Prop
  | .invoke p inputs => inputs.length = p.inputs
  | _ => True

omit [Commands κ] in
theorem hasInputs_operandJob (lenient : Bool) (tokens : List Token) :
    (operandJob lenient tokens : Job κ).HasInputs := by
  unfold operandJob
  split <;> trivial

/-- **A word calls each procedure with the number of inputs that it declares**, where procedures with
one name agree. No other job calls a procedure. -/
theorem hasInputs_of_asks (hext : (evaluate : Evaluator κ).Extends e) (hw : w.Uniform)
    (h : job.Asks e w job' w') : job'.HasInputs := by
  cases h with
  | call hlookup hready hcall =>
    have hagree := hw _ _ (hlookup ▸ List.mem_cons_self) _ (hlookup ▸ hcall.mem)
    exact (length_found_inputs hext hready).trans hagree
  | operand | chainOperand | child => exact hasInputs_operandJob _ _
  | _ => trivial

/-- A job hands on the registry, if no command changes it. -/
theorem registry_of_asks (hκ : Commands.KeepRegistry κ)
    (hext : (evaluate : Evaluator κ).Extends e) (h : job.Asks e w job' w') :
    w'.registry = w.registry := by
  have hkept := kept_registry hκ
  exact hkept.asks (hkept.keeps_of_extends hext) job.admits_all (fun _ _ _ => trivial) h

/-- The registry is the same at every call inside a job. -/
theorem Job.Calls.registry_eq (hκ : Commands.KeepRegistry κ) (h : job.Calls n w t w' p inputs) :
    w'.registry = w.registry := by
  induction h with
  | word _ => rfl
  | asked h _ ih => exact ih.trans (registry_of_asks hκ (evaluate_extends _) h)

/-- **No call of a run has another number of inputs**, where procedures with one name agree. -/
theorem evalWithin_hasInputs (hκ : Commands.KeepRegistry κ) (hw : w.Uniform)
    (hjob : job.HasInputs) :
    evalWithin (fun job _ => job.HasInputs) n job w = eval n job w := by
  refine evalWithin_eq (I := fun job w => w.Uniform ∧ job.HasInputs) (fun _ _ h => h.2) ?_
    ⟨hw, hjob⟩
  intro e hext job w job' w' h hask
  exact ⟨h.1.congr (registry_of_asks hκ hext hask), hasInputs_of_asks hext h.1 hask⟩

/-- Where procedures with one name agree, every call gets as many inputs as its procedure
declares. -/
theorem Job.Calls.length_inputs_of_uniform (hκ : Commands.KeepRegistry κ) (hw : w.Uniform)
    (h : job.Calls n w t w' p inputs) : inputs.length = p.inputs := by
  obtain ⟨first, others, hlookup, hp, hlength⟩ := h.length_inputs
  rw [← hlookup] at hp
  have hw' := hw.congr (h.registry_eq hκ)
  exact hlength.trans (hw' _ _ (hlookup ▸ List.mem_cons_self) _ hp)

end Calls

/-! ## Registrations -/

/-- The procedures that registrations leave with one name declare the same number of inputs. -/
def Registry.SharedAlike (ps : List (Procedure κ)) : Prop :=
  ∀ name, ∀ p ∈ fromLastTaker (untilFixed (carriers name ps)),
    ∀ q ∈ fromLastTaker (untilFixed (carriers name ps)), p.inputs = q.inputs

/-- Registrations that all declare the same number leave procedures that agree. -/
theorem Registry.sharedAlike_of_forall {ps : List (Procedure κ)} {n : Nat}
    (h : ∀ p ∈ ps, p.inputs = n) : SharedAlike ps := by
  -- both cuts only take registrations away
  have hleft (name : String) :
      ∀ p ∈ fromLastTaker (untilFixed (carriers name ps)), p.inputs = n := by
    intro p hp
    have hcarrier := List.mem_of_mem_take (List.mem_of_mem_drop hp)
    obtain ⟨q, hq, hmem⟩ := List.mem_flatMap.1 hcarrier
    rw [List.eq_of_mem_replicate hmem]
    exact h q hq
  intro name p hp q hq
  rw [hleft name p hp, hleft name q hq]

/-- Whether procedures with one name agree can be read off the registrations. -/
theorem uniform_of_registers {verbosity : Verbosity} {ps : List (Procedure κ)} {w : Workspace κ}
    (h : ({ verbosity } : Workspace κ).Registers ps w) (hps : Registry.SharedAlike ps) :
    w.Uniform := by
  intro name
  -- the closed form says which registrations are left under the name
  have hleft : w.lookup name =
      Registry.fromLastTaker (Registry.untilFixed (Registry.carriers (Text.lowercase name) ps)) := by
    change w.registry.holders (Text.lowercase name) = _
    rw [Workspace.registry_of_registers h, Registry.holders_foldl_register]
    exact Registry.enlistAll_nil _
  rw [hleft]
  exact hps _

/-! ## Two procedures with one name -/

/-- A procedure with the name `say` that stands alongside others. -/
def saying (inputs : Nat) (p : Primitive) : Procedure (Command Empty) :=
  { name := "say", inputs, redefinability := .alongside, kind := .command (.primitive p) }

/-- The name `say` calls `list`, with two inputs, and then `print`, with the number declared. -/
def saidTwice (inputs : Nat) : Workspace (Command Empty) :=
  (({} : Workspace (Command Empty)).register (saying 2 .list)).register (saying inputs .print)

/-- The numbers one and two. -/
def oneTwo : List Token :=
  [.literal "1" (.number ⟨1, 0⟩), .literal "2" (.number ⟨2, 0⟩)]

/-- The second procedure gets the inputs of the first one. -/
theorem calls_saidTwice (inputs : Nat) :
    (Job.sequence false (.word "say" :: oneTwo)).Calls 6 (saidTwice inputs) (.word "say")
      (saidTwice inputs) (saying inputs .print) (oneTwo.filterMap Token.value?) := by
  have hlookup : (saidTwice inputs).lookup (Token.word "say").text =
      [saying 2 .list, saying inputs .print] := rfl
  have hready : gather (eval 2) (saying 2 .list).inputs oneTwo (saidTwice inputs) =
      some (.ready oneTwo [] (saidTwice inputs)) := rfl
  have hcall : ComesToCall (eval 2) (oneTwo.filterMap Token.value?)
      [saying 2 .list, saying inputs .print] (saidTwice inputs) (saying inputs .print)
      (saidTwice inputs) := .later rfl rfl rfl .here
  have hasks : (Job.word false false (.word "say" :: oneTwo)).Asks (eval 2) (saidTwice inputs)
      (.invoke (saying inputs .print) (oneTwo.filterMap Token.value?)) (saidTwice inputs) :=
    .call hlookup hready hcall
  have hword := Job.Calls.word hasks
  exact .asked (.statement rfl rfl) (.asked .token (.asked .word hword))

theorem registers_saidTwice (inputs : Nat) :
    ({ verbosity := .silent } : Workspace (Command Empty)).Registers
      [saying 2 .list, saying inputs .print] (saidTwice inputs) :=
  .append (.register _ (saying 2 .list)) (.register _ (saying inputs .print))

/-! ## All calls -/

/-- **A word takes the inputs that its first procedure declares.** Whatever is registered and
whatever commands do, every procedure that a word calls gets as many inputs as the first one of the
name declares. Where the procedures that are left with one name declare the same number, and no
command registers others, every procedure gets the number that it declares: a run that gives up on
any other call has the same results. -/
theorem inputs_as_first_declares [Commands κ] :
    (∀ (n : Nat) (job : Job κ) (w : Workspace κ) (t : Token) (w' : Workspace κ) (p : Procedure κ)
      (inputs : List Value), job.Calls n w t w' p inputs →
      ∃ first others, w'.lookup t.text = first :: others ∧ p ∈ first :: others ∧
        inputs.length = first.inputs) ∧
    ∀ (verbosity : Verbosity) (ps : List (Procedure κ)) (w : Workspace κ),
      ({ verbosity } : Workspace κ).Registers ps w → Registry.SharedAlike ps →
      Commands.KeepRegistry κ → ∀ (n : Nat) (lenient : Bool) (tokens : List Token),
        (∀ t w' p inputs, (Job.sequence lenient tokens).Calls n w t w' p inputs →
          inputs.length = p.inputs) ∧
        evalWithin (fun job _ => job.HasInputs) n (.sequence lenient tokens) w =
          eval n (.sequence lenient tokens) w := by
  refine ⟨fun n job w t w' p inputs h => h.length_inputs, ?_⟩
  intro verbosity ps w hregisters hps hκ n lenient tokens
  have hw := uniform_of_registers hregisters hps
  exact ⟨fun t w' p inputs h => h.length_inputs_of_uniform hκ hw, evalWithin_hasInputs hκ hw trivial⟩

/-- Both procedures of the name declare two inputs. -/
theorem inputs_as_first_declares_shared :
    Registry.SharedAlike [saying 2 .list, saying 2 .print] ∧
    (Job.sequence false (.word "say" :: oneTwo)).Calls 6 (saidTwice 2) (.word "say") (saidTwice 2)
      (saying 2 .print) (oneTwo.filterMap Token.value?) ∧
    (∃ first others, (saidTwice 2).lookup "say" = first :: others ∧
      saying 2 .print ∈ first :: others ∧
      (oneTwo.filterMap Token.value?).length = first.inputs) ∧
    (oneTwo.filterMap Token.value?).length = (saying 2 .print).inputs := by
  have hshared : Registry.SharedAlike [saying 2 .list, saying 2 .print] :=
    Registry.sharedAlike_of_forall (n := 2) (by simp [saying])
  have hκ : Commands.KeepRegistry (Command Empty) := keepRegistry_command nofun
  have hcalls := calls_saidTwice 2
  have hfirst := inputs_as_first_declares.1 _ _ _ _ _ _ _ hcalls
  have hruns := inputs_as_first_declares.2 _ _ _ (registers_saidTwice 2) hshared hκ 6 false
    (.word "say" :: oneTwo)
  exact ⟨hshared, hcalls, hfirst, hruns.1 _ _ _ _ hcalls⟩

/-- The second procedure declares one input, and gets the two inputs of the first one. -/
theorem second_gets_inputs_of_first :
    (Job.sequence false (.word "say" :: oneTwo)).Calls 6 (saidTwice 1) (.word "say") (saidTwice 1)
      (saying 1 .print) [.number ⟨1, 0⟩, .number ⟨2, 0⟩] ∧ (saying 1 .print).inputs = 1 ∧
    ¬ ∀ (ps : List (Procedure (Command Empty))) (w : Workspace (Command Empty)),
      ({ verbosity := .silent } : Workspace (Command Empty)).Registers ps w →
      ∀ n lenient tokens t w' p inputs, (Job.sequence lenient tokens).Calls n w t w' p inputs →
        inputs.length = p.inputs := by
  have hcalls := calls_saidTwice 1
  refine ⟨hcalls, rfl, fun h => ?_⟩
  have hlength := h _ _ (registers_saidTwice 1) _ _ _ _ _ _ _ hcalls
  exact absurd hlength (by decide)

end Logo
