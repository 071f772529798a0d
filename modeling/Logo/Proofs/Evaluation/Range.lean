import Logo.Proofs.Evaluation.Balance
import Logo.Proofs.Evaluation.Failing
import Logo.Proofs.Evaluation.Waiting
import Logo.Proofs.Operator.Errors
import Logo.Proofs.Primitive.Reading

/-!
# Nothing is out of range

A statement begins with a token, a call finds as many values as it needs, and a procedure is handed
as many values as it declares, so that no primitive misses an input (`Job.InRange`). This rests on
the registry: no name calls two procedures, and a procedure declares what it reads
(`Registry.Orderly`).

* `gather_ready`: the inputs of a call are values, and none is missing.
* `evalWithin_inRange`: every job that is begun is in range.
* `outcome_ne_missingInput`: no job fails for a missing input.
-/

namespace Logo

variable {κ : Type}

/-! ## Inputs -/

/-- **Inputs that were found are values, as many as were asked for.** -/
theorem gather_ready {e : Evaluator κ} (he : ∀ job w r, e job w = some r → job.Shaped w r)
    {count : Nat} {tokens slots rest : List Token} {w w' : Workspace κ}
    (h : gather e count tokens w = some (.ready slots rest w')) :
    slots.length = count ∧ ∀ t ∈ slots, t.isLiteral = true := by
  induction count generalizing tokens w slots with
  | zero =>
    cases h
    exact ⟨rfl, nofun⟩
  | succ count ih =>
    obtain ⟨r1, h1, hcases⟩ := gather_succ_cases h
    obtain ⟨-, hvalue, -⟩ := he _ _ _ h1
    rcases hcases with ⟨-, -, hg⟩ | ⟨hcomplete, hw, g, hlater, hg⟩ | ⟨-, hg⟩
    · cases hg
    · -- the input that was found is the value at the head
      obtain ⟨text, v, behind, htokens⟩ := hvalue hcomplete hw
      rw [htokens] at hlater hg
      cases g with
      | ready slots' rest' w'' =>
        cases hg
        obtain ⟨hlength, hliteral⟩ := ih hlater
        refine ⟨?_, List.forall_mem_cons.2 ⟨rfl, hliteral⟩⟩
        rw [List.take_one, List.length_append, hlength]
        exact Nat.add_comm 1 count
      | unwound tokens w => cases hg
      | halted r => cases hg
    · cases hg

/-- Slots that are all filled give as many values. -/
theorem length_values {slots : List Token} (h : ∀ t ∈ slots, t.isLiteral = true) :
    (slots.filterMap Token.value?).length = slots.length := by
  induction slots with
  | nil => rfl
  | cons t slots ih =>
    obtain ⟨ht, hslots⟩ := List.forall_mem_cons.1 h
    cases t <;> cases ht
    simp [Token.value?, ih hslots]

/-! ## Jobs in range -/

/-- Nothing that the job looks at is out of range. A statement, a token or a word is there. The
inputs that a call takes are values, as many as the procedure needs. A procedure is handed as many
values as it declares: its definition has a value for each of its inputs, and a command misses
none. -/
def Job.InRange [Commands κ] (job : Job κ) (w : Workspace κ) : Prop :=
  match job with
  | .statement _ tokens => tokens ≠ []
  | .token _ tokens => tokens ≠ []
  | .word _ _ tokens => ∃ t rest, tokens = t :: rest ∧ ∀ first others slots rest' w',
      w.lookup t.text = first :: others →
      gather evaluate first.inputs rest w = some (.ready slots rest' w') →
      slots.length = first.inputs ∧ ∀ slot ∈ slots, slot.isLiteral = true
  | .invoke p inputs => inputs.length = p.inputs ∧
      (∀ d, p.kind = .definition d → inputs.length = d.params.length) ∧
      ∀ code, p.kind = .command code →
        (Commands.perform code (w.pushFrame none) inputs).2.InRange
  | _ => True

variable {H : Type}

/-- The procedure is a primitive or a definition, and declares the inputs that it reads. -/
def Procedure.IsSound (p : Procedure (Command H)) : Prop :=
  match p.kind with
  | .command (.primitive q) => p.inputs = q.info.inputs
  | .command (.host _) => False
  | .definition d => p.inputs = d.params.length

/-- A sound procedure is no command of the host. -/
theorem Procedure.IsSound.isPlain {p : Procedure (Command H)} (h : p.IsSound) : p.IsPlain := by
  intro c hc
  rw [IsSound, hc] at h
  exact h

/-- No name calls two procedures, and every procedure declares the inputs that it reads. -/
def Registry.Orderly (r : Registry (Command H)) : Prop :=
  ∀ name, ((r.index.find? name).getD []).length ≤ 1 ∧
    ∀ p ∈ (r.index.find? name).getD [], p.IsSound

namespace Registry.Orderly

variable {w : Workspace (Command H)} (h : w.registry.Orderly)

include h

theorem admits : w.Admits Procedure.IsPlain :=
  fun _ p hp => ((h _).2 p hp).isPlain

/-- In an orderly registry a name calls one procedure, and that is sound. -/
theorem others_eq_nil {name : String} {first : Procedure (Command H)}
    {others : List (Procedure (Command H))} (hlookup : w.lookup name = first :: others) :
    first.IsSound ∧ others = [] := by
  have hlength : (w.lookup name).length ≤ 1 := (h _).1
  have hsound : first.IsSound := (h _).2 first (hlookup ▸ List.mem_cons_self)
  rw [hlookup, List.length_cons] at hlength
  exact ⟨hsound, List.eq_nil_of_length_eq_zero (by omega)⟩

end Registry.Orderly

/-- The job has what it needs to be in range, whatever the workspace is. -/
def Job.IsSupplied : Job (Command H) → Prop
  | .statement _ tokens => tokens ≠ []
  | .token _ tokens => tokens ≠ []
  | .word _ _ tokens => tokens ≠ []
  | .invoke p inputs => p.IsSound ∧ inputs.length = p.inputs
  | _ => True

theorem isSupplied_operandJob (lenient : Bool) (t : Token) (rest : List Token) :
    (operandJob lenient (t :: rest) : Job (Command H)).IsSupplied := by
  cases t <;> exact List.cons_ne_nil _ _

theorem Job.IsSupplied.admits {job : Job (Command H)} (h : job.IsSupplied) :
    job.Admits Procedure.IsPlain := by
  cases job with
  | invoke p inputs => exact h.1.isPlain
  | _ => trivial

variable [Host H]

/-- A call that has its inputs hands them to one procedure, which is what it was registered for. -/
theorem isSupplied_call {e : Evaluator (Command H)}
    (hext : (evaluate : Evaluator (Command H)).Extends e) {w w' w'' : Workspace (Command H)}
    (hw : w.registry.Orderly) {name : String} {first p : Procedure (Command H)}
    {others : List (Procedure (Command H))} {rest slots rest' : List Token}
    (hlookup : w.lookup name = first :: others)
    (hready : gather e first.inputs rest w = some (.ready slots rest' w'))
    (h : ComesToCall e (slots.filterMap Token.value?) (first :: others) w' p w'') :
    (Job.invoke p (slots.filterMap Token.value?)).IsSupplied := by
  obtain ⟨hsound, rfl⟩ := hw.others_eq_nil hlookup
  obtain ⟨hlength, hliteral⟩ := gather_ready (shaped_of_extends hext) hready
  cases h with
  | here => exact ⟨hsound, (length_values hliteral).trans hlength⟩
  | later _ _ _ hlater => cases hlater

/-- **A job that has what it needs supplies the jobs that it asks for.** -/
theorem isSupplied_asks {e : Evaluator (Command H)}
    (hext : (evaluate : Evaluator (Command H)).Extends e) {job job' : Job (Command H)}
    {w w' : Workspace (Command H)} (hw : w.registry.Orderly) (h : job.Asks e w job' w') :
    job'.IsSupplied := by
  cases h with
  | statement | token | word => exact List.cons_ne_nil _ _
  | operand | chainOperand | child => exact isSupplied_operandJob _ _ _
  | call hlookup hready h => exact isSupplied_call hext hw hlookup hready h
  | _ => trivial

/-- What a supplied job looks at is in range. -/
theorem inRange_of_isSupplied {job : Job (Command H)} {w : Workspace (Command H)}
    (h : job.IsSupplied) : job.InRange w := by
  cases job with
  | sequence | argument | chain | expression => trivial
  | statement lenient tokens => exact h
  | token lenient tokens => exact h
  | word lenient operand tokens =>
    obtain ⟨t, rest, rfl⟩ := List.exists_cons_of_ne_nil h
    exact ⟨t, rest, rfl, fun _ _ _ _ _ _ hready =>
      gather_ready (fun _ _ _ => shaped_evaluate) hready⟩
  | invoke p inputs =>
    obtain ⟨hsound, hlength⟩ := h
    refine ⟨hlength, fun d hd => ?_, fun code hcode => ?_⟩
    · -- a definition declares as many inputs as it names
      rw [Procedure.IsSound, hd] at hsound
      exact hlength.trans hsound
    · cases code with
      | host c => exact absurd hcode (hsound.isPlain c)
      | primitive q =>
        rw [Procedure.IsSound, hcode] at hsound
        exact q.inRange_perform _ (hlength.trans hsound)

/-! ## Whole runs -/

/-- The invariant: the registry is orderly, and the job has what it needs. -/
def Job.IsSafe (job : Job (Command H)) (w : Workspace (Command H)) : Prop :=
  w.registry.Orderly ∧ job.IsSupplied

/-- Every job that a safe job asks for is safe. -/
theorem isSafe_asks {e : Evaluator (Command H)}
    (hext : (evaluate : Evaluator (Command H)).Extends e) {job job' : Job (Command H)}
    {w w' : Workspace (Command H)} (hsafe : job.IsSafe w) (h : job.Asks e w job' w') :
    job'.IsSafe w' := by
  obtain ⟨hw, hjob⟩ := hsafe
  have hregistry := kept_balanced.asks (keeps_of_extends hext) hjob.admits hw.admits h
  exact ⟨hregistry ▸ hw, isSupplied_asks hext hw h⟩

/-- **Every job that is begun is in range.** -/
theorem evalWithin_inRange {n : Nat} {job : Job (Command H)} {w : Workspace (Command H)}
    (h : job.IsSafe w) : evalWithin Job.InRange n job w = eval n job w :=
  evalWithin_eq (fun _ _ h => inRange_of_isSupplied h.2)
    (fun _ hext _ _ _ _ hsafe hask => isSafe_asks hext hsafe hask) h

/-- **No job fails for a missing input.** -/
theorem outcome_ne_missingInput {n : Nat} {job : Job (Command H)} {w : Workspace (Command H)}
    {r : Result (Command H)} (hsafe : job.IsSafe w) (h : eval n job w = some r) (name : String) :
    r.outcome ≠ .failed (.missingInput name) := by
  refine eval_induction (P := fun job w r => job.IsSafe w →
    r.outcome ≠ .failed (.missingInput name)) (fun e hext he job w r h hsafe hr => ?_) h hsafe
  rcases Job.step_failed h hr with ⟨job', w', r', hask, hr', hfails⟩ | hraises
  · exact he _ _ _ hr' (isSafe_asks hext hsafe hask) hfails
  · -- of the causes of a job's own, only that of a command could be it
    cases hraises with
    | chainReduction hreduce => cases reduce_error hreduce
    | reduction hreduce => cases reduce_error hreduce
    | command hcode hperform =>
      obtain ⟨-, -, hrange⟩ := inRange_of_isSupplied hsafe.2 (w := w)
      have haction := hrange _ hcode name
      rw [hperform] at haction
      exact haction rfl

end Logo
