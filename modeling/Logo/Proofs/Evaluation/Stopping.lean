import Logo.Proofs.Evaluation.Simulation
import Logo.Proofs.Session.Registered
import Mathlib.Data.List.TakeWhile

/-!
# What stands behind `stop`

A definition whose body comes to the word `stop` is left there, wherever the word stands: as a
statement, as an input of a call, or as an operand. Two sequences that are the same up to `stop` are
carried out in the same way, whatever stands behind it.

* `SameUpToStop`: the two sequences.
* `Result.Agrees`: what becomes of them is the same, as far as anyone can see.
* `agrees_evaluate`: every job on them ends in the same way.
* `invoke_stop_congr`: so do two definitions with such bodies.
-/

namespace Logo

variable {H : Type} {Q Q' : List Token}

/-! ## Sequences that are the same up to `stop` -/

/-- The sequences are the same up to the word `stop`, behind which `Q` and `Q'` stand. -/
inductive SameUpToStop (Q Q' : List Token) : List Token → List Token → Prop where
  | stop : SameUpToStop Q Q' (.word "stop" :: Q) (.word "stop" :: Q')
  | cons (t : Token) {tokens tokens' : List Token} (h : SameUpToStop Q Q' tokens tokens') :
    SameUpToStop Q Q' (t :: tokens) (t :: tokens')

namespace SameUpToStop

variable {tokens tokens' : List Token}

/-- What stands in front of both is carried out before `stop`. -/
theorem append (before : List Token) (h : SameUpToStop Q Q' tokens tokens') :
    SameUpToStop Q Q' (before ++ tokens) (before ++ tokens') := by
  induction before with
  | nil => exact h
  | cons t before ih => exact .cons t ih

/-- Both begin with the same token. -/
theorem exists_cons (h : SameUpToStop Q Q' tokens tokens') :
    ∃ t rest rest', tokens = t :: rest ∧ tokens' = t :: rest' := by
  cases h with
  | stop => exact ⟨_, _, _, rfl, rfl⟩
  | cons t h => exact ⟨_, _, _, rfl, rfl⟩

/-- Behind a token that is not `stop` they are the same up to `stop` again. -/
theorem tail {t : Token} {rest rest' : List Token} (h : SameUpToStop Q Q' (t :: rest) (t :: rest'))
    (ht : t ≠ .word "stop") : SameUpToStop Q Q' rest rest' := by
  cases h with
  | stop => exact absurd rfl ht
  | cons _ h => exact h

/-- The sequence has a statement in it, namely `stop`. -/
theorem exists_not_literal (h : SameUpToStop Q Q' tokens tokens') :
    ∃ t ∈ tokens, t.isLiteral = false := by
  induction h with
  | stop => exact ⟨_, List.mem_cons_self, rfl⟩
  | cons t _ ih =>
    obtain ⟨u, hu, hliteral⟩ := ih
    exact ⟨u, List.mem_cons_of_mem _ hu, hliteral⟩

end SameUpToStop

/-- The same job on two sequences that are the same up to `stop`. -/
inductive Job.SameUpToStop {κ : Type} (Q Q' : List Token) : Job κ → Job κ → Prop where
  | sequence {lenient tokens tokens'} (h : Logo.SameUpToStop Q Q' tokens tokens') :
    SameUpToStop Q Q' (.sequence lenient tokens) (.sequence lenient tokens')
  | statement {lenient tokens tokens'} (h : Logo.SameUpToStop Q Q' tokens tokens') :
    SameUpToStop Q Q' (.statement lenient tokens) (.statement lenient tokens')
  | token {lenient tokens tokens'} (h : Logo.SameUpToStop Q Q' tokens tokens') :
    SameUpToStop Q Q' (.token lenient tokens) (.token lenient tokens')
  | word {lenient operand tokens tokens'} (h : Logo.SameUpToStop Q Q' tokens tokens') :
    SameUpToStop Q Q' (.word lenient operand tokens) (.word lenient operand tokens')
  | argument {tokens tokens'} (h : Logo.SameUpToStop Q Q' tokens tokens') :
    SameUpToStop Q Q' (.argument tokens) (.argument tokens')
  | chain {window rest rest'} (h : Logo.SameUpToStop Q Q' rest rest') :
    SameUpToStop Q Q' (.chain window rest) (.chain window rest')
  | expression {source children rest rest'} (h : Logo.SameUpToStop Q Q' rest rest') :
    SameUpToStop Q Q' (.expression source children rest) (.expression source children rest')

theorem Job.SameUpToStop.operand {κ : Type} (lenient : Bool) {tokens tokens' : List Token}
    (h : Logo.SameUpToStop Q Q' tokens tokens') :
    Job.SameUpToStop Q Q' (operandJob lenient tokens : Job κ) (operandJob lenient tokens') := by
  obtain ⟨t, rest, rest', rfl, rfl⟩ := h.exists_cons
  cases t
  case word => exact .word h
  all_goals exact .token h

/-! ## Results that agree -/

/-- Nobody can tell the results apart. Neither waits, and unless a procedure is being left or the
job failed, what is left is the same up to `stop` again. -/
structure Result.Agrees {κ : Type} (Q Q' : List Token) (r r' : Result κ) : Prop where
  outcome : r'.outcome = r.outcome
  workspace : r'.workspace = r.workspace
  ended : r.outcome ≠ .incomplete
  tokens : r.outcome = .complete → r.workspace.isUnwinding = false →
    SameUpToStop Q Q' r.tokens r'.tokens

theorem Result.Agrees.after {κ : Type} {r r' : Result κ} (h : r.Agrees Q Q' r')
    (done : List Token) : (r.after done).Agrees Q Q' (r'.after done) :=
  ⟨h.outcome, h.workspace, h.ended, fun hr hw => (h.tokens hr hw).append done⟩

/-- When a procedure is to be left, the rest of the sequence does not matter. -/
theorem agrees_unwinding {κ : Type} (tokens tokens' : List Token) {w : Workspace κ}
    (hw : w.isUnwinding = true) :
    Result.Agrees Q Q' ⟨.complete, tokens, w⟩ ⟨.complete, tokens', w⟩ := by
  refine ⟨rfl, rfl, nofun, fun _ hcalm => ?_⟩
  rw [hw] at hcalm
  cases hcalm

/-! ## Workspaces in which `stop` can be called -/

/-- A procedure is running and is not being left, and `stop` calls the primitive. -/
structure Workspace.CanStop (w : Workspace (Command H)) : Prop where
  calm : w.isUnwinding = false
  stop : w.lookup "stop" = [Primitive.stop.procedure (.primitive .stop)]
  inside : w.scope.inProcedure = true
  plain : w.Admits Procedure.IsPlain

/-- A balanced run that does not leave the procedure stays inside it. -/
theorem Workspace.CanStop.of_balanced {w w' : Workspace (Command H)} (h : w.CanStop)
    (hb : w.Balanced w') (hcalm : w'.isUnwinding = false) : w'.CanStop where
  calm := hcalm
  stop := by rw [lookup, hb.registry]; exact h.stop
  inside := by rw [Scope.inProcedure_congr hb.frames]; exact h.inside
  plain := fun name p hp => h.plain name p (by rw [lookup, hb.registry] at hp; exact hp)

variable [Host H]

/-- The word `stop` leaves the procedure, whatever stands behind it. -/
theorem evaluate_word_stop {w : Workspace (Command H)} (hw : w.CanStop) (lenient operand : Bool)
    (rest : List Token) :
    evaluate (.word lenient operand (.word "stop" :: rest)) w =
      some ⟨.complete, replacement operand none ++ rest, w.raise .stop⟩ := by
  -- inside a procedure the command raises the request and produces nothing
  have hinvoke : evaluate (.invoke (Primitive.stop.procedure (.primitive .stop)) []) w =
      some ⟨.complete, [], w.raise .stop⟩ := by
    have hinside : (w.pushFrame none).scope.inProcedure = true := hw.inside
    have hperform : Commands.perform (Command.primitive .stop : Command H) (w.pushFrame none) [] =
        ((w.pushFrame none).raise .stop, .produce none) := if_pos hinside
    have hkind : (Primitive.stop.procedure (Command.primitive .stop : Command H)).kind =
        .command (.primitive .stop) := rfl
    rw [evaluate_eq]
    simp only [Job.step, stepInvoke, hkind, hperform]
    rfl
  have hunwinding : (w.raise .stop).isUnwinding = true := rfl
  rw [evaluate_word_call (t := .word "stop") (by decide) (by decide) hw.stop, callWord]
  have hinputs : (Primitive.stop.procedure (Command.primitive .stop : Command H)).inputs = 0 := rfl
  simp only [hinputs, gather, Option.bind_eq_bind, Option.bind_some, List.filterMap_nil, callAll,
    hinvoke, hunwinding, if_true]
  rfl

/-! ## One step -/

section Step

variable {e : Evaluator (Command H)} {w : Workspace (Command H)}

/-- The evaluator gives results that agree with those on the other sequence. -/
def Evaluator.AgreesUpToStop (Q Q' : List Token) (e : Evaluator (Command H)) : Prop :=
  ∀ ⦃job w job'⦄, w.CanStop → job.SameUpToStop Q Q' job' →
    Follows (Result.Agrees Q Q') (e job w) (evaluate job' w)

variable (hext : (evaluate : Evaluator (Command H)).Extends e)

include hext

/-- Up to `stop`, evaluation does not see where the sequences differ. -/
theorem simulation_stop (Q Q' : List Token) :
    Simulation e Workspace.CanStop (SameUpToStop Q Q') (Result.Agrees Q Q') where
  extended := hext
  outcome h := h.outcome
  workspace h := h.workspace
  tokens h := h.tokens
  after done h := h.after done
  ended _ _ hended h := ⟨rfl, rfl, hended, fun _ _ => h⟩
  cons t h := .cons t h
  value h hvalue _ := by
    obtain ⟨text, v, rest, rfl⟩ := hvalue
    cases h with
    | cons t h => exact ⟨_, _, _, rfl, rfl, h⟩
  calm hw := hw.calm
  -- where a job has not left the procedure, `stop` can still be called
  kept {job _ _} hw hr hjob hcalm := by
    have hplain : job.Admits Procedure.IsPlain := by
      cases job
      case invoke => exact hjob.elim
      all_goals trivial
    exact hw.of_balanced (keeps_of_extends hext _ _ _ hr hplain hw.plain) hcalm

variable (he : e.AgreesUpToStop Q Q') (hw : w.CanStop)

include he hw

namespace SameUpToStop

/-- A sequence comes to the same statements on both sides, and to `stop` at last. -/
theorem stepSequence {lenient : Bool} {tokens tokens' : List Token}
    (hsame : SameUpToStop Q Q' tokens tokens') :
    Follows (Result.Agrees Q Q') (Logo.stepSequence e lenient tokens w)
      (evaluate (.sequence lenient tokens') w) := by
  have hsim := simulation_stop hext Q Q'
  induction hsame with
  | stop => exact hsim.stepSequence hw rfl (he hw (.statement .stop)) fun hw h => he hw (.sequence h)
  | cons t hsame ih =>
    cases ht : t.isLiteral with
    | true => exact hsim.stepSequence_value ht ih
    | false =>
      exact hsim.stepSequence hw ht (he hw (.statement (.cons t hsame)))
        fun hw h => he hw (.sequence h)

theorem stepStatement {lenient : Bool} {tokens tokens' : List Token}
    (hsame : SameUpToStop Q Q' tokens tokens') :
    Follows (Result.Agrees Q Q') (Logo.stepStatement e lenient tokens w)
      (evaluate (.statement lenient tokens') w) := by
  have htoken : Follows (Result.Agrees Q Q') (e (.token lenient tokens) w)
    (evaluate (.token lenient tokens') w) := he hw (.token hsame)
  cases hsame with
  | stop =>
    rw [evaluate_eq]
    exact htoken
  | cons t hsame => exact (simulation_stop hext Q Q').stepStatement hsame htoken

theorem stepToken {lenient : Bool} {tokens tokens' : List Token}
    (hsame : SameUpToStop Q Q' tokens tokens') :
    Follows (Result.Agrees Q Q') (Logo.stepToken e lenient tokens w)
      (evaluate (.token lenient tokens') w) := by
  have hword : Follows (Result.Agrees Q Q') (e (.word lenient false tokens) w)
    (evaluate (.word lenient false tokens') w) := he hw (.word hsame)
  cases hsame with
  | stop =>
    rw [evaluate_eq]
    exact hword
  | cons t hsame =>
    exact (simulation_stop hext Q Q').stepToken hsame hword (he hw (.expression hsame))

/-- The word at the head is `stop`, and the procedure is left, or it stands before `stop`. -/
theorem stepWord {lenient operand : Bool} {tokens tokens' : List Token}
    (hsame : SameUpToStop Q Q' tokens tokens') :
    Follows (Result.Agrees Q Q') (Logo.stepWord e lenient operand tokens w)
      (evaluate (.word lenient operand tokens') w) := by
  cases hsame with
  | stop =>
    intro r h
    have hstep : evaluate (.word lenient operand (.word "stop" :: Q)) w = some r := by
      rw [evaluate_eq]
      exact (finitary_stepWord _ _ _ _).mono hext h
    rw [evaluate_word_stop hw] at hstep
    cases hstep
    exact ⟨_, evaluate_word_stop hw _ _ _, agrees_unwinding _ _ rfl⟩
  | cons t hsame =>
    exact (simulation_stop hext Q Q').stepWord (fun hw h => he hw (.argument h)) hw hsame

/-- An input that begins with `stop` leaves the procedure on both sides. -/
theorem stepArgument {tokens tokens' : List Token} (hsame : SameUpToStop Q Q' tokens tokens') :
    Follows (Result.Agrees Q Q') (Logo.stepArgument e tokens w)
      (evaluate (.argument tokens') w) := by
  have hsim := simulation_stop hext Q Q'
  have hoperand := he hw (.operand true hsame)
  cases hsame with
  | stop =>
    rw [evaluate_eq, stepArgument_operand rfl]
    exact hsim.throughOperand hw hoperand fun hw h => he hw (.argument h)
  | cons t hsame =>
    exact hsim.stepArgument hw hsame (he hw (.chain hsame)) hoperand
      fun hw h => he hw (.argument h)

/-- An operand that is `stop` leaves the procedure on both sides. -/
theorem stepChain_operator (window : List Token) (op : Operator) {tokens tokens' : List Token}
    (hsame : SameUpToStop Q Q' tokens tokens') :
    Follows (Result.Agrees Q Q') (Logo.stepChain e window (.operator op :: tokens) w)
      (evaluate (.chain window (.operator op :: tokens')) w) := by
  have hsim := simulation_stop hext Q Q'
  have hoperand := he hw (.operand false hsame)
  cases hsame with
  | stop =>
    rw [evaluate_eq, stepChain_operand window op rfl]
    exact hsim.throughOperand hw hoperand fun hw h => he hw (.chain (.cons _ h))
  | cons t hsame =>
    exact hsim.stepChain_operator window op hw hsame (he hw (.chain hsame)) hoperand
      fun hw h => he hw (.chain h)

theorem stepChain {window rest rest' : List Token} (hsame : SameUpToStop Q Q' rest rest') :
    Follows (Result.Agrees Q Q') (Logo.stepChain e window rest w)
      (evaluate (.chain window rest') w) := by
  have hclose := (simulation_stop hext Q Q').closeChain (w := w) window hsame
  obtain ⟨t, more, more', rfl, rfl⟩ := hsame.exists_cons
  cases t
  case operator op => exact stepChain_operator hext he hw window op (hsame.tail nofun)
  all_goals
    rw [evaluate_eq]
    exact follows_some hclose

end SameUpToStop

end Step

/-! ## Whole runs -/

/-- **Jobs on sequences that are the same up to `stop` end in the same way.** -/
theorem agrees_evaluate (Q Q' : List Token) :
    (evaluate : Evaluator (Command H)).AgreesUpToStop Q Q' := by
  intro job w job' hw hsame r h
  -- by induction on the depth of the run on the first side
  obtain ⟨n, hn⟩ := evaluate_eq_some_iff.1 h
  refine eval_induction (P := fun job w r => w.CanStop → ∀ job', job.SameUpToStop Q Q' job' →
    ∃ r', evaluate job' w = some r' ∧ r.Agrees Q Q' r')
    (fun e hext hjobs job w r h hw job' hsame => ?_) hn hw job' hsame
  have he : e.AgreesUpToStop Q Q' := fun job w job' hw hsame r h => hjobs job w r h hw job' hsame
  have hsim := simulation_stop hext Q Q'
  cases hsame with
  | sequence hsame => exact hsame.stepSequence hext he hw r h
  | statement hsame => exact hsame.stepStatement hext he hw r h
  | token hsame => exact hsame.stepToken hext he hw r h
  | word hsame => exact hsame.stepWord hext he hw r h
  | argument hsame => exact hsame.stepArgument hext he hw r h
  | chain hsame => exact hsame.stepChain hext he hw r h
  | expression hsame => exact hsim.stepExpression hw hsame (fun hw => he hw (.expression hsame)) r h

/-- A sequence that was carried out is left with values only, unless a procedure is being left. -/
theorem literal_of_sequence {κ : Type} [Commands κ] {lenient : Bool} {tokens : List Token}
    {w : Workspace κ} {r : Result κ} (h : evaluate (.sequence lenient tokens) w = some r)
    (hr : r.outcome = .complete) :
    r.workspace.isUnwinding = true ∨ ∀ t ∈ r.tokens, t.isLiteral = true := by
  obtain ⟨n, hn⟩ := evaluate_eq_some_iff.1 h
  refine eval_induction (P := fun job _ r => ∀ lenient tokens, job = .sequence lenient tokens →
    r.outcome = .complete → r.workspace.isUnwinding = true ∨ ∀ t ∈ r.tokens, t.isLiteral = true)
    (fun e _ he job w r h => ?_) hn lenient tokens rfl hr
  rintro lenient tokens rfl hr
  change stepSequence e lenient tokens w = some r at h
  unfold stepSequence at h
  split at h
  · rename_i hw
    cases h
    exact Or.inl hw
  split at h
  · rename_i htokens
    cases h
    exact Or.inr (List.dropWhile_eq_nil_iff.1 htokens)
  obtain ⟨r1, h1, h⟩ := Option.bind_eq_some_iff.1 h
  split at h
  · obtain ⟨r2, h2, h⟩ := Option.bind_eq_some_iff.1 h
    cases h
    -- behind the first statement this is known, and only values stand before it
    refine (he _ _ _ h2 lenient r1.tokens rfl hr).imp_right fun hliteral t ht => ?_
    rcases List.mem_append.1 ht with ht | ht
    · exact List.all_eq_true.1 List.all_takeWhile t ht
    · exact hliteral t ht
  · rename_i hne
    cases h
    exact absurd hr hne

omit [Host H] in
/-- When a procedure is being left, what is left of its body does not count. -/
theorem bodyResult_congr {r r' : Result (Command H)} (hagrees : r.Agrees Q Q' r')
    (hr : r.outcome = .complete → r.workspace.isUnwinding = true) :
    bodyResult r' = bodyResult r := by
  obtain ⟨outcome, tokens, w⟩ := r
  obtain ⟨outcome', tokens', w'⟩ := r'
  obtain ⟨rfl, rfl, hended, -⟩ := hagrees
  cases outcome' with
  | incomplete => exact absurd rfl hended
  | failed cause => rfl
  | complete =>
    -- the procedure is left, and what it gives comes from the request alone
    obtain ⟨signal, hsignal⟩ := Option.isSome_iff_exists.1 (hr rfl)
    have htake : w'.popFrame.takeSignal = (some signal, { w'.popFrame with signal := none }) := by
      rw [← hsignal]
      rfl
    unfold bodyResult
    simp only [htake]
    cases signal <;> rfl

/-- A definition runs its body in a frame with its inputs. -/
theorem evaluate_invoke_definition {p : Procedure (Command H)} {d : Definition}
    (hp : p.kind = .definition d) (inputs : List Value) (w : Workspace (Command H)) :
    evaluate (.invoke p inputs) w =
      (evaluate (.sequence false d.body) (w.pushFrame (some (d.bind inputs)))).map bodyResult := by
  rw [evaluate_eq]
  simp only [Job.step, stepInvoke, hp]
  exact Option.map_eq_bind.symm

/-- One direction: a call of the first definition ends, and so does a call of the second. -/
theorem evaluate_invoke_stop {w : Workspace (Command H)} (hplain : w.Admits Procedure.IsPlain)
    (hstop : w.lookup "stop" = [Primitive.stop.procedure (.primitive .stop)])
    (hsignal : w.signal = none) {p p' : Procedure (Command H)} {d d' : Definition}
    (hp : p.kind = .definition d) (hp' : p'.kind = .definition d') (hparams : d'.params = d.params)
    (hbody : SameUpToStop Q Q' d.body d'.body) {inputs : List Value} {r : Result (Command H)}
    (h : evaluate (.invoke p inputs) w = some r) : evaluate (.invoke p' inputs) w = some r := by
  rw [evaluate_invoke_definition hp] at h
  obtain ⟨r1, h1, rfl⟩ := Option.map_eq_some_iff.1 h
  have hcalm : (w.pushFrame (some (d.bind inputs))).isUnwinding = false :=
    congrArg Option.isSome hsignal
  have hinside : (w.pushFrame (some (d.bind inputs))).CanStop := ⟨hcalm, hstop, rfl, hplain⟩
  obtain ⟨r1', h1', hagrees⟩ := agrees_evaluate Q Q' hinside (.sequence hbody) r1 h1
  have hbind : d'.bind inputs = d.bind inputs := by rw [Definition.bind, Definition.bind, hparams]
  rw [evaluate_invoke_definition hp', hbind, h1', Option.map_some]
  refine congrArg some (bodyResult_congr hagrees fun hr => ?_)
  -- `stop` is no value, so the sequence was not carried out to its end
  rcases literal_of_sequence h1 hr with hunwinding | hliteral
  · exact hunwinding
  · cases hcalm : r1.workspace.isUnwinding with
    | true => rfl
    | false =>
      obtain ⟨t, ht, hno⟩ := (hagrees.tokens hr hcalm).exists_not_literal
      rw [hliteral t ht] at hno
      cases hno

/-- **What stands behind `stop` is dead.** Where only primitives and definitions can be called and
no procedure is being left, two definitions with the same inputs, whose bodies are the same up to
`stop`, come to the same when they are called: the same result or error, and the same workspace with
what was written. Neither ends unless the other does. Before `stop` there may be anything, for
instance a call that still lacks inputs or an operator that lacks an operand. -/
theorem invoke_stop_congr (w : Workspace (Command H)) (hplain : w.Admits Procedure.IsPlain)
    (hstop : w.lookup "stop" = [Primitive.stop.procedure (.primitive .stop)])
    (hsignal : w.signal = none) (P Q Q' : List Token) (params : List String)
    (source source' : String) (p p' : Procedure (Command H))
    (hp : p.kind = .definition ⟨params, P ++ .word "stop" :: Q, source⟩)
    (hp' : p'.kind = .definition ⟨params, P ++ .word "stop" :: Q', source'⟩) (inputs : List Value)
    (r : Result (Command H)) :
    (∃ fuel, w.invoke fuel p inputs = some r) ↔ ∃ fuel, w.invoke fuel p' inputs = some r := by
  have hsame (Q Q' : List Token) :
      SameUpToStop Q Q' (P ++ .word "stop" :: Q) (P ++ .word "stop" :: Q') := .append P .stop
  unfold Workspace.invoke
  rw [← evaluate_eq_some_iff, ← evaluate_eq_some_iff]
  exact ⟨evaluate_invoke_stop hplain hstop hsignal hp hp' rfl (hsame Q Q'),
    evaluate_invoke_stop hplain hstop hsignal hp' hp rfl (hsame Q' Q)⟩

/-- A procedure whose body is `print sum 1 + stop`, with more behind it. -/
def stopAsOperand (behind : List Token) : Procedure (Command Empty) where
  name := "f"
  inputs := 0
  redefinability := .replace
  kind := .definition ⟨[], [.word "print", .word "sum", .literal "1" (.number ⟨1, 0⟩),
    .operator .add] ++ .word "stop" :: behind, ""⟩

/-- Behind `stop` there is `* nonsense`, or nothing. -/
theorem invoke_stop_congr_operand :
    ∃ r : Result (Command Empty), r.outcome = .complete ∧ r.tokens = [] ∧
      (Workspace.withPrimitives .silent).invoke 30
        (stopAsOperand [.operator .multiply, .word "nonsense"]) [] = some r ∧
      ∃ fuel, (Workspace.withPrimitives .silent).invoke fuel (stopAsOperand []) [] = some r := by
  have hrun : ((Workspace.withPrimitives .silent).invoke 30
      (stopAsOperand [.operator .multiply, .word "nonsense"]) []).any
        (fun r => r.outcome = .complete ∧ r.tokens.isEmpty) = true := by
    decide +kernel
  obtain ⟨r, hr, hanswer⟩ := (Option.any_eq_true _ _).1 hrun
  obtain ⟨hcomplete, hempty⟩ := of_decide_eq_true hanswer
  have hrest := Workspace.resting_withPrimitives (H := Empty) .silent
  have hstop : (Workspace.withPrimitives .silent : Workspace (Command Empty)).lookup "stop" =
      [Primitive.stop.procedure (.primitive .stop)] :=
    (owns_withPrimitives .silent (by decide +kernel)).lookup_eq
  have hsame := invoke_stop_congr _ hrest.admits hstop hrest.signal _ _ _ _ _ _
    (stopAsOperand [.operator .multiply, .word "nonsense"]) (stopAsOperand []) rfl rfl [] r
  exact ⟨r, hcomplete, List.isEmpty_iff.1 hempty, hr, hsame.1 ⟨30, hr⟩⟩

end Logo
