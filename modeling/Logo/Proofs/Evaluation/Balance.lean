import Logo.Host
import Logo.Proofs.Evaluation.Invariant
import Logo.Proofs.Primitive.Effects

/-!
# Frames, iterations and requests are balanced

Whatever a job does, it leaves as many frames as it found, transparent and binding ones in the same
places, and the same running iterations. A request to leave a procedure is pending afterwards only if
it was before, or if there is a procedure to be left (`Workspace.Balanced`). This holds for all
procedures that are primitives or definitions of the program (`Procedure.IsPlain`); a command of the
host may do what it likes.

* `Primitive.balanced_perform`: a primitive alone is balanced.
* `kept_balanced`: so is all that evaluation does.
-/

namespace Logo

variable {κ : Type}

/-- The second workspace has the frames and the iterations of the first one, and no new request to
leave a procedure unless there is one to be left. -/
structure Workspace.Balanced (w w' : Workspace κ) : Prop where
  registry : w'.registry = w.registry
  frames : w'.scope.frames.map Option.isSome = w.scope.frames.map Option.isSome
  repeats : w'.repeats = w.repeats
  signal : w'.isUnwinding = true → w.isUnwinding = true ∨ w.scope.inProcedure = true

/-! ## Variables -/

namespace Scope

/-- Whether a procedure is running can be seen from the places of the frames. -/
theorem inProcedure_congr {s s' : Scope}
    (h : s'.frames.map Option.isSome = s.frames.map Option.isSome) :
    s'.inProcedure = s.inProcedure := by
  have hany (s : Scope) : s.inProcedure = (s.frames.map Option.isSome).any id := by
    rw [inProcedure, List.any_map, Function.id_comp]
  rw [hany, hany, h]

/-- An update of a local variable stays in its frame. -/
theorem frames_updateLocal? {key : String} {f : Table Value → Table Value}
    {frames frames' : List Frame} (h : updateLocal? key f frames = some frames') :
    frames'.map Option.isSome = frames.map Option.isSome := by
  induction frames generalizing frames' with
  | nil => cases h
  | cons frame rest ih =>
    cases frame with
    | none =>
      obtain ⟨rest', hrest, rfl⟩ := Option.map_eq_some_iff.1 h
      rw [List.map_cons, List.map_cons, ih hrest]
    | some table =>
      unfold updateLocal? at h
      split at h
      · -- the variable is here, and the frame stays a binding one
        cases h; rfl
      · obtain ⟨rest', hrest, rfl⟩ := Option.map_eq_some_iff.1 h
        rw [List.map_cons, List.map_cons, ih hrest]

/-- The innermost frame is emptied, and stays. -/
theorem frames_clearLocals? {frames frames' : List Frame} (h : clearLocals? frames = some frames') :
    frames'.map Option.isSome = frames.map Option.isSome := by
  induction frames generalizing frames' with
  | nil => cases h
  | cons frame rest ih =>
    cases frame with
    | none =>
      obtain ⟨rest', hrest, rfl⟩ := Option.map_eq_some_iff.1 h
      rw [List.map_cons, List.map_cons, ih hrest]
    | some table => cases h; rfl

/-- A variable that is read for the first time becomes a global one, so that the frames stay as they
are. -/
theorem frames_get (s : Scope) (name : String) : (s.get name).2.frames = s.frames := by
  unfold get
  simp only
  split <;> rfl

/-- An assignment neither opens nor closes a frame. -/
theorem frames_set (s : Scope) (name : String) (v : Value) :
    (s.set name v).frames.map Option.isSome = s.frames.map Option.isSome := by
  unfold set
  simp only
  split
  · rename_i h; exact frames_updateLocal? h
  · rfl

theorem frames_clear (s : Scope) (name : String) :
    (s.clear name).frames.map Option.isSome = s.frames.map Option.isSome := by
  unfold clear
  simp only
  split
  · rename_i h; exact frames_updateLocal? h
  · rfl

theorem frames_clearAll (s : Scope) :
    s.clearAll.frames.map Option.isSome = s.frames.map Option.isSome := by
  unfold clearAll
  split
  · rename_i h; exact frames_clearLocals? h
  · rfl

end Scope

/-! ## Workspaces -/

namespace Workspace

variable {u v w w' : Workspace κ}

theorem Balanced.refl (w : Workspace κ) : w.Balanced w :=
  ⟨rfl, rfl, rfl, Or.inl⟩

/-- Balance is kept when runs follow each other. -/
theorem Balanced.trans (h : u.Balanced v) (h' : v.Balanced w) : u.Balanced w := by
  refine ⟨h'.registry.trans h.registry, h'.frames.trans h.frames, h'.repeats.trans h.repeats, ?_⟩
  intro hw
  rcases h'.signal hw with hv | hv
  · exact h.signal hv
  · rw [Scope.inProcedure_congr h.frames] at hv
    exact Or.inr hv

theorem balanced_write (line : String) : w.Balanced (w.write line) :=
  ⟨rfl, rfl, rfl, Or.inl⟩

/-- Reading a variable is balanced, though it may add a global one. -/
theorem balanced_getVariable (name : String) : w.Balanced (w.getVariable name).2 :=
  ⟨rfl, congrArg _ (w.scope.frames_get name), rfl, Or.inl⟩

theorem balanced_setVariable (name : String) (v : Value) : w.Balanced (w.setVariable name v) :=
  ⟨rfl, w.scope.frames_set name v, rfl, Or.inl⟩

theorem balanced_clearVariable (name : String) : w.Balanced (w.clearVariable name) :=
  ⟨rfl, w.scope.frames_clear name, rfl, Or.inl⟩

theorem balanced_clearVariables : w.Balanced w.clearVariables :=
  ⟨rfl, w.scope.frames_clearAll, rfl, Or.inl⟩

/-- A request may be made where there is a procedure to be left. -/
theorem balanced_raise (h : w.scope.inProcedure = true) (signal : Signal) :
    w.Balanced (w.raise signal) :=
  ⟨rfl, rfl, rfl, fun _ => Or.inr h⟩

/-- A call in a transparent frame. -/
theorem Balanced.popFrame (h : (w.pushFrame none).Balanced w') : w.Balanced w'.popFrame := by
  refine ⟨h.registry, ?_, h.repeats, fun hw' => ?_⟩
  · have hframes : w'.scope.frames.map Option.isSome = _ :: w.scope.frames.map Option.isSome :=
      h.frames
    rw [Workspace.popFrame, List.map_tail, hframes, List.tail_cons]
  · have hsignal := h.signal hw'
    exact hsignal

/-- A call in a binding frame takes the request to leave it. -/
theorem Balanced.popDefinition {table : Table Value}
    (h : (w.pushFrame (some table)).Balanced w') : w.Balanced w'.popFrame.takeSignal.2 := by
  -- the request is taken with the frame, so that none is left to account for
  refine ⟨h.registry, ?_, h.repeats, fun hw' => by cases hw'⟩
  have hframes : w'.scope.frames.map Option.isSome = _ :: w.scope.frames.map Option.isSome :=
    h.frames
  rw [takeSignal, Workspace.popFrame, List.map_tail, hframes, List.tail_cons]

/-- A round that is balanced leaves its own number on top, and that is taken away. -/
theorem Balanced.popRepeat {number : Nat} (h : (w.pushRepeat number).Balanced w') :
    w.Balanced w'.popRepeat := by
  refine ⟨h.registry, h.frames, ?_, h.signal⟩
  have hrepeats : w'.repeats = number :: w.repeats := h.repeats
  rw [Workspace.popRepeat, hrepeats, List.tail_cons]

end Workspace

/-! ## Primitives -/

namespace Primitive

open Workspace

/-- **A primitive is balanced**, apart from the list that it may ask to run. -/
theorem balanced_perform (p : Primitive) (w : Workspace κ) (inputs : List Value) :
    w.Balanced (p.perform w inputs).1 := by
  have hleaves := leaves_perform p w inputs
  generalize p.perform w inputs = effect at hleaves ⊢
  cases hleaves with
  | fail | nothing | answer | run | iterate => exact .refl w
  | write line => exact balanced_write line
  | writeTwo line line' => exact (balanced_write line).trans (balanced_write line')
  | read name => exact balanced_getVariable name
  | set name v => exact balanced_setVariable name v
  | clear name => exact balanced_clearVariable name
  | clearAll => exact balanced_clearVariables
  | raise signal h => exact balanced_raise h signal

end Primitive

/-! ## Evaluation -/

variable {H : Type} [Host H]

/-- The procedure is a primitive or a definition of the program. -/
def Procedure.IsPlain (p : Procedure (Command H)) : Prop :=
  ∀ h, p.kind ≠ .command (.host h)

/-- **Evaluation is balanced**, where only primitives and definitions can be called. -/
theorem kept_balanced : Kept (Procedure.IsPlain (H := H)) Workspace.Balanced where
  refl := .refl
  trans := .trans
  registry h := h.registry
  read w name := Workspace.balanced_getVariable name
  iteration _ h := h.popRepeat
  command {w w' p code} inputs hcode hp h := by
    cases code with
    | host c => exact absurd hcode (hp c)
    | primitive q => exact ((q.balanced_perform _ inputs).trans h).popFrame
  definition _ h := h.popDefinition

theorem keeps_of_extends {e : Evaluator (Command H)}
    (hext : (evaluate : Evaluator (Command H)).Extends e) :
    e.Keeps Procedure.IsPlain Workspace.Balanced :=
  kept_balanced.keeps_of_extends hext

end Logo
