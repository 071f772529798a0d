import Logo.Proofs.Evaluation.Balance
import Logo.Proofs.Registry.Holders
import Logo.Proofs.Session.Compile

/-!
# Between the lines nothing is running

A session that has the primitives and is given lines only has no host commands, so that evaluation is
balanced. It starts at rest, without frames, iterations and requests to leave a procedure, and each
line takes it from rest to rest.

* `Session.Reached`: the sessions that lines lead to.
* `resting_of_reached`: they are at rest.
* `evaluation_balanced`: the balance of every entry into evaluation, and the rest of every session.
-/

namespace Logo

/-! ## Registries -/

namespace Registry

variable {κ : Type} {A : Procedure κ → Prop} {r : Registry κ} {p : Procedure κ}

/-- All procedures that are registered under a name are admitted. -/
def Admits (r : Registry κ) (A : Procedure κ → Prop) : Prop :=
  ∀ name, ∀ p ∈ (r.index.find? name).getD [], A p

/-- One more admitted procedure keeps a registry admitted. -/
theorem Admits.register (h : r.Admits A) (hp : A p) : (r.register p).Admits A := by
  intro name
  refine holders_register_induction (P := fun holders => ∀ q ∈ holders, A q) (h name)
    fun holders hholders q hq => ?_
  rcases mem_enlist hq with hq | rfl
  · exact hholders q hq
  · exact hp

end Registry

/-! ## Workspaces at rest -/

variable {H : Type}

/-- No call and no iteration is running, no procedure is to be left, and only primitives and
definitions can be called. -/
structure Workspace.Resting (w : Workspace (Command H)) : Prop where
  plain : w.registry.Admits Procedure.IsPlain
  frames : w.scope.frames = []
  signal : w.signal = none
  repeats : w.repeats = []

namespace Workspace

variable {w w' : Workspace (Command H)}

theorem Resting.admits (h : w.Resting) : w.Admits Procedure.IsPlain :=
  fun _ => h.plain _

theorem narrate_eq (w : Workspace (Command H)) (note : Note) :
    ∃ notes, w.narrate note = { w with notes } := by
  unfold narrate
  split
  · exact ⟨_, rfl⟩
  · exact ⟨w.notes, rfl⟩

theorem Resting.narrate (h : w.Resting) (note : Note) : (w.narrate note).Resting := by
  obtain ⟨notes, hnotes⟩ := w.narrate_eq note
  rw [hnotes]
  exact ⟨h.plain, h.frames, h.signal, h.repeats⟩

theorem Resting.write (h : w.Resting) (line : String) : (w.write line).Resting :=
  ⟨h.plain, h.frames, h.signal, h.repeats⟩

theorem Resting.register (h : w.Resting) {p : Procedure (Command H)} (hp : p.IsPlain) :
    (w.register p).Resting := by
  have hw : ({ w with registry := w.registry.register p } : Workspace (Command H)).Resting :=
    ⟨h.plain.register hp, h.frames, h.signal, h.repeats⟩
  exact hw.narrate _

/-- A module of plain procedures disturbs no rest. -/
theorem Resting.load (h : w.Resting) {m : Module (Command H)} (hm : ∀ p ∈ m.procedures, p.IsPlain) :
    (w.load m).Resting := by
  have hfold (ps : List (Procedure (Command H))) (w : Workspace (Command H)) (hw : w.Resting)
      (hps : ∀ p ∈ ps, p.IsPlain) : (ps.foldl Workspace.register w).Resting := by
    induction ps generalizing w with
    | nil => exact hw
    | cons p ps ih =>
      obtain ⟨hp, hps⟩ := List.forall_mem_cons.1 hps
      exact ih _ (hw.register hp) hps
  have hall := hfold m.procedures w h hm
  have hw : ({ m.procedures.foldl Workspace.register w with
      modules := (m.procedures.foldl Workspace.register w).modules ++ [m.name] } :
      Workspace (Command H)).Resting :=
    ⟨hall.plain, hall.frames, hall.signal, hall.repeats⟩
  exact hw.narrate _

theorem Resting.inFrame (h : w.Resting) (frame : Frame) :
    (w.pushFrame frame).Admits Procedure.IsPlain ∧ (w.pushFrame frame).signal = none :=
  ⟨h.admits, h.signal⟩

theorem Resting.resetExecution (h : w.Resting) : w.resetExecution.Resting :=
  ⟨h.plain, rfl, rfl, rfl⟩

/-- A balanced run leads from rest to rest. -/
theorem Resting.of_balanced (h : w.Resting) (hb : w.Balanced w') : w'.Resting := by
  have hframes := hb.frames
  rw [h.frames, List.map_nil, List.map_eq_nil_iff] at hframes
  refine ⟨fun name => hb.registry ▸ h.plain name, hframes, ?_, hb.repeats.trans h.repeats⟩
  -- without frames there is no procedure that a request could ask to leave
  by_contra hsignal
  rcases hb.signal (Option.isSome_iff_ne_none.2 hsignal) with hw | hw
  · rw [isUnwinding, h.signal] at hw; cases hw
  · rw [Scope.inProcedure, h.frames] at hw; cases hw

/-- The primitives are plain procedures. -/
theorem resting_withPrimitives (verbosity : Verbosity) :
    (withPrimitives verbosity : Workspace (Command H)).Resting := by
  have hstart : ({ verbosity } : Workspace (Command H)).Resting :=
    ⟨fun _ _ hq => absurd hq List.not_mem_nil, rfl, rfl, rfl⟩
  refine hstart.load fun p hp => ?_
  obtain ⟨q, -, rfl⟩ := List.mem_map.1 hp
  intro c hc
  cases hc

end Workspace

/-! ## Definitions -/

/-- A definition is no command of the host. -/
theorem isPlain_define {captured : List Token} {p : Procedure (Command H)}
    (h : Procedure.define captured = .ok p) : p.IsPlain := by
  unfold Procedure.define at h
  cases hname : Procedure.definedName captured with
  | error cause => rw [hname] at h; cases h
  | ok name =>
    rw [hname] at h
    cases h
    intro c hc
    cases hc

/-- Compiling a definition runs nothing. -/
theorem resting_compileDefinition {w w' : Workspace (Command H)} {captured : List Token}
    (hw : w.Resting) (h : compileDefinition w captured = .ok w') : w'.Resting := by
  rcases compileDefinition_cases h with ⟨text, -, rfl⟩ | ⟨-, -, rfl⟩ | ⟨p, -, -, hp, rfl⟩
  · exact hw.write _
  · exact hw
  · exact (hw.register (isPlain_define hp)).narrate _

/-- The workspace when the definitions are captured. -/
def Captured.workspace : Captured (Command H) → Workspace (Command H)
  | waiting w _ => w
  | ready w _ => w
  | failed w _ => w

theorem resting_captureDefinitions {w : Workspace (Command H)} (hw : w.Resting)
    (capture : Option (List Token)) (tokens : List Token) :
    (captureDefinitions w capture tokens).workspace.Resting := by
  fun_induction captureDefinitions w capture tokens with
  | case1 w tokens definition h => exact hw
  | case2 w tokens definition token rest h w' hcompile ih =>
    exact ih (resting_compileDefinition hw hcompile)
  | case3 w tokens definition token rest h cause hcompile => exact hw
  | case4 w tokens h => exact hw
  | case5 w tokens token rest h hto ih => exact ih hw
  | case6 w tokens token rest h hto => exact hw

/-! ## Sessions -/

variable [Host H]

namespace Session

variable {s s' : Session (Command H)} {fuel : Nat}

/-- Tokens that are carried out at rest end at rest, as evaluation is balanced. -/
theorem resting_runTokens {tokens : List Token} {result : Except InterpretError Status}
    (hs : s.workspace.Resting) (h : s.runTokens (eval fuel) tokens = some (result, s')) :
    s'.workspace.Resting := by
  unfold runTokens at h
  split at h
  · cases h; exact hs
  obtain ⟨r, hr, h⟩ := Option.bind_eq_some_iff.1 h
  have hnote := hs.narrate (.running tokens)
  have hrest := hnote.of_balanced (kept_balanced.eval fuel _ _ _ hr trivial hnote.admits)
  split at h <;> cases h <;> exact hrest

/-- Processing buffered tokens leads from rest to rest. -/
theorem resting_process {result : Except InterpretError Status} (hs : s.workspace.Resting)
    (h : s.process (eval fuel) = some (result, s')) : s'.workspace.Resting := by
  have hcapture := resting_captureDefinitions hs s.capture s.buffer
  unfold process at h
  split at h
  · rename_i hc
    rw [hc] at hcapture
    cases h; exact hcapture
  · rename_i hc
    rw [hc] at hcapture
    cases h; exact hcapture
  · rename_i hc
    rw [hc] at hcapture
    exact resting_runTokens hcapture h

theorem resting_feed {line : String} {result : Except InterpretError Status}
    (hs : s.workspace.Resting) (h : s.feed (eval fuel) line = some (result, s')) :
    s'.workspace.Resting := by
  unfold feed at h
  simp only at h
  split at h
  · exact resting_process (hs.narrate _) h
  · cases h; exact hs.narrate _
  · cases h; exact hs.narrate _

/-- A line leads from rest to rest; after an error by the reset. -/
theorem resting_tryInterpret {line : String} {result : Except InterpretError Status}
    (hs : s.workspace.Resting) (h : s.tryInterpret fuel line = some (result, s')) :
    s'.workspace.Resting := by
  obtain ⟨⟨result', s1⟩, hfeed, h⟩ := Option.bind_eq_some_iff.1 h
  have hs1 := resting_feed hs hfeed
  cases result' with
  | ok status => cases h; exact hs1
  | error cause => cases h; exact hs1.resetExecution

theorem resting_interpret {line : String} {result : Interpretation}
    (hs : s.workspace.Resting) (h : s.interpret fuel line = some (result, s')) :
    s'.workspace.Resting := by
  obtain ⟨⟨result', s1⟩, htry, h⟩ := Option.map_eq_some_iff.1 h
  have hs1 := resting_tryInterpret hs htry
  cases result' with
  | ok status => cases status <;> cases h <;> exact hs1
  | error cause => cases h; exact hs1.write _

/-- The sessions that lines and resets lead to, from a new session on. Nothing is loaded, so that
all procedures are primitives and definitions. -/
inductive Reached : Session (Command H) → Prop where
  | start (verbosity : Verbosity) : Reached (.start verbosity)
  | tryInterpret {s s' : Session (Command H)} {fuel : Nat} {line : String}
    {result : Except InterpretError Status} (hs : Reached s)
    (h : s.tryInterpret fuel line = some (result, s')) : Reached s'
  | interpret {s s' : Session (Command H)} {fuel : Nat} {line : String} {result : Interpretation}
    (hs : Reached s) (h : s.interpret fuel line = some (result, s')) : Reached s'
  | reset {s : Session (Command H)} (hs : Reached s) : Reached s.reset

/-- **Each line leads from rest to rest**, and so does each reset. -/
theorem resting_of_reached (h : s.Reached) : s.workspace.Resting := by
  induction h with
  | start verbosity =>
    simp only [start]
    exact Workspace.resting_withPrimitives verbosity
  | tryInterpret _ h ih => exact resting_tryInterpret ih h
  | interpret _ h ih => exact resting_interpret ih h
  | reset _ ih => exact ih.resetExecution

end Session

/-! ## The entries into evaluation -/

/-- A run from outside, of any kind, with its result. -/
inductive Workspace.Runs (w : Workspace (Command H)) (r : Result (Command H)) : Prop where
  | execute {fuel : Nat} {lenient : Bool} {tokens : List Token}
    (h : w.execute fuel lenient tokens = some r)
  | evaluate {fuel : Nat} {lenient : Bool} {position : Nat} {tokens : List Token}
    (h : w.evaluateAt fuel (.token lenient) position tokens = some r)
  | reduce {fuel position : Nat} {tokens : List Token}
    (h : w.reduceAt fuel position tokens = some r)
  | runList {fuel : Nat} {items : List Token} (h : w.runList fuel items = some r)
  | invoke {fuel : Nat} {p : Procedure (Command H)} {inputs : List Value} (hp : p.IsPlain)
    (h : w.invoke fuel p inputs = some r)

theorem balanced_evaluateAt {w : Workspace (Command H)} {r : Result (Command H)} {fuel : Nat}
    {lenient : Bool} {position : Nat} {tokens : List Token} (hw : w.Admits Procedure.IsPlain)
    (h : w.evaluateAt fuel (.token lenient) position tokens = some r) :
    w.Balanced r.workspace := by
  obtain ⟨r1, h1, rfl⟩ := Option.map_eq_some_iff.1 h
  have hb := kept_balanced.eval fuel _ _ _ h1 trivial hw
  exact hb

/-- Every entry into evaluation is balanced, as evaluation is. -/
theorem balanced_of_runs {w : Workspace (Command H)} {r : Result (Command H)}
    (hw : w.Admits Procedure.IsPlain) (h : w.Runs r) : w.Balanced r.workspace := by
  cases h with
  | execute h => exact kept_balanced.eval _ _ _ _ h trivial hw
  | evaluate h => exact balanced_evaluateAt hw h
  | reduce h =>
    unfold Workspace.reduceAt at h
    split at h
    · exact balanced_evaluateAt hw h
    · cases h; exact .refl w
  | runList h => exact (kept_balanced.eval _).runItems hw h
  | invoke hp h => exact kept_balanced.eval _ _ _ _ h hp hw

/-- **Frames, iterations and requests are balanced.** Every run, whether it succeeds or fails, leaves
transparent and binding frames where it found them and the same running iterations, and a request to
leave a procedure only where there was a binding frame. So a session that was given lines and resets
only has no frames, no iterations and no request between the lines. -/
theorem evaluation_balanced (H : Type) [Host H] :
    (∀ (w : Workspace (Command H)) (r : Result (Command H)), w.Admits Procedure.IsPlain →
      w.signal = none → w.Runs r →
      r.workspace.scope.frames.map Option.isSome = w.scope.frames.map Option.isSome ∧
      r.workspace.repeats = w.repeats ∧
      (r.workspace.signal ≠ none → ∃ frame ∈ w.scope.frames, frame.isSome = true)) ∧
    ∀ s : Session (Command H), s.Reached →
      s.workspace.scope.frames = [] ∧ s.workspace.signal = none ∧ s.workspace.repeats = [] := by
  refine ⟨fun w r hw hsignal hr => ?_, fun s hs => ?_⟩
  · have hb := balanced_of_runs hw hr
    refine ⟨hb.frames, hb.repeats, fun hpending => ?_⟩
    rcases hb.signal (Option.isSome_iff_ne_none.2 hpending) with h | h
    · rw [Workspace.isUnwinding, hsignal] at h; cases h
    · exact List.any_eq_true.1 h
  · have hrest := Session.resting_of_reached hs
    exact ⟨hrest.frames, hrest.signal, hrest.repeats⟩

/-- A workspace with the primitives, inside a procedure without inputs. -/
def insideProcedure : Workspace (Command Empty) :=
  (Workspace.withPrimitives .silent).pushFrame (some .empty)

/-- The command `stop` inside a procedure, and a session in which a definition with it is called. -/
theorem evaluation_balanced_stop :
    (insideProcedure.Admits Procedure.IsPlain ∧ insideProcedure.signal = none ∧
      ∃ r, insideProcedure.Runs r ∧ r.workspace.signal ≠ none ∧
        r.workspace.scope.frames.map Option.isSome =
          insideProcedure.scope.frames.map Option.isSome ∧
        ∃ frame ∈ insideProcedure.scope.frames, frame.isSome = true) ∧
    ∃ s : Session (Command Empty), s.Reached ∧
      s.workspace.scope.frames = [] ∧ s.workspace.signal = none ∧ s.workspace.repeats = [] := by
  obtain ⟨hplain, hsignal⟩ : insideProcedure.Admits Procedure.IsPlain ∧
      insideProcedure.signal = none := (Workspace.resting_withPrimitives _).inFrame _
  have hrun : (insideProcedure.execute 20 false [.word "stop"]).any (·.workspace.isUnwinding) := by
    decide +kernel
  obtain ⟨r, hr, hpending⟩ := (Option.any_eq_true _ _).1 hrun
  have hline : ((Session.start .silent : Session (Command Empty)).tryInterpret 50
      "to f stop end f").isSome := by
    decide +kernel
  obtain ⟨⟨result, s⟩, hs⟩ := Option.isSome_iff_exists.1 hline
  have hreached : s.Reached := .tryInterpret (.start .silent) hs
  have hne : r.workspace.signal ≠ none := Option.isSome_iff_ne_none.1 hpending
  obtain ⟨hruns, hsessions⟩ := evaluation_balanced Empty
  obtain ⟨hframes, -, hbinding⟩ := hruns insideProcedure r hplain hsignal (.execute hr)
  exact ⟨⟨hplain, hsignal, r, .execute hr, hne, hframes, hbinding hne⟩, s, hreached,
    hsessions s hreached⟩

end Logo
