import Logo.Proofs.Session.Rest
import Logo.Proofs.Text.Lowercase

/-!
# The registry of a session

The registry of a session changes at definitions only. What holds of the registry with the
primitives, and is kept when the procedure of a definition is registered, holds of the registry of
every session that lines lead to.

* `Session.registry_induction`: the induction.
* `Session.owns_primitive`: the names of the primitives never change hands.
-/

namespace Logo

/-! ## Workspaces -/

section Workspace

variable {κ : Type} (w : Workspace κ)

@[simp]
theorem Workspace.registry_narrate (note : Note) : (w.narrate note).registry = w.registry := by
  unfold narrate
  split <;> rfl

@[simp]
theorem Workspace.registry_register (p : Procedure κ) :
    (w.register p).registry = w.registry.register p := by
  rw [register, registry_narrate]

/-- A module registers its procedures in their order. -/
theorem Workspace.registry_load (m : Module κ) :
    (w.load m).registry = m.procedures.foldl Registry.register w.registry := by
  have hfold (ps : List (Procedure κ)) (w : Workspace κ) :
      (ps.foldl Workspace.register w).registry = ps.foldl Registry.register w.registry := by
    induction ps generalizing w with
    | nil => rfl
    | cons p ps ih => rw [List.foldl_cons, List.foldl_cons, ih, registry_register]
  rw [load, registry_narrate]
  exact hfold m.procedures w

end Workspace

/-! ## Primitives -/

theorem Registry.Owns.lookup_eq {κ : Type} {w : Workspace κ} {name : String} {p : Procedure κ}
    (h : w.registry.Owns (Text.lowercase name) p) : w.lookup name = [p] :=
  h.holders_eq

/-- The names that call a primitive, in lowercase. -/
def Primitive.calledBy (q : Primitive) : List String :=
  (q.procedure ()).names

theorem Primitive.mem_all (q : Primitive) : q ∈ all := by
  cases q <;> decide

/-- No two primitives share a name. -/
theorem Primitive.eq_of_mem_calledBy {q q' : Primitive} {name : String} (h : name ∈ q.calledBy)
    (h' : name ∈ q'.calledBy) : q' = q := by
  have hnames : ∀ q ∈ all, ∀ q' ∈ all, ∀ name ∈ q.calledBy, name ∈ q'.calledBy → q' = q := by
    decide +kernel
  exact hnames q q.mem_all q' q'.mem_all name h h'

/-- **At first every name of a primitive calls the primitive.** -/
theorem owns_withPrimitives {H : Type} (verbosity : Verbosity) {q : Primitive} {name : String}
    (h : name ∈ q.calledBy) :
    (Workspace.withPrimitives verbosity : Workspace (Command H)).registry.Owns name
      (q.procedure (.primitive q)) := by
  rw [Workspace.withPrimitives, Workspace.registry_load]
  refine Registry.owns_foldl_register rfl rfl h (List.mem_map_of_mem q.mem_all)
    fun p hp hname => ?_
  obtain ⟨q', -, rfl⟩ := List.mem_map.1 hp
  rw [Primitive.eq_of_mem_calledBy h hname]

variable {H : Type}

/-- What registering primitives keeps holds at first. -/
theorem Registry.withPrimitives_induction {Q : Registry (Command H) → Prop} (hempty : Q {})
    (hregister : ∀ r (q : Primitive), Q r → Q (r.register (q.procedure (.primitive q))))
    (verbosity : Verbosity) :
    Q (Workspace.withPrimitives verbosity : Workspace (Command H)).registry := by
  have hfold (ps : List Primitive) (r : Registry (Command H)) (h : Q r) :
      Q ((ps.map fun q => q.procedure (Command.primitive q)).foldl register r) := by
    induction ps generalizing r with
    | nil => exact h
    | cons q ps ih => exact ih _ (hregister r q h)
  rw [Workspace.withPrimitives, Workspace.registry_load]
  exact hfold Primitive.all {} hempty

/-! ## Definitions -/

/-- **A definition that is not refused has another name than `to`.** -/
theorem to_notMem_names {κ : Type} {w : Workspace κ} {captured : List Token} {p : Procedure κ}
    (hname : forbiddenName? w captured = none) (hp : Procedure.define captured = .ok p) :
    "to" ∉ p.names := by
  rcases captured with _ | ⟨first, _ | ⟨t, rest⟩⟩
  · cases hp
  · cases hp
  cases t
  case word text =>
    cases hp
    intro hto
    rw [Procedure.names, List.mem_singleton, eq_comm, Text.lowercase_eq_iff Text.isPlain_to] at hto
    rw [forbiddenName?, hto, Bool.true_or, if_pos rfl] at hname
    cases hname
  all_goals cases hp

/-- The property is kept when the procedure of a definition is registered. -/
def Registry.KeptByDefinitions (Q : Registry (Command H) → Prop) : Prop :=
  ∀ ⦃r⦄ ⦃captured : List Token⦄ ⦃p : Procedure (Command H)⦄, Q r →
    Procedure.define captured = .ok p → "to" ∉ p.names → Q (r.register p)

theorem Registry.owns_keptByDefinitions (name : String) (p : Procedure (Command H)) :
    KeptByDefinitions fun r => r.Owns name p :=
  fun _ _ q howns _ _ => howns.register q

variable {Q : Registry (Command H) → Prop} (hQ : Registry.KeptByDefinitions Q)

include hQ

/-- What definitions keep, a captured definition keeps, also if it is refused. -/
theorem registry_compileDefinition {w w' : Workspace (Command H)} {captured : List Token}
    (hw : Q w.registry) (h : compileDefinition w captured = .ok w') : Q w'.registry := by
  rcases compileDefinition_cases h with ⟨text, -, rfl⟩ | ⟨-, -, rfl⟩ | ⟨p, hname, -, hp, rfl⟩
  · exact hw
  · exact hw
  · rw [Workspace.registry_narrate, Workspace.registry_register]
    exact hQ hw hp (to_notMem_names hname hp)

/-- What definitions keep, all definitions of a sequence keep. -/
theorem registry_captureDefinitions {w : Workspace (Command H)} (hw : Q w.registry)
    (capture : Option (List Token)) (tokens : List Token) :
    Q (captureDefinitions w capture tokens).workspace.registry := by
  fun_induction captureDefinitions w capture tokens with
  | case1 w tokens definition h => exact hw
  | case2 w tokens definition token rest h w' hcompile ih =>
    exact ih (registry_compileDefinition hQ hw hcompile)
  | case3 w tokens definition token rest h cause hcompile => exact hw
  | case4 w tokens h => exact hw
  | case5 w tokens token rest h hto ih => exact ih hw
  | case6 w tokens token rest h hto => exact hw

/-! ## Sessions -/

namespace Session

variable [Host H] {s s' : Session (Command H)} {fuel : Nat}

omit hQ in
/-- Tokens that are carried out register nothing. -/
theorem registry_runTokens {tokens : List Token} {result : Except InterpretError Status}
    (hs : s.workspace.Resting) (h : s.runTokens (eval fuel) tokens = some (result, s')) :
    s'.workspace.registry = s.workspace.registry := by
  unfold runTokens at h
  split at h
  · cases h; rfl
  obtain ⟨r, hr, h⟩ := Option.bind_eq_some_iff.1 h
  have hb := kept_balanced.eval fuel _ _ _ hr trivial (hs.narrate _).admits
  have hregistry : r.workspace.registry = s.workspace.registry := by
    rw [hb.registry, Workspace.registry_narrate]
  split at h <;> cases h <;> exact hregistry

/-- Buffered tokens register what they define. -/
theorem registry_process {result : Except InterpretError Status} (hs : s.workspace.Resting)
    (hw : Q s.workspace.registry) (h : s.process (eval fuel) = some (result, s')) :
    Q s'.workspace.registry := by
  have hcapture := registry_captureDefinitions hQ hw s.capture s.buffer
  have hrest := resting_captureDefinitions hs s.capture s.buffer
  unfold process at h
  split at h
  · rename_i hc
    rw [hc] at hcapture
    cases h; exact hcapture
  · rename_i hc
    rw [hc] at hcapture
    cases h; exact hcapture
  · rename_i hc
    rw [hc] at hcapture hrest
    rw [registry_runTokens hrest h]
    exact hcapture

/-- A line registers what it defines, and an error takes nothing back. -/
theorem registry_tryInterpret {line : String} {result : Except InterpretError Status}
    (hs : s.workspace.Resting) (hw : Q s.workspace.registry)
    (h : s.tryInterpret fuel line = some (result, s')) : Q s'.workspace.registry := by
  obtain ⟨⟨result', s1⟩, hfeed, h⟩ := Option.bind_eq_some_iff.1 h
  have hw' (note : Note) : Q (s.workspace.narrate note).registry := by
    rw [Workspace.registry_narrate]
    exact hw
  have hs1 : Q s1.workspace.registry := by
    unfold feed at hfeed
    simp only at hfeed
    split at hfeed
    · exact registry_process hQ (hs.narrate _) (hw' _) hfeed
    · cases hfeed; exact hw' _
    · cases hfeed; exact hw' _
  cases result' with
  | ok status => cases h; exact hs1
  | error cause => cases h; exact hs1

theorem registry_interpret {line : String} {result : Interpretation} (hs : s.workspace.Resting)
    (hw : Q s.workspace.registry) (h : s.interpret fuel line = some (result, s')) :
    Q s'.workspace.registry := by
  obtain ⟨⟨result', s1⟩, htry, h⟩ := Option.map_eq_some_iff.1 h
  have hs1 := registry_tryInterpret hQ hs hw htry
  cases result' with
  | ok status => cases status <;> cases h <;> exact hs1
  | error cause => cases h; exact hs1

/-- **What definitions keep holds of every session.** -/
theorem registry_induction
    (hstart : ∀ verbosity, Q (Workspace.withPrimitives verbosity : Workspace (Command H)).registry)
    (h : s.Reached) : Q s.workspace.registry := by
  induction h with
  | start verbosity => exact hstart verbosity
  | tryInterpret hs h ih => exact registry_tryInterpret hQ (resting_of_reached hs) ih h
  | interpret hs h ih => exact registry_interpret hQ (resting_of_reached hs) ih h
  | reset _ ih => exact ih

omit hQ in
/-- **The names of the primitives call the primitives, whatever lines are given.** -/
theorem owns_primitive {q : Primitive} {name : String} (hname : name ∈ q.calledBy)
    (h : s.Reached) : s.workspace.registry.Owns name (q.procedure (.primitive q)) :=
  registry_induction (Registry.owns_keptByDefinitions name _)
    (fun verbosity => owns_withPrimitives verbosity hname) h

end Session

end Logo
