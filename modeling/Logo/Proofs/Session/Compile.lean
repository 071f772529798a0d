import Logo.Session

/-!
# Compiling definitions

A definition over a forbidden name is reported, one without a body is passed over, and any other
registers its procedure, unless it has no name.

* `compileDefinition_cases`: what a definition can do to the workspace.
* `compileDefinition_error_iff`: when a definition cannot be compiled, whatever was defined before.
* `compileDefinition_of_reserved`, `compileDefinition_of_free`: what becomes of a definition with a
  name.
* `keptByCompiling`: a definition does the same in two workspaces whose procedures are the same.
-/

namespace Logo

variable {κ : Type} {w w' : Workspace κ} {captured : List Token} {cause : RuntimeError}

/-- **What a definition does to the workspace.** -/
theorem compileDefinition_cases (h : compileDefinition w captured = .ok w') :
    (∃ text, forbiddenName? w captured = some text ∧
      w' = w.report (.nonRedefinable (Text.lowercase text))) ∨
    (forbiddenName? w captured = none ∧ captured.length ≤ 2 ∧ w' = w) ∨
    ∃ p, forbiddenName? w captured = none ∧ 2 < captured.length ∧
      Procedure.define captured = .ok p ∧ w' = (w.register p).narrate (.defined p.name) := by
  unfold compileDefinition at h
  -- a forbidden name, then a definition that is too short, then one that is compiled
  split at h
  · rename_i text hname
    cases h
    exact Or.inl ⟨text, hname, rfl⟩
  rename_i hname
  split at h
  · rename_i hlength
    cases h
    exact Or.inr (Or.inl ⟨hname, hlength, rfl⟩)
  rename_i hlength
  cases hp : (Procedure.define captured : Except RuntimeError (Procedure κ)) with
  | error cause => rw [hp] at h; cases h
  | ok p =>
    rw [hp] at h
    cases h
    exact Or.inr (Or.inr ⟨p, hname, Nat.not_le.1 hlength, rfl, rfl⟩)

/-- A definition fails only for want of a name. -/
theorem Procedure.define_eq_error_iff :
    (define captured : Except RuntimeError (Procedure κ)) = .error cause ↔
      definedName captured = .error cause := by
  unfold define
  cases definedName captured with
  | ok name => constructor <;> intro h <;> cases h
  | error cause' => constructor <;> intro h <;> cases h <;> rfl

/-- A definition without a name is not one over a forbidden name. -/
theorem forbiddenName?_of_error (h : Procedure.definedName captured = .error cause) :
    forbiddenName? w captured = none := by
  unfold forbiddenName?
  split
  · cases h
  · rfl

/-- **A definition cannot be compiled exactly if it has a body and no name**, in any workspace. -/
theorem compileDefinition_error_iff : compileDefinition w captured = .error cause ↔
    2 < captured.length ∧ Procedure.definedName captured = .error cause := by
  constructor
  · intro h
    unfold compileDefinition at h
    split at h
    · cases h
    split at h
    · cases h
    rename_i hlength
    refine ⟨Nat.not_le.1 hlength, ?_⟩
    cases hp : (Procedure.define captured : Except RuntimeError (Procedure κ)) with
    | ok p =>
      rw [hp] at h
      cases h
    | error cause' =>
      rw [hp] at h
      cases h
      exact Procedure.define_eq_error_iff.1 hp
  · rintro ⟨hlength, hname⟩
    rw [compileDefinition, forbiddenName?_of_error hname]
    simp only
    rw [if_neg (Nat.not_le.2 hlength), Procedure.define_eq_error_iff.2 hname]
    rfl

/-! ## Definitions with a name -/

/-- The name cannot be defined: it is `to`, or it belongs to a fixed procedure. -/
def Workspace.Reserves (w : Workspace κ) (name : String) : Prop :=
  Text.equalsIgnoringCase name "to" = true ∨ ∃ p ∈ w.lookup name, p.redefinability = .fixed

instance (w : Workspace κ) (name : String) : Decidable (w.Reserves name) :=
  inferInstanceAs (Decidable (_ ∨ _))

theorem Workspace.reserves_iff {name : String} : w.Reserves name ↔
    (Text.equalsIgnoringCase name "to" || w.registry.isFixed name) = true := by
  simp [Reserves, Registry.isFixed, lookup]

section Named

variable {first : Token} {text : String} {rest : List Token}

/-- A definition has one name. It takes the name over, and can be defined anew. -/
theorem Procedure.define_word (first : Token) (text : String) (rest : List Token) :
    ∃ (p : Procedure κ) (d : Definition), define (first :: .word text :: rest) = .ok p ∧
      p.names = [Text.lowercase text] ∧ p.redefinability = .replace ∧ p.kind = .definition d ∧
      d.source = joinTokens (first :: .word text :: rest) ++ " end" :=
  ⟨_, _, rfl, rfl, rfl, rfl, rfl⟩

/-- A reserved name is reported, and nothing is registered. -/
theorem compileDefinition_of_reserved (h : w.Reserves text) :
    compileDefinition w (first :: .word text :: rest) =
      .ok (w.report (.nonRedefinable (Text.lowercase text))) := by
  rw [compileDefinition, forbiddenName?, if_pos (Workspace.reserves_iff.1 h)]

/-- A free name is defined. -/
theorem compileDefinition_of_free {p : Procedure κ} (h : ¬ w.Reserves text) (hrest : rest ≠ [])
    (hp : Procedure.define (first :: .word text :: rest) = .ok p) :
    compileDefinition w (first :: .word text :: rest) =
      .ok ((w.register p).narrate (.defined p.name)) := by
  have hlength : ¬ (first :: Token.word text :: rest).length ≤ 2 := by
    have hpos := List.length_pos_iff.2 hrest
    simp only [List.length_cons]
    omega
  rw [compileDefinition, forbiddenName?, if_neg (mt Workspace.reserves_iff.2 h)]
  simp only
  rw [if_neg hlength, hp]
  rfl

end Named

/-! ## Definitions in two workspaces -/

/-- A definition that is compiled in two related workspaces fails in both for the same cause, or
leaves related workspaces. -/
def KeptByCompiling (R : Workspace κ → Workspace κ → Prop) : Prop :=
  ∀ ⦃w w'⦄ captured, R w w' →
    (∃ cause, compileDefinition w captured = .error cause ∧
      compileDefinition w' captured = .error cause) ∨
    ∃ u u', compileDefinition w captured = .ok u ∧ compileDefinition w' captured = .ok u' ∧ R u u'

/-- A relation that registering and writing keep is kept by a definition, which is forbidden on both
sides or on none. -/
theorem keptByCompiling {R : Workspace κ → Workspace κ → Prop}
    (hregistry : ∀ {w w'}, R w w' → w'.registry = w.registry)
    (hwrite : ∀ {w w'} line, R w w' → R (w.write line) (w'.write line))
    (hdefine : ∀ {w w' captured p}, Procedure.define captured = .ok p → R w w' →
      R ((w.register p).narrate (.defined p.name)) ((w'.register p).narrate (.defined p.name))) :
    KeptByCompiling R := by
  intro w w' captured h
  have hforbidden : forbiddenName? w' captured = forbiddenName? w captured := by
    unfold forbiddenName?
    rw [hregistry h]
  unfold compileDefinition
  rw [hforbidden]
  split
  · exact Or.inr ⟨_, _, rfl, rfl, hwrite _ h⟩
  split
  · exact Or.inr ⟨_, _, rfl, rfl, h⟩
  cases hp : (Procedure.define captured : Except RuntimeError (Procedure κ)) with
  | error cause => exact Or.inl ⟨cause, rfl, rfl⟩
  | ok p => exact Or.inr ⟨_, _, rfl, rfl, hdefine hp h⟩

end Logo
