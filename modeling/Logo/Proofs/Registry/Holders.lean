import Logo.Registry

/-!
# The holders of a name

Registering a procedure changes what its own names call, once for each time it has the name, and
nothing else. What each single change keeps is kept by the registration.

* `Registry.holders_register`: the holders of one name, after a registration.
* `Registry.holders_register_induction`: what is kept.
* `Registry.Owns.register`: a name that calls a fixed procedure never changes hands.
-/

namespace Logo.Registry

variable {κ : Type} {r : Registry κ} {p q : Procedure κ} {ps qs : List (Procedure κ)}
  {name : String}

/-- The procedures that stand in the index under a name. -/
def holders (r : Registry κ) (name : String) : List (Procedure κ) :=
  (r.index.find? name).getD []

/-- Enlists procedures, one after the other. -/
def enlistAll (holders ps : List (Procedure κ)) : List (Procedure κ) :=
  ps.foldl (fun holders p => enlist p holders) holders

theorem enlistAll_cons : enlistAll qs (p :: ps) = enlistAll (enlist p qs) ps :=
  rfl

theorem enlistAll_append (ps' : List (Procedure κ)) :
    enlistAll qs (ps ++ ps') = enlistAll (enlistAll qs ps) ps' :=
  List.foldl_append

/-- Enlisting brings in no other procedure. -/
theorem mem_enlist (h : q ∈ enlist p qs) : q ∈ qs ∨ q = p := by
  unfold enlist at h
  split at h
  · exact Or.inl h
  split at h
  · rcases List.mem_append.1 h with h | h
    · exact Or.inl h
    · exact Or.inr (List.mem_singleton.1 h)
  · exact Or.inr (List.mem_singleton.1 h)

/-- What one registration keeps of the holders of a name, all registrations keep. -/
theorem enlistAll_induction {P : List (Procedure κ) → Prop}
    (hstep : ∀ p ∈ ps, ∀ holders, P holders → P (enlist p holders)) (h : P qs) :
    P (enlistAll qs ps) := by
  induction ps generalizing qs with
  | nil => exact h
  | cons p ps ih =>
    obtain ⟨hp, hps⟩ := List.forall_mem_cons.1 hstep
    exact ih hps (hp qs h)

/-- A fixed procedure that has a name keeps it. -/
theorem enlistAll_fixed (hq : q.redefinability = .fixed) : enlistAll [q] ps = [q] := by
  refine enlistAll_induction (P := (· = [q])) (fun p _ holders h => ?_) rfl
  rw [h, enlist, if_pos (by simp [hq])]

/-! ## One registration -/

/-- **A procedure is enlisted under a name as often as it has the name.** -/
theorem holders_register (name : String) :
    (r.register p).holders name =
      enlistAll (r.holders name) (List.replicate (p.names.count name) p) := by
  -- the index is general, since each name changes it before the next one is taken
  have hfold (names : List String) (index : Table (List (Procedure κ))) :
      ((names.foldl (enlistUnder p) index).find? name).getD [] =
        enlistAll ((index.find? name).getD []) (List.replicate (names.count name) p) := by
    induction names generalizing index with
    | nil => rfl
    | cons key names ih =>
      rw [List.foldl_cons, ih, enlistUnder, Table.find?_insert]
      by_cases hkey : name = key
      · rw [if_pos hkey, hkey, List.count_cons_self, List.replicate_succ, enlistAll_cons,
          Option.getD_some]
      · rw [if_neg hkey, List.count_cons_of_ne (Ne.symm hkey)]
  exact hfold p.names r.index

/-- A registration enlists its procedure under its names, once for each, and touches no other
name. -/
theorem holders_register_induction {P : List (Procedure κ) → Prop} (h : P (r.holders name))
    (hstep : ∀ holders, P holders → P (enlist p holders)) : P ((r.register p).holders name) := by
  rw [holders_register]
  refine enlistAll_induction (fun q hq => ?_) h
  rw [List.eq_of_mem_replicate hq]
  exact hstep

/-- A procedure changes nothing under names that are not its own. -/
theorem holders_register_of_notMem (h : name ∉ p.names) :
    (r.register p).holders name = r.holders name := by
  rw [holders_register, List.count_eq_zero.2 h]
  rfl

/-! ## Names that never change hands -/

/-- The name calls the procedure and no other, and the procedure is fixed. -/
structure Owns (r : Registry κ) (name : String) (p : Procedure κ) : Prop where
  find : r.index.find? name = some [p]
  fixed : p.redefinability = .fixed

/-- A fixed procedure that is alone under a name owns it. -/
theorem owns_of_holders (h : r.holders name = [p]) (hp : p.redefinability = .fixed) :
    r.Owns name p := by
  unfold holders at h
  cases hfind : r.index.find? name with
  | none => rw [hfind] at h; cases h
  | some found => rw [hfind] at h; exact ⟨hfind.trans (congrArg some h), hp⟩

theorem Owns.holders_eq (h : r.Owns name p) : r.holders name = [p] := by
  rw [holders, h.find, Option.getD_some]

/-- **A name that calls a fixed procedure never changes hands.** -/
theorem Owns.register (h : r.Owns name p) (q : Procedure κ) : (r.register q).Owns name p := by
  refine owns_of_holders ?_ h.fixed
  rw [holders_register, h.holders_eq, enlistAll_fixed h.fixed]

theorem Owns.foldl_register (h : r.Owns name p) (ps : List (Procedure κ)) :
    (ps.foldl Registry.register r).Owns name p := by
  induction ps generalizing r with
  | nil => exact h
  | cons q ps ih => exact ih (h.register q)

/-- A fixed procedure takes the names that nobody has. -/
theorem owns_register (hfree : r.holders name = []) (hp : p.redefinability = .fixed)
    (h : name ∈ p.names) : (r.register p).Owns name p := by
  refine owns_of_holders ?_ hp
  -- the first of its entries under the name is made, and the others are refused
  obtain ⟨n, hn⟩ := Nat.exists_eq_add_one.2 (List.count_pos_iff.2 h)
  have hfirst : enlist p [] = [p] := by simp [enlist, hp]
  rw [holders_register, hfree, hn, List.replicate_succ, enlistAll_cons, hfirst, enlistAll_fixed hp]

/-- Of several procedures, one of which has the name, that one gets it. -/
theorem owns_foldl_register (hfree : r.holders name = []) (hp : p.redefinability = .fixed)
    (h : name ∈ p.names) (hmem : p ∈ ps) (honly : ∀ q ∈ ps, name ∈ q.names → q = p) :
    (ps.foldl register r).Owns name p := by
  induction ps generalizing r with
  | nil => cases hmem
  | cons q ps ih =>
    obtain ⟨hq, hps⟩ := List.forall_mem_cons.1 honly
    by_cases hname : name ∈ q.names
    · rw [hq hname]
      exact (owns_register hfree hp h).foldl_register ps
    · have hne : p ≠ q := fun heq => hname (heq ▸ h)
      exact ih ((holders_register_of_notMem hname).trans hfree)
        ((List.mem_cons.1 hmem).resolve_left hne) hps

end Logo.Registry
