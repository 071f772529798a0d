import Logo.Proofs.Session.Registered
import Mathlib

/-!
# The registry in closed form

What a name calls is decided by the registrations under it, in order: a fixed procedure ends them,
and of those that are left, the last one that takes the name over and those alongside it are called.

* `Registry.holders_foldl_register`: the registrations under one name are enlisted one by one.
* `Registry.enlistAll_nil`: the procedures that this leaves.
* `Workspace.registry_of_registers`: registrations by hand, with a module and by a definition.
* `registry_closed_form`: the registry after any of them.
-/

namespace Logo

variable {κ : Type}

namespace Registry

/-! ## The closed form -/

/-- The registrations under a name, in order. A procedure that has the name twice is registered under
it twice. -/
def carriers (name : String) (ps : List (Procedure κ)) : List (Procedure κ) :=
  ps.flatMap fun p => List.replicate (p.names.count name) p

/-- Nothing is left after the first fixed procedure. -/
def untilFixed (ps : List (Procedure κ)) : List (Procedure κ) :=
  ps.take ((ps.takeWhile (!·.redefinability == .fixed)).length + 1)

/-- Nothing is left before the last procedure that is not alongside others. -/
def fromLastTaker (ps : List (Procedure κ)) : List (Procedure κ) :=
  ps.drop ((ps.rdropWhile (·.redefinability == .alongside)).length - 1)

variable {r : Registry κ} {p q : Procedure κ} {ps before after : List (Procedure κ)}

theorem untilFixed_eq_self (h : ∀ p ∈ ps, p.redefinability ≠ .fixed) : untilFixed ps = ps := by
  rw [untilFixed, List.takeWhile_eq_self_iff.2 (by simpa using h)]
  exact List.take_of_length_le (Nat.le_succ _)

/-- Nothing behind the first fixed procedure is left. -/
theorem untilFixed_append (h : ∀ p ∈ before, p.redefinability ≠ .fixed)
    (hq : q.redefinability = .fixed) : untilFixed (before ++ q :: after) = before ++ [q] := by
  have hbefore : (before ++ q :: after).takeWhile (!·.redefinability == .fixed) = before := by
    rw [List.takeWhile_append_of_pos (by simpa using h), List.takeWhile_cons_of_neg (by simp [hq]),
      List.append_nil]
  rw [untilFixed, hbefore, List.take_length_add_append]
  rfl

/-- A procedure beside others joins those that are left. -/
theorem fromLastTaker_concat_alongside (h : p.redefinability = .alongside) :
    fromLastTaker (ps ++ [p]) = fromLastTaker ps ++ [p] := by
  rw [fromLastTaker, List.rdropWhile_concat_pos _ _ _ (by simp [h]), fromLastTaker]
  refine List.drop_append_of_le_length ?_
  have hle := (List.rdropWhile_prefix (·.redefinability == .alongside) ps).length_le
  omega

/-- A procedure that takes the name over is the only one left. -/
theorem fromLastTaker_concat_taker (h : p.redefinability ≠ .alongside) :
    fromLastTaker (ps ++ [p]) = [p] := by
  rw [fromLastTaker, List.rdropWhile_concat_neg _ _ _ (by simpa using h)]
  simp

/-- A list has no fixed procedure, or there is a first one. -/
theorem free_or_first_fixed (ps : List (Procedure κ)) :
    (∀ p ∈ ps, p.redefinability ≠ .fixed) ∨
      ∃ before q after, ps = before ++ q :: after ∧ q.redefinability = .fixed ∧
        ∀ p ∈ before, p.redefinability ≠ .fixed := by
  cases h : ps.find? (·.redefinability == .fixed) with
  | none => exact Or.inl (by simpa using h)
  | some q =>
    obtain ⟨hq, before, after, hps, hbefore⟩ := List.find?_eq_some_iff_append.1 h
    exact Or.inr ⟨before, q, after, hps, by simpa using hq, by simpa using hbefore⟩

/-- A fixed procedure that is left is the only one. -/
theorem eq_singleton_of_fixed (hmem : p ∈ fromLastTaker (untilFixed ps))
    (hp : p.redefinability = .fixed) : fromLastTaker (untilFixed ps) = [p] := by
  rcases free_or_first_fixed ps with hfree | ⟨before, q, after, rfl, hq, hbefore⟩
  · -- both cuts only take procedures away
    exact absurd hp (hfree p (List.mem_of_mem_take (List.mem_of_mem_drop hmem)))
  · rw [untilFixed_append hbefore hq, fromLastTaker_concat_taker (by simp [hq])] at hmem ⊢
    rw [List.mem_singleton.1 hmem]

/-! ## Enlisting -/

/-- As long as no procedure is fixed, the next one takes the name over or stands alongside. -/
theorem enlist_fromLastTaker (h : ∀ q ∈ ps, q.redefinability ≠ .fixed) :
    enlist p (fromLastTaker ps) = fromLastTaker (ps ++ [p]) := by
  have hfree : (fromLastTaker ps).any (·.redefinability == .fixed) = false := by
    rw [List.any_eq_false]
    exact fun q hq => by simpa using h q (List.mem_of_mem_drop hq)
  rw [enlist, hfree, if_neg Bool.false_ne_true]
  by_cases halong : p.redefinability = .alongside
  · rw [if_pos (by simpa using halong), fromLastTaker_concat_alongside halong]
  · rw [if_neg (by simpa using halong), fromLastTaker_concat_taker halong]

/-- Where no procedure is fixed, those from the last one that took the name over are left. -/
theorem enlistAll_nil_of_free (h : ∀ p ∈ ps, p.redefinability ≠ .fixed) :
    enlistAll [] ps = fromLastTaker ps := by
  -- from the right, since the last procedure decides what is left of those before it
  induction ps using List.reverseRecOn with
  | nil => rfl
  | append_singleton ps p ih =>
    have hps := (List.forall_mem_append.1 h).1
    rw [enlistAll_append, ih hps, enlistAll_cons, enlist_fromLastTaker hps]
    rfl

/-- **What procedures that are enlisted one after the other leave of each other.** -/
theorem enlistAll_nil (ps : List (Procedure κ)) :
    enlistAll [] ps = fromLastTaker (untilFixed ps) := by
  rcases free_or_first_fixed ps with hfree | ⟨before, q, after, rfl, hq, hbefore⟩
  · rw [untilFixed_eq_self hfree, enlistAll_nil_of_free hfree]
  · -- the first fixed procedure takes the name over, and nothing gets it after
    have htaken : fromLastTaker (before ++ [q]) = [q] :=
      fromLastTaker_concat_taker (by simp [hq])
    rw [untilFixed_append hbefore hq, htaken, enlistAll_append, enlistAll_nil_of_free hbefore,
      enlistAll_cons, enlist_fromLastTaker hbefore, htaken, enlistAll_fixed hq]

/-! ## Registering -/

/-- **The registrations under a name are enlisted one by one**, and those under other names leave it
alone. -/
theorem holders_foldl_register (ps : List (Procedure κ)) (name : String) :
    (ps.foldl register r).holders name = enlistAll (r.holders name) (carriers name ps) := by
  induction ps generalizing r with
  | nil => rfl
  | cons p ps ih =>
    have hcarriers : carriers name (p :: ps) =
        List.replicate (p.names.count name) p ++ carriers name ps := List.flatMap_cons
    rw [List.foldl_cons, ih, holders_register, hcarriers, enlistAll_append]

/-- All registrations are kept in the list of procedures, also those that call nothing. -/
theorem procedures_foldl_register (ps : List (Procedure κ)) :
    (ps.foldl register r).procedures = r.procedures ++ ps := by
  induction ps generalizing r with
  | nil => exact (List.append_nil _).symm
  | cons p ps ih => rw [List.foldl_cons, ih, register, List.append_assoc, List.singleton_append]

end Registry

/-! ## Workspaces -/

/-- The procedures that a definition registers, which are one at most. -/
def definedBy (w : Workspace κ) (captured : List Token) : List (Procedure κ) :=
  if (forbiddenName? w captured).isSome || captured.length ≤ 2 then []
  else (Procedure.define captured).toOption.toList

/-- The registrations that lead from one workspace to another, in order: by hand, with a module, by a
definition. Whatever else happens leaves the registry as it is. -/
inductive Workspace.Registers : Workspace κ → List (Procedure κ) → Workspace κ → Prop where
  | unchanged {w w' : Workspace κ} (h : w'.registry = w.registry) : Registers w [] w'
  | register (w : Workspace κ) (p : Procedure κ) : Registers w [p] (w.register p)
  | load (w : Workspace κ) (m : Module κ) : Registers w m.procedures (w.load m)
  | define {w w' : Workspace κ} (captured : List Token)
      (h : compileDefinition w captured = .ok w') : Registers w (definedBy w captured) w'
  | append {w w' w'' : Workspace κ} {ps qs : List (Procedure κ)} (h : Registers w ps w')
      (h' : Registers w' qs w'') : Registers w (ps ++ qs) w''

variable {w w' : Workspace κ} {ps : List (Procedure κ)} {captured : List Token}

/-- A captured definition registers one procedure or none. -/
theorem registry_of_compileDefinition (h : compileDefinition w captured = .ok w') :
    w'.registry = (definedBy w captured).foldl Registry.register w.registry := by
  rcases compileDefinition_cases h with
    ⟨text, hname, rfl⟩ | ⟨-, hlength, rfl⟩ | ⟨p, hname, hlength, hp, rfl⟩
  · rw [definedBy, hname]
    rfl
  · rw [definedBy, if_pos (by simp [hlength])]
    rfl
  · rw [definedBy, if_neg (by simp [hname, hlength]), hp, Workspace.registry_narrate,
      Workspace.registry_register]
    rfl

/-- **The registrations make up the registry.** -/
theorem Workspace.registry_of_registers (h : w.Registers ps w') :
    w'.registry = ps.foldl Registry.register w.registry := by
  induction h with
  | unchanged h => exact h
  | register w p => exact w.registry_register p
  | load w m => exact w.registry_load m
  | define captured h => exact registry_of_compileDefinition h
  | append _ _ ih ih' => rw [ih', ih, List.foldl_append]

/-- **The registry in closed form.** Whatever is registered from the beginning, all of it is kept in
order. Under a name there are the registrations with that name, up to the first fixed one, and of
these the last one that is not alongside others with all that follow it. When one of them is fixed,
the name calls it and no other, whatever is registered later. -/
theorem registry_closed_form (verbosity : Verbosity) (ps : List (Procedure κ)) (w : Workspace κ)
    (h : ({ verbosity } : Workspace κ).Registers ps w) :
    w.registry.procedures = ps ∧
      (∀ name, w.registry.holders name =
        Registry.fromLastTaker (Registry.untilFixed (Registry.carriers name ps))) ∧
      (∀ name, w.lookup name = w.registry.holders (Text.lowercase name)) ∧
      ∀ name, ∀ p ∈ w.lookup name, p.redefinability = .fixed →
        ∀ qs w', w.Registers qs w' → w'.lookup name = [p] := by
  have hregistry : w.registry = ps.foldl Registry.register {} := Workspace.registry_of_registers h
  have hholders (name : String) : w.registry.holders name =
      Registry.fromLastTaker (Registry.untilFixed (Registry.carriers name ps)) := by
    rw [hregistry, Registry.holders_foldl_register]
    exact Registry.enlistAll_nil _
  refine ⟨?_, hholders, fun name => rfl, fun name p hmem hp qs w' hw' => ?_⟩
  · rw [hregistry, Registry.procedures_foldl_register]
    rfl
  · -- now the name has no other holder, and from here on no registration gives it one
    have hall : w.registry.holders (Text.lowercase name) = [p] := by
      have hmem : p ∈ w.registry.holders (Text.lowercase name) := hmem
      rw [hholders] at hmem ⊢
      exact Registry.eq_singleton_of_fixed hmem hp
    refine Registry.Owns.lookup_eq ?_
    rw [Workspace.registry_of_registers hw']
    exact (Registry.owns_of_holders hall hp).foldl_register qs

/-- A procedure with one input. -/
def sayer (name : String) (aliases : List String) (redefinability : Redefinability)
    (help : String) : Procedure Unit :=
  { name, aliases, inputs := 1, redefinability, help, kind := .command () }

/-- Registrations of each kind: one name is shared, one is taken over by a definition and shared
again, and one is fixed. -/
theorem registry_closed_form_say :
    ∃ (ps : List (Procedure Unit)) (w : Workspace Unit),
      ({ verbosity := .silent } : Workspace Unit).Registers ps w ∧ w.registry.procedures = ps ∧
        ps.map (·.help) = ["first", "second", "third", "fourth", "fifth"] ∧
        (w.lookup "Say").map (·.help) = ["first", "first", "second"] ∧
        (w.lookup "TELL").map (·.help) = ["third", "fourth"] ∧
        ∀ qs w', w.Registers qs w' → (w'.lookup "hush").map (·.help) = ["fifth"] := by
  have hfirst := Workspace.Registers.register { verbosity := .silent }
    (sayer "say" ["tell", "say"] .alongside "first")
  have hsecond := hfirst.append (.load _ ⟨"speech", [sayer "say" [] .alongside "second"]⟩)
  have hthird := hsecond.append (.define [.word "to", .word "Tell", .reference ":x",
    .comment "; third", .word "print", .reference ":x"] rfl)
  have hfourth := hthird.append (.register _ (sayer "hush" ["tell"] .alongside "fourth"))
  have hfifth := hfourth.append (.register _ (sayer "hush" [] .fixed "fifth"))
  obtain ⟨hprocedures, hholders, hlookup, hkept⟩ := registry_closed_form _ _ _ hfifth
  refine ⟨_, _, hfifth, hprocedures, by decide +kernel, ?_, ?_, fun qs w' hw' => ?_⟩
  · rw [hlookup, hholders]
    decide +kernel
  · rw [hlookup, hholders]
    decide +kernel
  · rw [hkept "hush" (sayer "hush" [] .fixed "fifth") ?_ rfl qs w' hw']
    · rfl
    · rw [hlookup, hholders]
      exact List.mem_of_getLast? rfl

end Logo
