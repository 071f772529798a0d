import Logo.Proofs.Evaluation.Asking
import Logo.Proofs.Session.Capture
import Logo.Proofs.Session.Reentry
import Logo.Proofs.Session.Registered

/-!
# Definitions and the names that they take

A definition either takes its name over, from whatever had it, or is refused with a message. It is
refused exactly if the name is `to` or belongs to a fixed procedure. In both cases no other name is
affected. So the names of the primitives, which are fixed, always call the primitives: between the
lines, at each definition of a line, and whenever anything is carried out.

* `Session.PassesThrough`: the workspaces of a session while it takes a line.
* `Session.registry_passesThrough`: what definitions keep holds of all of them.
* `definitions_take_effect`: both for all sessions.
-/

namespace Logo

variable {κ : Type}

/-! ## What a definition leaves alone -/

theorem Registry.lookup_register_of_ne {r : Registry κ} {p : Procedure κ} {text name : String}
    (hnames : p.names = [Text.lowercase text]) (hne : Text.lowercase name ≠ Text.lowercase text) :
    (r.register p).lookup name = r.lookup name :=
  holders_register_of_notMem (by rw [hnames, List.mem_singleton]; exact hne)

theorem Workspace.output_narrate (w : Workspace κ) (note : Note) :
    (w.narrate note).output = w.output := by
  unfold narrate
  split <;> rfl

/-! ## All definitions of a line -/

/-- Capturing the definitions at the head of a sequence comes to compile `captured`, in the workspace
`u`. -/
inductive ComesToCompile (u : Workspace κ) (captured : List Token) :
    Workspace κ → Option (List Token) → List Token → Prop where
  | here {definition tokens t rest} (h : tokens.dropWhile isInside = t :: rest)
    (hcaptured : captured = definition ++ tokens.takeWhile isInside) :
    ComesToCompile u captured u (some definition) tokens
  | later {w w' definition tokens t rest} (h : tokens.dropWhile isInside = t :: rest)
    (hw : compileDefinition w (definition ++ tokens.takeWhile isInside) = .ok w')
    (hlater : ComesToCompile u captured w' none rest) :
    ComesToCompile u captured w (some definition) tokens
  | opening {w tokens t rest} (h : tokens.dropWhile isPassedOver = t :: rest)
    (ht : t.isWordNamed "to" = true) (hlater : ComesToCompile u captured w (some [t]) rest) :
    ComesToCompile u captured w none tokens

variable {H : Type} {Q : Registry (Command H) → Prop} (hQ : Registry.KeptByDefinitions Q)

include hQ in
/-- What definitions keep holds when the next definition of a line is compiled. -/
theorem registry_comesToCompile {u w : Workspace (Command H)} {captured tokens : List Token}
    {capture : Option (List Token)} (h : ComesToCompile u captured w capture tokens)
    (hw : Q w.registry) : Q u.registry := by
  induction h with
  | here => exact hw
  | later _ hcompile _ ih => exact ih (registry_compileDefinition hQ hw hcompile)
  | opening _ _ _ ih => exact ih hw

variable [Host H]

/-- A job of a session without host commands is begun with the registry that the first job found, and
leaves it as it is. -/
theorem Job.Begins.registry_eq {n : Nat} {job job' : Job (Command H)}
    {w w' : Workspace (Command H)} (h : job.Begins n w job' w')
    (hjob : job.Admits Procedure.IsPlain) (hw : w.Admits Procedure.IsPlain) :
    w'.registry = w.registry ∧
      ∀ m r, eval m job' w' = some r → r.workspace.registry = w.registry := by
  obtain ⟨hjob', hw', hregistry⟩ := kept_balanced.begins h hjob hw
  refine ⟨hregistry, fun m r hr => ?_⟩
  rw [← hregistry]
  exact (kept_balanced.eval m _ _ _ hr hjob' hw').registry

namespace Session

/-- While the session takes a line within the bound `fuel`, the job `job` is begun in the workspace
`u`. -/
inductive Begins (s : Session (Command H)) (fuel : Nat) (line : String) (job : Job (Command H))
    (u : Workspace (Command H)) : Prop where
  | intro {tokens reader w rest} (hread : s.reader.read line = (.complete tokens, reader))
    (hready : captureDefinitions (s.workspace.narrate (.scanned (.complete tokens))) s.capture
      (s.buffer ++ tokens) = .ready w rest)
    (h : (Job.sequence false rest).Begins fuel (w.narrate (.running rest)) job u)

/-- The workspaces that a session passes through while it takes a line within the bound `fuel`: when
a definition is compiled, when a job is begun, and when a job is done. -/
inductive PassesThrough (s : Session (Command H)) (fuel : Nat) (line : String) :
    Workspace (Command H) → Prop where
  | compiling {tokens reader u captured} (hread : s.reader.read line = (.complete tokens, reader))
    (h : ComesToCompile u captured (s.workspace.narrate (.scanned (.complete tokens))) s.capture
      (s.buffer ++ tokens)) :
    PassesThrough s fuel line u
  | begun {job u} (h : s.Begins fuel line job u) : PassesThrough s fuel line u
  | done {job u n r} (h : s.Begins fuel line job u) (hr : eval n job u = some r) :
    PassesThrough s fuel line r.workspace

variable {s : Session (Command H)} {fuel : Nat} {line : String} {w : Workspace (Command H)}

include hQ

/-- What definitions keep holds when a job of a line is begun, and when it is done. -/
theorem registry_begins {job : Job (Command H)} (hs : s.workspace.Resting)
    (hw : Q s.workspace.registry) (h : s.Begins fuel line job w) :
    Q w.registry ∧ ∀ n r, eval n job w = some r → Q r.workspace.registry := by
  obtain @⟨tokens, reader, ready, rest, -, hready, h⟩ := h
  have hregistry := registry_captureDefinitions hQ
    (w := s.workspace.narrate (.scanned (.complete tokens)))
    (by rw [Workspace.registry_narrate]; exact hw) s.capture (s.buffer ++ tokens)
  have hrest := resting_captureDefinitions (hs.narrate (.scanned (.complete tokens))) s.capture
    (s.buffer ++ tokens)
  rw [hready] at hregistry hrest
  have hrunning : Q (ready.narrate (.running rest)).registry := by
    rw [Workspace.registry_narrate]
    exact hregistry
  -- from here on the registry stays the same
  obtain ⟨hbegun, hdone⟩ := h.registry_eq trivial (hrest.narrate _).admits
  exact ⟨hbegun ▸ hrunning, fun n r hr => hdone n r hr ▸ hrunning⟩

/-- **What definitions keep holds at all times**, also in the middle of a line. -/
theorem registry_passesThrough
    (hstart : ∀ verbosity, Q (Workspace.withPrimitives verbosity : Workspace (Command H)).registry)
    (hs : s.Reached) (h : s.PassesThrough fuel line w) : Q w.registry := by
  have hrest := resting_of_reached hs
  have hw := registry_induction hQ hstart hs
  cases h with
  | compiling _ h =>
    refine registry_comesToCompile hQ h ?_
    rw [Workspace.registry_narrate]
    exact hw
  | begun h => exact (registry_begins hQ hrest hw h).1
  | done h hr => exact (registry_begins hQ hrest hw h).2 _ _ hr

end Session

/-! ## Names -/

/-- **The names of the primitives call the primitives at all times.** -/
theorem lookup_primitive {s : Session (Command H)} {w : Workspace (Command H)}
    (hs : s.Reached) (h : w = s.workspace ∨ ∃ fuel line, s.PassesThrough fuel line w)
    {q : Primitive} {name : String} (hname : Text.lowercase name ∈ q.calledBy) :
    w.lookup name = [q.procedure (.primitive q)] := by
  rcases h with rfl | ⟨fuel, line, h⟩
  · exact (Session.owns_primitive hname hs).lookup_eq
  · exact (Session.registry_passesThrough (Registry.owns_keptByDefinitions _ _)
      (fun verbosity => owns_withPrimitives verbosity hname) hs h).lookup_eq

/-- **Definitions never touch the primitives, and never get lost.** In a session that has the
primitives and is given lines and resets only, each name of a primitive calls this primitive and no
other, at all times. When a definition with a name and more tokens is compiled, in any workspace,
its name may be reserved. Then there is a message, and the registry stays as it is. Otherwise the
name calls the new procedure and no other, all names that differ in lowercase call what they called
before, and nothing is written. -/
theorem definitions_take_effect (s : Session (Command H)) (hs : s.Reached) :
    (∀ w, (w = s.workspace ∨ ∃ fuel line, s.PassesThrough fuel line w) →
      ∀ (q : Primitive) (name : String), Text.lowercase name ∈ q.calledBy →
        w.lookup name = [q.procedure (.primitive q)]) ∧
    ∀ (w : Workspace (Command H)) (captured : List Token) (text : String),
      2 < captured.length → captured[1]? = some (.word text) →
      ∃ w', compileDefinition w captured = .ok w' ∧
        ((w.Reserves text ∧ w'.registry = w.registry ∧
            w'.output = w.output.push (RuntimeError.nonRedefinable (Text.lowercase text)).message) ∨
          (¬ w.Reserves text ∧ ∃ p d, Procedure.define captured = .ok p ∧
            p.kind = .definition d ∧ w'.lookup text = [p] ∧
            w'.registry.procedures = w.registry.procedures ++ [p] ∧
            (∀ name, Text.lowercase name ≠ Text.lowercase text →
              w'.lookup name = w.lookup name) ∧
            w'.output = w.output)) := by
  refine ⟨fun w hw q name hname => lookup_primitive hs hw hname, ?_⟩
  intro w captured text hlength hsecond
  obtain ⟨first, rest, hrest, rfl⟩ :
      ∃ first rest, rest ≠ [] ∧ captured = first :: .word text :: rest := by
    rcases captured with _ | ⟨first, _ | ⟨second, _ | ⟨third, rest⟩⟩⟩
    · cases hsecond
    · cases hsecond
    · exact absurd hlength (Nat.lt_irrefl 2)
    · cases hsecond
      exact ⟨first, third :: rest, List.cons_ne_nil _ _, rfl⟩
  by_cases h : w.Reserves text
  · exact ⟨_, compileDefinition_of_reserved h, Or.inl ⟨h, rfl, rfl⟩⟩
  obtain ⟨p, d, hp, hnames, hreplace, hkind, -⟩ := Procedure.define_word first text rest
  have hregistry : ((w.register p).narrate (.defined p.name)).registry = w.registry.register p := by
    rw [Workspace.registry_narrate, Workspace.registry_register]
  have hfree : w.registry.isFixed text = false := by
    rw [Workspace.reserves_iff, Bool.not_eq_true, Bool.or_eq_false_iff] at h
    exact h.2
  refine ⟨_, compileDefinition_of_free h hrest hp,
    Or.inr ⟨h, p, d, hp, hkind, ?_, ?_, fun name hne => ?_, ?_⟩⟩
  · rw [Workspace.lookup, hregistry, Registry.lookup_register hnames hreplace hfree]
  · rw [hregistry, Registry.register]
  · rw [Workspace.lookup, hregistry, Registry.lookup_register_of_ne hnames hne, Workspace.lookup]
  · rw [Workspace.output_narrate, Workspace.register, Workspace.output_narrate]

/-- The tokens of a line whose first definition is refused. -/
def redefinePr : List Token :=
  [.word "to", .word "PR", .word "stop", .word "end", .word "to", .word "f", .word "stop",
    .word "end"]

/-- A line whose first definition is refused. When the second one is compiled, `PR` still calls its
primitive. There a name that only resembles that of a primitive can be defined, and the primitive
keeps its own. -/
theorem definitions_take_effect_pr :
    ∃ (s : Session (Command Empty)) (u w : Workspace (Command Empty)) (p : Procedure (Command Empty)),
      s.Reached ∧ s.PassesThrough 1 "to PR stop end to f stop end" u ∧
      u.output.toList = ["pr is a primitive and cannot be redefined."] ∧
      Text.lowercase "PR" ∈ Primitive.print.calledBy ∧
      u.lookup "PR" = [Primitive.print.procedure (.primitive .print)] ∧
      compileDefinition u [.word "to", .word "İtem", .word "stop"] = .ok w ∧
      ¬ u.Reserves "İtem" ∧ w.lookup "İtem" = [p] ∧
      w.lookup "Item" = [Primitive.item.procedure (.primitive .item)] ∧ w.output = u.output := by
  have hread : Reader.read {} "to PR stop end to f stop end" = (.complete redefinePr, {}) := by
    cbv
  obtain ⟨hprimitives, hcompile⟩ :=
    definitions_take_effect (H := Empty) (.start .silent) (.start .silent)
  obtain ⟨u, hu, ⟨-, hregistry, houtput⟩ | ⟨hfree, -⟩⟩ := hcompile
    ((Session.start .silent).workspace.narrate (.scanned (.complete redefinePr)))
    [.word "to", .word "PR", .word "stop"] "PR" (by decide) rfl
  · have hpasses : (Session.start .silent).PassesThrough 1 "to PR stop end to f stop end" u :=
      .compiling hread (.opening rfl rfl (.later rfl hu (.opening rfl rfl (.here rfl rfl))))
    have hkept := hprimitives u (Or.inr ⟨_, _, hpasses⟩)
    have hfree : ¬ u.Reserves "İtem" := by
      rw [Workspace.Reserves, Workspace.lookup, hregistry]
      decide +kernel
    obtain ⟨w, hw, ⟨hreserved, -⟩ | ⟨-, p, d, -, -, htaken, -, hothers, hquiet⟩⟩ := hcompile u
      [.word "to", .word "İtem", .word "stop"] "İtem" (by decide) rfl
    · exact absurd hreserved hfree
    · refine ⟨_, u, w, p, .start .silent, hpasses, ?_, by decide +kernel,
        hkept .print "PR" (by decide +kernel), hw, hfree, htaken, ?_, hquiet⟩
      · rw [houtput]
        decide +kernel
      · rw [hothers "Item" (by decide +kernel)]
        exact hkept .item "Item" (by decide +kernel)
  · exact absurd (by decide +kernel) hfree

end Logo
