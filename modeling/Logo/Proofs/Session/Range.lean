import Logo.Proofs.Evaluation.Range
import Logo.Proofs.Session.Registered

/-!
# Sessions stay in range

In a session that has the primitives and is given lines and resets only, no name calls two
procedures, and every procedure declares the inputs that it reads. So evaluation never looks at a
place of a sequence or at an input that is not there.

* `tryInterpret_inRange`: a session whose evaluator gives up on a job that is out of range gives the
  same answers.
-/

namespace Logo

/-! ## Registries -/

namespace Registry

variable {H : Type} {r : Registry (Command H)} {p : Procedure (Command H)}

/-- A procedure that does not stand beside others leaves at most one under a name. -/
theorem length_enlist {κ : Type} {p : Procedure κ} {holders : List (Procedure κ)}
    (hp : p.redefinability ≠ .alongside) (h : holders.length ≤ 1) :
    (enlist p holders).length ≤ 1 := by
  unfold enlist
  split
  · exact h
  · rw [if_neg (by simpa using hp)]
    exact Nat.le_refl 1

/-- A procedure that takes a name over, or leaves it alone, keeps the registry orderly. -/
theorem Orderly.register (h : r.Orderly) (hp : p.IsSound) (halone : p.redefinability ≠ .alongside) :
    (r.register p).Orderly := by
  intro name
  refine holders_register_induction
    (P := fun holders => holders.length ≤ 1 ∧ ∀ q ∈ holders, q.IsSound) (h name)
    fun holders hholders => ⟨length_enlist halone hholders.1, fun q hq => ?_⟩
  rcases mem_enlist hq with hq | rfl
  · exact hholders.2 q hq
  · exact hp

/-- The primitives have names of their own, and declare what they read. -/
theorem orderly_withPrimitives (verbosity : Verbosity) :
    (Workspace.withPrimitives verbosity : Workspace (Command H)).registry.Orderly := by
  refine withPrimitives_induction ?_ ?_ verbosity
  · exact fun name => ⟨Nat.zero_le 1, fun p hp => absurd hp List.not_mem_nil⟩
  · intro r q h
    exact h.register (p := q.procedure (.primitive q)) rfl nofun

/-- A definition declares the inputs that it names. -/
theorem orderly_keptByDefinitions : KeptByDefinitions (Orderly (H := H)) := by
  intro r captured p h hp _
  unfold Procedure.define at hp
  cases hname : Procedure.definedName captured with
  | error cause => rw [hname] at hp; cases hp
  | ok name =>
    rw [hname] at hp
    cases hp
    exact h.register rfl nofun

end Registry

/-! ## In range -/

namespace Session

variable {H : Type} [Host H] {s : Session (Command H)} {fuel : Nat}

omit [Host H] in
/-- Where the registry is in order, tokens may be carried out. -/
theorem isSafe_running {w : Workspace (Command H)} (h : w.registry.Orderly) (tokens : List Token) :
    (Job.sequence false tokens).IsSafe (w.narrate (.running tokens)) :=
  ⟨(w.registry_narrate _).symm ▸ h, trivial⟩

/-- No job is out of range when buffered tokens are processed: definitions are captured without the
evaluator, and leave the registry in order. -/
theorem process_inRange (hs : s.workspace.registry.Orderly) :
    s.process (evalWithin Job.InRange fuel) = s.process (eval fuel) := by
  have hcapture := registry_captureDefinitions Registry.orderly_keptByDefinitions hs
    s.capture s.buffer
  unfold process
  cases hc : captureDefinitions s.workspace s.capture s.buffer with
  | waiting w definition => rfl
  | failed w cause => rfl
  | ready w tokens =>
    rw [hc] at hcapture
    have hsafe := isSafe_running (w := w) hcapture tokens
    simp only [runTokens, evalWithin_inRange hsafe]

/-- No job is out of range when a line is taken. -/
theorem tryInterpretBy_inRange (hs : s.workspace.registry.Orderly) (line : String) :
    s.tryInterpretBy (evalWithin Job.InRange fuel) line = s.tryInterpret fuel line := by
  have hfeed : s.feed (evalWithin Job.InRange fuel) line = s.feed (eval fuel) line := by
    rcases hread : s.reader.read line with ⟨result, reader⟩
    unfold feed
    rw [hread]
    cases result with
    | complete tokens => exact process_inRange ((s.workspace.registry_narrate _).symm ▸ hs)
    | incomplete tokens remainder => rfl
    | failure cause => rfl
  rw [tryInterpret, tryInterpretBy, tryInterpretBy, hfeed]

omit [Host H] in
/-- A definition that cannot be captured lacks a name. -/
theorem captureDefinitions_failed {w w' : Workspace (Command H)} {capture : Option (List Token)}
    {tokens : List Token} {cause : RuntimeError}
    (h : captureDefinitions w capture tokens = .failed w' cause) :
    ∃ found, cause = .missingProcedureName found := by
  fun_induction captureDefinitions w capture tokens with
  | case1 | case4 | case6 => cases h
  | case2 _ _ _ _ _ _ _ _ ih => exact ih h
  | case5 _ _ _ _ _ _ ih => exact ih h
  | case3 w tokens definition token rest _ cause' hcompile =>
    cases h
    obtain ⟨-, hname⟩ := compileDefinition_error_iff.1 hcompile
    unfold Procedure.definedName at hname
    split at hname <;> cases hname <;> exact ⟨_, rfl⟩

/-- No processing of buffered tokens ends for a missing input: a definition fails for its name, and
tokens fail in range. -/
theorem process_ne_missingInput (hs : s.workspace.registry.Orderly) (name : String)
    (s' : Session (Command H)) :
    s.process (eval fuel) ≠ some (.error (.runtime (.missingInput name)), s') := by
  intro h
  have hcapture := registry_captureDefinitions Registry.orderly_keptByDefinitions hs
    s.capture s.buffer
  unfold process at h
  split at h
  · cases h
  · rename_i hc
    cases h
    obtain ⟨found, hfound⟩ := captureDefinitions_failed hc
    cases hfound
  · rename_i w tokens hc
    rw [hc] at hcapture
    unfold runTokens at h
    split at h
    · cases h
    obtain ⟨r, hr, h⟩ := Option.bind_eq_some_iff.1 h
    have hne := outcome_ne_missingInput (isSafe_running hcapture tokens) hr name
    split at h
    · cases h
    · cases h
    · rename_i hfails
      cases h
      exact hne hfails

/-- No line ends for a missing input. -/
theorem tryInterpret_ne_missingInput (hs : s.workspace.registry.Orderly) (line : String)
    (name : String) (s' : Session (Command H)) :
    s.tryInterpret fuel line ≠ some (.error (.runtime (.missingInput name)), s') := by
  intro h
  obtain ⟨⟨result, s1⟩, hfeed, h⟩ := Option.bind_eq_some_iff.1 h
  cases result with
  | ok status => cases h
  | error cause =>
    cases h
    unfold feed at hfeed
    simp only at hfeed
    split at hfeed
    · exact process_ne_missingInput ((s.workspace.registry_narrate _).symm ▸ hs) _ _ hfeed
    · cases hfeed
    · cases hfeed

end Session

/-- **Nothing is out of range.** Every line that is given to a session has the answer that it would
have if evaluation gave up at the first job that is out of range: a token that is looked at is
there, a call takes as many values as its procedure declares, the procedure is handed all of them,
and no primitive reads an input that it does not declare. So no line fails for a missing input. -/
theorem tryInterpret_inRange {H : Type} [Host H] (s : Session (Command H)) (hs : s.Reached)
    (fuel : Nat) (line : String) :
    s.tryInterpretBy (evalWithin Job.InRange fuel) line = s.tryInterpret fuel line ∧
    ∀ name s', s.tryInterpret fuel line ≠ some (.error (.runtime (.missingInput name)), s') := by
  have horderly : s.workspace.registry.Orderly :=
    Session.registry_induction Registry.orderly_keptByDefinitions Registry.orderly_withPrimitives hs
  exact ⟨Session.tryInterpretBy_inRange horderly line,
    Session.tryInterpret_ne_missingInput horderly line⟩

/-- A line in which a run of operators, a comment and calls stand where inputs are looked for, and a
procedure of the program is called. -/
theorem tryInterpret_inRange_nested :
    ∃ s s' : Session (Command Empty), s.Reached ∧
      s.tryInterpret 60 "print f 1 + count [a b] ; two\n sum 4 :z" = some (.ok .complete, s') ∧
      s'.workspace.output = #["21"] ∧
      s.tryInterpretBy (evalWithin Job.InRange 60)
        "print f 1 + count [a b] ; two\n sum 4 :z" = some (.ok .complete, s') := by
  have hlines : ((Session.start .silent : Session (Command Empty)).tryInterpret 60
      "to f :x :y output :x * :y end make \"z 3").any (fun x =>
        (x.2.tryInterpret 60 "print f 1 + count [a b] ; two\n sum 4 :z").any fun y =>
          y.1.toOption = some .complete ∧ y.2.workspace.output = #["21"]) = true := by
    decide +kernel
  obtain ⟨⟨result, s⟩, hs, hline⟩ := (Option.any_eq_true _ _).1 hlines
  obtain ⟨⟨answer, s'⟩, hs', hanswer⟩ := (Option.any_eq_true _ _).1 hline
  obtain ⟨hcomplete, houtput⟩ := of_decide_eq_true hanswer
  have hreached : s.Reached := .tryInterpret (.start .silent) hs
  cases answer with
  | error cause => cases hcomplete
  | ok status =>
    cases hcomplete
    exact ⟨s, s', hreached, hs', houtput, (tryInterpret_inRange s hreached 60 _).1.trans hs'⟩

end Logo
