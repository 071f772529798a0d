import Logo.Proofs.Session.Likeness
import Logo.Proofs.Session.Rest

/-!
# Globals that were only read

Reading a variable that is bound nowhere makes it a global without a value. Whether such a global is
there or not makes no difference to any program: it is read alike, and it is set, removed and swept
away alike, at every depth of calls.

* `Scope.SameUpToReads`: the same variables, but for globals that are absent on one side and have no
  value on the other.
* `likeness_sameUpToReads`: all operations keep this, and none tells the two sides apart.
* `reads_leave_no_trace`: sessions that differ in this way only answer every course of lines alike.
-/

namespace Logo

/-! ## Tables -/

namespace Table

variable {t t' : Table Value}

/-- The tables hold the same, but for names that are absent in one of them and without a value in the
other. -/
def SameUpToReads (t t' : Table Value) : Prop :=
  ∀ key, t'.find? key = t.find? key ∨
    (t.find? key = none ∧ t'.find? key = some .unknown) ∨
    (t.find? key = some .unknown ∧ t'.find? key = none)

/-- A name that is absent counts like one without a value, and that is all there is to it. -/
theorem sameUpToReads_iff : t.SameUpToReads t' ↔
    ∀ key, (t'.find? key).getD .unknown = (t.find? key).getD .unknown := by
  refine forall_congr' fun key => ?_
  cases t.find? key <;> cases t'.find? key <;> simp [eq_comm]

theorem SameUpToReads.refl (t : Table Value) : t.SameUpToReads t :=
  fun _ => Or.inl rfl

/-- An assignment settles a name on both sides. -/
theorem SameUpToReads.insert (h : t.SameUpToReads t') (key : String) (v : Value) :
    (t.insert key v).SameUpToReads (t'.insert key v) := by
  intro name
  rw [find?_insert, find?_insert]
  split
  · exact Or.inl rfl
  · exact h name

/-- A name that is removed is absent on both sides. -/
theorem SameUpToReads.erase (h : t.SameUpToReads t') (key : String) :
    (t.erase key).SameUpToReads (t'.erase key) := by
  intro name
  rw [find?_erase, find?_erase]
  split
  · exact Or.inl rfl
  · exact h name

/-- A name that is read for the first time is the difference that does not count. -/
theorem sameUpToReads_insert_unknown {key : String} (h : t.find? key = none) :
    t.SameUpToReads (t.insert key .unknown) := by
  intro name
  rw [find?_insert]
  split
  · rename_i hname
    exact Or.inr (Or.inl ⟨hname ▸ h, rfl⟩)
  · exact Or.inl rfl

end Table

/-! ## Variables -/

namespace Scope

variable {s s' : Scope}

/-- The same frames, and the same globals but for those that were only read. -/
structure SameUpToReads (s s' : Scope) : Prop where
  frames : s'.frames = s.frames
  globals : s.globals.SameUpToReads s'.globals

/-- A variable is looked up in the frames, then among the globals, and else has no value. -/
theorem get_fst (s : Scope) (name : String) :
    (s.get name).1 = ((findLocal? (Text.lowercase name) s.frames).or
      (s.globals.find? (Text.lowercase name))).getD .unknown := by
  unfold get
  simp only
  split <;> rename_i h <;> rw [h] <;> rfl

/-- **Reading changes nothing but by a global without a value.** -/
theorem sameUpToReads_get (s : Scope) (name : String) : s.SameUpToReads (s.get name).2 := by
  unfold get
  simp only
  split
  · exact ⟨rfl, .refl _⟩
  · rename_i h
    exact ⟨rfl, Table.sameUpToReads_insert_unknown (Option.or_eq_none_iff.1 h).2⟩

theorem SameUpToReads.symm (h : s.SameUpToReads s') : s'.SameUpToReads s := by
  refine ⟨h.frames.symm, Table.sameUpToReads_iff.2 fun key => ?_⟩
  exact (Table.sameUpToReads_iff.1 h.globals key).symm

theorem SameUpToReads.trans {s'' : Scope} (h : s.SameUpToReads s') (h' : s'.SameUpToReads s'') :
    s.SameUpToReads s'' := by
  refine ⟨h'.frames.trans h.frames, Table.sameUpToReads_iff.2 fun key => ?_⟩
  exact (Table.sameUpToReads_iff.1 h'.globals key).trans (Table.sameUpToReads_iff.1 h.globals key)

/-- Both sides read the same value. -/
theorem SameUpToReads.get_fst_eq (h : s.SameUpToReads s') (name : String) :
    (s'.get name).1 = (s.get name).1 := by
  have hglobal := Table.sameUpToReads_iff.1 h.globals (Text.lowercase name)
  rw [get_fst, get_fst, h.frames]
  cases findLocal? (Text.lowercase name) s.frames with
  | none => exact hglobal
  | some v => rfl

theorem SameUpToReads.get_snd (h : s.SameUpToReads s') (name : String) :
    (s.get name).2.SameUpToReads (s'.get name).2 :=
  -- each side moves by such a difference, so there are no cases to look at
  ((s.sameUpToReads_get name).symm.trans h).trans (s'.sameUpToReads_get name)

/-- The frames are the same, so that both sides set a local variable, or both a global one. -/
theorem SameUpToReads.set (h : s.SameUpToReads s') (name : String) (v : Value) :
    (s.set name v).SameUpToReads (s'.set name v) := by
  unfold Scope.set
  rw [h.frames]
  simp only
  split
  · exact ⟨rfl, h.globals⟩
  · exact ⟨rfl, h.globals.insert _ v⟩

theorem SameUpToReads.clear (h : s.SameUpToReads s') (name : String) :
    (s.clear name).SameUpToReads (s'.clear name) := by
  unfold Scope.clear
  rw [h.frames]
  simp only
  split
  · exact ⟨rfl, h.globals⟩
  · exact ⟨rfl, h.globals.erase _⟩

/-- Sweeping away hits the same frame on both sides, or all globals. -/
theorem SameUpToReads.clearAll (h : s.SameUpToReads s') :
    s.clearAll.SameUpToReads s'.clearAll := by
  unfold Scope.clearAll
  rw [h.frames]
  split
  -- inside a definition its own variables go, which are the same, and outside all globals go
  · exact ⟨rfl, h.globals⟩
  · exact ⟨rfl, .refl _⟩

theorem SameUpToReads.withFrames (h : s.SameUpToReads s') (f : List Frame → List Frame) :
    SameUpToReads { s with frames := f s.frames } { s' with frames := f s'.frames } :=
  ⟨congrArg f h.frames, h.globals⟩

end Scope

/-! ## Workspaces -/

variable {H : Type}

/-- Only primitives and definitions can be called, and the workspaces are the same but for globals
that were only read. -/
structure Workspace.SameUpToReads (w w' : Workspace (Command H)) : Prop where
  plain : w.registry.Admits Procedure.IsPlain
  same : ∃ scope, w' = { w with scope } ∧ w.scope.SameUpToReads scope

theorem Workspace.SameUpToReads.narrate {w w' : Workspace (Command H)} (h : w.SameUpToReads w')
    (note : Note) : (w.narrate note).SameUpToReads (w'.narrate note) := by
  obtain ⟨hplain, scope, rfl, hscope⟩ := h
  unfold Workspace.narrate
  split
  · exact ⟨hplain, scope, rfl, hscope⟩
  · exact ⟨hplain, scope, rfl, hscope⟩

/-- **No operation tells whether a variable was read before.** -/
theorem likeness_sameUpToReads :
    Likeness Procedure.IsPlain (Workspace.SameUpToReads (H := H)) where
  admits h _ := h.plain _
  registry := by rintro w _ ⟨-, scope, rfl, -⟩; rfl
  repeats := by rintro w _ ⟨-, scope, rfl, -⟩; rfl
  signal := by rintro w _ ⟨-, scope, rfl, -⟩; rfl
  inProcedure := by
    rintro w _ ⟨-, scope, rfl, hscope⟩
    simp only [Scope.inProcedure, hscope.frames]
  write := by rintro w _ line ⟨hplain, scope, rfl, hscope⟩; exact ⟨hplain, scope, rfl, hscope⟩
  narrate note h := h.narrate note
  enlist := by
    rintro w _ p hp ⟨hplain, scope, rfl, hscope⟩
    exact ⟨hplain.register hp, scope, rfl, hscope⟩
  addModule := by
    rintro w _ name ⟨hplain, scope, rfl, hscope⟩
    exact ⟨hplain, scope, rfl, hscope⟩
  read := by
    rintro w _ name ⟨hplain, scope, rfl, hscope⟩
    exact ⟨hscope.get_fst_eq name, hplain, _, rfl, hscope.get_snd name⟩
  set := by
    rintro w _ name v ⟨hplain, scope, rfl, hscope⟩
    exact ⟨hplain, _, rfl, hscope.set name v⟩
  clear := by
    rintro w _ name ⟨hplain, scope, rfl, hscope⟩
    exact ⟨hplain, _, rfl, hscope.clear name⟩
  clearAll := by
    rintro w _ ⟨hplain, scope, rfl, hscope⟩
    exact ⟨hplain, _, rfl, hscope.clearAll⟩
  pushFrame := by
    rintro w _ frame ⟨hplain, scope, rfl, hscope⟩
    exact ⟨hplain, _, rfl, hscope.withFrames (frame :: ·)⟩
  popFrame := by
    rintro w _ ⟨hplain, scope, rfl, hscope⟩
    exact ⟨hplain, _, rfl, hscope.withFrames List.tail⟩
  raise := by rintro w _ signal ⟨hplain, scope, rfl, hscope⟩; exact ⟨hplain, scope, rfl, hscope⟩
  takeSignal := by rintro w _ ⟨hplain, scope, rfl, hscope⟩; exact ⟨hplain, scope, rfl, hscope⟩
  pushRepeat := by rintro w _ n ⟨hplain, scope, rfl, hscope⟩; exact ⟨hplain, scope, rfl, hscope⟩
  popRepeat := by rintro w _ ⟨hplain, scope, rfl, hscope⟩; exact ⟨hplain, scope, rfl, hscope⟩
  resetExecution := by
    rintro w _ ⟨hplain, scope, rfl, hscope⟩
    exact ⟨hplain, _, rfl, hscope.withFrames fun _ => []⟩

/-! ## Sessions -/

/-- The session when a variable was read. -/
def Session.afterReading {κ : Type} (s : Session κ) (name : String) : Session κ :=
  { s with workspace := (s.workspace.getVariable name).2 }

/-- A session that has read a variable differs in nothing that counts. -/
theorem alike_afterReading {s : Session (Command H)}
    (hplain : s.workspace.registry.Admits Procedure.IsPlain) (name : String) :
    s.Alike Workspace.SameUpToReads (s.afterReading name) :=
  .intro _ _ _ ⟨hplain, _, rfl, s.workspace.scope.sameUpToReads_get name⟩

variable [Host H]

/-- The commands of admitted procedures are primitives. -/
theorem respected_of_plain {R : Workspace (Command H) → Workspace (Command H) → Prop}
    (hR : Likeness Procedure.IsPlain R) : Respected Procedure.IsPlain R := by
  intro p code w w' inputs hcode hp h
  cases code with
  | host c => exact absurd hcode (hp c)
  | primitive q => exact q.alike_perform hR h inputs

/-- **Reads leave no trace.** Take two sessions in which only primitives and definitions can be
called, and which are in the same state but for globals that are absent in one of them and without a
value in the other. They answer every course of lines, modules and resets alike, write the same and
stay in the same state up to that difference. So it does when a variable is read in one of them. -/
theorem reads_leave_no_trace (s s' : Session (Command H))
    (h : s.Alike Workspace.SameUpToReads s') (fuel : Nat) (entries : List (Entry (Command H)))
    (hentries : ∀ entry ∈ entries, entry.Admits Procedure.IsPlain) :
    Option.Rel (List.Forall₂ (AlikeAnswers Workspace.SameUpToReads)) (s.course fuel entries)
      (s'.course fuel entries) ∧
    ∀ name, Option.Rel (List.Forall₂ (AlikeAnswers Workspace.SameUpToReads))
      (s.course fuel entries) ((s.afterReading name).course fuel entries) := by
  have hcourse {s' : Session (Command H)} (h : s.Alike Workspace.SameUpToReads s') :=
    likeness_sameUpToReads.course (fun _ _ hp => isPlain_define hp)
      (respected_of_plain likeness_sameUpToReads) fuel hentries h
  have hplain : s.workspace.registry.Admits Procedure.IsPlain := by
    obtain ⟨reader, buffer, capture, hw⟩ := h
    exact hw.plain
  exact ⟨hcourse h, fun name => hcourse (alike_afterReading hplain name)⟩

/-- Lines in which the variable `x` is hidden, swept away, read, refused, removed and set. -/
def linesAboutX : List (Entry (Command Empty)) :=
  [.line "to f :x erall print :x end f 1 print equalp :x thing \"X", .attempt "print sum 1 :x",
    .line "erase \"x show :x make \"x 2 print :x + 1"]

/-- A new session, and one in which `x` was read: the lines about `x` end alike in both. -/
theorem reads_leave_no_trace_x :
    ∃ s : Session (Command Empty), s.Alike Workspace.SameUpToReads (s.afterReading "x") ∧
      (∀ entry ∈ linesAboutX, entry.Admits Procedure.IsPlain) ∧
      s.workspace.scope.globals.contains "x" = false ∧
      (s.afterReading "x").workspace.scope.globals.contains "x" = true ∧
      Option.Rel (List.Forall₂ (AlikeAnswers Workspace.SameUpToReads)) (s.course 60 linesAboutX)
        ((s.afterReading "x").course 60 linesAboutX) ∧
      ((s.afterReading "x").course 60 linesAboutX).bind
        (fun trace => trace.getLast?.map (·.2.workspace.output.toList)) =
          some ["", "true", "sum doesn't like nothing as input.", "", "", "3"] := by
  have hplain : (Session.start .silent).workspace.registry.Admits Procedure.IsPlain :=
    (Session.resting_of_reached (H := Empty) (.start .silent)).plain
  have hlines : ∀ entry ∈ linesAboutX, entry.Admits Procedure.IsPlain := by
    simp [linesAboutX, Entry.Admits]
  have hsame := alike_afterReading hplain "x"
  exact ⟨_, hsame, hlines, by decide +kernel, by decide +kernel,
    (reads_leave_no_trace _ _ hsame 60 linesAboutX hlines).1, by decide +kernel⟩

end Logo
