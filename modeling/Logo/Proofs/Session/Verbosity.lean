import Logo.Proofs.Session.Likeness

/-!
# Verbosity

How much a session tells about itself makes no difference to anything else. A session that is set to
a lower level answers every line like one at a higher level, and is in the same state; of the notes
that the other one records it records those that belong to its own level or a lower one.

A command of the host may tell something, too. It must neither look at the verbosity or the notes
nor set them, and its own notes are recorded like all others (`Host.IsDiscreet`). Not to look is not
enough: a command that only sets the verbosity makes a silent session tell
(`switch_breaks_silence`).

* `Workspace.TellsLess`: the same workspace at two levels.
* `likeness_tellsLess`: all operations keep this, and none tells the two sides apart.
* `verbosity_filters_notes`: two sessions at two levels, in every course of modules and lines.
-/

namespace Logo

variable {κ : Type}

/-! ## Workspaces -/

/-- A level is told at itself and at every higher one, and silence has nothing to tell. -/
theorem Verbosity.admits_iff {v level : Verbosity} :
    v.admits level = true ↔ level ≠ .silent ∧ level.rank ≤ v.rank := by
  simp [admits]

/-- What is told at one level is told at every higher one. -/
theorem Verbosity.admits_mono {v v' level : Verbosity} (hle : v.rank ≤ v'.rank)
    (h : v.admits level = true) : v'.admits level = true := by
  obtain ⟨hne, hrank⟩ := admits_iff.1 h
  exact admits_iff.2 ⟨hne, Nat.le_trans hrank hle⟩

/-- Silence admits no note. -/
theorem Verbosity.filter_silent (notes : Array Note) :
    (notes.filter fun note => note.level ≠ .silent ∧ note.level.rank ≤ silent.rank) = #[] := by
  refine Array.filter_eq_empty_iff.2 fun note _ => ?_
  cases note.level <;> decide

namespace Workspace

/-- The workspaces are the same but for the verbosity, which is `v` in `w` and `v'` in `w'`, and for
the notes. Behind notes `old'` from before, `w'` has recorded the notes `told`. Behind notes `old`
from before, `w` has recorded those of them that belong to a level up to `v` other than silence. -/
structure TellsLess (v v' : Verbosity) (old old' : Array Note) (w w' : Workspace κ) : Prop where
  verbosity : w.verbosity = v
  same : ∃ told : Array Note, w' = { w with verbosity := v', notes := old' ++ told } ∧
    w.notes = old ++ told.filter fun note => note.level ≠ .silent ∧ note.level.rank ≤ v.rank

variable {v v' : Verbosity} {old old' : Array Note} {w w' : Workspace κ}

theorem tellsLess_of_eq (w : Workspace κ) (v v' : Verbosity) :
    TellsLess v v' w.notes w.notes { w with verbosity := v } { w with verbosity := v' } :=
  ⟨rfl, #[], by simp, by simp⟩

/-- A note that the lower side records is recorded by the higher one, too. -/
theorem TellsLess.narrate (hle : v.rank ≤ v'.rank) (h : TellsLess v v' old old' w w')
    (note : Note) : TellsLess v v' old old' (w.narrate note) (w'.narrate note) := by
  obtain ⟨rfl, told, rfl, htold⟩ := h
  unfold Workspace.narrate
  simp only
  by_cases hlow : w.verbosity.admits note.level = true
  · -- both record the note
    rw [if_pos hlow, if_pos (Verbosity.admits_mono hle hlow)]
    refine ⟨rfl, told.push note, by rw [Array.append_push], ?_⟩
    simp only
    rw [Array.filter_push, if_pos (decide_eq_true (Verbosity.admits_iff.1 hlow)), htold,
      Array.append_push]
  · rw [if_neg hlow]
    split
    · -- only the second one does
      refine ⟨rfl, told.push note, by rw [Array.append_push], ?_⟩
      rw [Array.filter_push, if_neg (by simpa using mt Verbosity.admits_iff.2 hlow)]
      exact htold
    · exact ⟨rfl, told, rfl, htold⟩

theorem TellsLess.foldl_narrate (hle : v.rank ≤ v'.rank) (h : TellsLess v v' old old' w w')
    (notes : List Note) : TellsLess v v' old old' (notes.foldl Workspace.narrate w)
      (notes.foldl Workspace.narrate w') := by
  induction notes generalizing w w' with
  | nil => exact h
  | cons note notes ih => exact ih (h.narrate hle note)

end Workspace

variable {v v' : Verbosity} {old old' : Array Note}

/-- **No operation tells how much is told.** -/
theorem likeness_tellsLess (hle : v.rank ≤ v'.rank) : Likeness (fun _ => True)
    (Workspace.TellsLess v v' old old' : Workspace κ → Workspace κ → Prop) where
  admits _ _ _ _ := trivial
  registry := by rintro w _ ⟨-, told, rfl, -⟩; rfl
  repeats := by rintro w _ ⟨-, told, rfl, -⟩; rfl
  signal := by rintro w _ ⟨-, told, rfl, -⟩; rfl
  inProcedure := by rintro w _ ⟨-, told, rfl, -⟩; rfl
  write := by rintro w _ line ⟨hv, told, rfl, htold⟩; exact ⟨hv, told, rfl, htold⟩
  narrate note h := h.narrate hle note
  enlist := by rintro w _ p - ⟨hv, told, rfl, htold⟩; exact ⟨hv, told, rfl, htold⟩
  addModule := by rintro w _ name ⟨hv, told, rfl, htold⟩; exact ⟨hv, told, rfl, htold⟩
  read := by rintro w _ name ⟨hv, told, rfl, htold⟩; exact ⟨rfl, hv, told, rfl, htold⟩
  set := by rintro w _ name value ⟨hv, told, rfl, htold⟩; exact ⟨hv, told, rfl, htold⟩
  clear := by rintro w _ name ⟨hv, told, rfl, htold⟩; exact ⟨hv, told, rfl, htold⟩
  clearAll := by rintro w _ ⟨hv, told, rfl, htold⟩; exact ⟨hv, told, rfl, htold⟩
  pushFrame := by rintro w _ frame ⟨hv, told, rfl, htold⟩; exact ⟨hv, told, rfl, htold⟩
  popFrame := by rintro w _ ⟨hv, told, rfl, htold⟩; exact ⟨hv, told, rfl, htold⟩
  raise := by rintro w _ signal ⟨hv, told, rfl, htold⟩; exact ⟨hv, told, rfl, htold⟩
  takeSignal := by rintro w _ ⟨hv, told, rfl, htold⟩; exact ⟨hv, told, rfl, htold⟩
  pushRepeat := by rintro w _ number ⟨hv, told, rfl, htold⟩; exact ⟨hv, told, rfl, htold⟩
  popRepeat := by rintro w _ ⟨hv, told, rfl, htold⟩; exact ⟨hv, told, rfl, htold⟩
  resetExecution := by rintro w _ ⟨hv, told, rfl, htold⟩; exact ⟨hv, told, rfl, htold⟩

/-! ## Commands of the host -/

/-- The workspace without verbosity and notes. -/
def Workspace.muted (w : Workspace κ) : Workspace κ :=
  { w with verbosity := .silent, notes := #[] }

/-- The workspace with the verbosity and the notes of another one. -/
def Workspace.voicedLike (u w : Workspace κ) : Workspace κ :=
  { u with verbosity := w.verbosity, notes := w.notes }

section Voice

variable {w w' : Workspace κ} (h : w.TellsLess v v' old old' w')

include h

/-- Without verbosity and notes both sides are the same. -/
theorem Workspace.TellsLess.muted_eq : w'.muted = w.muted := by
  obtain ⟨-, told, rfl, -⟩ := h
  rfl

/-- What stands around the verbosity and the notes may be replaced on both sides. -/
theorem Workspace.TellsLess.voicedLike (u : Workspace κ) :
    (u.voicedLike w).TellsLess v v' old old' (u.voicedLike w') := by
  obtain ⟨hv, told, rfl, htold⟩ := h
  exact ⟨hv, told, rfl, htold⟩

end Voice

variable {H : Type} [Host H]

variable (H) in
/-- No command of the host looks at the verbosity or at the notes, and none sets them. What it does
to the rest of the workspace, what it asks for and which notes it gives follow from that rest, and
the notes that it gives are recorded like all others. -/
def Host.IsDiscreet : Prop :=
  ∀ (h : H) (inputs : List Value), ∃ (act : Workspace (Command H) → Workspace (Command H) × Action)
    (tell : Workspace (Command H) → List Note), ∀ w,
      Host.perform h w inputs =
        ((tell w.muted).foldl Workspace.narrate ((act w.muted).1.voicedLike w), (act w.muted).2)

/-- Discreet commands do not tell how much is told. -/
theorem respected_of_isDiscreet (hhost : Host.IsDiscreet H) (hle : v.rank ≤ v'.rank) :
    Respected (fun _ => True) (Workspace.TellsLess (κ := Command H) v v' old old') := by
  intro p code w w' inputs _ _ h
  cases code with
  | primitive q => exact q.alike_perform (likeness_tellsLess hle) h inputs
  | host c =>
    obtain ⟨act, tell, hperform⟩ := hhost c inputs
    show AlikeEffects _ (Host.perform c w inputs) (Host.perform c w' inputs)
    rw [hperform, hperform, h.muted_eq]
    exact ⟨rfl, (h.voicedLike _).foldl_narrate hle _⟩

/-! ## Sessions -/

/-- The session at a level of verbosity. -/
def Session.withVerbosity (s : Session κ) (v : Verbosity) : Session κ :=
  { s with workspace := { s.workspace with verbosity := v } }

omit [Host H] in
theorem tellsLess_withPrimitives (hle : v.rank ≤ v'.rank) :
    (Workspace.withPrimitives v : Workspace (Command H)).TellsLess v v' #[] #[]
      (.withPrimitives v') :=
  (likeness_tellsLess hle).load (fun _ _ => trivial) (Workspace.tellsLess_of_eq {} v v')

theorem Entry.admits_true (entry : Entry κ) : entry.Admits fun _ => True := by
  cases entry <;> simp [Admits]

/-- **Verbosity only filters the notes.** Take one session at two levels of verbosity, or two new
sessions. They answer every course of lines, modules and resets alike, write the same and stay in the
same state but for the verbosity and the notes. The notes that are added at the lower level are those
added at the higher one that belong to a level other than silence and up to the lower one. -/
theorem verbosity_filters_notes (hhost : Host.IsDiscreet H) (v v' : Verbosity)
    (hle : v.rank ≤ v'.rank) (fuel : Nat) (entries : List (Entry (Command H))) :
    (∀ s : Session (Command H),
      Option.Rel (List.Forall₂ (AlikeAnswers
        (Workspace.TellsLess v v' s.workspace.notes s.workspace.notes)))
        ((s.withVerbosity v).course fuel entries) ((s.withVerbosity v').course fuel entries)) ∧
    (Session.start v : Session (Command H)).Alike (Workspace.TellsLess v v' #[] #[])
      (Session.start v') ∧
    Option.Rel (List.Forall₂ (AlikeAnswers (Workspace.TellsLess v v' #[] #[])))
      ((Session.start v : Session (Command H)).course fuel entries)
      ((Session.start v').course fuel entries) := by
  have hcourse {s s' : Session (Command H)} {old old' : Array Note}
      (h : s.Alike (Workspace.TellsLess v v' old old') s') :=
    (likeness_tellsLess hle).course (fun _ _ _ => trivial) (respected_of_isDiscreet hhost hle) fuel
      (fun entry (_ : entry ∈ entries) => entry.admits_true) h
  have hstart : (Session.start v : Session (Command H)).Alike (Workspace.TellsLess v v' #[] #[])
      (Session.start v') :=
    .intro _ _ _ (tellsLess_withPrimitives hle)
  refine ⟨fun s => hcourse (.intro _ _ _ (s.workspace.tellsLess_of_eq v v')), hstart, ?_⟩
  exact hcourse hstart

/-- A host with a bell. -/
inductive Bell where
  /-- Rings, and tells so. -/
  | ring

instance : Host Bell where
  perform
    | .ring, w, _ => ((w.write "ding").narrate (.remark .chatty "rang"), .produce none)

theorem isDiscreet_bell : Host.IsDiscreet Bell := by
  rintro ⟨⟩ inputs
  exact ⟨fun w => (w.write "ding", .produce none), fun _ => [.remark .chatty "rang"],
    fun _ => rfl⟩

/-- A module with the bell, and lines that define a procedure, ring and leave a bracket open. -/
def bellEntries : List (Entry (Command Bell)) :=
  [.load ⟨"bell", [.command "ring" 0 (.host .ring)]⟩, .line "to f ring end f", .attempt "(f"]

/-- What a session has told and written at the end of a course. -/
def toldAndWritten (trace : List (Reply × Session κ)) : Option (List String × List String) :=
  trace.getLast?.map fun last =>
    (last.2.workspace.notes.toList.map (Note.render "no time"), last.2.workspace.output.toList)

/-- A session without any primitive that is given the bell, at two levels. -/
theorem verbosity_filters_notes_bell :
    Host.IsDiscreet Bell ∧ Verbosity.chatty.rank ≤ Verbosity.verbose.rank ∧
    Option.Rel (List.Forall₂ (AlikeAnswers (Workspace.TellsLess .chatty .verbose #[] #[])))
      ((Session.withVerbosity { workspace := {} } .chatty).course 40 bellEntries)
      ((Session.withVerbosity { workspace := {} } .verbose).course 40 bellEntries) ∧
    ((Session.withVerbosity { workspace := {} } .chatty).course 40 bellEntries).bind
      toldAndWritten =
        some (["registered ring (0 inputs)", "loaded module bell (1 procedures)",
          "registered f (0 inputs)", "f defined", "rang"], ["ding"]) ∧
    ((Session.withVerbosity { workspace := {} } .verbose).course 40 bellEntries).bind
      toldAndWritten =
        some (["registered ring (0 inputs)", "loaded module bell (1 procedures)",
          "tokenized in no time: complete, 5 tokens", "registered f (0 inputs)", "f defined", "rang",
          "tokenized in no time: incomplete, 0 tokens"], ["ding"]) := by
  have hrel := (verbosity_filters_notes isDiscreet_bell .chatty .verbose (by decide) 40
    bellEntries).1 { workspace := {} }
  exact ⟨isDiscreet_bell, by decide, hrel, by decide +kernel, by decide +kernel⟩

/-- A host with a switch. -/
inductive Switch where
  /-- Sets the verbosity, whatever it is. -/
  | loud

instance : Host Switch where
  perform
    | .loud, w, _ => ({ w with verbosity := .chatty }, .produce none)

/-- A module with the switch, a line that turns it on, and a definition. -/
def switchEntries : List (Entry (Command Switch)) :=
  [.load ⟨"switch", [.command "loud" 0 (.host .loud)]⟩, .line "loud", .line "to f stop end"]

/-- **A command that sets the verbosity breaks silence**, though it does the same at every level. A
silent session tells of the procedure that is defined after the command, and no notes at all are
such that these would be those among them that silence admits. -/
theorem switch_breaks_silence :
    (∀ (c : Switch) (w : Workspace (Command Switch)) (v : Verbosity) (inputs : List Value),
      Host.perform c { w with verbosity := v } inputs = Host.perform c w inputs) ∧
    ((Session.start .silent).course 40 switchEntries).bind toldAndWritten =
      some (["registered f (0 inputs)", "f defined"], []) ∧
    ∃ trace, (Session.start .silent).course 40 switchEntries = some trace ∧
      ∃ x ∈ trace, ∀ told : Array Note, x.2.workspace.notes ≠ told.filter fun note =>
        note.level ≠ .silent ∧ note.level.rank ≤ Verbosity.silent.rank := by
  have htells : ((Session.start .silent).course 40 switchEntries).any (fun trace =>
      trace.any fun x => !x.2.workspace.notes.isEmpty) = true := by
    decide +kernel
  obtain ⟨trace, htrace, hany⟩ := (Option.any_eq_true _ _).1 htells
  obtain ⟨x, hx, hnotes⟩ := List.any_eq_true.1 hany
  refine ⟨?_, by decide +kernel, trace, htrace, x, hx, fun told htold => ?_⟩
  · rintro ⟨⟩ w v inputs
    rfl
  · rw [htold, Verbosity.filter_silent] at hnotes
    cases hnotes

end Logo
