import Logo.Proofs.Primitive.Likeness
import Logo.Proofs.Session.Capture
import Mathlib

/-!
# Sessions that look alike

Two sessions that stand at the same place in their input, in workspaces that look alike, answer every
line alike and stay so. This is the step. From it follows the same for a whole course of lines,
modules and resets.

* `Entry` and `Session.course`: what a session can be given, and what it answers to each of several
  entries.
* `Likeness.tryInterpret`: one line.
* `Likeness.course`: every course.
-/

namespace Logo

variable {κ : Type} {A : Procedure κ → Prop} {R : Workspace κ → Workspace κ → Prop}

/-! ## Registering -/

section Workspace

variable {w w' : Workspace κ} (hR : Likeness A R)

include hR

theorem Likeness.register {p : Procedure κ} (hp : A p) (h : R w w') :
    R (w.register p) (w'.register p) :=
  hR.narrate _ (hR.enlist p hp h)

/-- A module registers the same procedures on both sides. -/
theorem Likeness.load {m : Module κ} (hm : ∀ p ∈ m.procedures, A p) (h : R w w') :
    R (w.load m) (w'.load m) := by
  have hfold (ps : List (Procedure κ)) (hps : ∀ p ∈ ps, A p) {u u' : Workspace κ} (hu : R u u') :
      R (ps.foldl Workspace.register u) (ps.foldl Workspace.register u') := by
    induction ps generalizing u u' with
    | nil => exact hu
    | cons p ps ih =>
      obtain ⟨hp, hps⟩ := List.forall_mem_cons.1 hps
      exact ih hps (hR.register hp hu)
  exact hR.narrate _ (hR.addModule m.name (hfold m.procedures hm h))

end Workspace

/-! ## Definitions -/

/-- All procedures that a program can define are admitted. -/
def AdmitsDefinitions (A : Procedure κ → Prop) : Prop :=
  ∀ ⦃captured p⦄, Procedure.define captured = .ok p → A p

/-- A definition is compiled alike on both sides. -/
theorem Likeness.keptByCompiling (hR : Likeness A R) (hA : AdmitsDefinitions A) :
    KeptByCompiling R :=
  Logo.keptByCompiling hR.registry hR.write fun hp h => hR.narrate _ (hR.register (hA hp) h)

/-! ## Lines -/

/-- Two sessions stand at the same place in their input, in related workspaces. -/
inductive Session.Alike (R : Workspace κ → Workspace κ → Prop) : Session κ → Session κ → Prop where
  | intro {w w' : Workspace κ} (reader : Reader) (buffer : List Token)
    (capture : Option (List Token)) (h : R w w') :
    Alike R ⟨w, reader, buffer, capture⟩ ⟨w', reader, buffer, capture⟩

/-- Two sessions gave the same answer and are alike. -/
def AlikeAnswers {α : Type} (R : Workspace κ → Workspace κ → Prop) (x x' : α × Session κ) : Prop :=
  x'.1 = x.1 ∧ x.2.Alike R x'.2

section Lines

variable [Commands κ] {s s' : Session κ} (hR : Likeness A R) (hA : AdmitsDefinitions A)
  (hcommands : Respected A R)

omit [Commands κ] in
include hR in
theorem Likeness.reset (h : s.Alike R s') : s.reset.Alike R s'.reset := by
  obtain ⟨reader, buffer, capture, hw⟩ := h
  exact .intro _ _ _ (hR.resetExecution hw)

include hR hcommands

/-- Tokens that are carried out end alike on both sides, and the same tokens are kept. -/
theorem Likeness.runTokens (fuel : Nat) (tokens : List Token) (h : s.Alike R s') :
    Option.Rel (AlikeAnswers R) (s.runTokens (Logo.eval fuel) tokens)
      (s'.runTokens (Logo.eval fuel) tokens) := by
  obtain ⟨reader, buffer, capture, hw⟩ := h
  unfold Session.runTokens
  split
  · exact .some ⟨rfl, .intro _ _ _ hw⟩
  refine rel_bind (hR.eval hcommands fuel trivial (hR.narrate _ hw)) ?_
  rintro _ _ ⟨outcome, tokens, hw⟩
  cases outcome <;> exact .some ⟨rfl, .intro _ _ _ hw⟩

include hA

/-- Both sides capture the same definitions, and carry out the same rest. -/
theorem Likeness.process (fuel : Nat) (h : s.Alike R s') :
    Option.Rel (AlikeAnswers R) (s.process (Logo.eval fuel)) (s'.process (Logo.eval fuel)) := by
  obtain @⟨w, w', reader, buffer, capture, hw⟩ := h
  have hcaptured := alike_captureDefinitions (hR.keptByCompiling hA) hw capture buffer
  unfold Session.process
  simp only
  -- both sides have captured the same, in workspaces that are alike
  generalize captureDefinitions w capture buffer = c at hcaptured ⊢
  generalize captureDefinitions w' capture buffer = c' at hcaptured ⊢
  cases hcaptured with
  | waiting definition hw => exact .some ⟨rfl, .intro _ _ _ hw⟩
  | failed cause hw => exact .some ⟨rfl, .intro _ _ _ hw⟩
  | ready tokens hw => exact hR.runTokens hcommands fuel tokens (.intro _ _ _ hw)

theorem Likeness.feed (fuel : Nat) (line : String) (h : s.Alike R s') :
    Option.Rel (AlikeAnswers R) (s.feed (Logo.eval fuel) line) (s'.feed (Logo.eval fuel) line) := by
  obtain ⟨reader, buffer, capture, hw⟩ := h
  unfold Session.feed
  rcases reader.read line with ⟨result, reader⟩
  have hnote := hR.narrate (.scanned result) hw
  cases result with
  | complete tokens => exact hR.process hA hcommands fuel (.intro _ _ _ hnote)
  | incomplete tokens remainder => exact .some ⟨rfl, .intro _ _ _ hnote⟩
  | failure cause => exact .some ⟨rfl, .intro _ _ _ hnote⟩

/-- **A line is answered alike.** -/
theorem Likeness.tryInterpret (fuel : Nat) (line : String) (h : s.Alike R s') :
    Option.Rel (AlikeAnswers R) (s.tryInterpret fuel line) (s'.tryInterpret fuel line) := by
  refine rel_bind (hR.feed hA hcommands fuel line h) ?_
  rintro ⟨_, s⟩ ⟨result, s'⟩ ⟨rfl, hs⟩
  cases result with
  | ok status => exact .some ⟨rfl, hs⟩
  | error cause => exact .some ⟨rfl, hR.reset hs⟩

/-- The message of an error is written on both sides. -/
theorem Likeness.interpret (fuel : Nat) (line : String) (h : s.Alike R s') :
    Option.Rel (AlikeAnswers R) (s.interpret fuel line) (s'.interpret fuel line) := by
  unfold Session.interpret
  rw [Option.map_eq_bind, Option.map_eq_bind]
  refine rel_bind (hR.tryInterpret hA hcommands fuel line h) ?_
  rintro ⟨_, s⟩ ⟨result, s'⟩ ⟨rfl, hs⟩
  cases result with
  | ok status => cases status <;> exact .some ⟨rfl, hs⟩
  | error cause =>
    obtain ⟨reader, buffer, capture, hw⟩ := hs
    exact .some ⟨rfl, .intro _ _ _ (hR.write _ hw)⟩

end Lines

/-! ## Courses -/

/-- What a session can be given. -/
inductive Entry (κ : Type) where
  /-- A line, whose error is handed back. -/
  | attempt (line : String)
  /-- A line, whose error is written. -/
  | line (line : String)
  /-- A module. -/
  | load (m : Module κ)
  /-- The request to forget all unfinished input. -/
  | reset

/-- The entry brings admitted procedures only. -/
def Entry.Admits (A : Procedure κ → Prop) : Entry κ → Prop
  | load m => ∀ p ∈ m.procedures, A p
  | _ => True

/-- What a session answers to an entry. -/
inductive Reply where
  /-- What became of a line whose error is handed back. -/
  | attempted (result : Except InterpretError Status)
  /-- What became of a line whose error is written. -/
  | interpreted (result : Interpretation)
  /-- There is nothing to answer. -/
  | done

namespace Session

variable [Commands κ]

/-- Takes an entry. -/
def enter (s : Session κ) (fuel : Nat) : Entry κ → Option (Reply × Session κ)
  | .attempt line => (s.tryInterpret fuel line).bind fun x => some (.attempted x.1, x.2)
  | .line line => (s.interpret fuel line).bind fun x => some (.interpreted x.1, x.2)
  | .load m => some (.done, s.load m)
  | .reset => some (.done, s.reset)

/-- Takes entries one after the other. For each there is the answer, and the session after it. -/
def course (s : Session κ) (fuel : Nat) : List (Entry κ) → Option (List (Reply × Session κ))
  | [] => some []
  | entry :: rest =>
    (s.enter fuel entry).bind fun x => (x.2.course fuel rest).bind fun later => some (x :: later)

end Session

section Courses

variable [Commands κ] {s s' : Session κ} (hR : Likeness A R) (hA : AdmitsDefinitions A)
  (hcommands : Respected A R)

include hR hA hcommands

/-- **An entry is answered alike.** -/
theorem Likeness.enter (fuel : Nat) {entry : Entry κ} (hentry : entry.Admits A)
    (h : s.Alike R s') :
    Option.Rel (AlikeAnswers R) (s.enter fuel entry) (s'.enter fuel entry) := by
  cases entry with
  | attempt line =>
    refine rel_bind (hR.tryInterpret hA hcommands fuel line h) fun x x' hx => ?_
    exact .some ⟨congrArg Reply.attempted hx.1, hx.2⟩
  | line line =>
    refine rel_bind (hR.interpret hA hcommands fuel line h) fun x x' hx => ?_
    exact .some ⟨congrArg Reply.interpreted hx.1, hx.2⟩
  | load m =>
    obtain ⟨reader, buffer, capture, hw⟩ := h
    exact .some ⟨rfl, .intro _ _ _ (hR.load hentry hw)⟩
  | reset => exact .some ⟨rfl, hR.reset h⟩

/-- **A course of entries is answered alike**, or there is an entry that takes both sessions longer
than the bound allows. -/
theorem Likeness.course (fuel : Nat) {entries : List (Entry κ)}
    (hentries : ∀ entry ∈ entries, entry.Admits A) (h : s.Alike R s') :
    Option.Rel (List.Forall₂ (AlikeAnswers R)) (s.course fuel entries) (s'.course fuel entries) := by
  induction entries generalizing s s' with
  | nil => exact .some .nil
  | cons entry rest ih =>
    obtain ⟨hentry, hrest⟩ := List.forall_mem_cons.1 hentries
    refine rel_bind (hR.enter hA hcommands fuel hentry h) fun x x' hx => ?_
    refine rel_bind (ih hrest hx.2) fun later later' hlater => ?_
    exact .some (.cons hx hlater)

end Courses

end Logo
