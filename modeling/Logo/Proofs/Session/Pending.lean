import Logo.Proofs.Evaluation.Waiting
import Logo.Proofs.Session.Capture

/-!
# Status and pending input

Unfinished input is kept in three places: text inside brackets that are not closed, tokens of a call
that lacks inputs, and tokens of a definition without its `end`. The status with which a line is
answered tells whether any of them holds something.

* `Session.isPending_tryInterpret`: a session is pending after a line exactly if the line was
  answered with `incomplete`.
* `Session.Driven`: the sessions that lines, resets and modules lead to, with the answer to the last
  line.
* `status_agrees_with_pending`: the agreement along every such course, and what a line that cannot be
  split into tokens leaves alone.
-/

namespace Logo.Session

variable {κ : Type} [Commands κ] {s s' : Session κ} {fuel : Nat} {line : String}

/-! ## One line -/

/-- A session that has used up its input waits again exactly if the tokens that it carries out lack
inputs. -/
theorem isPending_runTokens {tokens : List Token} {status : Status} (hs : s.isPending = false)
    (h : s.runTokens (eval fuel) tokens = some (.ok status, s')) :
    s'.isPending = true ↔ status = .incomplete := by
  unfold runTokens at h
  split at h
  · cases h
    simp [hs]
  obtain ⟨r, hr, h⟩ := Option.bind_eq_some_iff.1 h
  split at h
  · cases h
    have hpending : ({ s with workspace := r.workspace } : Session κ).isPending = s.isPending := rfl
    simp [hpending, hs]
  · rename_i hincomplete
    cases h
    -- the call that waits is among the tokens that are kept
    obtain ⟨values, text, rest, htokens, -⟩ := waits_at_word hr hincomplete
    simp [isPending, htokens]
  · cases h

/-- After buffered tokens were processed, something is pending exactly if they are not finished. -/
theorem isPending_process {status : Status} (hs : s.reader.isPending = false)
    (h : s.process (eval fuel) = some (.ok status, s')) :
    s'.isPending = true ↔ status = .incomplete := by
  unfold process at h
  split at h
  · cases h
    simp [isPending]
  · cases h
  · rename_i w tokens _
    have husedUp : ({ s with workspace := w, buffer := [], capture := none } :
        Session κ).isPending = false := isPending_eq_false_iff.2 ⟨hs, rfl, rfl⟩
    exact isPending_runTokens husedUp h

/-- After a line, something is pending exactly if the line is not finished. -/
theorem isPending_feed {status : Status} (h : s.feed (eval fuel) line = some (.ok status, s')) :
    s'.isPending = true ↔ status = .incomplete := by
  have hreader := s.reader.isPending_read line
  rcases hread : s.reader.read line with ⟨result, reader⟩
  rw [hread] at hreader
  unfold feed at h
  rw [hread] at h
  cases result with
  | complete tokens => exact isPending_process hreader h
  | incomplete tokens remainder =>
    cases h
    -- an open bracket alone is enough to be pending
    have hcarried : reader.isPending = true := hreader
    simp [isPending, hcarried]
  | failure cause => cases h

omit [Commands κ] in
theorem isPending_reset : s.reset.isPending = false := rfl

/-- **After a line something is pending exactly if the line was answered with `incomplete`.** -/
theorem isPending_tryInterpret {result : Except InterpretError Status}
    (h : s.tryInterpret fuel line = some (result, s')) :
    s'.isPending = true ↔ result = .ok .incomplete := by
  obtain ⟨⟨answer, s1⟩, hfeed, h⟩ := Option.bind_eq_some_iff.1 h
  cases answer with
  | ok status =>
    cases h
    rw [isPending_feed hfeed]
    simp
  | error cause =>
    cases h
    simp [isPending_reset]

/-! ## Lines that cannot be split into tokens -/

/-- Only the reader complains of brackets. -/
theorem process_ne_scan {cause : ScanError} :
    s.process (eval fuel) ≠ some (.error (.scan cause), s') := by
  intro h
  unfold process at h
  split at h
  · cases h
  · cases h
  unfold runTokens at h
  split at h
  · cases h
  obtain ⟨r, -, h⟩ := Option.bind_eq_some_iff.1 h
  split at h <;> cases h

/-- A line that cannot be split into tokens leaves a note at most, and ends what was running. -/
theorem workspace_of_scan_error {cause : ScanError}
    (h : s.tryInterpret fuel line = some (.error (.scan cause), s')) :
    s'.workspace = (s.workspace.narrate (.scanned (.failure cause))).resetExecution := by
  obtain ⟨⟨answer, s1⟩, hfeed, h⟩ := Option.bind_eq_some_iff.1 h
  cases answer with
  | ok status => cases h
  | error cause' =>
    cases h
    rcases hread : s.reader.read line with ⟨result, reader⟩
    unfold feed at hfeed
    rw [hread] at hfeed
    cases result with
    | complete tokens => exact absurd hfeed process_ne_scan
    | incomplete tokens remainder => cases hfeed
    | failure cause'' =>
      cases hfeed
      rfl

/-! ## Courses of a session -/

/-- Whether a line was answered with `incomplete`. -/
def asksForMore : Except InterpretError Status → Bool
  | .ok .incomplete => true
  | _ => false

theorem asksForMore_eq_true_iff {result : Except InterpretError Status} :
    asksForMore result = true ↔ result = .ok .incomplete := by
  unfold asksForMore
  split <;> simp_all

/-- The sessions that lines, resets and modules lead to, from a new session on. The flag tells
whether the last line was answered with `incomplete` and there was no reset since. -/
inductive Driven {H : Type} [Host H] : Session (Command H) → Bool → Prop where
  | start (verbosity : Verbosity) : Driven (.start verbosity) false
  | line {s s' : Session (Command H)} {waits : Bool} {fuel : Nat} {text : String}
    {result : Except InterpretError Status} (hs : Driven s waits)
    (h : s.tryInterpret fuel text = some (result, s')) : Driven s' (asksForMore result)
  | reset {s : Session (Command H)} {waits : Bool} (hs : Driven s waits) : Driven s.reset false
  | load {s : Session (Command H)} {waits : Bool} (hs : Driven s waits) (m : Module (Command H)) :
    Driven (s.load m) waits

/-- Along every course the session is pending exactly if it was left waiting. -/
theorem isPending_of_driven {H : Type} [Host H] {s : Session (Command H)} {waits : Bool}
    (hs : s.Driven waits) : s.isPending = waits := by
  induction hs with
  | start verbosity => rfl
  | line hs h ih =>
    rw [Bool.eq_iff_iff, isPending_tryInterpret h, asksForMore_eq_true_iff]
  | reset hs ih => exact isPending_reset
  | load hs m ih => exact ih

end Logo.Session

namespace Logo

/-- **Status and pending input agree.** In every course of lines, resets and modules, a session is
pending exactly if the last line was answered with `incomplete` and there was no reset since. A line
that is answered otherwise, also with an error, leaves no unclosed brackets, no waiting tokens and no
unfinished definition behind. If the line cannot be split into tokens, the globals, the procedures
and what was written are as they were before it. -/
theorem status_agrees_with_pending {H : Type} [Host H] (s : Session (Command H)) (waits : Bool)
    (hs : s.Driven waits) :
    s.isPending = waits ∧
    ∀ fuel line result s', s.tryInterpret fuel line = some (result, s') →
      (result = .ok .incomplete → s'.isPending = true) ∧
      ((result = .ok .complete ∨ ∃ cause, result = .error cause) → s'.isPending = false ∧
        s'.buffer = [] ∧ s'.capture = none ∧ s'.reader.carried = "") ∧
      ∀ cause, result = .error (.scan cause) →
        s'.workspace.scope.globals = s.workspace.scope.globals ∧
        s'.workspace.registry = s.workspace.registry ∧
        s'.workspace.output = s.workspace.output := by
  refine ⟨Session.isPending_of_driven hs, fun fuel line result s' h => ⟨?_, ?_, ?_⟩⟩
  · exact (Session.isPending_tryInterpret h).2
  · intro hresult
    have hpending : s'.isPending = false := by
      rw [Bool.eq_false_iff, ne_eq, Session.isPending_tryInterpret h]
      rcases hresult with rfl | ⟨cause, rfl⟩ <;> simp
    obtain ⟨hreader, hcapture, hbuffer⟩ := Session.isPending_eq_false_iff.1 hpending
    exact ⟨hpending, hbuffer, hcapture, by simpa [Reader.isPending] using hreader⟩
  · rintro cause rfl
    -- the note that the line leaves is the only change
    have hnote := s.workspace.withoutNotes_narrate (.scanned (.failure cause))
    rw [Session.workspace_of_scan_error h]
    exact ⟨congrArg (·.scope.globals) hnote, congrArg (·.registry) hnote,
      congrArg (·.output) hnote⟩

/-- A line whose second statement lacks an input, and then, behind a module that is loaded, one that
cannot be split into tokens: it keeps the variable that the first one has set. -/
theorem status_agrees_with_pending_lost_call :
    ∃ s s' : Session (Command Empty), s.Driven true ∧ s.isPending = true ∧
      s.tryInterpret 30 "[(]" = some (.error (.scan (.unterminatedExpression "(")), s') ∧
      s'.isPending = false ∧ s'.buffer = [] ∧
      s'.workspace.scope.globals = s.workspace.scope.globals ∧
      s'.workspace.scope.globals.contains "x" = true := by
  have hlines : ((Session.start .silent : Session (Command Empty)).tryInterpret 30
      "make \"x 5 print sum 1").any (fun x => Session.asksForMore x.1 &&
        ((x.2.load ⟨"more", [.command "say" 1 (.primitive .print)]⟩).tryInterpret 30 "[(]").any
          fun y => decide (y.1 = .error (.scan (.unterminatedExpression "("))) &&
            y.2.workspace.scope.globals.contains "x") = true := by
    decide +kernel
  obtain ⟨⟨answer, s⟩, hs, hnext⟩ := (Option.any_eq_true _ _).1 hlines
  obtain ⟨hmore, hline⟩ := (Bool.and_eq_true _ _).mp hnext
  obtain ⟨⟨result, s'⟩, hs', hfails⟩ := (Option.any_eq_true _ _).1 hline
  obtain ⟨hresult, hset⟩ := (Bool.and_eq_true _ _).mp hfails
  cases of_decide_eq_true hresult
  have hdriven : (s.load ⟨"more", [.command "say" 1 (.primitive .print)]⟩).Driven true :=
    .load (hmore ▸ .line (.start .silent) hs) _
  obtain ⟨hpending, hagrees⟩ := status_agrees_with_pending _ _ hdriven
  obtain ⟨-, hdone, hkept⟩ := hagrees _ _ _ _ hs'
  obtain ⟨hnone, hbuffer, -⟩ := hdone (Or.inr ⟨_, rfl⟩)
  exact ⟨_, s', hdriven, hpending, hs', hnone, hbuffer, (hkept _ rfl).1, hset⟩

end Logo
