import Logo.Proofs.Evaluation.Resume
import Logo.Proofs.Evaluation.Shortage
import Logo.Proofs.Session.Capture
import Logo.Proofs.Session.Registered

/-!
# Calls that wait for the next line

When a line ends in the middle of a call, its tokens are kept: values, and then the word that lacks
inputs. Where all procedures are primitives and definitions that word is not `to`, which no
definition can take. So whatever the next line brings, it goes on with the call, and does not begin
a definition.

* `Session.sparesTo_of_reached`: where nothing is loaded, nothing is called by `to`.
* `Session.waitsAt_of_tryInterpret`: the tokens that a line leaves for the next.
* `waits_for_registered_call`: what waits, in evaluation and in sessions.
-/

namespace Logo

variable {H : Type}

/-! ## The word `to` -/

/-- No procedure is registered under `to`. -/
def Registry.SparesTo {κ : Type} (r : Registry κ) : Prop :=
  r.holders "to" = []

theorem Registry.SparesTo.register {κ : Type} {r : Registry κ} {p : Procedure κ} (h : r.SparesTo)
    (hp : "to" ∉ p.names) : (r.register p).SparesTo :=
  (holders_register_of_notMem hp).trans h

theorem Registry.sparesTo_keptByDefinitions : KeptByDefinitions (SparesTo (κ := Command H)) :=
  fun _ _ _ h _ hp => h.register hp

theorem Primitive.to_notMem_calledBy (q : Primitive) : "to" ∉ q.calledBy := by
  cases q <;> decide

theorem Registry.sparesTo_withPrimitives (verbosity : Verbosity) :
    (Workspace.withPrimitives verbosity : Workspace (Command H)).registry.SparesTo :=
  withPrimitives_induction (Q := SparesTo) rfl
    (fun _ q h => h.register q.to_notMem_calledBy) verbosity

/-- A word that calls a procedure is not `to`, in any case of its letters. -/
theorem Workspace.Expects.ne_to {κ : Type} {w : Workspace κ} {text : String} (h : w.Expects text)
    (hw : w.registry.SparesTo) : Text.equalsIgnoringCase text "to" = false := by
  rw [Bool.eq_false_iff, ne_eq, ← Text.lowercase_eq_iff Text.isPlain_to]
  intro hto
  obtain ⟨first, others, hlookup, -⟩ := h
  have hnone : w.lookup text = [] := by
    rw [Workspace.lookup, Registry.lookup, hto]
    exact hw
  rw [hnone] at hlookup
  cases hlookup

/-- Tokens that wait at another word than `to` do not begin with a definition, whatever follows. -/
theorem captureDefinitions_of_waitsAt {κ : Type} {w : Workspace κ} {text : String}
    {tokens : List Token} (h : w.WaitsAt text tokens)
    (hto : Text.equalsIgnoringCase text "to" = false) (w' : Workspace κ) (more : List Token) :
    captureDefinitions w' none (tokens ++ more) = .ready w' (tokens ++ more) := by
  obtain ⟨-, values, rest, rfl, hvalues⟩ := h
  have hpassed : ∀ t ∈ values, isPassedOver t = true := by
    intro t ht
    rw [isPassedOver, hvalues t ht, Bool.true_or]
  rw [captureDefinitions_none, List.append_assoc, List.dropWhile_append_of_pos hpassed,
    List.cons_append, List.dropWhile_cons_of_neg (by simp [isPassedOver, Token.isLiteral,
      Token.isComment])]
  simp only [Token.isWordNamed, hto]
  rfl

/-! ## Sessions -/

namespace Session

variable [Host H] {s s' : Session (Command H)} {fuel : Nat} {line : String}

/-- **Nothing is ever registered under `to`.** -/
theorem sparesTo_of_reached (h : s.Reached) : s.workspace.registry.SparesTo :=
  registry_induction Registry.sparesTo_keptByDefinitions Registry.sparesTo_withPrimitives h

/-- Tokens that are kept because they lack inputs are values and a word that expects more. -/
theorem waitsAt_of_process (hs : s.workspace.Resting)
    (h : s.process (eval fuel) = some (.ok .incomplete, s')) (hcapture : s'.capture = none) :
    ∃ text, s'.workspace.WaitsAt text s'.buffer := by
  have hrest := resting_captureDefinitions hs s.capture s.buffer
  unfold process at h
  split at h
  · cases h; cases hcapture
  · cases h
  rename_i hready
  rw [hready] at hrest
  unfold runTokens at h
  split at h
  · cases h
  obtain ⟨r, hr, h⟩ := Option.bind_eq_some_iff.1 h
  split at h
  · cases h
  · rename_i hwaits
    cases h
    exact waitsAt_of_sequence kept_balanced (hrest.narrate _).admits hr hwaits
  · cases h

/-- **What a line leaves for the next**, if neither brackets nor a definition are open: values, and
then a word that lacks inputs. -/
theorem waitsAt_of_tryInterpret (hs : s.workspace.Resting)
    (h : s.tryInterpret fuel line = some (.ok .incomplete, s')) (hcapture : s'.capture = none)
    (hreader : s'.reader.isPending = false) : ∃ text, s'.workspace.WaitsAt text s'.buffer := by
  obtain ⟨⟨answer, s1⟩, hfeed, h⟩ := Option.bind_eq_some_iff.1 h
  cases answer with
  | error cause => cases h
  | ok status =>
    cases h
    have hpending := s.reader.isPending_read line
    rcases hread : s.reader.read line with ⟨result, reader⟩
    rw [hread] at hpending
    unfold feed at hfeed
    rw [hread] at hfeed
    cases result with
    -- all brackets are closed, so that only a call can have kept the tokens
    | complete tokens => exact waitsAt_of_process (hs.narrate _) hfeed hcapture
    | incomplete tokens remainder =>
      cases hfeed
      rw [hpending] at hreader
      cases hreader
    | failure cause => cases hfeed

end Session

/-! ## What waits -/

/-- **What waits is a call of a registered procedure.** A sequence that is not finished is left as
values, and then a word whose first procedure takes inputs. So an error that tells of missing inputs
names such a word, unless a command failed with that error; it names the empty word only where
procedures are registered under it. In a session without other procedures than primitives and
definitions, the word at which the tokens of a line wait is not `to`, and no line that follows
begins a definition there. -/
theorem waits_for_registered_call {κ : Type} [Commands κ] (hκ : Commands.KeepRegistry κ)
    (w : Workspace κ) (fuel : Nat) :
    (∀ lenient tokens r, w.execute fuel lenient tokens = some r → r.outcome = .incomplete →
      ∃ text, r.workspace.WaitsAt text r.tokens) ∧
    (∀ job r name, eval fuel job w = some r → r.outcome = .failed (.notEnoughInputs name) →
      w.Expects name ∨ job.CommandFails fuel w (.notEnoughInputs name)) ∧
    (∀ items r name, w.runList fuel items = some r →
      r.outcome = .failed (.notEnoughInputs name) →
      w.Expects name ∨ (Job.sequence false items).CommandFails fuel w (.notEnoughInputs name)) ∧
    ∀ {H : Type} [Host H] (s s' : Session (Command H)) (line : String), s.Reached →
      s.tryInterpret fuel line = some (.ok .incomplete, s') → s'.capture = none →
      s'.reader.isPending = false →
      ∃ text, s'.workspace.WaitsAt text s'.buffer ∧
        Text.equalsIgnoringCase text "to" = false ∧
        ∀ (u : Workspace (Command H)) (more : List Token),
          captureDefinitions u none (s'.buffer ++ more) = .ready u (s'.buffer ++ more) := by
  have hkept := kept_registry hκ
  have hw : w.Admits fun _ => True := fun _ _ _ => trivial
  refine ⟨?_, ?_, ?_, ?_⟩
  · intro lenient tokens r h hr
    exact waitsAt_of_sequence hkept hw h hr
  · intro job r name h hr
    exact expects_of_failed hkept job.admits_all hw h hr
  · intro items r name h hr
    exact expects_of_runList hkept hw h hr
  · intro H _ s s' line hs h hcapture hreader
    obtain ⟨text, hwaits⟩ :=
      Session.waitsAt_of_tryInterpret (Session.resting_of_reached hs) h hcapture hreader
    have hto := hwaits.1.ne_to (Session.sparesTo_of_reached (.tryInterpret hs h))
    exact ⟨text, hwaits, hto, captureDefinitions_of_waitsAt hwaits hto⟩

/-- The call `print sum 1 +` waits as a sequence, is an error as a list that is run, and as a line
waits for the next one. -/
theorem waits_for_registered_call_print :
    ∃ (r q : Result (Command Empty)) (s : Session (Command Empty)),
      (Workspace.withPrimitives .silent).execute 30 false cutCall = some r ∧
      r.outcome = .incomplete ∧ (∃ text, r.workspace.WaitsAt text r.tokens) ∧
      (Workspace.withPrimitives .silent).runList 30 cutCall = some q ∧
      q.outcome = .failed (.notEnoughInputs "print") ∧
      ((Workspace.withPrimitives .silent : Workspace (Command Empty)).Expects "print" ∨
        (Job.sequence false cutCall : Job (Command Empty)).CommandFails 30
          (.withPrimitives .silent) (.notEnoughInputs "print")) ∧
      (Session.start .silent).tryInterpret 30 "print sum 1 +" = some (.ok .incomplete, s) ∧
      ∃ text, s.workspace.WaitsAt text s.buffer ∧ Text.equalsIgnoringCase text "to" = false := by
  have hexecute : ((Workspace.withPrimitives .silent : Workspace (Command Empty)).execute 30 false
      cutCall).any (fun r => r.outcome = .incomplete) = true := by
    decide +kernel
  have hrun : ((Workspace.withPrimitives .silent : Workspace (Command Empty)).runList 30
      cutCall).any (fun r => r.outcome = .failed (.notEnoughInputs "print")) = true := by
    decide +kernel
  have hline : ((Session.start .silent : Session (Command Empty)).tryInterpret 30
      "print sum 1 +").any (fun x => decide (x.1 = .ok .incomplete) && x.2.capture.isNone &&
        !x.2.reader.isPending) = true := by
    decide +kernel
  obtain ⟨r, hr, hwaits⟩ := (Option.any_eq_true _ _).1 hexecute
  obtain ⟨q, hq, hfails⟩ := (Option.any_eq_true _ _).1 hrun
  obtain ⟨⟨result, s⟩, hs, hkept⟩ := (Option.any_eq_true _ _).1 hline
  simp only [Bool.and_eq_true, decide_eq_true_eq, Option.isNone_iff_eq_none, Bool.not_eq_true']
    at hwaits hfails hkept
  obtain ⟨⟨rfl, hcapture⟩, hreader⟩ := hkept
  obtain ⟨hsequence, -, hlist, hsession⟩ := waits_for_registered_call
    (κ := Command Empty) (keepRegistry_command nofun) (.withPrimitives .silent) 30
  obtain ⟨text, hat, hto, -⟩ := hsession _ _ _ (.start .silent) hs hcapture hreader
  exact ⟨r, q, s, hr, hwaits, hsequence _ _ _ hr hwaits, hq, hfails, hlist _ _ _ hq hfails, hs,
    text, hat, hto⟩

/-- A procedure that can be called by the empty word. -/
def sayNamelessly : Procedure (Command Empty) :=
  (Procedure.command "say" 1 (.primitive .print)).withAliases [""]

/-- An error that tells of missing inputs may name the empty word. -/
theorem empty_word_lacks_inputs : Commands.KeepRegistry (Command Empty) ∧
    ∃ r, (({ verbosity := .silent } : Workspace (Command Empty)).register sayNamelessly).runList 30
      [.word ""] = some r ∧ r.outcome = .failed (.notEnoughInputs "") := by
  have hrun : ((({ verbosity := .silent } : Workspace (Command Empty)).register
      sayNamelessly).runList 30 [.word ""]).any
        (fun r => r.outcome = .failed (.notEnoughInputs "")) = true := by
    decide +kernel
  obtain ⟨r, hr, hfails⟩ := (Option.any_eq_true _ _).1 hrun
  exact ⟨keepRegistry_command nofun, r, hr, of_decide_eq_true hfails⟩

end Logo
