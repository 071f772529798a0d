import Logo.Proofs.Scan.Lines
import Logo.Proofs.Session.Compile
import Logo.Script
import Mathlib

/-!
# Definitions in pieces

A definition may come in several lines, and several lines may come as one text. What a session has
captured after some pieces of a text depends on the tokens of these pieces alone, and not on where
the text was cut. The notes apart, which tell of each piece, that is all that a session keeps.

* `captureDefinitions_append`: capturing goes on where it stopped.
* `Session.Holds`: the session stands where capturing some tokens leads.
* `Session.tryLines_of_holds`: a text that has only definitions in it, in any pieces.
-/

namespace Logo

variable {κ : Type}

/-! ## Equations -/

/-- Whether a token does not end a definition. -/
def isInside (t : Token) : Bool :=
  !t.isWordNamed "end"

/-- Whether a token is passed over before a definition. -/
def isPassedOver (t : Token) : Bool :=
  t.isLiteral || t.isComment

/-- What becomes of captured tokens: the definition waits if nothing follows them, and is compiled
if its `end` does. -/
def closeDefinition (w : Workspace κ) (captured : List Token) : List Token → Captured κ
  | [] => .waiting w captured
  | _ :: rest =>
    match compileDefinition w captured with
    | .ok w => captureDefinitions w none rest
    | .error e => .failed w e

/-- A definition goes on up to the next `end`. -/
theorem captureDefinitions_some (w : Workspace κ) (definition tokens : List Token) :
    captureDefinitions w (some definition) tokens =
      closeDefinition w (definition ++ tokens.takeWhile isInside) (tokens.dropWhile isInside) := by
  rw [captureDefinitions]
  split
  · rename_i h
    have hdrop : tokens.dropWhile isInside = [] := h
    rw [hdrop, List.takeWhile_eq_self_iff.2 (List.dropWhile_eq_nil_iff.1 hdrop)]
    rfl
  · rename_i e rest h
    have hdrop : tokens.dropWhile isInside = e :: rest := h
    rw [hdrop]
    rfl

/-- A definition begins at the first token that is neither a value nor a comment, if that is
`to`. -/
theorem captureDefinitions_none (w : Workspace κ) (tokens : List Token) :
    captureDefinitions w none tokens = match tokens.dropWhile isPassedOver with
      | [] => .ready w tokens
      | token :: rest =>
        if token.isWordNamed "to" then captureDefinitions w (some [token]) rest
        else .ready w tokens := by
  conv_lhs => rw [captureDefinitions]
  split
  · rename_i h
    have hdrop : tokens.dropWhile isPassedOver = [] := h
    rw [hdrop]
  · rename_i token rest h
    have hdrop : tokens.dropWhile isPassedOver = token :: rest := h
    rw [hdrop]

variable {w w' : Workspace κ} {t : Token} {definition tokens rest : List Token}

/-- Without `end` a definition waits. -/
theorem captureDefinitions_open (h : ∀ u ∈ tokens, isInside u = true) :
    captureDefinitions w (some definition) tokens = .waiting w (definition ++ tokens) := by
  rw [captureDefinitions_some, List.takeWhile_eq_self_iff.2 h, List.dropWhile_eq_nil_iff.2 h]
  rfl

/-- A definition is compiled at its `end`. -/
theorem captureDefinitions_close (h : ∀ u ∈ tokens, isInside u = true) (ht : isInside t = false) :
    captureDefinitions w (some definition) (tokens ++ t :: rest) =
      closeDefinition w (definition ++ tokens) (t :: rest) := by
  rw [captureDefinitions_some, List.takeWhile_append_of_pos h, List.dropWhile_append_of_pos h,
    List.takeWhile_cons_of_neg (by simp [ht]), List.dropWhile_cons_of_neg (by simp [ht]),
    List.append_nil]

/-- Tokens of a definition may be captured already. -/
theorem captureDefinitions_move (h : ∀ u ∈ tokens, isInside u = true) (more : List Token) :
    captureDefinitions w (some definition) (tokens ++ more) =
      captureDefinitions w (some (definition ++ tokens)) more := by
  rw [captureDefinitions_some, captureDefinitions_some, List.takeWhile_append_of_pos h,
    List.dropWhile_append_of_pos h, List.append_assoc]

/-- The word `to` begins a definition. -/
theorem captureDefinitions_to (ht : t.isWordNamed "to" = true) :
    captureDefinitions w none (t :: rest) = captureDefinitions w (some [t]) rest := by
  have hstop : isPassedOver t = false := by
    cases t <;> first | rfl | cases ht
  rw [captureDefinitions_none, List.dropWhile_cons_of_neg (by simp [hstop])]
  simp only [if_pos ht]

theorem captureDefinitions_nil : captureDefinitions w none [] = .ready w [] := by
  rw [captureDefinitions_none]
  rfl

/-! ## Capturing goes on where it stopped -/

/-- What was captured, with more tokens behind it. -/
def Captured.resume (more : List Token) : Captured κ → Captured κ
  | waiting w definition => captureDefinitions w (some definition) more
  | ready w tokens => captureDefinitions w none (tokens ++ more)
  | failed w cause => failed w cause

/-- **Capturing goes on where it stopped.** -/
theorem captureDefinitions_append (w : Workspace κ) (capture : Option (List Token))
    (tokens more : List Token) : captureDefinitions w capture (tokens ++ more) =
      (captureDefinitions w capture tokens).resume more := by
  -- the search stops at the same token if more tokens follow
  have hsearch {p : Token → Bool} {tokens rest : List Token} {e : Token}
      (h : tokens.dropWhile p = e :: rest) : (tokens ++ more).takeWhile p = tokens.takeWhile p ∧
        (tokens ++ more).dropWhile p = e :: (rest ++ more) := by
    have hstop : tokens.dropWhile p = [] → ∀ c ∈ more.head?, p c = false := by simp [h]
    rw [(takeWhile_append_of_stop hstop).1, (takeWhile_append_of_stop hstop).2, h]
    exact ⟨rfl, rfl⟩
  fun_induction captureDefinitions w capture tokens with
  | case1 w tokens definition h =>
    have hinside : ∀ u ∈ tokens, isInside u = true := List.dropWhile_eq_nil_iff.1 h
    exact captureDefinitions_move hinside more
  | case2 w tokens definition e rest h w' hcompile ih =>
    obtain ⟨htake, hdrop⟩ := hsearch (p := isInside) h
    have hok : compileDefinition w (definition ++ tokens.takeWhile isInside) = .ok w' := hcompile
    rw [captureDefinitions_some, htake, hdrop, closeDefinition, hok]
    exact ih
  | case3 w tokens definition e rest h cause hcompile =>
    obtain ⟨htake, hdrop⟩ := hsearch (p := isInside) h
    have herror : compileDefinition w (definition ++ tokens.takeWhile isInside) = .error cause :=
      hcompile
    rw [captureDefinitions_some, htake, hdrop, closeDefinition, herror]
    rfl
  | case4 w tokens h => rfl
  | case5 w tokens token rest h hto ih =>
    obtain ⟨-, hdrop⟩ := hsearch (p := isPassedOver) h
    rw [captureDefinitions_none, hdrop]
    simp only [if_pos hto, ih]
  | case6 w tokens token rest h hto => rfl

/-! ## Capturing in two workspaces -/

/-- The same was captured, in related workspaces. -/
inductive Captured.Alike (R : Workspace κ → Workspace κ → Prop) :
    Captured κ → Captured κ → Prop where
  | waiting {w w' : Workspace κ} (definition : List Token) (h : R w w') :
    Alike R (waiting w definition) (waiting w' definition)
  | ready {w w' : Workspace κ} (tokens : List Token) (h : R w w') :
    Alike R (ready w tokens) (ready w' tokens)
  | failed {w w' : Workspace κ} (cause : RuntimeError) (h : R w w') :
    Alike R (failed w cause) (failed w' cause)

/-- **The same is captured in workspaces in which the same is compiled.** -/
theorem alike_captureDefinitions {R : Workspace κ → Workspace κ → Prop} (hR : KeptByCompiling R)
    (h : R w w') (capture : Option (List Token)) (tokens : List Token) :
    (captureDefinitions w capture tokens).Alike R (captureDefinitions w' capture tokens) := by
  -- capturing takes the same tokens away in both workspaces, so the induction is on their number
  induction hn : tokens.length using Nat.strongRecOn generalizing w w' capture tokens with
  | ind n ih =>
    subst hn
    cases capture with
    | some definition =>
      rw [captureDefinitions_some, captureDefinitions_some]
      cases hdrop : tokens.dropWhile isInside with
      | nil => exact .waiting _ h
      | cons t rest =>
        rw [closeDefinition, closeDefinition]
        rcases hR (definition ++ tokens.takeWhile isInside) h with
          ⟨cause, hw, hw'⟩ | ⟨u, u', hw, hw', hu⟩
        · rw [hw, hw']
          exact .failed cause h
        · rw [hw, hw']
          exact ih _ (length_lt_of_dropWhile_eq hdrop) hu none rest rfl
    | none =>
      rw [captureDefinitions_none, captureDefinitions_none]
      cases hdrop : tokens.dropWhile isPassedOver with
      | nil => exact .ready _ h
      | cons t rest =>
        simp only
        split
        · exact ih _ (length_lt_of_dropWhile_eq hdrop) h (some [t]) rest rfl
        · exact .ready _ h

/-! ## Notes play no part -/

/-- The workspace without its notes. -/
def Workspace.withoutNotes (w : Workspace κ) : Workspace κ :=
  { w with notes := #[] }

/-- The same with notes or without them. -/
def Captured.withoutNotes : Captured κ → Captured κ
  | waiting w definition => waiting w.withoutNotes definition
  | ready w tokens => ready w.withoutNotes tokens
  | failed w cause => failed w.withoutNotes cause

@[simp]
theorem Workspace.withoutNotes_narrate (w : Workspace κ) (note : Note) :
    (w.narrate note).withoutNotes = w.withoutNotes := by
  unfold narrate
  split <;> rfl

theorem Workspace.withoutNotes_register (w : Workspace κ) (p : Procedure κ) :
    (w.register p).withoutNotes =
      { w.withoutNotes with registry := w.withoutNotes.registry.register p } := by
  unfold register
  rw [withoutNotes_narrate]
  rfl

/-- A definition is compiled in the same way, whatever was noted before. -/
theorem keptByCompiling_withoutNotes :
    KeptByCompiling fun w w' : Workspace κ => w.withoutNotes = w'.withoutNotes := by
  refine keptByCompiling (fun {w w'} h => ?_) (fun {w w'} line h => ?_) fun {w w' _ p} _ h => ?_
  · have hsame : w.withoutNotes.registry = w'.withoutNotes.registry := by rw [h]
    exact hsame.symm
  · exact congrArg (fun u : Workspace κ => u.write line) h
  · rw [Workspace.withoutNotes_narrate, Workspace.withoutNotes_narrate,
      Workspace.withoutNotes_register, Workspace.withoutNotes_register, h]

/-- **What is captured does not depend on what was noted before.** -/
theorem withoutNotes_captureDefinitions (h : w.withoutNotes = w'.withoutNotes)
    (capture : Option (List Token)) (tokens : List Token) :
    (captureDefinitions w capture tokens).withoutNotes =
      (captureDefinitions w' capture tokens).withoutNotes := by
  have hcaptured := alike_captureDefinitions keptByCompiling_withoutNotes h capture tokens
  generalize captureDefinitions w capture tokens = c at hcaptured ⊢
  generalize captureDefinitions w' capture tokens = c' at hcaptured ⊢
  cases hcaptured with
  | waiting definition h => exact congrArg (Captured.waiting · definition) h
  | ready tokens h => exact congrArg (Captured.ready · tokens) h
  | failed cause h => exact congrArg (Captured.failed · cause) h

/-- Capturing goes on in the same way without notes. -/
theorem Captured.withoutNotes_resume (c : Captured κ) (more : List Token) :
    (c.resume more).withoutNotes = (c.withoutNotes.resume more).withoutNotes := by
  have hsame (w : Workspace κ) : w.withoutNotes = w.withoutNotes.withoutNotes := rfl
  cases c with
  | waiting w definition =>
    exact withoutNotes_captureDefinitions (hsame w) (some definition) more
  | ready w tokens => exact withoutNotes_captureDefinitions (hsame w) none (tokens ++ more)
  | failed w cause => rfl

/-! ## Sessions -/

namespace Captured

/-- Nothing is left to carry out: a definition waits, or all tokens belonged to definitions. -/
def IsIdle : Captured κ → Prop
  | waiting _ _ => True
  | ready _ tokens => tokens = []
  | failed _ _ => False

/-- Whether a definition waits. -/
def status : Captured κ → Status
  | waiting _ _ => .incomplete
  | _ => .complete

theorem isIdle_withoutNotes (c : Captured κ) : c.withoutNotes.IsIdle ↔ c.IsIdle := by
  cases c <;> rfl

theorem status_withoutNotes (c : Captured κ) : c.withoutNotes.status = c.status := by
  cases c <;> rfl

end Captured

namespace Session

/-- What a session has captured. -/
def captured (s : Session κ) : Captured κ :=
  captureDefinitions s.workspace s.capture s.buffer

/-- The session stands where capturing the tokens from the workspace `w` on leads. -/
def Holds (s : Session κ) (w : Workspace κ) (tokens : List Token) : Prop :=
  s.captured.withoutNotes = (captureDefinitions w none tokens).withoutNotes

variable {s : Session κ}

theorem isPending_eq_false_iff :
    s.isPending = false ↔ s.reader.isPending = false ∧ s.capture = none ∧ s.buffer = [] := by
  simp [isPending, and_assoc]

theorem holds_of_not_pending (h : s.isPending = false) : s.Holds s.workspace [] := by
  obtain ⟨-, hcapture, hbuffer⟩ := isPending_eq_false_iff.1 h
  rw [Holds, captured, hcapture, hbuffer]

/-- More tokens are put into the buffer. -/
theorem Holds.append (h : s.Holds w tokens) (reader : Reader) (note : Note) (more : List Token) :
    ({ s with reader, workspace := s.workspace.narrate note, buffer := s.buffer ++ more } :
      Session κ).Holds w (tokens ++ more) := by
  have hnote := withoutNotes_captureDefinitions (s.workspace.withoutNotes_narrate note)
    s.capture (s.buffer ++ more)
  unfold Holds captured at h ⊢
  rw [hnote, captureDefinitions_append, captureDefinitions_append, Captured.withoutNotes_resume, h,
    ← Captured.withoutNotes_resume]

theorem Holds.isIdle (h : s.Holds w tokens) :
    s.captured.IsIdle ↔ (captureDefinitions w none tokens).IsIdle := by
  rw [← Captured.isIdle_withoutNotes, h, Captured.isIdle_withoutNotes]

theorem Holds.status (h : s.Holds w tokens) :
    s.captured.status = (captureDefinitions w none tokens).status := by
  rw [← Captured.status_withoutNotes, h, Captured.status_withoutNotes]

/-- Where nothing is pending, the workspace is the one that capturing leads to. -/
theorem Holds.workspace_eq (h : s.Holds w tokens) (hs : s.isPending = false)
    (hready : captureDefinitions w none tokens = .ready w' []) :
    s.workspace.withoutNotes = w'.withoutNotes := by
  obtain ⟨-, hcapture, hbuffer⟩ := isPending_eq_false_iff.1 hs
  rw [Holds, captured, hcapture, hbuffer, captureDefinitions_nil, hready] at h
  exact (Captured.ready.inj h).1

/-- A session whose input was all used up, unless a definition waits. -/
structure IsSettled (s : Session κ) (status : Status) : Prop where
  buffer : s.buffer = []
  capture : status = .complete → s.capture = none

variable [Commands κ]

/-- If nothing is left to carry out, the session goes on from what it has captured. -/
theorem process_of_isIdle (h : s.captured.IsIdle) (fuel : Nat) :
    ∃ s' : Session κ, s.process (eval fuel) = some (.ok s.captured.status, s') ∧
      s'.reader = s.reader ∧ s'.captured = s.captured ∧ s'.IsSettled s.captured.status := by
  unfold process
  rw [← captured]
  cases hc : s.captured with
  -- the definition goes into the capture, from where it is taken up again
  | waiting w definition =>
    refine ⟨_, rfl, rfl, ?_, rfl, nofun⟩
    rw [captured, captureDefinitions_open (by simp), List.append_nil]
  | ready w tokens =>
    rw [hc] at h
    cases (h : tokens = [])
    exact ⟨_, rfl, rfl, captureDefinitions_nil, rfl, fun _ => rfl⟩
  | failed w cause =>
    rw [hc] at h
    exact absurd h id

/-- **A line of definitions.** If nothing is left to carry out behind the line, the line is taken,
and the session stands where capturing its tokens leads. -/
theorem tryInterpret_of_holds (h : s.Holds w tokens) {line : String}
    (hline : (s.reader.read line).1.isFailure = false)
    (hidle : (captureDefinitions w none (tokens ++ (s.reader.read line).1.tokens)).IsIdle)
    (fuel : Nat) :
    ∃ status, ∃ s' : Session κ, s.tryInterpret fuel line = some (.ok status, s') ∧
      s'.reader = (s.reader.read line).2 ∧
      s'.Holds w (tokens ++ (s.reader.read line).1.tokens) ∧
      ((s.reader.read line).1.isIncomplete = false →
        status = (captureDefinitions w none (tokens ++ (s.reader.read line).1.tokens)).status ∧
          s'.IsSettled status) := by
  rcases hread : s.reader.read line with ⟨result, reader⟩
  simp only [hread] at hline hidle ⊢
  have hnext := h.append reader (.scanned result) result.tokens
  unfold tryInterpret tryInterpretBy feed
  rw [hread]
  cases result with
  | failure cause => cases hline
  | incomplete ts remainder => exact ⟨_, _, rfl, rfl, hnext, nofun⟩
  | complete ts =>
    obtain ⟨s', hprocess, hreader, hcaptured, hsettled⟩ :=
      process_of_isIdle (hnext.isIdle.2 hidle) fuel
    rw [hnext.status] at hprocess hsettled
    refine ⟨_, s', ?_, hreader, ?_, fun _ => ⟨rfl, hsettled⟩⟩
    · simp only [Scan.tokens] at hprocess ⊢
      rw [hprocess]
      rfl
    · rw [Holds, hcaptured]
      exact hnext

/-- **A text of definitions, in any pieces.** A text that has only definitions in it may be cut at
any of its line feeds. However it is cut, its pieces are taken one after the other, the last of them
leaves nothing unread, and the session stands where capturing all tokens of the text leads. -/
theorem tryLines_of_holds (h : s.Holds w tokens) {pieces : List String} (hpieces : pieces ≠ [])
    {more : List Token}
    (htext : tokenize (s.reader.join ("\n".intercalate pieces)) = .complete more)
    (hidle : ∀ before, before <+: more →
      (captureDefinitions w none (tokens ++ before)).IsIdle) (fuel : Nat) (status : Status) :
    ∃ s' : Session κ, s.tryLines fuel status pieces =
        some (.ok (captureDefinitions w none (tokens ++ more)).status, s') ∧
      s'.reader = {} ∧ s'.Holds w (tokens ++ more) ∧
      s'.IsSettled (captureDefinitions w none (tokens ++ more)).status := by
  -- over the pieces, one line and the text behind its line feed at a time
  induction pieces generalizing s tokens more status with
  | nil => exact absurd rfl hpieces
  | cons line rest ih =>
    cases rest with
    | nil =>
      have hread : s.reader.read line = (.complete more, {}) := by
        rw [Reader.read_eq, ← String.intercalate_singleton (s := "\n") (t := line), htext]
        rfl
      obtain ⟨status', s', htry, hreader, hholds, hdone⟩ := tryInterpret_of_holds h
        (by rw [hread]; rfl) (by rw [hread]; exact hidle more List.prefix_rfl) fuel
      simp only [hread, Scan.tokens] at hreader hholds hdone
      obtain ⟨rfl, hsettled⟩ := hdone rfl
      refine ⟨s', ?_, hreader, hholds, hsettled⟩
      simp [tryLines, htry]
    | cons line' rest =>
      rw [String.intercalate_cons_cons, Reader.tokenize_join_lineFeed] at htext
      split at htext
      · rename_i hfail
        rw [htext] at hfail
        cases hfail
      rename_i hline
      obtain ⟨behind, hbehind, rfl⟩ := Scan.prepend_eq_complete.1 htext
      obtain ⟨status', s', htry, hreader, hholds, -⟩ := tryInterpret_of_holds h
        (Bool.eq_false_iff.2 hline) (hidle _ (List.prefix_append _ _)) fuel
      rw [← hreader] at hbehind
      rw [← List.append_assoc]
      obtain ⟨s'', hlines, hrest⟩ := ih hholds (List.cons_ne_nil _ _) hbehind
        (fun before hbefore => by
          rw [List.append_assoc]
          exact hidle _ (List.prefix_append_right_inj _ |>.2 hbefore)) status'
      refine ⟨s'', ?_, hrest⟩
      rw [tryLines, htry]
      exact hlines

end Session

end Logo
