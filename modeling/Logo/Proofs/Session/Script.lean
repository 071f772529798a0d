import Logo.Script
import Logo.Proofs.Session.Pending

/-!
# How scripts end

A script is done when all of its lines were taken and nothing is open behind the last one. It is cut
off when something is, and it fails at the first line that gives an error. Nothing is pending after
any of these.

* `Session.Ends`: the three ways in which a script ends.
* `Session.runScript_eq_some_iff`: there are no others, except that a script without lines leaves
  open input of before where it is.
* `script_leaves_nothing_open`: what follows for the session and for the answer.
-/

namespace Logo

/-- Only an empty text has no lines. -/
theorem Text.linesFrom_eq_nil_iff {line cs : List Char} :
    linesFrom line cs = [] ↔ line = [] ∧ cs = [] := by
  induction cs generalizing line with
  | nil => cases line <;> simp [linesFrom]
  | cons c cs ih =>
    rw [linesFrom]
    split
    · simp
    · simp [ih]

/-- The empty text is the only one without lines. -/
theorem Text.lines_eq_nil_iff {text : String} : lines text = [] ↔ text = "" := by
  rw [lines, linesFrom_eq_nil_iff, and_iff_right rfl, String.toList_eq_nil_iff]

namespace Session

variable {κ : Type} [Commands κ] {s s' u : Session κ} {fuel : Nat} {lines : List String}
  {status : Status} {cause : InterpretError}

/-- Processing tokens fails at run time only. -/
theorem error_of_process (h : s.process (eval fuel) = some (.error cause, s')) :
    ∃ e, cause = .runtime e := by
  unfold process at h
  split at h
  · cases h
  · cases h
    exact ⟨_, rfl⟩
  unfold runTokens at h
  split at h
  · cases h
  obtain ⟨r, -, h⟩ := Option.bind_eq_some_iff.1 h
  split at h <;> cases h
  exact ⟨_, rfl⟩

/-- Only a script ends unexpectedly, a line does not. -/
theorem tryInterpret_ne_unexpectedEnd {line : String} :
    s.tryInterpret fuel line ≠ some (.error .unexpectedEnd, s') := by
  intro h
  obtain ⟨⟨answer, s1⟩, hfeed, h⟩ := Option.bind_eq_some_iff.1 h
  cases answer with
  | ok status => cases h
  | error cause =>
    cases h
    rcases hread : s.reader.read line with ⟨result, reader⟩
    unfold feed at hfeed
    rw [hread] at hfeed
    cases result with
    | complete tokens =>
      obtain ⟨e, he⟩ := error_of_process hfeed
      cases he
    | incomplete tokens remainder => cases hfeed
    | failure cause => cases hfeed

/-! ## Lines -/

/-- The lines are taken one after the other, and none of them gives an error. -/
inductive Takes (fuel : Nat) : Session κ → List String → Session κ → Prop where
  | nil {s : Session κ} : Takes fuel s [] s
  | line {s s1 s' : Session κ} {line : String} {rest : List String} {status : Status}
    (h : s.tryInterpret fuel line = some (.ok status, s1)) (hrest : Takes fuel s1 rest s') :
    Takes fuel s (line :: rest) s'

/-- Lines that are taken are answered with the status of the last one, which tells whether something
is pending then. -/
theorem tryLines_of_takes (h : s.Takes fuel lines s')
    (hs : lines = [] → (s.isPending = true ↔ status = .incomplete)) :
    ∃ last, s.tryLines fuel status lines = some (.ok last, s') ∧
      (s'.isPending = true ↔ last = .incomplete) := by
  induction h generalizing status with
  | nil => exact ⟨status, rfl, hs rfl⟩
  | line h _ ih =>
    have hpending := isPending_tryInterpret h
    rw [Except.ok.injEq] at hpending
    obtain ⟨last, hlines, hlast⟩ := ih fun _ => hpending
    exact ⟨last, by rw [tryLines, h]; exact hlines, hlast⟩

/-- Lines that end without an error are all taken. -/
theorem takes_of_tryLines {last : Status}
    (h : s.tryLines fuel status lines = some (.ok last, s')) : s.Takes fuel lines s' := by
  induction lines generalizing s status with
  | nil => cases h; exact .nil
  | cons line rest ih =>
    obtain ⟨⟨answer, s1⟩, hline, h⟩ := Option.bind_eq_some_iff.1 h
    cases answer with
    | ok status => exact .line hline (ih h)
    | error cause => cases h

/-- The first line that gives an error is the last one that is taken. -/
theorem tryLines_error_iff : s.tryLines fuel status lines = some (.error cause, s') ↔
    ∃ before line after u, lines = before ++ line :: after ∧ s.Takes fuel before u ∧
      u.tryInterpret fuel line = some (.error cause, s') := by
  constructor
  · intro h
    induction lines generalizing s status with
    -- without an error the lines before it are taken, and the first error ends the script
    | nil => cases h
    | cons line rest ih =>
      obtain ⟨⟨answer, s1⟩, hline, h⟩ := Option.bind_eq_some_iff.1 h
      cases answer with
      | ok status =>
        obtain ⟨before, line', after, u, rfl, htakes, hfails⟩ := ih h
        exact ⟨line :: before, line', after, u, rfl, .line hline htakes, hfails⟩
      | error cause =>
        cases h
        exact ⟨[], line, rest, s, rfl, .nil, hline⟩
  · rintro ⟨before, line, after, u, rfl, htakes, hfails⟩
    induction htakes generalizing status with
    | nil => rw [List.nil_append, tryLines, hfails]; rfl
    | line h _ ih => rw [List.cons_append, tryLines, h]; exact ih hfails

/-! ## Scripts -/

/-- How a script ends: it is done, it is cut off in the middle of something, or a line fails. -/
inductive Ends (fuel : Nat) (s : Session κ) (lines : List String) :
    Except InterpretError Unit → Session κ → Prop where
  | done {s' : Session κ} (h : s.Takes fuel lines s') (hs : s'.isPending = false) :
    Ends fuel s lines (.ok ()) s'
  | cutOff {u : Session κ} (h : s.Takes fuel lines u) (hu : u.isPending = true) :
    Ends fuel s lines (.error .unexpectedEnd) u.reset
  | failed {u s' : Session κ} {before after : List String} {line : String} {cause : InterpretError}
    (hlines : lines = before ++ line :: after) (h : s.Takes fuel before u)
    (hline : u.tryInterpret fuel line = some (.error cause, s')) :
    Ends fuel s lines (.error cause) s'

/-- After the end nothing is pending. -/
theorem Ends.isPending {result : Except InterpretError Unit} (h : s.Ends fuel lines result s') :
    s'.isPending = false := by
  cases h with
  | done h hs => exact hs
  | cutOff h hu => exact isPending_reset
  | failed hlines h hline =>
    rw [Bool.eq_false_iff, ne_eq, isPending_tryInterpret hline]
    simp

/-- **A script ends in one of the three ways**, if it has a line or nothing was open before it. -/
theorem runScript_eq_some_iff {source : String} (h : source ≠ "" ∨ s.isPending = false)
    {result : Except InterpretError Unit} :
    s.runScript fuel source = some (result, s') ↔ s.Ends fuel (Text.lines source) result s' := by
  -- a script without lines says nothing about what was pending before, so that nothing may be
  have hstart : Text.lines source = [] → (s.isPending = true ↔ Status.complete = .incomplete) := by
    intro hlines
    rw [h.resolve_left (not_not.2 (Text.lines_eq_nil_iff.1 hlines))]
    simp
  constructor
  · intro hrun
    obtain ⟨⟨answer, s1⟩, hlines, hrun⟩ := Option.bind_eq_some_iff.1 hrun
    cases answer with
    | ok status =>
      have htakes := takes_of_tryLines hlines
      obtain ⟨last, hlast, hpending⟩ := tryLines_of_takes htakes hstart
      rw [hlines] at hlast
      cases hlast
      cases status with
      | complete => cases hrun; exact .done htakes (by simpa using hpending)
      | incomplete => cases hrun; exact .cutOff htakes (hpending.2 rfl)
    | error cause =>
      cases hrun
      obtain ⟨before, line, after, u, heq, htakes, hfails⟩ := tryLines_error_iff.1 hlines
      exact .failed heq htakes hfails
  · intro hends
    cases hends with
    | done htakes hs =>
      obtain ⟨last, hlines, hpending⟩ := tryLines_of_takes htakes hstart
      rw [runScript, hlines]
      cases last with
      | complete => rfl
      | incomplete => rw [hpending.2 rfl] at hs; cases hs
    | cutOff htakes hu =>
      obtain ⟨last, hlines, hpending⟩ := tryLines_of_takes htakes hstart
      rw [runScript, hlines, hpending.1 hu]
      rfl
    | failed heq htakes hfails =>
      rw [runScript, tryLines_error_iff.2 ⟨_, _, _, _, heq, htakes, hfails⟩]
      rfl

end Session

/-- **A script leaves nothing open.** Unless the script is empty and something was open before it,
no brackets, tokens or definition are pending afterwards, however it ends. It succeeds exactly if
every line was taken and nothing is open behind the last one. It ends unexpectedly exactly if every
line was taken and something is open then, which is forgotten. An empty script does nothing. -/
theorem script_leaves_nothing_open {κ : Type} [Commands κ] (s : Session κ) (fuel : Nat)
    (source : String) :
    (source ≠ "" ∨ s.isPending = false →
      (∀ result s', s.runScript fuel source = some (result, s') → s'.isPending = false ∧
        s'.reader.carried = "" ∧ s'.capture = none ∧ s'.buffer = []) ∧
      (∀ s', s.runScript fuel source = some (.ok (), s') ↔
        s.Takes fuel (Text.lines source) s' ∧ s'.isPending = false) ∧
      ∀ s', s.runScript fuel source = some (.error .unexpectedEnd, s') ↔
        ∃ u, s.Takes fuel (Text.lines source) u ∧ u.isPending = true ∧ s' = u.reset) ∧
    (source = "" → s.runScript fuel source = some (.ok (), s)) := by
  refine ⟨fun h => ⟨fun result s' hrun => ?_, fun s' => ?_, fun s' => ?_⟩, ?_⟩
  · have hpending := ((Session.runScript_eq_some_iff h).1 hrun).isPending
    obtain ⟨hreader, hcapture, hbuffer⟩ := Session.isPending_eq_false_iff.1 hpending
    exact ⟨hpending, by simpa [Reader.isPending] using hreader, hcapture, hbuffer⟩
  · rw [Session.runScript_eq_some_iff h]
    constructor
    · intro hends
      cases hends with
      | done htakes hs => exact ⟨htakes, hs⟩
    · rintro ⟨htakes, hs⟩
      exact .done htakes hs
  · rw [Session.runScript_eq_some_iff h]
    constructor
    · intro hends
      cases hends with
      | cutOff htakes hu => exact ⟨_, htakes, hu, rfl⟩
      | failed hlines htakes hfails => exact absurd hfails Session.tryInterpret_ne_unexpectedEnd
    · rintro ⟨u, htakes, hu, rfl⟩
      exact .cutOff htakes hu
  · rintro rfl
    rfl

/-- A script whose lines go on with a list that was opened before, and do not close it. -/
theorem script_leaves_nothing_open_list :
    ∃ s u : Session (Command Empty), s.isPending = true ∧ "1 (2\n+ 3" ≠ "" ∧
      s.Takes 30 (Text.lines "1 (2\n+ 3") u ∧ u.isPending = true ∧
      s.runScript 30 "1 (2\n+ 3" = some (.error .unexpectedEnd, u.reset) ∧
      u.reset.isPending = false ∧ u.reset.reader.carried = "" := by
  have hlines : ((Session.start .silent : Session (Command Empty)).tryInterpret 30 "print [").any
      (fun x => Session.asksForMore x.1 && (x.2.tryInterpret 30 "1 (2").any
        fun y => Session.asksForMore y.1 && (y.2.tryInterpret 30 "+ 3").any
          fun z => Session.asksForMore z.1) = true := by
    decide +kernel
  obtain ⟨⟨answer, s⟩, hs, hnext⟩ := (Option.any_eq_true _ _).1 hlines
  obtain ⟨hopen, hnext⟩ := (Bool.and_eq_true _ _).mp hnext
  obtain ⟨⟨answer1, s1⟩, hs1, hnext⟩ := (Option.any_eq_true _ _).1 hnext
  obtain ⟨hmore1, hnext⟩ := (Bool.and_eq_true _ _).mp hnext
  obtain ⟨⟨answer2, u⟩, hu, hmore2⟩ := (Option.any_eq_true _ _).1 hnext
  rw [Session.asksForMore_eq_true_iff] at hopen hmore1 hmore2
  cases hmore1
  cases hmore2
  have hsource : Text.lines "1 (2\n+ 3" = ["1 (2", "+ 3"] := by decide
  have htakes : s.Takes 30 (Text.lines "1 (2\n+ 3") u := by
    rw [hsource]
    exact .line hs1 (.line hu .nil)
  have hpending := (Session.isPending_tryInterpret hs).2 hopen
  have hpending' := (Session.isPending_tryInterpret hu).2 rfl
  obtain ⟨hafter, -, hcut⟩ := (script_leaves_nothing_open s 30 "1 (2\n+ 3").1 (.inl (by decide))
  have hrun := (hcut u.reset).2 ⟨u, htakes, hpending', rfl⟩
  obtain ⟨hnone, hcarried, -⟩ := hafter _ _ hrun
  exact ⟨s, u, hpending, by decide, htakes, hpending', hrun, hnone, hcarried⟩

/-- The empty script succeeds in the middle of a list, and leaves the list open. -/
theorem empty_script_leaves_list_open :
    ∃ s : Session (Command Empty), s.Driven true ∧ s.isPending = true ∧
      s.runScript 0 "" = some (.ok (), s) ∧
    ¬ ∀ (s s' : Session (Command Empty)) (waits : Bool) (fuel : Nat) (source : String)
      (result : Except InterpretError Unit), s.Driven waits →
      s.runScript fuel source = some (result, s') → s'.isPending = false := by
  have hline : ((Session.start .silent : Session (Command Empty)).tryInterpret 30 "print [").any
      (fun x => Session.asksForMore x.1) = true := by
    decide +kernel
  obtain ⟨⟨answer, s⟩, hs, hopen⟩ := (Option.any_eq_true _ _).1 hline
  have hdriven : s.Driven true := hopen ▸ .line (.start .silent) hs
  have hpending := Session.isPending_of_driven hdriven
  refine ⟨s, hdriven, hpending, rfl, fun h => ?_⟩
  have hnone := h s s true 0 "" (.ok ()) hdriven rfl
  rw [hpending] at hnone
  cases hnone

end Logo
