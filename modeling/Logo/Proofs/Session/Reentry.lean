import Logo.Proofs.Scan.RoundTrip
import Logo.Proofs.Session.Layout
import Logo.Proofs.Text.Lowercase
import Mathlib

/-!
# Printed definitions

A procedure keeps the text of its definition. The text has the tokens of the definition in it, so it
can be entered again, as a whole or line by line, and gives the same procedure.

* `tokenize_source`: the tokens of the text.
* `Registry.lookup_register`: a name that is not fixed goes to the procedure that takes it.
* `definition_reenters`: the text is entered again.
-/

namespace Logo

variable {κ : Type}

/-! ## Definitions -/

/-- The tokens of a definition, up to its `end`: `to`, a name that may be defined, and more. -/
structure IsBlock (tokens : List Token) (name : String) : Prop where
  begins : ∃ t rest, t.isWordNamed "to" = true ∧ tokens = t :: .word name :: rest
  goesOn : 2 < tokens.length
  noEnd : ∀ t ∈ tokens, t.isWordNamed "end" = false
  name_ne : Text.equalsIgnoringCase name "to" = false

variable {tokens : List Token} {name : String} {p : Procedure κ} {w : Workspace κ}

/-- The tokens of a definition, closed with `end`, are a block. -/
theorem IsBlock.exists_block (h : IsBlock tokens name) :
    ∃ b : Block, b.captured = tokens ∧ b.tokens = tokens ++ [.word "end"] := by
  have hnoEnd := h.noEnd
  obtain ⟨t, rest, hto, rfl⟩ := h.begins
  exact ⟨⟨t, .word name :: rest, .word "end", hto, (List.forall_mem_cons.1 hnoEnd).2, by decide⟩,
    rfl, rfl⟩

/-- What a definition says of its procedure. -/
theorem Procedure.define_spec (hblock : IsBlock tokens name) (h : define tokens = .ok p) :
    p.names = [Text.lowercase name] ∧ p.redefinability = .replace ∧
      ∃ d, p.definition? = some d ∧ d.source = joinTokens tokens ++ " end" := by
  obtain ⟨t, rest, -, rfl⟩ := hblock.begins
  obtain ⟨p', d, hp', hnames, hreplace, hkind, hsource⟩ := define_word (κ := κ) t name rest
  cases hp'.symm.trans h
  exact ⟨hnames, hreplace, d, by rw [definition?, hkind], hsource⟩

/-- The text of a definition has its tokens in it, and `end`. -/
theorem tokenize_source (h : ∀ t ∈ tokens, t.Spelled) :
    tokenize (joinTokens tokens ++ " end") = .complete (tokens ++ [.word "end"]) := by
  have hend : scan none "end".toList = .complete [.word "end"] := by cbv
  rw [tokenize, String.toList_append,
    show " end".toList = ' ' :: "end".toList by decide,
    scan_joinTokens_append (fun t ht => scan_text_of_spelled (h t ht)) (by decide), hend]
  rfl

/-- A name that is not fixed goes to a procedure that takes it over. -/
theorem Registry.lookup_register {r : Registry κ} (hnames : p.names = [Text.lowercase name])
    (hp : p.redefinability = .replace) (hfree : r.isFixed name = false) :
    (r.register p).lookup name = [p] := by
  have hholders : ((r.index.find? (Text.lowercase name)).getD []).any
      (·.redefinability == .fixed) = false := hfree
  simp [lookup, register, hnames, enlistUnder, Table.find?_insert, enlist, hholders, hp]

theorem Registry.lookup_lowercase (r : Registry κ) (name : String) :
    r.lookup (Text.lowercase name) = r.lookup name := by
  rw [lookup, lookup, Text.lowercase_lowercase]

/-! ## Capturing a definition -/

/-- A definition whose name is free is compiled to its procedure. -/
theorem compileDefinition_block (hblock : IsBlock tokens name)
    (hp : Procedure.define tokens = .ok p) (hfree : w.registry.isFixed name = false) :
    compileDefinition w tokens = .ok ((w.register p).narrate (.defined p.name)) := by
  have hallowed : ¬ w.Reserves name := by
    simp [Workspace.reserves_iff, hblock.name_ne, hfree]
  have hlength := hblock.goesOn
  obtain ⟨t, rest, -, rfl⟩ := hblock.begins
  have hrest : rest ≠ [] := by
    rintro rfl
    exact absurd hlength (Nat.lt_irrefl 2)
  exact compileDefinition_of_free hallowed hrest hp

/-- A block is captured up to its `end`, and nothing is left. -/
theorem captureDefinitions_block (hblock : IsBlock tokens name)
    (hp : Procedure.define tokens = .ok p) (hfree : w.registry.isFixed name = false) :
    captureDefinitions w none (tokens ++ [.word "end"]) =
      .ready ((w.register p).narrate (.defined p.name)) [] := by
  have hcompile := compileDefinition_block hblock hp hfree
  obtain ⟨b, hcaptured, htokens⟩ := hblock.exists_block
  rw [← hcaptured] at hcompile
  rw [← htokens, ← List.append_nil b.tokens, captureDefinitions_tokens hcompile]
  exact captureDefinitions_nil

/-- Before its `end`, a definition waits from its first token on. -/
theorem isIdle_of_prefix (hblock : IsBlock tokens name) {before : List Token}
    (h : before <+: tokens) : (captureDefinitions w none before).IsIdle := by
  obtain ⟨b, rfl, -⟩ := hblock.exists_block
  exact isIdle_of_prefix_captured h

/-! ## Entering it again -/

/-- **The text of a definition can be entered again.** It is split into the tokens of the
definition, with `end` behind them. In a session where nothing is pending and the name is not fixed,
it is taken, as a whole or cut at any of its line feeds; then nothing is pending, and the name calls
the same procedure and no other. -/
theorem definition_reenters [Commands κ] (text : String) (tokens : List Token) (name : String)
    (p : Procedure κ) (htext : tokenize text = .complete tokens) (hblock : IsBlock tokens name)
    (hp : Procedure.define tokens = .ok p) :
    ∃ d, p.definition? = some d ∧ tokenize d.source = .complete (tokens ++ [.word "end"]) ∧
      ∀ (s : Session κ) (pieces : List String) (fuel : Nat), s.isPending = false →
        s.workspace.registry.isFixed name = false → "\n".intercalate pieces = d.source →
        ∃ s' : Session κ, s.tryLines fuel .complete pieces = some (.ok .complete, s') ∧
          s'.isPending = false ∧ s'.workspace.lookup p.name = [p] := by
  obtain ⟨hnames, hreplace, d, hd, hsource⟩ := Procedure.define_spec hblock hp
  have hscan : tokenize d.source = .complete (tokens ++ [.word "end"]) := by
    rw [hsource]
    exact tokenize_source (spelled_of_scan htext)
  refine ⟨d, hd, hscan, fun s pieces fuel hs hfree hpieces => ?_⟩
  have hcuts : pieces ≠ [] := by
    rintro rfl
    rw [← hpieces] at hsource
    simpa using congrArg String.toList hsource
  obtain ⟨hread, -⟩ := Session.isPending_eq_false_iff.1 hs
  have hready := captureDefinitions_block hblock hp hfree
  -- wherever the text is cut, what has been read so far leaves nothing to carry out
  have hidle : ∀ before, before <+: tokens ++ [.word "end"] →
      (captureDefinitions s.workspace none before).IsIdle := by
    intro before hbefore
    rcases List.prefix_concat_iff.1 hbefore with rfl | hbefore
    · rw [hready]
      rfl
    · exact isIdle_of_prefix hblock hbefore
  obtain ⟨s', htry, hreader, hholds, hsettled⟩ := Session.tryLines_of_holds
    (Session.holds_of_not_pending hs) hcuts
    (by rw [Reader.join_of_not_pending hread, hpieces, hscan]) hidle fuel .complete
  rw [List.nil_append] at htry hholds hsettled
  rw [hready] at htry hsettled
  have hdone : s'.isPending = false := by
    rw [Session.isPending_eq_false_iff, hreader]
    exact ⟨rfl, hsettled.capture rfl, hsettled.buffer⟩
  refine ⟨s', htry, hdone, ?_⟩
  -- the notes differ with the cuts, and the registry does not
  have hregistry : s'.workspace.registry = s.workspace.registry.register p := by
    have hsame := hholds.workspace_eq hdone hready
    rw [Workspace.withoutNotes_narrate, Workspace.withoutNotes_register] at hsame
    exact congrArg Workspace.registry hsame
  have hname : p.name = Text.lowercase name := (List.cons.inj hnames).1
  rw [Workspace.lookup, hregistry, hname, Registry.lookup_lowercase,
    Registry.lookup_register hnames hreplace hfree]

/-- A definition with a comment, whose text is cut behind the comment. -/
theorem definition_reenters_comment :
    ∃ (tokens : List Token) (p : Procedure (Command Empty)),
      tokenize "TO Twice :x ; doubles\nprint :x*-2" = .complete tokens ∧
      IsBlock tokens "Twice" ∧ Procedure.define tokens = .ok p ∧
      ∃ s', (Session.start .silent).tryLines 0 .complete
          ["TO Twice :x ; doubles", "print :x * -2 end"] = some (.ok .complete, s') ∧
        s'.isPending = false ∧ s'.workspace.lookup p.name = [p] := by
  have htext : tokenize "TO Twice :x ; doubles\nprint :x*-2" = .complete
      [.word "TO", .word "Twice", .reference ":x", .comment "; doubles", .word "print",
        .reference ":x", .operator .multiply, .literal "-2" (.number ⟨-2, 0⟩)] := by
    cbv
  have hblock : IsBlock [.word "TO", .word "Twice", .reference ":x", .comment "; doubles",
      .word "print", .reference ":x", .operator .multiply, .literal "-2" (.number ⟨-2, 0⟩)]
      "Twice" :=
    ⟨⟨_, _, by decide, rfl⟩, by decide, by decide, by decide⟩
  refine ⟨_, _, htext, hblock, rfl, ?_⟩
  obtain ⟨d, hd, -, henter⟩ := definition_reenters (κ := Command Empty) _ _ _ _ htext hblock rfl
  cases hd
  exact henter (Session.start .silent) _ 0 rfl (by decide +kernel) (by cbv)

end Logo
