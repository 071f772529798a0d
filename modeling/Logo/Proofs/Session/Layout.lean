import Logo.Proofs.Session.Capture
import Logo.Proofs.Session.Compile
import Mathlib

/-!
# The layout of definitions

A text that has only definitions in it may be laid out in any way: all definitions in one line, or a
line that ends behind `to`, among the inputs, inside a list or between two definitions. The same
procedures are compiled in the same order.

* `Block`: a definition as it is written, from `to` to `end`.
* `Session.tryLines_blocks`: a text of definitions, in any pieces.
* `layout_of_definitions_irrelevant`: the pieces against the whole text.
-/

namespace Logo

/-- A definition as it is written: `to`, tokens among which there is no word `end`, and `end`. -/
structure Block where
  opening : Token
  inside : List Token
  closing : Token
  opens : opening.isWordNamed "to" = true
  noEnd : ∀ t ∈ inside, t.isWordNamed "end" = false
  closes : closing.isWordNamed "end" = true

namespace Block

/-- The tokens that are captured, which are those before `end`. -/
def captured (b : Block) : List Token :=
  b.opening :: b.inside

/-- All tokens. -/
def tokens (b : Block) : List Token :=
  b.captured ++ [b.closing]

theorem isInside (b : Block) : ∀ t ∈ b.inside, isInside t = true := by
  intro t ht
  rw [Logo.isInside, b.noEnd t ht, Bool.not_false]

end Block

variable {κ : Type}

/-- Compiles definitions, one after the other. -/
def compileBlocks (w : Workspace κ) (blocks : List Block) : Except RuntimeError (Workspace κ) :=
  blocks.foldlM (fun w b => compileDefinition w b.captured) w

variable {w w' : Workspace κ}

/-- Blocks that can be compiled can be compiled one after the other. -/
theorem exists_compileBlocks {blocks : List Block}
    (h : ∀ b ∈ blocks, ∀ cause, compileDefinition w b.captured ≠ .error cause) :
    ∃ w', compileBlocks w blocks = .ok w' := by
  induction blocks generalizing w with
  | nil => exact ⟨w, rfl⟩
  | cons b blocks ih =>
    obtain ⟨hb, hblocks⟩ := List.forall_mem_cons.1 h
    cases hw : compileDefinition w b.captured with
    | error cause => exact absurd hw (hb cause)
    | ok w1 =>
      -- whether a definition can be compiled does not depend on those before it
      have hnext : ∀ b' ∈ blocks, ∀ cause, compileDefinition w1 b'.captured ≠ .error cause := by
        intro b' hb' cause herror
        exact hblocks b' hb' cause
          (compileDefinition_error_iff.2 (compileDefinition_error_iff.1 herror))
      obtain ⟨w', hw'⟩ := ih hnext
      refine ⟨w', ?_⟩
      rw [compileBlocks, List.foldlM_cons, hw]
      exact hw'

/-! ## Capturing blocks -/

/-- A block is captured and compiled, and what follows it is captured then. -/
theorem captureDefinitions_tokens {b : Block} (h : compileDefinition w b.captured = .ok w')
    (more : List Token) :
    captureDefinitions w none (b.tokens ++ more) = captureDefinitions w' none more := by
  have hclosing : isInside b.closing = false := by
    rw [isInside, b.closes, Bool.not_true]
  rw [Block.tokens, Block.captured, List.cons_append, List.cons_append, List.append_assoc,
    List.singleton_append, captureDefinitions_to b.opens,
    captureDefinitions_close b.isInside hclosing, List.singleton_append, ← Block.captured,
    closeDefinition, h]

/-- Definitions that follow each other are compiled one by one, and nothing is left. -/
theorem captureDefinitions_blocks {blocks : List Block} (h : compileBlocks w blocks = .ok w') :
    captureDefinitions w none (blocks.flatMap Block.tokens) = .ready w' [] := by
  induction blocks generalizing w with
  | nil =>
    cases h
    exact captureDefinitions_nil
  | cons b blocks ih =>
    rw [compileBlocks, List.foldlM_cons] at h
    cases hw : compileDefinition w b.captured with
    | error cause =>
      rw [hw] at h
      cases h
    | ok w1 =>
      rw [hw] at h
      rw [List.flatMap_cons, captureDefinitions_tokens hw]
      exact ih h

/-- Before its `end` a definition waits, from its first token on. -/
theorem isIdle_of_prefix_captured {b : Block} {before : List Token} (h : before <+: b.captured) :
    (captureDefinitions w none before).IsIdle := by
  cases before with
  | nil =>
    rw [captureDefinitions_nil]
    rfl
  | cons t before =>
    obtain ⟨rfl, hbefore⟩ := List.cons_prefix_cons.1 h
    rw [captureDefinitions_to b.opens,
      captureDefinitions_open fun u hu => b.isInside u (hbefore.subset hu)]
    trivial

/-- **Wherever a text of definitions is cut, nothing is left to carry out before the cut.** -/
theorem isIdle_of_prefix_blocks {blocks : List Block} (h : compileBlocks w blocks = .ok w')
    {before : List Token} (hbefore : before <+: blocks.flatMap Block.tokens) :
    (captureDefinitions w none before).IsIdle := by
  -- over the blocks: the cut is in the first of them, or behind it
  induction blocks generalizing w before with
  | nil =>
    rw [List.prefix_nil.1 hbefore, captureDefinitions_nil]
    rfl
  | cons b blocks ih =>
    rw [compileBlocks, List.foldlM_cons] at h
    cases hw : compileDefinition w b.captured with
    | error cause =>
      rw [hw] at h
      cases h
    | ok w1 =>
      rw [hw] at h
      rw [List.flatMap_cons] at hbefore
      rcases List.prefix_or_prefix_of_prefix hbefore (List.prefix_append _ _) with hin | ⟨more, rfl⟩
      · rcases List.prefix_concat_iff.1 hin with heq | hcaptured
        · have hall := captureDefinitions_tokens hw []
          rw [List.append_nil, captureDefinitions_nil] at hall
          rw [heq, ← Block.tokens, hall]
          rfl
        · exact isIdle_of_prefix_captured hcaptured
      · rw [captureDefinitions_tokens hw]
        exact ih h ((List.prefix_append_right_inj _).1 hbefore)

/-! ## Sessions -/

variable [Commands κ]

/-- **A text of definitions, in any pieces**, compiles its blocks in their order. -/
theorem Session.tryLines_blocks {s : Session κ} (hs : s.isPending = false) {blocks : List Block}
    (hcompile : compileBlocks s.workspace blocks = .ok w') {pieces : List String}
    (hpieces : pieces ≠ [])
    (htext : tokenize ("\n".intercalate pieces) = .complete (blocks.flatMap Block.tokens))
    (fuel : Nat) :
    ∃ s' : Session κ, s.tryLines fuel .complete pieces = some (.ok .complete, s') ∧
      s'.isPending = false ∧ s'.workspace.withoutNotes = w'.withoutNotes := by
  obtain ⟨hread, -⟩ := isPending_eq_false_iff.1 hs
  have hready := captureDefinitions_blocks hcompile
  obtain ⟨s', htry, hreader, hholds, hsettled⟩ := tryLines_of_holds (holds_of_not_pending hs) hpieces
    (by rw [Reader.join_of_not_pending hread, htext])
    (fun before hbefore => isIdle_of_prefix_blocks hcompile hbefore) fuel .complete
  rw [List.nil_append] at htry hholds hsettled
  rw [hready] at htry hsettled
  have hdone : s'.isPending = false := by
    rw [isPending_eq_false_iff, hreader]
    exact ⟨rfl, hsettled.capture rfl, hsettled.buffer⟩
  exact ⟨s', htry, hdone, hholds.workspace_eq hdone hready⟩

/-- One line is given like a text in one piece. -/
theorem Session.tryLines_singleton {s s' : Session κ} {fuel : Nat} {line : String} {status : Status}
    (h : s.tryLines fuel .complete [line] = some (.ok status, s')) :
    s.tryInterpret fuel line = some (.ok status, s') := by
  obtain ⟨⟨answer, s1⟩, htry, h⟩ := Option.bind_eq_some_iff.1 h
  cases answer with
  | ok status' =>
    cases h
    exact htry
  | error cause => cases h

/-- **The layout of definitions does not matter.** A text that consists of definitions, none of
which lacks a name, is given to a session where nothing is pending: at once, or cut into pieces at
any of its line feeds. Either way it is taken with the status `complete` and nothing is pending
afterwards, and apart from the notes the two workspaces are the same, with the same globals, the same
procedures under the same names, and the same lines written. It is the workspace in which the
definitions were compiled one after the other. -/
theorem layout_of_definitions_irrelevant (first : String) (rest : List String)
    (blocks : List Block)
    (htext : tokenize ("\n".intercalate (first :: rest)) =
      .complete (blocks.flatMap Block.tokens))
    (s : Session κ) (hs : s.isPending = false)
    (hnames : ∀ b ∈ blocks, ∀ cause, compileDefinition s.workspace b.captured ≠ .error cause)
    (fuel : Nat) :
    ∃ (w : Workspace κ) (atOnce inPieces : Session κ),
      compileBlocks s.workspace blocks = .ok w ∧
      s.tryInterpret fuel ("\n".intercalate (first :: rest)) = some (.ok .complete, atOnce) ∧
      s.tryLines fuel .complete (first :: rest) = some (.ok .complete, inPieces) ∧
      atOnce.isPending = false ∧ inPieces.isPending = false ∧
      inPieces.workspace.withoutNotes = atOnce.workspace.withoutNotes ∧
      atOnce.workspace.withoutNotes = w.withoutNotes := by
  obtain ⟨w, hw⟩ := exists_compileBlocks hnames
  have hsingle : tokenize ("\n".intercalate ["\n".intercalate (first :: rest)]) =
      .complete (blocks.flatMap Block.tokens) := by
    rw [String.intercalate_singleton, htext]
  obtain ⟨atOnce, htry, hdone, hsame⟩ :=
    Session.tryLines_blocks hs hw (List.cons_ne_nil _ _) hsingle fuel
  obtain ⟨inPieces, hpieces, hpiecesDone, hpiecesSame⟩ :=
    Session.tryLines_blocks hs hw (List.cons_ne_nil _ _) htext fuel
  exact ⟨w, atOnce, inPieces, hw, Session.tryLines_singleton htry, hpieces, hdone, hpiecesDone,
    hpiecesSame.trans hsame.symm, hsame⟩

/-- The definitions of `f` with an input and of `G` with a comment, and one over a fixed name. -/
def threeBlocks : List Block :=
  [⟨.word "to", [.word "f", .reference ":x", .word "print", .list [.word "a", .word "b"]],
      .word "end", by decide, by decide, by decide⟩,
    ⟨.word "TO", [.word "G", .comment "; help"], .word "END", by decide, by decide, by decide⟩,
    ⟨.word "to", [.word "print", .literal "1" (.number ⟨1, 0⟩)], .word "end", by decide, by decide,
      by decide⟩]

/-- Three definitions, cut behind an input, inside a list and behind a comment. The last of them is
refused, which is written once. -/
theorem layout_of_definitions_irrelevant_list :
    tokenize "to f :x\nprint [a\nb] end TO G ; help\nEND to print 1 end" =
      .complete (threeBlocks.flatMap Block.tokens) ∧
    ∃ atOnce inPieces : Session (Command Empty),
      (Session.start .silent).tryInterpret 0
        "to f :x\nprint [a\nb] end TO G ; help\nEND to print 1 end" =
          some (.ok .complete, atOnce) ∧
      (Session.start .silent).tryLines 0 .complete
        ["to f :x", "print [a", "b] end TO G ; help", "END to print 1 end"] =
          some (.ok .complete, inPieces) ∧
      inPieces.workspace.withoutNotes = atOnce.workspace.withoutNotes ∧
      atOnce.workspace.output.size = 1 ∧ (atOnce.workspace.lookup "g").length = 1 := by
  have hjoin : "\n".intercalate ["to f :x", "print [a", "b] end TO G ; help", "END to print 1 end"] =
      "to f :x\nprint [a\nb] end TO G ; help\nEND to print 1 end" := by
    decide +kernel
  have htext : tokenize "to f :x\nprint [a\nb] end TO G ; help\nEND to print 1 end" =
      .complete (threeBlocks.flatMap Block.tokens) := by
    cbv
  have hnames : ∀ b ∈ threeBlocks, ∀ cause,
      compileDefinition (Session.start .silent : Session (Command Empty)).workspace b.captured ≠
        .error cause := by
    intro b hb cause herror
    obtain ⟨-, hname⟩ := compileDefinition_error_iff.1 herror
    simp only [threeBlocks, List.mem_cons, List.not_mem_nil, or_false] at hb
    rcases hb with rfl | rfl | rfl <;> cases hname
  have hcompiled : (compileBlocks (Session.start .silent : Session (Command Empty)).workspace
      threeBlocks).toOption.any (fun w => w.output.size = 1 && (w.lookup "g").length = 1) := by
    decide +kernel
  obtain ⟨w, atOnce, inPieces, hw, htry, hpieces, -, -, hsame, hblocks⟩ :=
    layout_of_definitions_irrelevant (κ := Command Empty) "to f :x"
      ["print [a", "b] end TO G ; help", "END to print 1 end"] threeBlocks (by rw [hjoin, htext])
      (Session.start .silent) rfl hnames 0
  rw [hjoin] at htry
  rw [hw] at hcompiled
  simp only [Except.toOption, Option.any_some, Bool.and_eq_true, decide_eq_true_eq] at hcompiled
  have houtput : atOnce.workspace.output = w.output := congrArg (·.output) hblocks
  have hregistry : atOnce.workspace.registry = w.registry := congrArg (·.registry) hblocks
  refine ⟨htext, atOnce, inPieces, htry, hpieces, hsame, ?_, ?_⟩
  · rw [houtput]
    exact hcompiled.1
  · rw [Workspace.lookup, hregistry]
    exact hcompiled.2

end Logo
