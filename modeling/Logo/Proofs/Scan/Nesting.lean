import Logo.Proofs.Scan.RoundTrip
import Mathlib

/-!
# Complete texts are the well-nested ones

The search for a closing bracket counts brackets of one kind only, and what it finds between two
brackets is scanned on its own. Still a text is complete exactly if the brackets of both kinds that
stand outside of comments are well nested.

* `visibleBrackets`: the brackets outside of comments.
* `WellNested`: the language of well-nested brackets, said without the scanner.
* `Bracket.split_visibleBrackets`: the search finds the same bracket in a text and among its visible
  brackets.
* `exists_scan_complete_iff`: the scanner accepts exactly the texts with well-nested brackets.
-/

namespace Logo

/-- Whether a character is a bracket. -/
def isBracket (c : Char) : Bool :=
  c == '[' || c == ']' || c == '(' || c == ')'

/-- The brackets of a text that stand outside of comments. A comment begins with a semicolon and
ends with its line; `inComment` tells whether the text begins inside one. -/
def visibleBrackets (inComment : Bool) : List Char → List Char
  | [] => []
  | c :: cs =>
    if inComment then visibleBrackets (c != '\n') cs
    else if isBracket c then c :: visibleBrackets false cs
    else visibleBrackets (c == ';') cs

/-- Brackets of both kinds that are well nested: nothing, or a pair of the same kind with
well-nested brackets inside and behind it. -/
inductive WellNested : List Char → Prop where
  | nil : WellNested []
  | pair (b : Bracket) {inside after : List Char} (hinside : WellNested inside)
    (hafter : WellNested after) : WellNested (b.opening :: (inside ++ b.closing :: after))

/-! ## Visible brackets -/

theorem isBracket_eq_false {c : Char} : isBracket c = false ↔
    c ≠ '[' ∧ c ≠ ']' ∧ c ≠ '(' ∧ c ≠ ')' := by
  simp [isBracket, and_assoc]

theorem Bracket.isBracket_opening (b : Bracket) : isBracket b.opening = true := by
  cases b <;> rfl

theorem Bracket.isBracket_closing (b : Bracket) : isBracket b.closing = true := by
  cases b <;> rfl

variable {c : Char} {cs : List Char}

theorem visibleBrackets_inComment_cons :
    visibleBrackets true (c :: cs) = visibleBrackets (c != '\n') cs := by
  rw [visibleBrackets, if_pos rfl]

theorem visibleBrackets_bracket (h : isBracket c = true) :
    visibleBrackets false (c :: cs) = c :: visibleBrackets false cs := by
  rw [visibleBrackets, if_neg (by decide), if_pos h]

theorem visibleBrackets_other (h : isBracket c = false) :
    visibleBrackets false (c :: cs) = visibleBrackets (c == ';') cs := by
  rw [visibleBrackets, if_neg (by decide), if_neg (by simp [h])]

/-- A character that is neither a bracket nor a semicolon leaves no trace. -/
theorem visibleBrackets_skip (h : isBracket c = false) (hsemi : c ≠ ';') :
    visibleBrackets false (c :: cs) = visibleBrackets false cs := by
  rw [visibleBrackets_other h, beq_eq_false_iff_ne.2 hsemi]

theorem visibleBrackets_blank (h : Text.isBlank c = true) :
    visibleBrackets false (c :: cs) = visibleBrackets false cs := by
  have hne (d : Char) (hd : Text.isBlank d = false) : c ≠ d := by
    rintro rfl
    rw [h] at hd
    cases hd
  exact visibleBrackets_skip (isBracket_eq_false.2 ⟨hne _ (by decide), hne _ (by decide),
    hne _ (by decide), hne _ (by decide)⟩) (hne _ (by decide))

theorem visibleBrackets_continuesWord (h : continuesWord true c = true) :
    visibleBrackets false (c :: cs) = visibleBrackets false cs := by
  obtain ⟨-, h1, h2, h3, h4, h5⟩ := continuesWord_true_iff.1 h
  exact visibleBrackets_skip (isBracket_eq_false.2 ⟨h1, h2, h3, h4⟩) h5

/-- A word has no brackets in it. -/
theorem visibleBrackets_dropWord (quoted : Bool) :
    visibleBrackets false (cs.dropWhile (continuesWord quoted)) = visibleBrackets false cs := by
  induction cs with
  | nil => rfl
  | cons d cs ih =>
    by_cases hd : continuesWord quoted d = true
    · rw [List.dropWhile_cons_of_pos hd, ih,
        visibleBrackets_continuesWord (continuesWord_of_quoted hd)]
    · rw [List.dropWhile_cons_of_neg hd]

/-- The inside of a comment shows nothing. -/
theorem visibleBrackets_inComment :
    visibleBrackets true cs = visibleBrackets false (cs.dropWhile (· != '\n')) := by
  induction cs with
  | nil => rfl
  | cons d cs ih =>
    rw [visibleBrackets_inComment_cons]
    by_cases hd : d = '\n'
    · subst hd
      exact (visibleBrackets_blank (by decide)).symm
    · rw [bne_iff_ne.2 hd, ih]
      simp [hd]

/-- **The search for a closing bracket looks at visible brackets only**: it finds the same bracket
in a text and among the visible brackets of the text. -/
theorem Bracket.split_visibleBrackets (b : Bracket) (depth : Nat) (inComment : Bool)
    (cs : List Char) : b.split depth false (visibleBrackets inComment cs) =
      (b.split depth inComment cs).map fun (inside, after) =>
        (visibleBrackets inComment inside, visibleBrackets false after) := by
  induction cs generalizing depth inComment with
  | nil => rfl
  | cons c cs ih =>
    cases inComment with
    | true =>
      rw [visibleBrackets_inComment_cons, ih, split_inComment_cons, Option.map_map]
      rfl
    | false =>
      -- a visible bracket is put in front of the inside, before or after the others are hidden
      have hcons (depth : Nat) (hc : isBracket c = true) :
          (b.split depth false (visibleBrackets false cs)).map
              (fun (inside, after) => (c :: inside, after)) =
            ((b.split depth false cs).map fun (inside, after) => (c :: inside, after)).map
              fun (inside, after) =>
                (visibleBrackets false inside, visibleBrackets false after) := by
        rw [ih, Option.map_map, Option.map_map]
        congr 1
        funext ⟨inside, after⟩
        simp only [Function.comp_apply, visibleBrackets_bracket hc]
      by_cases hclose : c = b.closing
      · subst hclose
        rw [visibleBrackets_bracket b.isBracket_closing]
        cases depth with
        | zero =>
          rw [split_closing_zero, split_closing_zero]
          rfl
        | succ depth =>
          rw [split_closing_succ, split_closing_succ, hcons depth b.isBracket_closing]
      by_cases hopen : c = b.opening
      · subst hopen
        rw [visibleBrackets_bracket b.isBracket_opening, split_opening, split_opening,
          hcons (depth + 1) b.isBracket_opening]
      rw [b.split_other depth cs hopen hclose]
      cases hc : isBracket c with
      | true =>
        have hsemi : (c == ';') = false := by
          rw [beq_eq_false_iff_ne]
          rintro rfl
          cases hc
        rw [visibleBrackets_bracket hc, b.split_other depth _ hopen hclose, hsemi, hcons depth hc]
      | false =>
        rw [visibleBrackets_other hc, ih, Option.map_map]
        congr 1
        funext ⟨inside, after⟩
        simp only [Function.comp_apply, visibleBrackets_other hc]

/-! ## Well-nested brackets -/

theorem Bracket.opening_injective {b b' : Bracket} (h : b.opening = b'.opening) : b = b' := by
  cases b <;> cases b' <;> first | rfl | exact absurd h (by decide)

theorem not_wellNested_close {v : List Char} (h : c = ']' ∨ c = ')') : ¬ WellNested (c :: v) := by
  intro hv
  cases hv with
  | pair b => cases b <;> simp [Bracket.opening] at h

/-- In well-nested brackets the search for a closing bracket ends at the depth at which it began. -/
theorem WellNested.passes {v : List Char} (h : WellNested v) (b : Bracket) : b.Passes v := by
  induction h with
  | nil => exact Bracket.passes_nil
  | @pair b' inside after _ _ hinside hafter =>
    have hpair := (hinside.bracketed b').append hafter
    simpa using hpair

/-- An opening bracket begins well-nested brackets exactly if the search finds the closing one, with
well-nested brackets before and behind it. -/
theorem wellNested_opening_iff {b : Bracket} {v : List Char} : WellNested (b.opening :: v) ↔
    ∃ inside after, b.split 0 false v = some (inside, after) ∧ WellNested inside ∧
      WellNested after := by
  constructor
  · intro h
    generalize hu : b.opening :: v = u at h
    cases h with
    | nil => cases hu
    | @pair b' inside after hinside hafter =>
      obtain ⟨hb, rfl⟩ := List.cons.inj hu
      cases Bracket.opening_injective hb
      refine ⟨inside, after, ?_, hinside, hafter⟩
      -- what is well nested inside does not close the bracket, so that the search stops at the
      -- right one
      rw [hinside.passes b, b.split_closing_zero]
      simp
  · rintro ⟨inside, after, hsplit, hinside, hafter⟩
    rw [b.eq_of_split hsplit]
    exact .pair b hinside hafter

/-! ## The scanner -/

/-- One more token makes no difference to whether a scan is complete. -/
theorem Scan.exists_push_eq_complete {t : Token} {s : Scan} :
    (∃ ts, s.push t = .complete ts) ↔ ∃ ts, s = .complete ts := by
  simp only [push_eq_complete]
  constructor
  · rintro ⟨_, us, hus, -⟩
    exact ⟨us, hus⟩
  · rintro ⟨us, hus⟩
    exact ⟨_, us, hus, rfl⟩

/-- Brackets are complete if their inside is, and the text behind them. -/
theorem Bracket.exists_scanClosed_eq_complete {b : Bracket} {inside after : Scan} :
    (∃ ts, b.scanClosed inside after = .complete ts) ↔
      (∃ ts, inside = .complete ts) ∧ ∃ ts, after = .complete ts := by
  cases inside with
  | complete children =>
    rw [scanClosed, Scan.exists_push_eq_complete]
    simp
  | incomplete tokens remainder => simp [scanClosed]
  | failure cause => simp [scanClosed]

/-- **A scan is complete exactly if the visible brackets are well nested.** -/
theorem exists_scan_complete_iff (previous : Option Char) (cs : List Char) :
    (∃ ts, scan previous cs = .complete ts) ↔ WellNested (visibleBrackets false cs) := by
  induction previous, cs using scan_induction with
  | nil previous =>
    rw [scan_nil]
    exact ⟨fun _ => .nil, fun _ => ⟨[], rfl⟩⟩
  | blank previous c rest hb ih => rw [scan_blank hb, visibleBrackets_blank hb, ih]
  | comment previous rest ih =>
    rw [scan_comment, Scan.exists_push_eq_complete, ih, visibleBrackets_other (by decide),
      beq_self_eq_true, visibleBrackets_inComment]
  | close previous c rest hc =>
    have hbracket : isBracket c = true := by rcases hc with rfl | rfl <;> rfl
    rw [scan_close hc, visibleBrackets_bracket hbracket]
    exact ⟨nofun, fun h => absurd h (not_wellNested_close hc)⟩
  | unclosed previous b rest hs =>
    -- no bracket closes the opening one, in the text as among the visible brackets
    have hvisible := b.split_visibleBrackets 0 false rest
    rw [scan_unclosed hs, visibleBrackets_bracket b.isBracket_opening, wellNested_opening_iff,
      hvisible, hs]
    exact ⟨nofun, nofun⟩
  | closed previous b rest inside after hs ihInside ihAfter =>
    have hvisible := b.split_visibleBrackets 0 false rest
    rw [scan_closed hs, visibleBrackets_bracket b.isBracket_opening, wellNested_opening_iff,
      hvisible, hs, Bracket.exists_scanClosed_eq_complete, ihInside, ihAfter]
    simp
  | operator previous c rest op hc hop ih =>
    rw [scan_operator hc hop, Scan.exists_push_eq_complete, ih, visibleBrackets_continuesWord hc]
  | word previous c rest hc hop ih =>
    rw [scan_word hc hop, Scan.exists_push_eq_complete, ih, visibleBrackets_dropWord,
      visibleBrackets_continuesWord hc]

/-- **A text is complete exactly if its brackets outside of comments are well nested.** The inside
of closed brackets is scanned on its own, and it is shorter than the text from the opening bracket
on, so that the scan of every text ends. -/
theorem tokenize_complete_iff_wellNested (text : String) :
    ((∃ ts, tokenize text = .complete ts) ↔ WellNested (visibleBrackets false text.toList)) ∧
    ∀ (previous : Option Char) (b : Bracket) (rest inside after : List Char),
      b.split 0 false rest = some (inside, after) →
      scan previous (b.opening :: rest) =
          b.scanClosed (scan none inside) (scan (some b.closing) after) ∧
        inside.length < (b.opening :: rest).length := by
  refine ⟨exists_scan_complete_iff none text.toList, fun previous b rest inside after h => ?_⟩
  refine ⟨scan_closed h, ?_⟩
  rw [b.eq_of_split h, List.length_cons, List.length_append, List.length_cons]
  omega

/-- Brackets of two kinds with a closing bracket in a comment between them, and brackets that cross
each other. -/
theorem tokenize_complete_iff_wellNested_crossing :
    (∃ ts, tokenize "[a (b ;]\n) c]" = .complete ts) ∧
    (¬ ∃ ts, tokenize "[a (b] c)" = .complete ts) ∧
    Bracket.square.split 0 false "a (b] c)".toList = some ("a (b".toList, " c)".toList) ∧
    "a (b".toList.length < "[a (b] c)".toList.length := by
  have hnested : WellNested (visibleBrackets false "[a (b ;]\n) c]".toList) :=
    .pair .square (.pair .round .nil .nil) .nil
  have hcrossing : ¬ ∃ ts, tokenize "[a (b] c)" = .complete ts := by
    rw [(tokenize_complete_iff_wellNested _).1]
    have hvisible : visibleBrackets false "[a (b] c)".toList =
        Bracket.square.opening :: "(])".toList := by
      decide
    rw [hvisible, wellNested_opening_iff]
    rintro ⟨inside, after, hsplit, hinside, -⟩
    cases hsplit
    obtain ⟨_, _, hnone, -⟩ := (wellNested_opening_iff (b := .round)).1 hinside
    cases hnone
  have hsplit : Bracket.square.split 0 false "a (b] c)".toList =
      some ("a (b".toList, " c)".toList) := by
    decide
  exact ⟨(tokenize_complete_iff_wellNested _).1.2 hnested, hcrossing, hsplit,
    ((tokenize_complete_iff_wellNested "").2 none .square _ _ _ hsplit).2⟩

end Logo
