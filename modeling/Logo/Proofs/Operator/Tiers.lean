import Logo.Proofs.Operator.Errors
import Mathlib

/-!
# Reduction is evaluation by tiers

A run of values and operators has a grammar: it is split at its loosest operators, the parts are
evaluated by the tighter tiers, and their values are combined from left to right (`valueByTiers`).
Reduction goes the other way. It rewrites the whole run in place, the tightest operator first.

* `result_reduceTier_append`, `result_reduceTier_frame`: the rewriting on one side of an operator of
  another tier does not see the other side.
* `valueByTiers_concat`: one pass over the run takes off the tightest tier of the grammar.
* `reduce_by_tiers`: both come to the same value, and why a run has none.
-/

namespace Logo

/-! ## Runs -/

/-- Operands that satisfy `p`, with one operator between any two neighbours. -/
inductive Alternating (p : Token → Bool) : List Token → Prop where
  | single {t : Token} (h : p t = true) : Alternating p [t]
  | cons {t : Token} (h : p t = true) (op : Operator) {rest : List Token}
    (hrest : Alternating p rest) : Alternating p (t :: .operator op :: rest)

namespace Alternating

variable {p : Token → Bool} {t u : Token} {op : Operator} {left right rest : List Token}

theorem append (hleft : Alternating p left) (op : Operator) (hright : Alternating p right) :
    Alternating p (left ++ .operator op :: right) := by
  induction hleft with
  | single h => exact .cons h op hright
  | cons h op' _ ih => exact .cons h op' ih

/-- The part before an operator alternates, and so does the part behind it. -/
theorem of_append (hp : ∀ op, p (.operator op) = false)
    (h : Alternating p (left ++ .operator op :: right)) :
    Alternating p left ∧ Alternating p right := by
  -- on the run; the operator is met behind its first operand, or further inside
  generalize htokens : left ++ .operator op :: right = tokens at h
  induction h generalizing left with
  | single h =>
    cases left with
    | nil =>
      cases htokens
      rw [hp op] at h
      cases h
    | cons t left => simp at htokens
  | cons h op' hrest ih =>
    rcases left with _ | ⟨t, _ | ⟨u, left⟩⟩
    · cases htokens
      rw [hp op] at h
      cases h
    · cases htokens
      exact ⟨.single h, hrest⟩
    · cases htokens
      obtain ⟨hleft, hright⟩ := ih rfl
      exact ⟨.cons h op' hleft, hright⟩

theorem exists_cons (h : Alternating p left) : ∃ t rest, left = t :: rest ∧ p t = true := by
  cases h with
  | single h => exact ⟨_, _, rfl, h⟩
  | cons h op _ => exact ⟨_, _, rfl, h⟩

/-- A run ends with an operand. -/
theorem exists_concat (h : Alternating p left) : ∃ t rest, left = rest ++ [t] ∧ p t = true := by
  induction h with
  | single h => exact ⟨_, [], rfl, h⟩
  | cons h op _ ih =>
    obtain ⟨t, rest, rfl, ht⟩ := ih
    exact ⟨t, _ :: _ :: rest, rfl, ht⟩

/-- An operand in place of the last operand of one run and the first of another. -/
theorem join (hleft : Alternating p (left ++ [t])) (hright : Alternating p (u :: right)) {v : Token}
    (hv : p v = true) : Alternating p (left ++ v :: right) := by
  -- on the left run, whose last operand is replaced
  generalize htokens : left ++ [t] = tokens at hleft
  induction hleft generalizing left with
  | single h =>
    cases left with
    | nil =>
      cases hright with
      | single _ => exact .single hv
      | cons _ op hrest => exact .cons hv op hrest
    | cons t left => simp at htokens
  | cons h op' hrest ih =>
    rcases left with _ | ⟨a, _ | ⟨b, left⟩⟩
    · cases htokens
    · cases htokens
      cases hrest
    · cases htokens
      exact .cons h op' (ih rfl)

end Alternating

theorem Token.operator?_eq_some_iff {t : Token} {op : Operator} :
    t.operator? = some op ↔ t = .operator op := by
  cases t <;> simp [operator?]

/-- **Induction along the operators of one tier**, from the last of them. -/
theorem tier_induction (op : Operator) {motive : List Token → Prop}
    (free : ∀ tokens, .operator op ∉ tokens → motive tokens)
    (split : ∀ left right, .operator op ∉ right → motive left →
      motive (left ++ .operator op :: right))
    (tokens : List Token) : motive tokens := by
  induction hn : tokens.length using Nat.strongRecOn generalizing tokens with
  | ind n ih =>
    by_cases hmem : Token.operator op ∈ tokens
    · obtain ⟨after, before, htokens, hafter⟩ :=
        List.eq_append_cons_of_mem (List.mem_reverse.2 hmem)
      have hsplit : tokens = before.reverse ++ .operator op :: after.reverse := by
        rw [← List.reverse_reverse tokens, htokens]
        simp
      have hlength : before.reverse.length < n := by
        rw [← hn, hsplit, List.length_append, List.length_cons]
        omega
      rw [hsplit]
      exact split _ _ (by simpa using hafter) (ih _ hlength _ rfl)
    · exact free tokens hmem

/-! ## One pass over a run -/

theorem except_bind_eq_ok_iff {ε α β : Type} {x : Except ε α} {f : α → Except ε β} {b : β} :
    x.bind f = .ok b ↔ ∃ a, x = .ok a ∧ f a = .ok b := by
  cases x with
  | error e =>
    refine ⟨fun h => (by cases h), ?_⟩
    rintro ⟨a, h, -⟩
    cases h
  | ok a =>
    refine ⟨fun h => ⟨a, rfl, h⟩, ?_⟩
    rintro ⟨a', h, hf⟩
    cases h
    exact hf

theorem except_map_eq_ok_iff {ε α β : Type} {x : Except ε α} {f : α → β} {b : β} :
    x.map f = .ok b ↔ ∃ a, x = .ok a ∧ f a = b := by
  cases x with
  | error e => simp [Except.map]
  | ok a => simp [Except.map]

/-- What a reduction comes to. -/
def Reduction.result (r : Reduction) : Except RuntimeError (List Token) :=
  match r.error with
  | none => .ok r.tokens
  | some cause => .error cause

section Pass

variable {op o : Operator} {s t : String} {a b v : Value} {token : Token}
  {left right done rest tokens : List Token}

theorem reduceTier_nil : reduceTier op done [] = ⟨done.reverse, none⟩ := by
  rw [reduceTier]

/-- A pass goes past everything but its own operator. -/
theorem reduceTier_other (h : token ≠ .operator op) :
    reduceTier op done (token :: rest) = reduceTier op (token :: done) rest := by
  rw [reduceTier.eq_def]
  exact if_neg (mt Token.operator?_eq_some_iff.1 h)

/-- An operator between two values is applied, and the pass goes on with the result on its left. -/
theorem result_reduceTier_apply :
    (reduceTier op (.literal s a :: done) (.operator op :: .literal t b :: rest)).result =
      (op.apply a b).bind fun v => (reduceTier op (.ofValue v :: done) rest).result := by
  rw [reduceTier.eq_def]
  simp only [Token.operator?, if_true]
  cases op.apply a b with
  | ok v => rfl
  | error cause => rfl

/-- An operator of the tier needs a value on each of its sides. -/
theorem exists_operands (h : (reduceTier op done (.operator op :: rest)).result = .ok tokens) :
    ∃ s a done' t b rest', done = .literal s a :: done' ∧ rest = .literal t b :: rest' := by
  rw [reduceTier.eq_def] at h
  simp only [Token.operator?, if_true] at h
  split at h
  · exact ⟨_, _, _, _, _, _, rfl, rfl⟩
  · cases h

/-- An operator that does not stand between two values lacks an operand. -/
theorem result_reduceTier_missing (h : ∀ s a done' t b rest', done = .literal s a :: done' →
    rest = .literal t b :: rest' → False) :
    (reduceTier op done (.operator op :: rest)).result = .error (.missingOperand op.text) := by
  rw [reduceTier.eq_def]
  simp only [Token.operator?, if_true]
  rfl

/-- A pass for an operator that does not occur changes nothing. -/
theorem reduceTier_free (h : .operator op ∉ tokens) :
    reduceTier op done tokens = ⟨done.reverse ++ tokens, none⟩ := by
  induction tokens generalizing done with
  | nil => rw [reduceTier_nil, List.append_nil]
  | cons token rest ih =>
    rw [List.mem_cons, not_or] at h
    obtain ⟨htoken, hrest⟩ := h
    rw [reduceTier_other (Ne.symm htoken), ih hrest, List.reverse_cons, List.append_assoc]
    rfl

/-- A pass up to an operator, and then on from it. -/
theorem result_reduceTier_append :
    (reduceTier op done (left ++ .operator o :: right)).result =
      (reduceTier op done left).result.bind fun l =>
        (reduceTier op l.reverse (.operator o :: right)).result := by
  fun_induction reduceTier op done left with
  | case1 done =>
    rw [List.nil_append, ← List.reverse_reverse done]
    simp only [Reduction.result, Except.bind, List.reverse_reverse]
  | case2 token htoken s a done t b rest v happly ih =>
    obtain rfl := Token.operator?_eq_some_iff.1 htoken
    rw [List.cons_append, List.cons_append, result_reduceTier_apply, happly]
    exact ih
  | case3 token htoken s a done t b rest cause happly =>
    obtain rfl := Token.operator?_eq_some_iff.1 htoken
    rw [List.cons_append, List.cons_append, result_reduceTier_apply, happly]
    rfl
  | case4 done token rest htoken hoperands =>
    obtain rfl := Token.operator?_eq_some_iff.1 htoken
    -- where the right operand is missing at the end of `left`, an operator follows, and no value
    rw [List.cons_append, result_reduceTier_missing]
    · rfl
    · intro s a done' t b rest' hdone hrest
      cases rest with
      | nil => cases hrest
      | cons u rest => cases hrest; exact hoperands _ _ _ _ _ _ hdone rfl
  | case5 done token rest htoken ih =>
    rw [List.cons_append, reduceTier_other (mt Token.operator?_eq_some_iff.2 htoken), ih]

/-- An operator of another tier separates what stands before it from the pass. -/
theorem result_reduceTier_frame (before : List Token) :
    (reduceTier op (done ++ .operator o :: before) tokens).result =
      (reduceTier op done tokens).result.map (before.reverse ++ .operator o :: ·) := by
  fun_induction reduceTier op done tokens with
  | case1 done =>
    rw [reduceTier_nil]
    simp [Reduction.result, Except.map]
  | case2 token htoken s a done t b rest v happly ih =>
    obtain rfl := Token.operator?_eq_some_iff.1 htoken
    rw [List.cons_append, result_reduceTier_apply, happly]
    exact ih
  | case3 token htoken s a done t b rest cause happly =>
    obtain rfl := Token.operator?_eq_some_iff.1 htoken
    rw [List.cons_append, result_reduceTier_apply, happly]
    rfl
  -- what is missing is missing behind the frame as well
  | case4 done token rest htoken hoperands =>
    obtain rfl := Token.operator?_eq_some_iff.1 htoken
    rw [result_reduceTier_missing]
    · rfl
    · intro s a done' t b rest' hdone hrest
      cases done with
      | nil => cases hdone
      | cons u done => cases hdone; exact hoperands _ _ _ _ _ _ rfl hrest
  | case5 done token rest htoken ih =>
    rw [reduceTier_other (mt Token.operator?_eq_some_iff.2 htoken), ← List.cons_append, ih]

/-- **A pass goes over the two sides of an operator of another tier on their own.** -/
theorem result_reduceTier_sides (h : o ≠ op) :
    (reduceTier op [] (left ++ .operator o :: right)).result =
      (reduceTier op [] left).result.bind fun l =>
        (reduceTier op [] right).result.map (l ++ .operator o :: ·) := by
  rw [result_reduceTier_append]
  congr 1
  funext l
  have hother : Token.operator o ≠ .operator op := fun heq => h (Token.operator.inj heq)
  have hframe : (reduceTier op ([] ++ .operator o :: l.reverse) right).result = _ :=
    result_reduceTier_frame l.reverse
  rw [List.nil_append, List.reverse_reverse] at hframe
  rw [reduceTier_other hother, hframe]

/-- A pass leaves no operator of its tier behind, and no operator that was not there. -/
theorem mem_of_reduceTier (h : (reduceTier op done tokens).result = .ok rest)
    (hmem : .operator o ∈ rest) : .operator o ∈ done ∨ (.operator o ∈ tokens ∧ o ≠ op) := by
  fun_induction reduceTier op done tokens with
  | case1 done =>
    cases h
    exact Or.inl (List.mem_reverse.1 hmem)
  -- the operator that is applied is gone, and its result is no operator
  | case2 token htoken s a done t b after v happly ih =>
    rcases ih h with hdone | ⟨hafter, hne⟩
    · rcases List.mem_cons.1 hdone with hliteral | hdone
      · cases hliteral
      · exact Or.inl (List.mem_cons_of_mem _ hdone)
    · exact Or.inr ⟨List.mem_cons_of_mem _ (List.mem_cons_of_mem _ hafter), hne⟩
  | case3 => cases h
  | case4 => cases h
  | case5 done token after htoken ih =>
    rcases ih h with hdone | ⟨hafter, hne⟩
    · rcases List.mem_cons.1 hdone with rfl | hdone
      · refine Or.inr ⟨List.mem_cons_self, ?_⟩
        rintro rfl
        exact htoken rfl
      · exact Or.inl hdone
    · exact Or.inr ⟨List.mem_cons_of_mem _ hafter, hne⟩

/-- A pass brings in no operator. -/
theorem notMem_of_reduceTier (h : (reduceTier op [] tokens).result = .ok rest)
    (hnot : .operator o ∉ tokens) : .operator o ∉ rest := by
  intro hmem
  rcases mem_of_reduceTier h hmem with hmem | ⟨hmem, -⟩
  · cases hmem
  · exact hnot hmem

/-- A pass over alternating values and operators keeps them alternating, and only a refused
application stops it. -/
theorem reduceTier_alternating
    (halternating : Alternating Token.isLiteral (done.reverse ++ tokens)) :
    (∀ rest, (reduceTier op done tokens).result = .ok rest →
      Alternating Token.isLiteral rest) ∧
    ∀ cause, (reduceTier op done tokens).result = .error cause →
      ∃ a b, op.apply a b = .error cause := by
  have hoperator : ∀ op, (Token.operator op).isLiteral = false := fun _ => rfl
  fun_induction reduceTier op done tokens with
  | case1 done =>
    rw [List.append_nil] at halternating
    refine ⟨fun rest h => ?_, fun cause h => (by cases h)⟩
    cases h
    exact halternating
  | case2 token htoken s a done t b after v happly ih =>
    obtain rfl := Token.operator?_eq_some_iff.1 htoken
    obtain ⟨hleft, hright⟩ := halternating.of_append hoperator
    rw [List.reverse_cons] at hleft
    refine ih ?_
    rw [List.reverse_cons, List.append_assoc]
    exact hleft.join hright rfl
  | case3 token htoken s a done t b after cause happly =>
    refine ⟨fun rest h => (by cases h), fun cause' h => ?_⟩
    cases h
    exact ⟨a, b, happly⟩
  | case4 done token after htoken hoperands =>
    -- the operator has a value on each of its sides
    obtain rfl := Token.operator?_eq_some_iff.1 htoken
    obtain ⟨hleft, hright⟩ := halternating.of_append hoperator
    obtain ⟨x, before, hdone, hx⟩ := hleft.exists_concat
    obtain ⟨y, behind, hafter, hy⟩ := hright.exists_cons
    rw [List.reverse_eq_append_iff] at hdone
    cases x <;> cases hx
    cases y <;> cases hy
    exact absurd hafter (hoperands _ _ _ _ _ _ hdone)
  | case5 done token after htoken ih =>
    refine ih ?_
    rwa [List.reverse_cons, List.append_assoc]

/-- What becomes of the token before a pass: it stays, and something stays behind it unless nothing
was there, or a value takes its place. -/
theorem exists_of_reduceTier_cons {x : Token} {before : List Token} (hdone : done = x :: before)
    (h : (reduceTier op done tokens).result = .ok rest) :
    ∃ y more, rest = before.reverse ++ y :: more ∧
      ((y = x ∧ (more = [] → tokens = [])) ∨ ∃ v, y = .ofValue v) := by
  fun_induction reduceTier op done tokens generalizing x before with
  | case1 done =>
    cases h
    exact ⟨x, [], by rw [hdone, List.reverse_cons], Or.inl ⟨rfl, fun _ => rfl⟩⟩
  | case2 token htoken s a done t b after v happly ih =>
    cases hdone
    obtain ⟨y, more, hrest, hy⟩ := ih rfl h
    refine ⟨y, more, hrest, Or.inr ?_⟩
    rcases hy with ⟨rfl, -⟩ | hy
    · exact ⟨v, rfl⟩
    · exact hy
  | case3 => cases h
  | case4 => cases h
  | case5 done token after htoken ih =>
    obtain ⟨y, more, hrest, -⟩ := ih rfl h
    refine ⟨x, y :: more, ?_, Or.inl ⟨rfl, fun hmore => (by cases hmore)⟩⟩
    rw [hrest, hdone, List.reverse_cons, List.append_assoc]
    rfl

/-- A pass that comes down to one token left the run alone, or put a value there. -/
theorem singleton_of_reduceTier (h : (reduceTier op [] tokens).result = .ok [token]) :
    tokens = [token] ∨ ∃ v, token = .ofValue v := by
  cases tokens with
  | nil => cases h
  | cons x after =>
    by_cases hx : x = .operator op
    · rw [hx] at h
      obtain ⟨s, a, done', t, b, rest', hdone, -⟩ := exists_operands h
      cases hdone
    · rw [reduceTier_other hx] at h
      obtain ⟨y, more, hrest, hy⟩ := exists_of_reduceTier_cons rfl h
      rw [List.reverse_nil, List.nil_append] at hrest
      cases hrest
      rcases hy with ⟨rfl, hempty⟩ | hy
      · rw [hempty rfl]
        exact Or.inl rfl
      · exact Or.inr hy

end Pass

/-! ## The grammar -/

/-- The value of a run by its grammar, given the operators from the loosest tier to the tightest. The
run is split at every operator of the loosest tier, the parts are evaluated by the tighter tiers,
and the values are combined from left to right. Without any operators a run is a single value. -/
def valueByTiers : List Operator → List Token → Except RuntimeError Value
  | [], [.literal _ v] => .ok v
  | [], tokens => .error (.malformedExpression (joinTokens tokens))
  | op :: tighter, tokens =>
    match tokens.splitOnP (·.operator? == some op) with
    | [] => .error (.malformedExpression (joinTokens tokens))
    | part :: parts =>
      (valueByTiers tighter part).bind fun first =>
        parts.foldlM (fun a part => (valueByTiers tighter part).bind (op.apply a)) first

section Grammar

variable {op : Operator} {ops tighter looser : List Operator} {tokens left right : List Token}
  {v : Value}

/-- Without operators only a single value has a value. -/
theorem valueByTiers_nil_eq_ok_iff :
    valueByTiers [] tokens = .ok v ↔ ∃ text, tokens = [.literal text v] := by
  constructor
  · intro h
    unfold valueByTiers at h
    split at h
    · cases h
      exact ⟨_, rfl⟩
    · cases h
    · rename_i heq
      cases heq
  · rintro ⟨text, rfl⟩
    rfl

theorem splitsAt_eq_false (h : .operator op ∉ tokens) :
    ∀ t ∈ tokens, (t.operator? == some op) = false := by
  intro t ht
  rw [beq_eq_false_iff_ne]
  intro hop
  rw [Token.operator?_eq_some_iff.1 hop] at ht
  exact h ht

/-- A run without operators of the loosest tier is left to the tighter ones. -/
theorem valueByTiers_free (h : .operator op ∉ tokens) :
    valueByTiers (op :: tighter) tokens = valueByTiers tighter tokens := by
  rw [valueByTiers, List.splitOnP_eq_singleton (splitsAt_eq_false h)]
  simp only [List.foldlM_nil]
  cases valueByTiers tighter tokens with
  | ok v => rfl
  | error cause => rfl

/-- The last operator of the loosest tier is applied last. -/
theorem valueByTiers_split (h : .operator op ∉ right) :
    valueByTiers (op :: tighter) (left ++ .operator op :: right) =
      (valueByTiers (op :: tighter) left).bind fun a =>
        (valueByTiers tighter right).bind (op.apply a) := by
  -- only the last part is new, as the operator does not occur on its right
  have hsplit : (left ++ .operator op :: right).splitOnP (·.operator? == some op) =
      left.splitOnP (·.operator? == some op) ++ [right] := by
    rw [List.splitOnP_append_cons _ _ (by simp [Token.operator?]),
      List.splitOnP_eq_singleton (splitsAt_eq_false h)]
  rw [valueByTiers, hsplit, valueByTiers]
  cases hparts : left.splitOnP (·.operator? == some op) with
  | nil => exact absurd hparts (List.splitOnP_ne_nil _ _)
  | cons part parts =>
    simp only [List.cons_append, List.foldlM_append, List.foldlM_cons, List.foldlM_nil, bind_pure]
    cases valueByTiers tighter part with
    | error cause => rfl
    | ok first => rfl

/-- A run that has a value alternates. -/
theorem alternating_of_valueByTiers (h : valueByTiers ops tokens = .ok v) :
    Alternating Token.isLiteral tokens := by
  induction ops generalizing tokens v with
  | nil =>
    obtain ⟨text, rfl⟩ := valueByTiers_nil_eq_ok_iff.1 h
    exact .single rfl
  | cons op tighter ih =>
    induction tokens using tier_induction op generalizing v with
    | free tokens hfree =>
      rw [valueByTiers_free hfree] at h
      exact ih h
    | split left right hright ihLeft =>
      rw [valueByTiers_split hright] at h
      obtain ⟨a, hleft, h⟩ := except_bind_eq_ok_iff.1 h
      obtain ⟨b, hb, -⟩ := except_bind_eq_ok_iff.1 h
      exact (ihLeft hleft).append op (ih hb)

/-- One operator and values around it come down to one value exactly if both sides are single. -/
theorem valueByTiers_single :
    valueByTiers [op] tokens = .ok v ↔
      ∃ rest, (reduceTier op [] tokens).result = .ok rest ∧ valueByTiers [] rest = .ok v := by
  induction tokens using tier_induction op generalizing v with
  | free tokens hfree =>
    rw [valueByTiers_free hfree, reduceTier_free hfree]
    constructor
    · intro h
      exact ⟨tokens, rfl, h⟩
    · rintro ⟨rest, hrest, h⟩
      cases hrest
      exact h
  | split left right hright ih =>
    rw [valueByTiers_split hright, result_reduceTier_append]
    simp only [except_bind_eq_ok_iff, ih, valueByTiers_nil_eq_ok_iff]
    constructor
    · -- both sides are values, and the pass applies the operator to them
      rintro ⟨a, ⟨l, hl, s, rfl⟩, b, ⟨t, rfl⟩, happly⟩
      refine ⟨[.ofValue v], ⟨_, hl, ?_⟩, _, rfl⟩
      rw [List.reverse_singleton, result_reduceTier_apply, happly]
      rfl
    · -- the pass has left one value, so that nothing stood before the left operand or behind the
      -- right one
      rintro ⟨rest, ⟨l, hl, hrest⟩, text, rfl⟩
      obtain ⟨s, a, before, t, b, after, hbefore, rfl⟩ := exists_operands hrest
      rw [hbefore, result_reduceTier_apply] at hrest
      obtain ⟨w, happly, hrest⟩ := except_bind_eq_ok_iff.1 hrest
      have hafter : .operator op ∉ after := fun h => hright (List.mem_cons_of_mem _ h)
      rw [reduceTier_free hafter, List.reverse_cons, List.append_assoc] at hrest
      rcases List.append_eq_singleton_iff.1 (Except.ok.inj hrest) with ⟨hnil, hvalue⟩ | ⟨-, hnil⟩
      · cases hvalue
        rw [List.reverse_eq_nil_iff.1 hnil] at hbefore
        rw [List.reverse_eq_iff.1 hbefore] at hl
        exact ⟨a, ⟨_, hl, s, rfl⟩, b, ⟨t, rfl⟩, happly⟩
      · cases hnil

/-- **One pass takes off the tightest tier of the grammar.** -/
theorem valueByTiers_concat (h : op ∉ looser) :
    valueByTiers (looser ++ [op]) tokens = .ok v ↔
      ∃ rest, (reduceTier op [] tokens).result = .ok rest ∧ valueByTiers looser rest = .ok v := by
  induction looser generalizing tokens v with
  | nil => exact valueByTiers_single
  | cons o looser ih =>
    rw [List.mem_cons, not_or] at h
    obtain ⟨hne, hnot⟩ := h
    rw [List.cons_append]
    induction tokens using tier_induction o generalizing v with
    | free tokens hfree =>
      rw [valueByTiers_free hfree, ih hnot]
      refine exists_congr fun rest => and_congr_right fun hrest => ?_
      rw [valueByTiers_free (notMem_of_reduceTier hrest hfree)]
    | split left right hright ihLeft =>
      rw [valueByTiers_split hright, result_reduceTier_sides (Ne.symm hne)]
      simp only [except_bind_eq_ok_iff, except_map_eq_ok_iff, ihLeft, ih hnot]
      -- what the pass leaves of the right side has no operator of the tier `o` either, so that
      -- the grammar splits it at the same place
      have hfree : ∀ r, (reduceTier op [] right).result = .ok r → .operator o ∉ r :=
        fun r hr => notMem_of_reduceTier hr hright
      constructor
      · rintro ⟨a, ⟨l, hl, ha⟩, b, ⟨r, hr, hb⟩, happly⟩
        refine ⟨_, ⟨l, hl, r, hr, rfl⟩, ?_⟩
        rw [valueByTiers_split (hfree r hr), ha, hb]
        exact happly
      · rintro ⟨rest, ⟨l, hl, r, hr, rfl⟩, h⟩
        rw [valueByTiers_split (hfree r hr)] at h
        obtain ⟨a, ha, h⟩ := except_bind_eq_ok_iff.1 h
        obtain ⟨b, hb, happly⟩ := except_bind_eq_ok_iff.1 h
        exact ⟨a, ⟨l, hl, ha⟩, b, ⟨r, hr, hb⟩, happly⟩

end Grammar

/-! ## All passes -/

section Passes

variable {op : Operator} {ops : List Operator} {token : Token} {tokens rest : List Token} {v : Value}
  {cause : RuntimeError}

/-- The first pass, and then the passes that are left. -/
theorem result_reduceTiers_cons :
    (reduceTiers (op :: ops) tokens).result =
      (reduceTier op [] tokens).result.bind fun rest => (reduceTiers ops rest).result := by
  rw [reduceTiers]
  split
  · rename_i hnone
    rw [Reduction.result.eq_def (reduceTier op [] tokens), hnone]
    rfl
  · rename_i hsome
    rw [Reduction.result, hsome]
    rfl

/-- **The passes come down to a value exactly if the grammar gives that value.** -/
theorem exists_reduceTiers_iff (hnodup : ops.Nodup) :
    (∃ text, (reduceTiers ops tokens).result = .ok [.literal text v]) ↔
      valueByTiers ops.reverse tokens = .ok v := by
  induction ops generalizing tokens with
  | nil =>
    rw [List.reverse_nil, valueByTiers_nil_eq_ok_iff]
    exact exists_congr fun text => ⟨fun h => by cases h; rfl, fun h => by rw [h]; rfl⟩
  | cons op ops ih =>
    obtain ⟨hnot, hnodup⟩ := List.nodup_cons.1 hnodup
    have hreverse : op ∉ ops.reverse := by simpa using hnot
    rw [List.reverse_cons, valueByTiers_concat hreverse]
    simp only [result_reduceTiers_cons, except_bind_eq_ok_iff, ← ih hnodup]
    constructor
    · rintro ⟨text, rest, hrest, h⟩
      exact ⟨rest, hrest, text, h⟩
    · rintro ⟨rest, hrest, text, h⟩
      exact ⟨text, rest, hrest, h⟩

/-- What is left alone was alone from the beginning, or is a value that was computed. -/
theorem singleton_of_reduceTiers (h : (reduceTiers ops tokens).result = .ok [token]) :
    tokens = [token] ∨ ∃ v, token = .ofValue v := by
  induction ops generalizing tokens with
  | nil => cases h; exact Or.inl rfl
  | cons op ops ih =>
    rw [result_reduceTiers_cons] at h
    obtain ⟨rest, hrest, h⟩ := except_bind_eq_ok_iff.1 h
    rcases ih h with rfl | hvalue
    · exact singleton_of_reduceTier hrest
    · exact Or.inr hvalue

/-- All passes together leave no operator of their tiers behind. -/
theorem mem_of_reduceTiers {o : Operator} (h : (reduceTiers ops tokens).result = .ok rest)
    (hmem : .operator o ∈ rest) : .operator o ∈ tokens ∧ o ∉ ops := by
  induction ops generalizing tokens with
  | nil => cases h; exact ⟨hmem, List.not_mem_nil⟩
  | cons op ops ih =>
    rw [result_reduceTiers_cons] at h
    obtain ⟨between, hbetween, h⟩ := except_bind_eq_ok_iff.1 h
    obtain ⟨hold, hnot⟩ := ih h
    rcases mem_of_reduceTier hbetween hold with hdone | ⟨hold, hne⟩
    · cases hdone
    · exact ⟨hold, by simp [hne, hnot]⟩

/-- Alternating values and operators stay alternating, and only a refused application stops the
passes. -/
theorem reduceTiers_alternating (h : Alternating Token.isLiteral tokens) :
    (∀ rest, (reduceTiers ops tokens).result = .ok rest → Alternating Token.isLiteral rest) ∧
    ∀ cause, (reduceTiers ops tokens).result = .error cause →
      ∃ op a b, Operator.apply op a b = .error cause := by
  induction ops generalizing tokens with
  | nil =>
    refine ⟨fun rest hrest => ?_, fun cause hcause => (by cases hcause)⟩
    cases hrest
    exact h
  | cons op ops ih =>
    have hpass : Alternating Token.isLiteral ([].reverse ++ tokens) := h
    obtain ⟨hkeeps, hstops⟩ := reduceTier_alternating hpass
    rw [result_reduceTiers_cons]
    cases hresult : (reduceTier op [] tokens).result with
    | error cause =>
      refine ⟨fun rest hrest => (by cases hrest), fun cause' hcause => ?_⟩
      cases hcause
      exact ⟨op, hstops cause hresult⟩
    | ok rest => exact ih (hkeeps rest hresult)

/-- Reduction gives the value that the passes leave. -/
theorem reduce_of_result {text : String}
    (h : (reduceTiers Operator.precedence tokens).result = .ok [.literal text v]) :
    reduce tokens = (.ok v, [.literal text v]) := by
  unfold Reduction.result at h
  split at h
  · rename_i herror
    rw [reduce, herror, Except.ok.inj h]
  · cases h

/-- Where reduction gives a value, the passes leave that value alone. -/
theorem exists_result_of_reduce (h : (reduce tokens).1 = .ok v) :
    ∃ text, (reduceTiers Operator.precedence tokens).result = .ok [.literal text v] := by
  unfold reduce at h
  unfold Reduction.result
  simp only at h
  split at h
  · cases h
  · rename_i text w herror htokens
    cases h
    exact ⟨text, by rw [herror, htokens]⟩
  · cases h

/-- Reduction fails in one of the passes, or because they do not leave a single value. -/
theorem reduce_error_cases (h : (reduce tokens).1 = .error cause) :
    (reduceTiers Operator.precedence tokens).result = .error cause ∨
      ∃ rest, (reduceTiers Operator.precedence tokens).result = .ok rest ∧
        ∀ text v, rest ≠ [.literal text v] := by
  unfold reduce at h
  unfold Reduction.result
  simp only at h
  split at h
  · rename_i herror
    cases h
    exact Or.inl (by rw [herror])
  · cases h
  · rename_i herror hvalue
    exact Or.inr ⟨_, by rw [herror], hvalue⟩

theorem Operator.mem_precedence (op : Operator) : op ∈ precedence := by
  cases op <;> decide

/-- Alternating values and operators that are reduced to the end are a single value. -/
theorem exists_literal_of_reduceTiers (h : Alternating Token.isLiteral tokens)
    (hrest : (reduceTiers Operator.precedence tokens).result = .ok rest) :
    ∃ text v, rest = [.literal text v] := by
  cases (reduceTiers_alternating h).1 rest hrest with
  | single ht =>
    rename_i t
    cases t <;> cases ht
    exact ⟨_, _, rfl⟩
  | cons ht op hmore =>
    have hmem := mem_of_reduceTiers hrest (List.mem_cons_of_mem _ List.mem_cons_self)
    exact absurd op.mem_precedence hmem.2

end Passes

/-- **Reduction is evaluation by tiers.** A run is reduced to a value exactly if values and operators
alternate in it and its grammar gives that value: the run is split at every `=`, the parts at every
`-`, then at every `+`, every `/` and every `*`, and each level is combined from left to right. What
is left of the run then is the literal of the value, with its own text if the run was nothing else.
A run that alternates and has no value holds an application that is refused. -/
theorem reduce_by_tiers (tokens : List Token) :
    (∀ v, (reduce tokens).1 = .ok v ↔
      Alternating Token.isLiteral tokens ∧
        valueByTiers [.equals, .subtract, .add, .divide, .multiply] tokens = .ok v) ∧
    (∀ v, (reduce tokens).1 = .ok v → ∃ text, (reduce tokens).2 = [.literal text v] ∧
      (tokens = [.literal text v] ∨ text = v.render)) ∧
    (Alternating Token.isLiteral tokens → ∀ cause, (reduce tokens).1 = .error cause →
      ∃ op a b, Operator.apply op a b = .error cause ∧
        (cause = .divisionByZero ∨ ∃ v : Value, cause = .typeMismatch op.text v.describe)) := by
  refine ⟨fun v => ?_, fun v h => ?_, fun halternating cause h => ?_⟩
  · have hnodup : Operator.precedence.Nodup := by decide
    have hgrammar : valueByTiers [.equals, .subtract, .add, .divide, .multiply] tokens = .ok v ↔
        ∃ text, (reduceTiers Operator.precedence tokens).result = .ok [.literal text v] :=
      (exists_reduceTiers_iff hnodup).symm
    constructor
    · intro h
      have hvalue := hgrammar.2 (exists_result_of_reduce h)
      exact ⟨alternating_of_valueByTiers hvalue, hvalue⟩
    · rintro ⟨-, hvalue⟩
      obtain ⟨text, hresult⟩ := hgrammar.1 hvalue
      rw [reduce_of_result hresult]
  · obtain ⟨text, hresult⟩ := exists_result_of_reduce h
    have htokens : (reduce tokens).2 = [.literal text v] := by rw [reduce_of_result hresult]
    refine ⟨text, htokens, (singleton_of_reduceTiers hresult).imp_right ?_⟩
    rintro ⟨w, hw⟩
    cases hw
    rfl
  · rcases reduce_error_cases h with hresult | ⟨rest, hrest, hne⟩
    · obtain ⟨op, a, b, happly⟩ := (reduceTiers_alternating halternating).2 cause hresult
      exact ⟨op, a, b, happly, (Operator.apply_error_cases happly).symm⟩
    · -- of a run the passes leave a single value
      obtain ⟨text, v, hvalue⟩ := exists_literal_of_reduceTiers halternating hrest
      exact absurd hvalue (hne text v)

/-- One operator of each tier: `9 - 2 + 3 / 2 * .5 = 4.0`. -/
def eachTier : List Token :=
  [.literal "9" (.number ⟨9, 0⟩), .operator .subtract, .literal "2" (.number ⟨2, 0⟩),
    .operator .add, .literal "3" (.number ⟨3, 0⟩), .operator .divide,
    .literal "2" (.number ⟨2, 0⟩), .operator .multiply, .literal ".5" (.number ⟨5, 1⟩),
    .operator .equals, .literal "4.0" (.number ⟨40, 1⟩)]

theorem alternating_eachTier : Alternating Token.isLiteral eachTier := by
  unfold eachTier
  exact .cons rfl _ (.cons rfl _ (.cons rfl _ (.cons rfl _ (.cons rfl _ (.single rfl)))))

theorem valueByTiers_eachTier :
    valueByTiers [.equals, .subtract, .add, .divide, .multiply] eachTier = .ok (.bool true) := by
  have hproduct : Operator.multiply.apply (.number ⟨2, 0⟩) (.number ⟨5, 1⟩) =
      .ok (.number ⟨10, 1⟩) := rfl
  -- the divisor is recognised as one, so that the dividend is the quotient
  have hquotient : Operator.divide.apply (.number ⟨3, 0⟩) (.number ⟨10, 1⟩) =
      .ok (.number ⟨3, 0⟩) := by
    have hunit : Decimal.isUnit ⟨10, 1⟩ = true := by decide
    have hcount : Decimal.digitCount 3 = 1 := by
      rw [Decimal.digitCount, Decimal.digitChars_eq]
      rfl
    have hshorten : Decimal.shorten ⟨3, 0⟩ = ⟨3, 0⟩ := by
      simp [Decimal.shorten, hcount, Decimal.quotientDigits, Decimal.tenPow]
    have hnormal : Decimal.normalize ⟨3, 0⟩ = ⟨3, 0⟩ := by
      simp [Decimal.normalize, Decimal.stripZeros]
    have hdivide : Decimal.divide? ⟨3, 0⟩ ⟨10, 1⟩ = some ⟨3, 0⟩ := by
      simp [Decimal.divide?, Decimal.quotient, hunit, hshorten, hnormal]
    change (Operator.divideNumbers ⟨3, 0⟩ ⟨10, 1⟩).map Value.number = _
    rw [Operator.divideNumbers, hdivide]
    rfl
  have hsum : Operator.add.apply (.number ⟨2, 0⟩) (.number ⟨3, 0⟩) = .ok (.number ⟨5, 0⟩) := rfl
  have hdifference : Operator.subtract.apply (.number ⟨9, 0⟩) (.number ⟨5, 0⟩) =
      .ok (.number ⟨4, 0⟩) := rfl
  have hequal : Operator.equals.apply (.number ⟨4, 0⟩) (.number ⟨40, 1⟩) = .ok (.bool true) := rfl
  simp [valueByTiers, eachTier, List.splitOnP_cons_eq_if_modifyHead, Token.operator?, bind,
    Except.bind, pure, Except.pure, hproduct, hquotient, hsum, hdifference, hequal]

/-- A division by zero between a sum and a comparison. -/
def zeroDivision : List Token :=
  [.literal "1" (.number ⟨1, 0⟩), .operator .add, .literal "1" (.number ⟨1, 0⟩),
    .operator .divide, .literal "0" (.number ⟨0, 0⟩), .operator .equals,
    .literal "1" (.number ⟨1, 0⟩)]

/-- A run with one operator of each tier, and a run that comes to no value. -/
theorem reduce_by_tiers_eachTier :
    (reduce eachTier).1 = .ok (.bool true) ∧
      (∃ text, (reduce eachTier).2 = [.literal text (.bool true)] ∧
        (eachTier = [.literal text (.bool true)] ∨ text = (Value.bool true).render)) ∧
      Alternating Token.isLiteral zeroDivision ∧
      (reduce zeroDivision).1 = .error .divisionByZero ∧
      ∃ op a b, Operator.apply op a b = .error .divisionByZero ∧
        (RuntimeError.divisionByZero = .divisionByZero ∨
          ∃ v : Value, RuntimeError.divisionByZero = .typeMismatch op.text v.describe) := by
  have hvalue : (reduce eachTier).1 = .ok (.bool true) :=
    ((reduce_by_tiers eachTier).1 _).2 ⟨alternating_eachTier, valueByTiers_eachTier⟩
  have halternating : Alternating Token.isLiteral zeroDivision := by
    unfold zeroDivision
    exact .cons rfl _ (.cons rfl _ (.cons rfl _ (.single rfl)))
  have herror : (reduce zeroDivision).1 = .error .divisionByZero := rfl
  exact ⟨hvalue, (reduce_by_tiers eachTier).2.1 _ hvalue, halternating, herror,
    (reduce_by_tiers zeroDivision).2.2 halternating _ herror⟩

end Logo
