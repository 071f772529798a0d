import Logo.Primitive.Perform
import Logo.Proofs.Decimal.Numeral
import Logo.Proofs.Value.Meaning

/-!
# Data primitives and equality

The primitives that take words and lists apart, put them together and ask about them look at no more
than what equality keeps. So from equal inputs they come to equal values, or to nothing, or to the
same error. What a refusal writes may differ, as equal lists can be written differently.

* `Primitive.dataPrimitives`: those primitives.
* `Primitive.equals_respected`: equality is an equivalence relation, it contains sameness, and the
  data primitives respect it.
-/

namespace Logo

/-- What is the same under a function is missing on both sides, or there on both. -/
theorem option_map_eq_cases {α β : Type} {f : α → β} {x y : Option α} (h : x.map f = y.map f) :
    (x = none ∧ y = none) ∨ ∃ a b, x = some a ∧ y = some b ∧ f a = f b := by
  cases x <;> cases y <;> simp_all

/-! ## Observations of a value -/

namespace Value

variable {a b : Value}

theorem wordText?_of_text? {s : String} (h : a.text? = some s) : a.wordText? = some s := by
  cases a <;> simp_all [text?, wordText?]

theorem isEmptyValue_of_text? {s : String} (h : a.text? = some s) :
    Primitive.isEmptyValue a = s.isEmpty := by
  cases a <;> simp_all [text?, Primitive.isEmptyValue]

variable (h : a.meaning = b.meaning)

include h

/-- Equal values are taken apart as the same word. Numbers are, since they are written by what they
denote. -/
theorem wordText?_congr : a.wordText? = b.wordText? := by
  obtain rfl | ⟨s, ha, hb⟩ | ⟨m, n, rfl, rfl, hmn⟩ | ⟨ts, us, rfl, rfl, -⟩ := meaning_cases h
  · rfl
  · rw [wordText?_of_text? ha, wordText?_of_text? hb]
  · simp only [wordText?, Decimal.render, Decimal.renderChars_congr hmn]
  · rfl

theorem list?_congr :
    a.list?.map (List.map Token.meaning) = b.list?.map (List.map Token.meaning) := by
  cases a <;> cases b <;> simp_all [meaning, list?]

theorem number?_congr : a.number?.map Decimal.toRat = b.number?.map Decimal.toRat := by
  cases a <;> cases b <;> simp_all [meaning, number?]

theorem count?_congr : a.number?.bind Decimal.count? = b.number?.bind Decimal.count? := by
  obtain ⟨ha, hb⟩ | ⟨m, n, ha, hb, hmn⟩ := option_map_eq_cases (number?_congr h)
  · rw [ha, hb]
  · rw [ha, hb]
    exact Decimal.count?_congr hmn

/-- Equal values are both empty, or neither is. -/
theorem isEmptyValue_congr : Primitive.isEmptyValue a = Primitive.isEmptyValue b := by
  obtain rfl | ⟨s, ha, hb⟩ | ⟨m, n, rfl, rfl, -⟩ | ⟨ts, us, rfl, rfl, hts⟩ := meaning_cases h
  · rfl
  · rw [isEmptyValue_of_text? ha, isEmptyValue_of_text? hb]
  · rfl
  · rw [Primitive.isEmptyValue, Primitive.isEmptyValue, ← List.isEmpty_map, hts, List.isEmpty_map]

end Value

/-! ## Items of a list -/

namespace Token

/-- The item of text depends on its characters only. -/
theorem meaning_ofItem_of_text? {v : Value} {s : String} (h : v.text? = some s) :
    (ofItem v).meaning = (ofItem (.word s)).meaning := by
  cases v with
  | text t =>
    obtain rfl := Option.some.inj h
    simp only [ofItem, ofItem.ofText]
    split
    · rfl
    · rfl
  | word t =>
    obtain rfl := Option.some.inj h
    rfl
  | _ => cases h

/-- Equal values are equal as items. -/
theorem meaning_ofItem_congr {a b : Value} (h : a.meaning = b.meaning) :
    (ofItem a).meaning = (ofItem b).meaning := by
  obtain rfl | ⟨s, ha, hb⟩ | ⟨m, n, rfl, rfl, -⟩ | ⟨ts, us, rfl, rfl, -⟩ := Value.meaning_cases h
  · rfl
  · rw [meaning_ofItem_of_text? ha, meaning_ofItem_of_text? hb]
  · exact h
  · exact h

end Token

namespace Primitive

/-- What respects meaning for one input does so for all of them. -/
theorem map_congr_of_meaning {α : Type} {f : Value → α}
    (hf : ∀ a b : Value, a.meaning = b.meaning → f a = f b) {inputs inputs' : List Value}
    (h : inputs.map Value.meaning = inputs'.map Value.meaning) : inputs.map f = inputs'.map f := by
  induction inputs generalizing inputs' with
  | nil => rw [List.map_eq_nil_iff.1 h.symm]
  | cons a inputs ih =>
    cases inputs' with
    | nil => cases h
    | cons b inputs' =>
      obtain ⟨hab, hrest⟩ := List.cons.inj h
      rw [List.map_cons, List.map_cons, hf a b hab, ih hrest]

theorem sentenceItems_of_text? {v : Value} {s : String} (h : v.text? = some s) :
    sentenceItems v = [Token.ofItem v] := by
  cases v <;> first | rfl | cases h

/-- Equal values bring equal items into a sentence. -/
theorem sentenceItems_congr {a b : Value} (h : a.meaning = b.meaning) :
    (sentenceItems a).map Token.meaning = (sentenceItems b).map Token.meaning := by
  obtain rfl | ⟨s, ha, hb⟩ | ⟨m, n, rfl, rfl, -⟩ | ⟨ts, us, rfl, rfl, hts⟩ := Value.meaning_cases h
  · rfl
  · rw [sentenceItems_of_text? ha, sentenceItems_of_text? hb, List.map_singleton,
      List.map_singleton, Token.meaning_ofItem_congr h]
  · exact congrArg (fun m => [m]) (Token.meaning_ofItem_congr h)
  · exact hts

theorem End.split?_map {α β : Type} (f : α → β) (side : End) (items : List α) :
    side.split? (items.map f) = (side.split? items).map (Prod.map f (List.map f)) := by
  cases side with
  | front => cases items <;> rfl
  | back => simp [End.split?, Option.map_map, Function.comp_def, List.map_dropLast]

theorem entryAt?_map {α β : Type} (f : α → β) (items : List α) (position : ℕ) :
    entryAt? (items.map f) position = (entryAt? items position).map f := by
  cases position with
  | zero => rfl
  | succ n => exact List.getElem?_map

end Primitive

/-! ## What the primitives do with equal inputs -/

/-- Two actions come to the same for a program: to equal values, to nothing, or to one error. -/
inductive Action.Agrees : Action → Action → Prop where
  | value {v v' : Value} (h : v.equals v' = true) :
    Agrees (.produce (some (.ofValue v))) (.produce (some (.ofValue v')))
  | nothing : Agrees (.produce none) (.produce none)
  | failure (cause : RuntimeError) : Agrees (.fail cause) (.fail cause)

namespace Primitive

/-- The primitives that work on words and lists. -/
def dataPrimitives : List Primitive :=
  [first, last, butFirst, butLast, count, isEmpty, isNumber, isWord, isList, item, word, list,
    sentence, putFirst, putLast]

variable {κ κ' : Type} {p : Primitive} {w : Workspace κ} {w' : Workspace κ'}
  {inputs inputs' : List Value}

theorem agrees_answer {v v' : Value} (h : v.meaning = v'.meaning) :
    (answer w v).2.Agrees (answer w' v').2 :=
  .value ((Value.equals_iff v v').2 h)

theorem agrees_refuse (v v' : Value) : (p.refuse w v).2.Agrees (p.refuse w' v').2 :=
  .nothing

section EqualInputs

variable (h : inputs.map Value.meaning = inputs'.map Value.meaning)

include h

/-- Equal inputs are read in the same place, or are both missing. -/
theorem agrees_withInput {index : ℕ} {next : Value → Effect κ} {next' : Value → Effect κ'}
    (hnext : ∀ v v', v.meaning = v'.meaning → (next v).2.Agrees (next' v').2) :
    (p.withInput w inputs index next).2.Agrees (p.withInput w' inputs' index next').2 := by
  have hinput : inputs[index]?.map Value.meaning = inputs'[index]?.map Value.meaning := by
    rw [← List.getElem?_map, h, List.getElem?_map]
  unfold withInput
  obtain ⟨hv, hv'⟩ | ⟨v, v', hv, hv', hvv⟩ := option_map_eq_cases hinput
  · rw [hv, hv']
    exact .failure _
  · rw [hv, hv']
    exact hnext v v' hvv

/-- Equal inputs are both taken for lists, or both refused. -/
theorem agrees_withList {index : ℕ} {next : List Token → Effect κ} {next' : List Token → Effect κ'}
    (hnext : ∀ ts us, ts.map Token.meaning = us.map Token.meaning →
      (next ts).2.Agrees (next' us).2) :
    (p.withList w inputs index next).2.Agrees (p.withList w' inputs' index next').2 := by
  refine agrees_withInput h fun v v' hv => ?_
  obtain ⟨hl, hl'⟩ | ⟨ts, us, hl, hl', hts⟩ := option_map_eq_cases (Value.list?_congr hv)
  · rw [hl, hl']
    exact agrees_refuse v v'
  · rw [hl, hl']
    exact hnext ts us hts

/-- Equal inputs are taken for the same count, or both refused. -/
theorem agrees_withCount {next : ℕ → Effect κ} {next' : ℕ → Effect κ'}
    (hnext : ∀ n, (next n).2.Agrees (next' n).2) :
    (p.withCount w inputs next).2.Agrees (p.withCount w' inputs' next').2 := by
  refine agrees_withInput h fun v v' hv => ?_
  rw [Value.count?_congr hv]
  split
  · exact hnext _
  · exact agrees_refuse v v'

/-- Equal values are taken apart into equal pieces. -/
theorem agrees_performTakeApart {side : End} {ofItems : Token × List Token → Value}
    {ofChars : Char × List Char → Value}
    (hitems : ∀ parts parts' : Token × List Token,
      Prod.map Token.meaning (List.map Token.meaning) parts =
        Prod.map Token.meaning (List.map Token.meaning) parts' →
      (ofItems parts).meaning = (ofItems parts').meaning) :
    (p.performTakeApart side ofItems ofChars w inputs).2.Agrees
      (p.performTakeApart side ofItems ofChars w' inputs').2 := by
  refine agrees_withInput h fun v v' hv => ?_
  obtain ⟨hl, hl'⟩ | ⟨ts, us, hl, hl', hts⟩ := option_map_eq_cases (Value.list?_congr hv)
  · -- equal words have the same characters, so that even the same piece is taken
    rw [hl, hl', Value.wordText?_congr hv]
    dsimp only
    split
    · exact agrees_answer rfl
    · exact agrees_refuse v v'
  · -- of equal lists the pieces are equal, as splitting does not look at the items
    rw [hl, hl']
    have hsplit := congrArg side.split? hts
    rw [End.split?_map, End.split?_map] at hsplit
    dsimp only
    obtain ⟨hp, hp'⟩ | ⟨parts, parts', hp, hp', hparts⟩ := option_map_eq_cases hsplit
    · rw [hp, hp']
      exact agrees_refuse v v'
    · rw [hp, hp']
      exact agrees_answer (hitems parts parts' hparts)

theorem agrees_performPiece {side : End} :
    (p.performPiece side w inputs).2.Agrees (p.performPiece side w' inputs').2 := by
  refine agrees_performTakeApart h fun parts parts' hparts => ?_
  rw [Token.meaning_datum, Token.meaning_datum]
  exact congrArg Prod.fst hparts

theorem agrees_performRest {side : End} :
    (p.performRest side w inputs).2.Agrees (p.performRest side w' inputs').2 := by
  refine agrees_performTakeApart h fun parts parts' hparts => ?_
  exact Value.meaning_list_congr (congrArg Prod.snd hparts)

/-- A test that does not tell equal values apart answers equal values alike. -/
theorem agrees_performTest {test : Value → Bool}
    (htest : ∀ v v' : Value, v.meaning = v'.meaning → test v = test v') :
    (p.performTest test w inputs).2.Agrees (p.performTest test w' inputs').2 := by
  refine agrees_withInput h fun v v' hv => ?_
  rw [htest v v' hv]
  exact agrees_answer rfl

/-- Equal values are of the same length. -/
theorem agrees_performCount : (performCount w inputs).2.Agrees (performCount w' inputs').2 := by
  refine agrees_withInput h fun v v' hv => ?_
  rw [Value.wordText?_congr hv]
  obtain ⟨hl, hl'⟩ | ⟨ts, us, hl, hl', hts⟩ := option_map_eq_cases (Value.list?_congr hv)
  · rw [hl, hl']
    cases v'.wordText? with
    | none => exact agrees_refuse v v'
    | some s => exact agrees_answer rfl
  · have hlength := congrArg List.length hts
    rw [List.length_map, List.length_map] at hlength
    rw [hl, hl']
    dsimp only
    rw [hlength]
    exact agrees_answer rfl

theorem agrees_performWord : (performWord w inputs).2.Agrees (performWord w' inputs').2 := by
  refine agrees_withInput h fun a a' ha => agrees_withInput h fun b b' hb => ?_
  rw [Value.wordText?_congr ha, Value.wordText?_congr hb]
  cases a'.wordText? with
  | none => exact agrees_refuse a a'
  | some s =>
    cases b'.wordText? with
    | none => exact agrees_refuse b b'
    | some t => exact agrees_answer rfl

theorem agrees_performList : (performList w inputs).2.Agrees (performList w' inputs').2 := by
  refine agrees_answer (Value.meaning_list_congr ?_)
  rw [List.map_map, List.map_map]
  exact map_congr_of_meaning (fun a b => Token.meaning_ofItem_congr) h

theorem agrees_performSentence :
    (performSentence w inputs).2.Agrees (performSentence w' inputs').2 := by
  have hitems := map_congr_of_meaning (fun a b => sentenceItems_congr) h
  refine agrees_answer (Value.meaning_list_congr ?_)
  rw [List.map_flatMap, List.map_flatMap, List.flatMap_def, List.flatMap_def, hitems]

theorem agrees_performPutFirst :
    (performPutFirst w inputs).2.Agrees (performPutFirst w' inputs').2 := by
  refine agrees_withList h fun ts us hts => agrees_withInput h fun v v' hv => ?_
  refine agrees_answer (Value.meaning_list_congr ?_)
  rw [List.map_cons, List.map_cons, Token.meaning_ofItem_congr hv, hts]

theorem agrees_performPutLast :
    (performPutLast w inputs).2.Agrees (performPutLast w' inputs').2 := by
  refine agrees_withList h fun ts us hts => agrees_withInput h fun v v' hv => ?_
  refine agrees_answer (Value.meaning_list_congr ?_)
  rw [List.map_append, List.map_append, List.map_singleton, List.map_singleton,
    Token.meaning_ofItem_congr hv, hts]

/-- Equal values have equal items at each position. -/
theorem agrees_performItem : (performItem w inputs).2.Agrees (performItem w' inputs').2 := by
  refine agrees_withCount h fun position => agrees_withInput h fun v v' hv => ?_
  rw [Value.wordText?_congr hv]
  obtain ⟨hl, hl'⟩ | ⟨ts, us, hl, hl', hts⟩ := option_map_eq_cases (Value.list?_congr hv)
  · -- no lists: equal words have the same characters
    rw [hl, hl']
    cases v'.wordText? with
    | none => exact agrees_refuse v v'
    | some s =>
      dsimp only
      split
      · exact agrees_answer rfl
      · exact .failure _
  · rw [hl, hl']
    have hentry := congrArg (entryAt? · position) hts
    dsimp only at hentry ⊢
    rw [entryAt?_map, entryAt?_map] at hentry
    obtain ⟨hp, hp'⟩ | ⟨t, u, hp, hp', htu⟩ := option_map_eq_cases hentry
    · rw [hp, hp']
      exact .failure _
    · rw [hp, hp']
      refine agrees_answer ?_
      rw [Token.meaning_datum, Token.meaning_datum, htu]

/-- A data primitive sees of its inputs their meanings only. -/
theorem agrees_perform (hp : p ∈ dataPrimitives) :
    (p.perform w inputs).2.Agrees (p.perform w' inputs').2 := by
  simp only [dataPrimitives, List.mem_cons, List.not_mem_nil, or_false] at hp
  -- in the order of `dataPrimitives`
  rcases hp with rfl | rfl | rfl | rfl | rfl | rfl | rfl | rfl | rfl | rfl | rfl | rfl | rfl | rfl |
    rfl
  · exact agrees_performPiece h
  · exact agrees_performPiece h
  · exact agrees_performRest h
  · exact agrees_performRest h
  · exact agrees_performCount h
  · exact agrees_performTest h fun v v' => Value.isEmptyValue_congr
  · exact agrees_performTest h fun v v' hv => by
      rw [← Option.isSome_map, Value.number?_congr hv, Option.isSome_map]
  · exact agrees_performTest h fun v v' hv => by rw [Value.wordText?_congr hv]
  · exact agrees_performTest h fun v v' hv => by
      rw [← Option.isSome_map, Value.list?_congr hv, Option.isSome_map]
  · exact agrees_performItem h
  · exact agrees_performWord h
  · exact agrees_performList h
  · exact agrees_performSentence h
  · exact agrees_performPutFirst h
  · exact agrees_performPutLast h

end EqualInputs

/-- **The data primitives respect equality.** Equality of values is an equivalence relation that
contains sameness, and these primitives cannot look behind it: in any two workspaces, from equal
inputs, both calls produce equal values, or both produce nothing, or both fail. -/
theorem equals_respected :
    Equivalence (fun a b : Value => a.equals b = true) ∧
      (∀ a b : Value, a.same b = true → a.equals b = true) ∧
      ∀ {κ κ' : Type} (p : Primitive), p ∈ dataPrimitives →
        ∀ (w : Workspace κ) (w' : Workspace κ') (inputs inputs' : List Value),
          List.Forall₂ (fun a b : Value => a.equals b = true) inputs inputs' →
            (p.perform w inputs).2.Agrees (p.perform w' inputs').2 := by
  refine ⟨Value.equals_equivalence, fun a b => Value.equals_of_same, ?_⟩
  intro κ κ' p hp w w' inputs inputs' hinputs
  have hmeaning : inputs.map Value.meaning = inputs'.map Value.meaning := by
    simp only [Value.equals_iff] at hinputs
    rwa [← List.forall₂_eq_eq_eq, List.forall₂_map_left_iff, List.forall₂_map_right_iff]
  exact agrees_perform hmeaning hp

/-- An item by its position, where the position, the item before it and the item itself are written
in two ways. -/
theorem equals_respected_item :
    item ∈ dataPrimitives ∧
      Value.equals (.number ⟨20, 1⟩) (.number ⟨2, 0⟩) = true ∧
      Value.equals (.list [.word "a", .literal "2.50" (.number ⟨250, 2⟩)])
        (.list [.literal "\"a" (.word "a"), .literal "2.5" (.number ⟨25, 1⟩)]) = true ∧
      (item.perform ({} : Workspace Primitive)
        [.number ⟨20, 1⟩, .list [.word "a", .literal "2.50" (.number ⟨250, 2⟩)]]).2 =
          .produce (some (.ofValue (.number ⟨250, 2⟩))) ∧
      (item.perform ({} : Workspace Primitive)
        [.number ⟨20, 1⟩, .list [.word "a", .literal "2.50" (.number ⟨250, 2⟩)]]).2.Agrees
        (item.perform ({} : Workspace Primitive) [.number ⟨2, 0⟩,
          .list [.literal "\"a" (.word "a"), .literal "2.5" (.number ⟨25, 1⟩)]]).2 := by
  refine ⟨by decide, by decide, by decide, by rfl, ?_⟩
  exact equals_respected.2.2 item (by decide) _ _ _ _
    (.cons (by decide) (.cons (by decide) .nil))

end Primitive

end Logo
