import Logo.Proofs.Evaluation.Balance

/-!
# Variables as a store

A name may be bound in several frames and among the globals, and `Scope.bindings` lists its values
from the innermost frame outwards. Reading gives the first of them, setting replaces it and removing
takes it away, so that the next one outwards comes to light. The three operations search on their
own and find the same place: `updates_updateLocal?` says where a name is changed, and what they do
to all names follows from it.

* `Scope.bindings_set`, `Scope.bindings_clear`: the values of every name afterwards.
* `Scope.DiffersAt`: the scopes differ in one name of one table at most.
* `Workspace.accessAll_pushFrame`: accesses to the names of a frame stay in the frame.
* `variables_form_store`: the laws of the store, for all workspaces.
-/

namespace Logo

/-! ## Tables -/

namespace Table

variable {α : Type} {t : Table α} {key name : String}

/-- The tables hold the same under every name but one. -/
def SameBut (key : String) (t t' : Table α) : Prop :=
  ∀ name, name ≠ key → t'.find? name = t.find? name

theorem sameBut_insert (t : Table α) (key : String) (a : α) : t.SameBut key (t.insert key a) := by
  intro name hname
  rw [find?_insert, if_neg hname]

theorem sameBut_erase (t : Table α) (key : String) : t.SameBut key (t.erase key) := by
  intro name hname
  rw [find?_erase, if_neg hname]

/-- A name that is there stays there when an entry is put in. -/
theorem contains_insert (h : t.contains name = true) (key : String) (a : α) :
    (t.insert key a).contains name = true := by
  unfold contains
  rw [find?_insert]
  split
  · rfl
  · exact h

theorem contains_of_mem_keys (h : key ∈ t.keys) : t.contains key = true := by
  obtain ⟨e, he, rfl⟩ := List.mem_map.1 h
  exact List.lookup_isSome_iff.2 ⟨e, he, beq_self_eq_true _⟩

end Table

/-! ## Where a name is bound -/

namespace Scope

variable {s : Scope} {key name : String}

/-- The value that a frame gives a name. -/
def valueIn (key : String) (frame : Frame) : Option Value :=
  frame.bind (·.find? key)

@[simp]
theorem valueIn_some (key : String) (t : Table Value) : valueIn key (some t) = t.find? key :=
  rfl

/-- The values of a name, from the innermost frame that binds it outwards and then among the
globals. -/
def bindings (s : Scope) (key : String) : List Value :=
  s.frames.filterMap (valueIn key) ++ (s.globals.find? key).toList

/-- What an update `f` makes of the frames. It changes the innermost frame that binds the name, and
has no result if there is none. -/
inductive Updates (key : String) (f : Table Value → Table Value) :
    List Frame → Option (List Frame) → Prop where
  | nowhere {frames : List Frame} (h : frames.filterMap (valueIn key) = []) :
    Updates key f frames none
  | frame {inner outer : List Frame} {t : Table Value} {v : Value}
    (hinner : inner.filterMap (valueIn key) = []) (ht : t.find? key = some v) :
    Updates key f (inner ++ some t :: outer) (some (inner ++ some (f t) :: outer))

/-- A frame without the name is passed over. -/
theorem Updates.cons {f : Table Value → Table Value} {frame : Frame} {rest : List Frame}
    {updated : Option (List Frame)} (hframe : valueIn key frame = none)
    (h : Updates key f rest updated) :
    Updates key f (frame :: rest) (updated.map (frame :: ·)) := by
  cases h with
  | nowhere h => exact .nowhere ((List.filterMap_cons_none hframe).trans h)
  | frame hinner ht => exact .frame ((List.filterMap_cons_none hframe).trans hinner) ht

/-- **An update changes the innermost frame that binds the name.** -/
theorem updates_updateLocal? (key : String) (f : Table Value → Table Value) (frames : List Frame) :
    Updates key f frames (updateLocal? key f frames) := by
  induction frames with
  | nil => exact .nowhere rfl
  | cons frame rest ih =>
    cases frame with
    -- a transparent frame is passed by, and so is one without the name
    | none => exact ih.cons rfl
    | some table =>
      unfold updateLocal? Table.contains
      cases hfind : table.find? key with
      | none => exact ih.cons hfind
      | some v =>
        have hhere : Updates key f ([] ++ some table :: rest)
          (some ([] ++ some (f table) :: rest)) := .frame rfl hfind
        exact hhere

/-- **Reading gives the innermost value.** -/
theorem get_fst_eq_headD (s : Scope) (name : String) :
    (s.get name).1 = (s.bindings (Text.lowercase name)).headD .unknown := by
  have hhead : (findLocal? (Text.lowercase name) s.frames).or
      (s.globals.find? (Text.lowercase name)) = (s.bindings (Text.lowercase name)).head? := by
    rw [bindings, List.head?_append, List.head?_filterMap, Option.head?_toList]
    rfl
  unfold get
  simp only [hhead]
  cases s.bindings (Text.lowercase name) <;> rfl

/-! ## Changes -/

/-- The change `f` of the innermost frame that binds the name, or of the globals if none does. -/
def update (s : Scope) (key : String) (f : Table Value → Table Value) : Scope :=
  match updateLocal? key f s.frames with
  | some frames => { s with frames }
  | none => { s with globals := f s.globals }

/-- The scopes differ at most in what the name stands for in one frame, or among the globals. -/
inductive DiffersAt (key : String) (s : Scope) : Scope → Prop where
  | frame {inner outer : List Frame} {t t' : Table Value} (hs : s.frames = inner ++ some t :: outer)
    (ht : t.SameBut key t') : DiffersAt key s { s with frames := inner ++ some t' :: outer }
  | globals {t : Table Value} (ht : s.globals.SameBut key t) :
    DiffersAt key s { s with globals := t }

theorem filterMap_valueIn_cons (key : String) (frame : Frame) (rest : List Frame) :
    (frame :: rest).filterMap (valueIn key) =
      (valueIn key frame).toList ++ rest.filterMap (valueIn key) := by
  cases h : valueIn key frame with
  | none => exact List.filterMap_cons_none h
  | some v => exact List.filterMap_cons_some h

/-- An update of a name changes one frame or the globals, and there only what stands under the
name. -/
theorem differsAt_update {f : Table Value → Table Value}
    (hf : ∀ t : Table Value, t.SameBut key (f t)) : s.DiffersAt key (s.update key f) := by
  unfold update
  have h := updates_updateLocal? key f s.frames
  generalize updateLocal? key f s.frames = updated at h ⊢
  generalize hs : s.frames = frames at h
  cases h with
  | nowhere =>
    rw [← hs]
    exact .globals (hf s.globals)
  | frame => exact .frame hs (hf _)

/-- **The innermost value of the name changes, and no other.** The change gives the name the value
`new` in whatever table it is made, or none. -/
theorem bindings_update {f : Table Value → Table Value} {new : Option Value}
    (hf : ∀ t name, (f t).find? name = if name = key then new else t.find? name) (name : String) :
    (s.update key f).bindings name =
      if name = key then new.toList ++ (s.bindings key).tail else s.bindings name := by
  unfold update
  have h := updates_updateLocal? key f s.frames
  generalize updateLocal? key f s.frames = updated at h ⊢
  generalize hs : s.frames = frames at h
  cases h with
  | nowhere hnone =>
    simp only [bindings, hs, hf]
    split
    · rename_i hname
      -- the global is the only value there can be, so that nothing is left of its tail
      rw [hname, hnone]
      cases s.globals.find? key <;> simp
    · rfl
  | frame hinner ht =>
    simp only [bindings, hs, List.filterMap_append, filterMap_valueIn_cons, valueIn_some, hf]
    split
    · rename_i hname
      simp [hname, hinner, ht]
    · rfl

theorem set_eq_update (s : Scope) (name : String) (v : Value) :
    s.set name v = s.update (Text.lowercase name) (·.insert (Text.lowercase name) v) :=
  rfl

theorem clear_eq_update (s : Scope) (name : String) :
    s.clear name = s.update (Text.lowercase name) (·.erase (Text.lowercase name)) :=
  rfl

/-- An assignment changes the innermost value of the name, and nothing else. -/
theorem bindings_set (s : Scope) (name : String) (v : Value) (key : String) :
    (s.set name v).bindings key = if key = Text.lowercase name
      then v :: (s.bindings (Text.lowercase name)).tail else s.bindings key := by
  rw [set_eq_update, bindings_update fun t key => t.find?_insert _ key v]
  rfl

/-- The innermost value of the name goes, and the one behind it comes to light. -/
theorem bindings_clear (s : Scope) (name key : String) :
    (s.clear name).bindings key = if key = Text.lowercase name
      then (s.bindings (Text.lowercase name)).tail else s.bindings key := by
  rw [clear_eq_update, bindings_update fun t key => t.find?_erase _ key]
  rfl

theorem differsAt_set (s : Scope) (name : String) (v : Value) :
    s.DiffersAt (Text.lowercase name) (s.set name v) := by
  rw [set_eq_update]
  exact differsAt_update fun t => t.sameBut_insert _ v

theorem differsAt_clear (s : Scope) (name : String) :
    s.DiffersAt (Text.lowercase name) (s.clear name) := by
  rw [clear_eq_update]
  exact differsAt_update fun t => t.sameBut_erase _

/-- Reading makes a global at most. -/
theorem differsAt_get (s : Scope) (name : String) :
    s.DiffersAt (Text.lowercase name) (s.get name).2 := by
  unfold get
  simp only
  split
  · exact .globals fun _ _ => rfl
  · exact .globals (s.globals.sameBut_insert _ _)

end Scope

/-! ## Workspaces -/

namespace Workspace

variable {κ : Type} {w : Workspace κ} {t : Table Value}

/-- The workspaces differ at most in what the name stands for in one frame, or among the globals,
and have transparent and binding frames in the same places. -/
structure DiffersAt (key : String) (w w' : Workspace κ) : Prop where
  scope : w.scope.DiffersAt key w'.scope
  frames : w'.scope.frames.map Option.isSome = w.scope.frames.map Option.isSome
  rest : w' = { w with scope := w'.scope }

/-- A use of a variable that does not remove it. -/
inductive Access where
  | get (name : String)
  | set (name : String) (v : Value)

/-- The name, as it is spelled. -/
def Access.name : Access → String
  | get name => name
  | set name _ => name

/-- The workspace after an access. -/
def access (w : Workspace κ) : Access → Workspace κ
  | .get name => (w.getVariable name).2
  | .set name v => w.setVariable name v

/-- The workspace after accesses, one after the other. -/
def accessAll (w : Workspace κ) (accesses : List Access) : Workspace κ :=
  accesses.foldl access w

/-- **An access to a name of the innermost frame stays in it**, and leaves its names bound. -/
theorem access_pushFrame {a : Access} (h : t.contains (Text.lowercase a.name) = true) :
    ∃ t' : Table Value, (w.pushFrame (some t)).access a = w.pushFrame (some t') ∧
      ∀ key, t.contains key = true → t'.contains key = true := by
  cases a with
  | get name =>
    obtain ⟨v, hv⟩ : ∃ v, t.find? (Text.lowercase name) = some v := Option.isSome_iff_exists.1 h
    have hfind : Scope.findLocal? (Text.lowercase name) (some t :: w.scope.frames) = some v := by
      rw [Scope.findLocal?, List.findSome?_cons, Option.bind_some, hv]
    refine ⟨t, ?_, fun _ hkey => hkey⟩
    simp only [access, getVariable, Scope.get, pushFrame, hfind, Option.some_or]
  | set name v =>
    refine ⟨t.insert (Text.lowercase name) v, ?_, fun _ hkey => t.contains_insert hkey _ v⟩
    have hupdate (f : Table Value → Table Value) :
        Scope.updateLocal? (Text.lowercase name) f (some t :: w.scope.frames) =
          some (some (f t) :: w.scope.frames) := if_pos h
    simp only [access, setVariable, Scope.set, pushFrame, hupdate]

/-- **So do any number of accesses.** -/
theorem accessAll_pushFrame {accesses : List Access}
    (h : ∀ a ∈ accesses, t.contains (Text.lowercase a.name) = true) :
    ∃ t' : Table Value, (w.pushFrame (some t)).accessAll accesses = w.pushFrame (some t') := by
  -- the table is general, since each access may change it before the next one
  induction accesses generalizing t with
  | nil => exact ⟨t, rfl⟩
  | cons a accesses ih =>
    obtain ⟨ha, hrest⟩ := List.forall_mem_cons.1 h
    obtain ⟨t1, haccess, hkept⟩ := access_pushFrame (w := w) ha
    obtain ⟨t2, hall⟩ := ih fun b hb => hkept _ (hrest b hb)
    refine ⟨t2, ?_⟩
    rw [accessAll, List.foldl_cons, haccess]
    exact hall

end Workspace

variable {κ : Type}

/-- **Variables form a store.** Setting a name changes what the name reads as, in any spelling, and
no other name. Removing it brings the next value outwards to light, and an unknown one if there is
none. Reading, setting and removing change what one name stands for in one table at most, and leave
the frames in their places. Accesses to the names of a binding frame, in any spelling, are gone
without a trace when the frame is left. -/
theorem variables_form_store (w : Workspace κ) :
    (∀ (n m : String) (v : Value), ((w.setVariable n v).getVariable m).1 =
      if Text.lowercase m = Text.lowercase n then v else (w.getVariable m).1) ∧
    (∀ n, (w.getVariable n).1 = (w.scope.bindings (Text.lowercase n)).headD .unknown) ∧
    (∀ n m, ((w.clearVariable n).getVariable m).1 =
      if Text.lowercase m = Text.lowercase n
      then (w.scope.bindings (Text.lowercase n)).tail.headD .unknown
      else (w.getVariable m).1) ∧
    (∀ n v, w.DiffersAt (Text.lowercase n) (w.getVariable n).2 ∧
      w.DiffersAt (Text.lowercase n) (w.setVariable n v) ∧
      w.DiffersAt (Text.lowercase n) (w.clearVariable n)) ∧
    ∀ (t : Table Value) (accesses : List Workspace.Access),
      (∀ key ∈ t.keys, Text.lowercase key = key) →
      (∀ a ∈ accesses, ∃ key ∈ t.keys, Text.lowercase a.name = Text.lowercase key) →
      ((w.pushFrame (some t)).accessAll accesses).popFrame = w := by
  have hget (w : Workspace κ) (n : String) :
      (w.getVariable n).1 = (w.scope.bindings (Text.lowercase n)).headD .unknown :=
    w.scope.get_fst_eq_headD n
  refine ⟨fun n m v => ?_, hget w, fun n m => ?_, fun n v => ⟨?_, ?_, ?_⟩, ?_⟩
  · rw [hget, hget, Workspace.setVariable, Scope.bindings_set]
    split <;> rfl
  · rw [hget, hget, Workspace.clearVariable, Scope.bindings_clear]
    split <;> rfl
  · exact ⟨w.scope.differsAt_get n, (Workspace.balanced_getVariable n).frames, rfl⟩
  · exact ⟨w.scope.differsAt_set n v, (Workspace.balanced_setVariable n v).frames, rfl⟩
  · exact ⟨w.scope.differsAt_clear n, (Workspace.balanced_clearVariable n).frames, rfl⟩
  · intro t accesses ht h
    -- every name is bound in the frame, so that all accesses stay inside it
    have hbound : ∀ a ∈ accesses, t.contains (Text.lowercase a.name) = true := by
      intro a ha
      obtain ⟨key, hkey, hname⟩ := h a ha
      rw [hname, ht key hkey]
      exact Table.contains_of_mem_keys hkey
    obtain ⟨t', ht'⟩ := Workspace.accessAll_pushFrame (w := w) hbound
    rw [ht']
    rfl

/-- Inside a call with an input `x`, and a global of that name. -/
def callWithX : Workspace (Command Empty) :=
  { scope :=
    { globals := .ofList [("x", .number ⟨0, 0⟩)]
      frames := [none, some (.ofList [("x", .bool true)])] } }

/-- A further call with an input `x`, which is read and set in two spellings. -/
theorem variables_form_store_spellings :
    let t : Table Value := .ofList [("x", .text "a")]
    let accesses : List Workspace.Access := [.get "X", .set "x" .unknown, .set "X" (.text "b")]
    callWithX.scope.bindings "x" = [.bool true, .number ⟨0, 0⟩] ∧
      (∀ key ∈ t.keys, Text.lowercase key = key) ∧
      (∀ a ∈ accesses, ∃ key ∈ t.keys, Text.lowercase a.name = Text.lowercase key) ∧
      ((callWithX.pushFrame (some t)).accessAll accesses).popFrame = callWithX := by
  intro t accesses
  obtain ⟨hx, hX⟩ : Text.lowercase "x" = "x" ∧ Text.lowercase "X" = "x" := by decide +kernel
  have ht : ∀ key ∈ t.keys, Text.lowercase key = key := by
    intro key hkey
    rw [List.mem_singleton.1 hkey, hx]
  have hnames : ∀ a ∈ accesses, ∃ key ∈ t.keys, Text.lowercase a.name = Text.lowercase key := by
    have hmem : "x" ∈ t.keys := List.mem_singleton_self _
    have hname {a : Workspace.Access} (h : Text.lowercase a.name = "x") :
        ∃ key ∈ t.keys, Text.lowercase a.name = Text.lowercase key := ⟨"x", hmem, h.trans hx.symm⟩
    exact List.forall_mem_cons.2 ⟨hname hX, List.forall_mem_cons.2 ⟨hname hx,
      List.forall_mem_singleton.2 (hname hX)⟩⟩
  obtain ⟨-, -, -, -, hleft⟩ := variables_form_store callWithX
  exact ⟨rfl, ht, hnames, hleft t accesses ht hnames⟩

end Logo
