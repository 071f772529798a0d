/-!
# Tables

Finite maps from names. The entries stand in the order of their names, and no name has two: this is
part of what a table is, so that a table is listed in order, and two tables that hold the same under
every name are the same table (`ext_find?`).
-/

namespace Logo

/-- A map from names to values of `α`. -/
structure Table (α : Type) where
  /-- The entries. -/
  entries : List (String × α)
  /-- Each name comes before those that follow it. -/
  ordered : entries.Pairwise fun e e' => e.1 < e'.1

namespace Table

variable {α : Type}

/-- The table without entries. -/
def empty : Table α :=
  ⟨[], .nil⟩

instance : Inhabited (Table α) := ⟨empty⟩

/-- What the table holds under a name. -/
def find? (t : Table α) (key : String) : Option α :=
  t.entries.lookup key

/-- Whether the table holds something under a name. -/
def contains (t : Table α) (key : String) : Bool :=
  (t.find? key).isSome

/-- Puts an entry in its place, instead of one with the same name. -/
def insertEntry (key : String) (a : α) : List (String × α) → List (String × α)
  | [] => [(key, a)]
  | (k, b) :: rest =>
    if key == k then (key, a) :: rest
    else if key < k then (key, a) :: (k, b) :: rest
    else (k, b) :: insertEntry key a rest

/-- Putting an entry in its place adds no other. -/
theorem mem_insertEntry {key : String} {a : α} {entries : List (String × α)} {e : String × α}
    (h : e ∈ insertEntry key a entries) : e = (key, a) ∨ e ∈ entries := by
  fun_induction insertEntry key a entries with
  | case1 => exact .inl (List.mem_singleton.1 h)
  | case2 k b rest _ => exact (List.mem_cons.1 h).imp_right (List.mem_cons_of_mem _)
  | case3 k b rest _ _ => exact List.mem_cons.1 h
  | case4 k b rest _ _ ih =>
    rcases List.mem_cons.1 h with rfl | h
    · exact .inr List.mem_cons_self
    · exact (ih h).imp_right (List.mem_cons_of_mem _)

/-- Entries in order stay in order when one more is put in its place. -/
theorem ordered_insertEntry (key : String) (a : α) {entries : List (String × α)}
    (h : entries.Pairwise fun e e' => e.1 < e'.1) :
    (insertEntry key a entries).Pairwise fun e e' => e.1 < e'.1 := by
  fun_induction insertEntry key a entries with
  | case1 => exact List.pairwise_singleton _ _
  | case2 k b rest hk =>
    obtain rfl : key = k := beq_iff_eq.1 hk
    obtain ⟨hfirst, hrest⟩ := List.pairwise_cons.1 h
    exact List.pairwise_cons.2 ⟨hfirst, hrest⟩
  | case3 k b rest _ hlt =>
    refine List.pairwise_cons.2 ⟨?_, h⟩
    intro e he
    rcases List.mem_cons.1 he with rfl | he
    · exact hlt
    · exact String.lt_trans hlt ((List.pairwise_cons.1 h).1 e he)
  | case4 k b rest hk hlt ih =>
    obtain ⟨hfirst, hrest⟩ := List.pairwise_cons.1 h
    refine List.pairwise_cons.2 ⟨?_, ih hrest⟩
    intro e he
    rcases mem_insertEntry he with rfl | he
    · exact Std.lt_of_le_of_ne (String.not_lt.1 hlt) fun hkey => hk (beq_iff_eq.2 hkey.symm)
    · exact hfirst e he

/-- The table with `a` under the name `key`. -/
def insert (t : Table α) (key : String) (a : α) : Table α :=
  ⟨insertEntry key a t.entries, ordered_insertEntry key a t.ordered⟩

/-- The table with nothing under the name `key`. -/
def erase (t : Table α) (key : String) : Table α :=
  ⟨t.entries.filter fun e => !(key == e.1), t.ordered.filter _⟩

/-- The table of a list of entries, of which later ones win. -/
def ofList (entries : List (String × α)) : Table α :=
  entries.foldl (fun t e => t.insert e.1 e.2) empty

theorem lookup_cons (name k : String) (b : α) (rest : List (String × α)) :
    List.lookup name ((k, b) :: rest) = if name = k then some b else List.lookup name rest := by
  by_cases h : name = k
  · rw [List.lookup_cons, beq_iff_eq.2 h, if_pos h]
  · rw [List.lookup_cons, beq_eq_false_iff_ne.2 h, if_neg h]

/-- A name stands for what was put under it last. -/
theorem find?_insert (t : Table α) (key name : String) (a : α) :
    (t.insert key a).find? name = if name = key then some a else t.find? name := by
  unfold find? insert
  simp only
  induction t.entries with
  | nil => rw [insertEntry, lookup_cons]
  | cons e rest ih =>
    obtain ⟨k, b⟩ := e
    unfold insertEntry
    by_cases hk : key = k
    · rw [if_pos (beq_iff_eq.2 hk), lookup_cons, lookup_cons, ← hk]
      split <;> rfl
    rw [if_neg (by simpa using hk)]
    split
    · rw [lookup_cons]
    · rw [lookup_cons, lookup_cons, ih]
      by_cases h : name = k
      · rw [if_pos h, if_pos h, if_neg (by rw [h]; exact Ne.symm hk)]
      · rw [if_neg h, if_neg h]

/-- A name that is taken out stands for nothing, and all others for what they stood for. -/
theorem find?_erase (t : Table α) (key name : String) :
    (t.erase key).find? name = if name = key then none else t.find? name := by
  unfold find? erase
  simp only
  induction t.entries with
  | nil => split <;> rfl
  | cons e rest ih =>
    obtain ⟨k, b⟩ := e
    by_cases hk : key = k
    · rw [List.filter_cons_of_neg (by simpa using hk), ih, lookup_cons, ← hk]
      split <;> rfl
    · rw [List.filter_cons_of_pos (by simpa using hk), lookup_cons, lookup_cons, ih]
      by_cases h : name = k
      · rw [if_pos h, if_pos h, if_neg (by rw [h]; exact Ne.symm hk)]
      · rw [if_neg h, if_neg h]

/-- A name that comes before all others in a list has no entry there. -/
theorem lookup_of_lt {name : String} {entries : List (String × α)}
    (h : ∀ e ∈ entries, name < e.1) : entries.lookup name = none := by
  refine List.lookup_eq_none_iff.2 fun e he => ?_
  have hlt := h e he
  exact bne_iff_ne.2 fun hname => String.lt_irrefl _ (hname ▸ hlt)

/-- In entries in order, no name that has an entry comes before the first. -/
theorem first_le_of_lookup {first : String × α} {rest : List (String × α)} {name : String} {a : α}
    (h : (first :: rest).Pairwise fun e e' => e.1 < e'.1)
    (hname : (first :: rest).lookup name = some a) : first.1 ≤ name := by
  refine String.not_lt.1 fun hlt => ?_
  have hall : ∀ e ∈ first :: rest, name < e.1 := by
    intro e he
    rcases List.mem_cons.1 he with rfl | he
    · exact hlt
    · exact String.lt_trans hlt ((List.pairwise_cons.1 h).1 e he)
  rw [lookup_of_lt hall] at hname
  cases hname

/-- Entries in order are determined by what is looked up in them. -/
theorem entries_eq_of_lookup {entries entries' : List (String × α)}
    (hordered : entries.Pairwise fun e e' => e.1 < e'.1)
    (hordered' : entries'.Pairwise fun e e' => e.1 < e'.1)
    (h : ∀ name, entries.lookup name = entries'.lookup name) : entries = entries' := by
  have hhead (e : String × α) (rest : List (String × α)) : (e :: rest).lookup e.1 = some e.2 :=
    List.lookup_cons_self
  induction entries generalizing entries' with
  | nil =>
    cases entries' with
    | nil => rfl
    | cons e' rest' => cases (h e'.1).trans (hhead e' rest')
  | cons e rest ih =>
    cases entries' with
    | nil => cases (h e.1).symm.trans (hhead e rest)
    | cons e' rest' =>
      -- Each first name has an entry on the other side, so neither comes before the other.
      have hname : e.1 = e'.1 :=
        String.le_antisymm (first_le_of_lookup hordered ((h e'.1).trans (hhead e' rest')))
          (first_le_of_lookup hordered' ((h e.1).symm.trans (hhead e rest)))
      have hvalue : some e.2 = some e'.2 := by
        rw [← hhead e rest, ← hhead e' rest', ← hname]
        exact h e.1
      obtain ⟨hfirst, hrest⟩ := List.pairwise_cons.1 hordered
      obtain ⟨hfirst', hrest'⟩ := List.pairwise_cons.1 hordered'
      have hlookup (name : String) : rest.lookup name = rest'.lookup name := by
        by_cases hfound : name = e.1
        · rw [hfound, lookup_of_lt hfirst, hname, lookup_of_lt hfirst']
        · have hother := h name
          rwa [lookup_cons, lookup_cons, if_neg hfound, if_neg (hname ▸ hfound)] at hother
      rw [ih hrest hrest' hlookup, Prod.ext hname (Option.some.inj hvalue)]

/-- **Tables that hold the same under every name are the same table.** -/
theorem ext_find? {t t' : Table α} (h : ∀ name, t.find? name = t'.find? name) : t = t' := by
  obtain ⟨entries, hordered⟩ := t
  obtain ⟨entries', hordered'⟩ := t'
  rw [mk.injEq]
  exact entries_eq_of_lookup hordered hordered' h

/-- The names, in order. -/
def keys (t : Table α) : List String :=
  t.entries.map Prod.fst

end Table

end Logo
