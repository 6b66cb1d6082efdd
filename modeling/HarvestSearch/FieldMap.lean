/-
Maps from names to values, kept in the order of the names.

Everything that is written out by name is written in name order (by code point), so a map is the list
of its entries with strictly increasing keys. That makes a map determined by its look-ups: `ext_get?`
says that two maps with the same look-ups are the same map, and `get?_insert` what an insertion does
to the look-ups. A map is also its entries (`mem_entries_iff`), and of a list that repeats no name all
entries are kept (`mem_entries_ofList`), so whoever reads a map member by member need not know its
order. Values can be changed under their names before or after a map is made of a list
(`mapValues_ofList`), one map can be laid over another (`get?_union`), and a name can be left out
(`get?_erase`).

`FieldMap` stands for a `BTreeMap` whose keys are strings and for `serde_json::Map`, and `NameSet`
for a `BTreeSet` of strings.
-/

set_option autoImplicit false

namespace HarvestSearch

universe u v

/-- Entries of a map with strictly increasing names. -/
def SortedEntries {α : Type u} (entries : List (String × α)) : Prop :=
  entries.Pairwise fun a b => a.1 < b.1

/-- A finite map from names to values, in name order. -/
structure FieldMap (α : Type u) where
  entries : List (String × α)
  sorted : SortedEntries entries

namespace FieldMap

variable {α : Type u} {β : Type v}

instance [DecidableEq α] : DecidableEq (FieldMap α) := fun a b =>
  if h : a.entries = b.entries then isTrue (by cases a; cases b; cases h; rfl)
  else isFalse fun hab => h (congrArg entries hab)

/-! ## Entries -/

/-- The value of a name, the first one if the entries repeat it. -/
def lookupEntries (key : String) : List (String × α) → Option α
  | [] => none
  | (k, v) :: rest => if k = key then some v else lookupEntries key rest

/-- The entries with the name set to the value, in order again. -/
def insertEntries (key : String) (value : α) : List (String × α) → List (String × α)
  | [] => [(key, value)]
  | (k, v) :: rest =>
    if key < k then (key, value) :: (k, v) :: rest
    else if key = k then (key, value) :: rest
    else (k, v) :: insertEntries key value rest

theorem mem_insertEntries {key : String} {value : α} {entries : List (String × α)}
    {x : String × α} (h : x ∈ insertEntries key value entries) :
    x = (key, value) ∨ x ∈ entries := by
  induction entries with
  | nil => simpa [insertEntries] using h
  | cons e rest ih =>
    obtain ⟨k, v⟩ := e
    simp only [insertEntries] at h
    split at h
    · simpa using h
    · split at h
      · rcases List.mem_cons.1 h with h | h
        · exact .inl h
        · exact .inr (List.mem_cons_of_mem _ h)
      · rcases List.mem_cons.1 h with h | h
        · exact .inr (h ▸ List.mem_cons_self ..)
        · rcases ih h with h | h
          · exact .inl h
          · exact .inr (List.mem_cons_of_mem _ h)

theorem sorted_insertEntries (key : String) (value : α) {entries : List (String × α)}
    (h : SortedEntries entries) : SortedEntries (insertEntries key value entries) := by
  induction entries with
  | nil => simp [insertEntries, SortedEntries]
  | cons e rest ih =>
    obtain ⟨k, v⟩ := e
    obtain ⟨hk, hrest⟩ := List.pairwise_cons.1 h
    simp only [insertEntries]
    split
    · next hlt =>
      refine List.pairwise_cons.2 ⟨fun x hx => ?_, h⟩
      rcases List.mem_cons.1 hx with rfl | hx
      · exact hlt
      · exact String.lt_trans hlt (hk x hx)
    · next hlt =>
      split
      · next heq => exact List.pairwise_cons.2 ⟨fun x hx => heq ▸ hk x hx, hrest⟩
      · next hne =>
        refine List.pairwise_cons.2 ⟨fun x hx => ?_, ih hrest⟩
        rcases mem_insertEntries hx with rfl | hx
        · rcases Decidable.em (k < key) with h | h
          · exact h
          · exact absurd (String.le_antisymm (String.not_lt.1 h) (String.not_lt.1 hlt)) hne
        · exact hk x hx

theorem lookupEntries_insertEntries (key : String) (value : α) (entries : List (String × α))
    (q : String) :
    lookupEntries q (insertEntries key value entries) =
      if key = q then some value else lookupEntries q entries := by
  induction entries with
  | nil => simp [insertEntries, lookupEntries]
  | cons e rest ih =>
    obtain ⟨k, v⟩ := e
    simp only [insertEntries]
    split
    · simp [lookupEntries]
    · split
      · next heq =>
        subst heq
        simp only [lookupEntries]
        split <;> rfl
      · next hne =>
        simp only [lookupEntries, ih]
        by_cases hk : k = q
        · have : key ≠ q := fun h => hne (h.trans hk.symm)
          simp [hk, this]
        · simp [hk]

theorem lookupEntries_eq_none {key : String} {entries : List (String × α)}
    (h : ∀ x ∈ entries, key < x.1) : lookupEntries key entries = none := by
  induction entries with
  | nil => rfl
  | cons e rest ih =>
    obtain ⟨k, v⟩ := e
    have hlt : key < k := h _ (List.mem_cons_self ..)
    have hne : k ≠ key := fun heq => String.lt_irrefl key (heq ▸ hlt)
    simp only [lookupEntries, if_neg hne]
    exact ih fun x hx => h x (List.mem_cons_of_mem _ hx)

/-- A name is looked up in the front of the entries first. -/
theorem lookupEntries_append (key : String) (xs ys : List (String × α)) :
    lookupEntries key (xs ++ ys) = (lookupEntries key xs).or (lookupEntries key ys) := by
  induction xs with
  | nil => rfl
  | cons e rest ih =>
    obtain ⟨k, v⟩ := e
    rw [List.cons_append, lookupEntries, lookupEntries, ih]
    split <;> rfl

/-- Nothing is found exactly under the names that no entry has. -/
theorem lookupEntries_eq_none_iff {key : String} {entries : List (String × α)} :
    lookupEntries key entries = none ↔ ∀ e ∈ entries, e.1 ≠ key := by
  induction entries with
  | nil => simp [lookupEntries]
  | cons e rest ih =>
    obtain ⟨k, v⟩ := e
    rw [lookupEntries, List.forall_mem_cons, ← ih]
    by_cases hk : k = key
    · simp [hk]
    · simp [hk]

/-- Nothing is found from the other end either. -/
theorem lookupEntries_reverse_eq_none {key : String} {entries : List (String × α)}
    (h : ∀ e ∈ entries, e.1 ≠ key) : lookupEntries key entries.reverse = none :=
  lookupEntries_eq_none_iff.2 fun e he => h e (List.mem_reverse.1 he)

theorem mem_of_lookupEntries {key : String} {value : α} {entries : List (String × α)}
    (h : lookupEntries key entries = some value) : (key, value) ∈ entries := by
  induction entries with
  | nil => cases h
  | cons e rest ih =>
    obtain ⟨k, v⟩ := e
    rw [lookupEntries] at h
    by_cases hk : k = key
    · rw [if_pos hk] at h
      cases h
      rw [hk]
      exact List.mem_cons_self
    · rw [if_neg hk] at h
      exact List.mem_cons_of_mem _ (ih h)

/-- Among entries with distinct names every one is found. -/
theorem lookupEntries_of_mem {key : String} {value : α} {entries : List (String × α)}
    (distinct : (entries.map (·.1)).Nodup) (h : (key, value) ∈ entries) :
    lookupEntries key entries = some value := by
  induction entries with
  | nil => cases h
  | cons e rest ih =>
    obtain ⟨k, v⟩ := e
    obtain ⟨fresh, distinct⟩ := List.nodup_cons.1 distinct
    rw [lookupEntries]
    rcases List.mem_cons.1 h with heq | hrest
    · cases heq
      rw [if_pos rfl]
    · have hmem : key ∈ rest.map (·.1) := List.mem_map.2 ⟨(key, value), hrest, rfl⟩
      have hne : k ≠ key := fun heq => fresh (heq ▸ hmem)
      rw [if_neg hne, ih distinct hrest]

/-- Entries with distinct names may be looked through from either end. -/
theorem lookupEntries_reverse {entries : List (String × α)} (distinct : (entries.map (·.1)).Nodup)
    (key : String) : lookupEntries key entries.reverse = lookupEntries key entries := by
  have hreverse : (entries.reverse.map (·.1)).Nodup := by
    rw [List.map_reverse]
    exact List.pairwise_reverse.2 (distinct.imp Ne.symm)
  refine Option.ext fun value => ⟨fun h => ?_, fun h => ?_⟩
  · exact lookupEntries_of_mem distinct (List.mem_reverse.1 (mem_of_lookupEntries h))
  · exact lookupEntries_of_mem hreverse (List.mem_reverse.2 (mem_of_lookupEntries h))

/-- Names in increasing order are distinct. -/
theorem nodup_of_sorted {entries : List (String × α)} (h : SortedEntries entries) :
    (entries.map (·.1)).Nodup := by
  refine List.pairwise_map.2 (h.imp ?_)
  intro a b hlt heq
  rw [heq] at hlt
  exact String.lt_irrefl b.1 hlt

theorem entries_ext : ∀ {xs ys : List (String × α)}, SortedEntries xs → SortedEntries ys →
    (∀ q, lookupEntries q xs = lookupEntries q ys) → xs = ys
  | [], [], _, _, _ => rfl
  | [], (k, v) :: ys, _, _, h => by simpa [lookupEntries] using h k
  | (k, v) :: xs, [], _, _, h => by simpa [lookupEntries] using h k
  | (k, v) :: xs, (k', v') :: ys, hx, hy, h => by
    obtain ⟨hkx, hxs⟩ := List.pairwise_cons.1 hx
    obtain ⟨hky, hys⟩ := List.pairwise_cons.1 hy
    have keys : k = k' := by
      rcases Decidable.em (k < k') with hlt | hge
      · have : lookupEntries k ((k', v') :: ys) = none := by
          refine lookupEntries_eq_none fun x hx => ?_
          rcases List.mem_cons.1 hx with rfl | hx
          · exact hlt
          · exact String.lt_trans hlt (hky x hx)
        have hk := h k
        rw [this] at hk
        simp [lookupEntries] at hk
      · rcases Decidable.em (k' < k) with hlt | hge'
        · have : lookupEntries k' ((k, v) :: xs) = none := by
            refine lookupEntries_eq_none fun x hx => ?_
            rcases List.mem_cons.1 hx with rfl | hx
            · exact hlt
            · exact String.lt_trans hlt (hkx x hx)
          have hk := h k'
          rw [this] at hk
          simp [lookupEntries] at hk
        · exact String.le_antisymm (String.not_lt.1 hge') (String.not_lt.1 hge)
    subst keys
    have values : v = v' := by simpa [lookupEntries] using h k
    subst values
    have rest : xs = ys := entries_ext hxs hys fun q => by
      by_cases hq : k = q
      · subst hq
        rw [lookupEntries_eq_none hkx, lookupEntries_eq_none hky]
      · simpa [lookupEntries, hq] using h q
    rw [rest]

/-! ## Maps -/

def empty : FieldMap α := ⟨[], List.Pairwise.nil⟩

instance : EmptyCollection (FieldMap α) := ⟨empty⟩
instance : Inhabited (FieldMap α) := ⟨empty⟩

def isEmpty (m : FieldMap α) : Bool := m.entries.isEmpty

/-- The names, in order. -/
def keys (m : FieldMap α) : List String := m.entries.map (·.1)

/-- The value of a name. -/
def get? (m : FieldMap α) (key : String) : Option α := lookupEntries key m.entries

/-- The map with the name set to the value. An earlier value of the name is replaced. -/
def insert (m : FieldMap α) (key : String) (value : α) : FieldMap α :=
  ⟨insertEntries key value m.entries, sorted_insertEntries key value m.sorted⟩

/-- All entries of the list inserted one after the other. -/
def insertAll (m : FieldMap α) (entries : List (String × α)) : FieldMap α :=
  entries.foldl (fun acc e => acc.insert e.1 e.2) m

/-- The map of a list of entries. Of a repeated name the last value counts. -/
def ofList (entries : List (String × α)) : FieldMap α := empty.insertAll entries

/-- The union, in which the second map's values replace the first map's. -/
def union (m n : FieldMap α) : FieldMap α := m.insertAll n.entries

theorem ext_get? {m n : FieldMap α} (h : ∀ q, m.get? q = n.get? q) : m = n := by
  obtain ⟨xs, hx⟩ := m
  obtain ⟨ys, hy⟩ := n
  have : xs = ys := entries_ext hx hy h
  subst this
  rfl

@[simp] theorem get?_empty (q : String) : (empty : FieldMap α).get? q = none := rfl

@[simp] theorem get?_insert (m : FieldMap α) (key : String) (value : α) (q : String) :
    (m.insert key value).get? q = if key = q then some value else m.get? q :=
  lookupEntries_insertEntries ..

/-- The entries of a map are what is found in it. -/
theorem mem_entries_iff {m : FieldMap α} {key : String} {value : α} :
    (key, value) ∈ m.entries ↔ m.get? key = some value :=
  ⟨lookupEntries_of_mem (nodup_of_sorted m.sorted), mem_of_lookupEntries⟩

theorem mem_keys_iff {m : FieldMap α} {key : String} :
    key ∈ m.keys ↔ ∃ value, m.get? key = some value := by
  unfold keys
  constructor
  · intro h
    obtain ⟨⟨k, v⟩, hmem, rfl⟩ := List.mem_map.1 h
    exact ⟨v, mem_entries_iff.1 hmem⟩
  · rintro ⟨value, h⟩
    exact List.mem_map_of_mem (mem_entries_iff.2 h)

/-- Of several insertions under one name the last counts, and any counts more than the map. -/
theorem get?_insertAll (entries : List (String × α)) :
    ∀ (m : FieldMap α) (q : String),
      (m.insertAll entries).get? q = (lookupEntries q entries.reverse).or (m.get? q) := by
  induction entries with
  | nil => exact fun _ _ => rfl
  | cons e rest ih =>
    obtain ⟨k, v⟩ := e
    intro m q
    have hinsert : (m.insertAll ((k, v) :: rest)) = (m.insert k v).insertAll rest := rfl
    rw [hinsert, ih, get?_insert, List.reverse_cons, lookupEntries_append, Option.or_assoc]
    by_cases hk : k = q
    · simp [lookupEntries, hk]
    · simp [lookupEntries, hk]

theorem get?_ofList (entries : List (String × α)) (q : String) :
    (ofList entries).get? q = lookupEntries q entries.reverse := by
  rw [ofList, get?_insertAll, get?_empty, Option.or_none]

/-- The names of the map of a list are the names in the list. -/
theorem mem_keys_ofList {entries : List (String × α)} {key : String} :
    key ∈ (ofList entries).keys ↔ key ∈ entries.map (·.1) := by
  rw [mem_keys_iff, get?_ofList, ← Option.isSome_iff_exists, ← Option.ne_none_iff_isSome, Ne,
    lookupEntries_eq_none_iff]
  simp

/-- A list without repeated names has the entries of its map, in any order. -/
theorem mem_entries_ofList {entries : List (String × α)}
    (distinct : (entries.map (·.1)).Nodup) {e : String × α} :
    e ∈ (ofList entries).entries ↔ e ∈ entries := by
  obtain ⟨key, value⟩ := e
  rw [mem_entries_iff, get?_ofList, lookupEntries_reverse distinct]
  exact ⟨mem_of_lookupEntries, lookupEntries_of_mem distinct⟩

/-- A map is the map of its entries. -/
theorem ofList_entries (m : FieldMap α) : ofList m.entries = m := by
  refine ext_get? fun q => ?_
  rw [get?_ofList, lookupEntries_reverse (nodup_of_sorted m.sorted)]
  rfl

/-- In a union the second map is looked through first. -/
theorem get?_union (m n : FieldMap α) (q : String) :
    (m.union n).get? q = (n.get? q).or (m.get? q) := by
  rw [union, get?_insertAll, lookupEntries_reverse (nodup_of_sorted n.sorted)]
  rfl

theorem get?_union_of_mem {m n : FieldMap α} {q : String} (h : q ∈ n.keys) :
    (m.union n).get? q = n.get? q := by
  obtain ⟨value, hvalue⟩ := mem_keys_iff.1 h
  rw [get?_union, hvalue, Option.some_or]

theorem get?_union_of_not_mem {m n : FieldMap α} {q : String} (h : q ∉ n.keys) :
    (m.union n).get? q = m.get? q := by
  have hnone : n.get? q = none :=
    Option.eq_none_iff_forall_ne_some.2 fun value hvalue => h (mem_keys_iff.2 ⟨value, hvalue⟩)
  rw [get?_union, hnone, Option.none_or]

/-! ## Leaving a name out -/

/-- The map without a name. -/
def erase (m : FieldMap α) (key : String) : FieldMap α where
  entries := m.entries.filter fun e => e.1 ≠ key
  sorted := m.sorted.sublist List.filter_sublist

theorem lookupEntries_filter_ne (key : String) (entries : List (String × α)) (q : String) :
    lookupEntries q (entries.filter fun e => e.1 ≠ key)
      = if key = q then none else lookupEntries q entries := by
  induction entries with
  | nil => simp [lookupEntries]
  | cons e rest ih =>
    obtain ⟨k, v⟩ := e
    rw [List.filter_cons]
    by_cases hk : k = key
    · rw [if_neg (by simp [hk]), ih, lookupEntries, hk]
      split
      · rfl
      · rfl
    · rw [if_pos (by simp [hk]), lookupEntries, ih, lookupEntries]
      by_cases hq : k = q
      · rw [if_pos hq, if_pos hq, if_neg fun heq => hk (hq.trans heq.symm)]
      · rw [if_neg hq, if_neg hq]

@[simp] theorem get?_erase (m : FieldMap α) (key q : String) :
    (m.erase key).get? q = if key = q then none else m.get? q :=
  lookupEntries_filter_ne key m.entries q

/-- A name can be left out before or after the map is made of its entries. -/
theorem erase_ofList (key : String) (entries : List (String × α)) :
    (ofList entries).erase key = ofList (entries.filter fun e => e.1 ≠ key) := by
  refine ext_get? fun q => ?_
  rw [get?_erase, get?_ofList, get?_ofList, ← List.filter_reverse, lookupEntries_filter_ne]

/-! ## Other values -/

/-- The map with another value under each of its names. -/
def mapValues (f : String → α → β) (m : FieldMap α) : FieldMap β where
  entries := m.entries.map fun e => (e.1, f e.1 e.2)
  sorted := List.pairwise_map.2 (m.sorted.imp fun h => h)

theorem lookupEntries_map (f : String → α → β) (entries : List (String × α)) (q : String) :
    lookupEntries q (entries.map fun e => (e.1, f e.1 e.2))
      = (lookupEntries q entries).map (f q) := by
  induction entries with
  | nil => rfl
  | cons e rest ih =>
    obtain ⟨k, v⟩ := e
    rw [List.map_cons, lookupEntries, lookupEntries, ih]
    by_cases hk : k = q
    · rw [if_pos hk, if_pos hk, Option.map_some, hk]
    · rw [if_neg hk, if_neg hk]

/-- Under a name the first item is found that has it. -/
theorem lookupEntries_map_eq_find? (key : α → String) (value : α → β) (q : String) (xs : List α) :
    lookupEntries q (xs.map fun x => (key x, value x))
      = (xs.find? fun x => key x = q).map value := by
  induction xs with
  | nil => rfl
  | cons x xs ih =>
    rw [List.map_cons, lookupEntries, List.find?_cons, ih]
    by_cases hx : key x = q
    · simp [hx]
    · simp [hx]

@[simp] theorem get?_mapValues (f : String → α → β) (m : FieldMap α) (q : String) :
    (m.mapValues f).get? q = (m.get? q).map (f q) :=
  lookupEntries_map ..

/-- The values can be changed before or after the map is made of a list. -/
theorem mapValues_ofList (f : String → α → β) (entries : List (String × α)) :
    (ofList entries).mapValues f = ofList (entries.map fun e => (e.1, f e.1 e.2)) := by
  refine ext_get? fun q => ?_
  rw [get?_mapValues, get?_ofList, get?_ofList, ← List.map_reverse, lookupEntries_map]

end FieldMap

/-! ## Sets of names -/

/-- A finite set of names, in name order. -/
abbrev NameSet := FieldMap Unit

namespace NameSet

/-- The members, in order. -/
def names (s : NameSet) : List String := FieldMap.keys s

/-- The set with more members. -/
def insertNames (s : NameSet) (names : List String) : NameSet :=
  names.foldl (fun acc name => FieldMap.insert acc name ()) s

/-- More members are added to those that are there. -/
theorem get?_insertNames (s : NameSet) (names : List String) (q : String) :
    (insertNames s names).get? q = if q ∈ names then some () else s.get? q := by
  unfold insertNames
  induction names generalizing s with
  | nil => simp
  | cons name names ih =>
    rw [List.foldl_cons, ih, FieldMap.get?_insert]
    by_cases hq : q ∈ names
    · simp [hq]
    · by_cases hname : name = q
      · simp [hname]
      · simp [hq, hname, Ne.symm hname]

/-- Members may be added in any order. -/
theorem insertNames_comm (s : NameSet) (xs ys : List String) :
    insertNames (insertNames s xs) ys = insertNames (insertNames s ys) xs := by
  refine FieldMap.ext_get? fun q => ?_
  simp only [get?_insertNames]
  split
  · split
    · rfl
    · rfl
  · rfl

/-- Members may be added together. -/
theorem insertNames_insertNames (s : NameSet) {xs ys zs : List String}
    (h : ∀ name, name ∈ zs ↔ name ∈ xs ∨ name ∈ ys) :
    insertNames (insertNames s xs) ys = insertNames s zs := by
  refine FieldMap.ext_get? fun q => ?_
  simp only [get?_insertNames, h]
  by_cases hx : q ∈ xs
  · simp [hx]
  · simp [hx]

end NameSet

end HarvestSearch
