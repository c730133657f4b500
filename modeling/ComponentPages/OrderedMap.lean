import ComponentPages.Text.Basic

/-!
# Maps that keep the order of insertion

A map from texts to values in which a key stays where it was first put and holds what it was last
given.

- **`OrderedMap`** — the type: entries with pairwise different keys.
- **`OrderedMap.insert`**, **`OrderedMap.get?`**, **`OrderedMap.ofList`** — its operations.
- **`OrderedMap.mem_values_of_get?`**, **`OrderedMap.get?_insert`** — what a lookup finds, and what
  it finds after an insertion.
-/

namespace ComponentPages

variable {α : Type}

/-! ## Entries -/

/-- The keys of a list of entries. -/
def keysOf (entries : List (Text × α)) : List Text := entries.map Prod.fst

/-- The entries with `value` under `key`: in place if the key is there, else at the end. -/
def putEntry (key : Text) (value : α) : List (Text × α) → List (Text × α)
  | [] => [(key, value)]
  | (k, v) :: rest => if k = key then (key, value) :: rest else (k, v) :: putEntry key value rest

theorem keysOf_putEntry (key : Text) (value : α) (entries : List (Text × α)) :
    keysOf (putEntry key value entries) =
      if key ∈ keysOf entries then keysOf entries else keysOf entries ++ [key] := by
  induction entries with
  | nil => simp [keysOf, putEntry]
  | cons e rest ih =>
    obtain ⟨k, v⟩ := e
    simp only [putEntry]
    split
    -- the key is the first one and keeps its place
    · next h => subst h; simp [keysOf]
    -- the first key stays, and the rest decides
    · next h =>
      have ih' := ih
      simp only [keysOf, List.map_cons, List.mem_cons] at ih' ⊢
      have hk : ¬ key = k := fun e => h e.symm
      by_cases hm : key ∈ rest.map Prod.fst <;> simp [ih', hk, hm]

theorem nodup_keysOf_putEntry {key : Text} {value : α} {entries : List (Text × α)}
    (h : (keysOf entries).Nodup) : (keysOf (putEntry key value entries)).Nodup := by
  rw [keysOf_putEntry]
  split
  -- the keys are those that were there
  · exact h
  -- the new key at the end differs from all before it
  · next hk =>
    rw [List.nodup_append]
    refine ⟨h, by simp, ?_⟩
    intro a ha b hb hab
    simp only [List.mem_singleton] at hb
    subst hb; subst hab
    exact hk ha

/-! ## The type -/

/-- A map from texts to values with its entries in the order of their first insertion. -/
@[ext] structure OrderedMap (α : Type) where
  /-- The entries in order. -/
  entries : List (Text × α)
  /-- No key twice. -/
  nodup : (keysOf entries).Nodup

namespace OrderedMap

/-- The map without entries. -/
def empty : OrderedMap α := ⟨[], List.nodup_nil⟩

instance : Inhabited (OrderedMap α) := ⟨empty⟩

instance : EmptyCollection (OrderedMap α) := ⟨empty⟩

/-- The keys in order. -/
def keys (m : OrderedMap α) : List Text := keysOf m.entries

/-- The values in the order of their keys. -/
def values (m : OrderedMap α) : List α := m.entries.map Prod.snd

/-- The number of entries. -/
def size (m : OrderedMap α) : Nat := m.entries.length

/-- Whether there are no entries. -/
def isEmpty (m : OrderedMap α) : Bool := m.entries.isEmpty

/-- The value under a key. -/
def get? (m : OrderedMap α) (key : Text) : Option α :=
  m.entries.findSome? fun (k, v) => if k = key then some v else none

/-- The map with `value` under `key`, which keeps its place if it has one. -/
def insert (m : OrderedMap α) (key : Text) (value : α) : OrderedMap α :=
  ⟨putEntry key value m.entries, nodup_keysOf_putEntry m.nodup⟩

/-- The map with all entries of a list inserted in order. -/
def insertAll (m : OrderedMap α) (entries : List (Text × α)) : OrderedMap α :=
  entries.foldl (fun m (k, v) => m.insert k v) m

/-- The map that a list of entries gives when they are inserted in order. -/
def ofList (entries : List (Text × α)) : OrderedMap α := empty.insertAll entries

@[simp] theorem entries_empty : (empty : OrderedMap α).entries = [] := rfl

@[simp] theorem get?_empty (key : Text) : (empty : OrderedMap α).get? key = none := rfl

/-- What a lookup finds is among the values. -/
theorem mem_values_of_get? {m : OrderedMap α} {key : Text} {value : α}
    (h : m.get? key = some value) : value ∈ m.values := by
  obtain ⟨⟨k, v⟩, hmem, hentry⟩ := List.exists_of_findSome?_eq_some h
  obtain ⟨-, hv⟩ := Option.ite_none_right_eq_some.1 hentry
  exact List.mem_map.2 ⟨(k, v), hmem, Option.some.inj hv⟩

/-- A lookup finds the inserted value under its key and what was there before elsewhere. -/
theorem get?_insert (m : OrderedMap α) (key : Text) (value : α) (k : Text) :
    (m.insert key value).get? k = if k = key then some value else m.get? k := by
  simp only [get?, insert]
  induction m.entries with
  | nil =>
    by_cases h : k = key
    · subst h; simp [putEntry]
    · simp [putEntry, h, Ne.symm h]
  | cons e rest ih =>
    obtain ⟨k', v'⟩ := e
    simp only [putEntry]
    by_cases hk : k' = key
    -- the insertion changes the first entry, which answers for its key alone
    · subst hk
      by_cases h : k = k'
      · subst h; simp
      · simp [h, Ne.symm h]
    -- the first entry stays, and answers for its key in both maps
    · simp only [hk, if_false, List.findSome?_cons]
      by_cases h : k' = k
      · subst h; simp [hk]
      · simp only [h, if_false]; exact ih

end OrderedMap

end ComponentPages
