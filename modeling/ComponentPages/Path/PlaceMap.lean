import ComponentPages.Path.Basic

/-!
# Maps from places

A place is reached from the top by a list of names. Places with a common beginning share it in a map
from places, so that a place far down is found in as many steps as it has names.

- **`Place`**, **`PlaceMap`** — the types.
- **`PlaceMap.get?`**, **`PlaceMap.insert`** — look-up and insertion, tied by **`get?_insert`**.
- **`PlaceMap.under`**, **`PlaceMap.names`** — what is under a place, told by **`get?_under`** and
  **`mem_names_iff`**.
- **`PlaceMap.toList`** — all places that have a value, told by **`mem_toList_iff`**.
-/

namespace ComponentPages

/-- A place: the names on the way from the top to it. -/
abbrev Place := List Text

/-- Values for places other than the top, sorted by the first name of the place. Each entry holds
the value for the place of its name alone, and the values for the places that go on from there. -/
inductive PlaceMap (α : Type) where
  | empty
  | entry (name : Text) (here : Option α) (below rest : PlaceMap α)
deriving Repr

namespace PlaceMap

variable {α : Type}

instance : Inhabited (PlaceMap α) := ⟨empty⟩

instance : EmptyCollection (PlaceMap α) := ⟨empty⟩

/-- The value for a place. The top has none. -/
def get? : PlaceMap α → Place → Option α
  | empty, _ => none
  | entry .., [] => none
  | entry n here below rest, name :: place =>
    if n = name then
      match place with
      | [] => here
      | next :: place => below.get? (next :: place)
    else rest.get? (name :: place)

/-- The map with a value for one place, given by its first name and the others. -/
def single : Text → Place → α → PlaceMap α
  | name, [], a => entry name (some a) empty empty
  | name, next :: place, a => entry name none (single next place a) empty

/-- The map with a value put at a place. Nothing can be put at the top. -/
def insert : PlaceMap α → Place → α → PlaceMap α
  | m, [], _ => m
  | empty, name :: place, a => single name place a
  | entry n here below rest, name :: place, a =>
    if n = name then
      match place with
      | [] => entry n (some a) below rest
      | next :: place => entry n here (below.insert (next :: place) a) rest
    else entry n here below (rest.insert (name :: place) a)

/-- The values for the places that go on from a place. -/
def under : PlaceMap α → Place → PlaceMap α
  | m, [] => m
  | empty, _ :: _ => empty
  | entry n _ m rest, name :: place =>
    if n = name then m.under place else rest.under (name :: place)

/-- The first names of the places, whether they have a value alone or not. -/
def firstNames : PlaceMap α → List Text
  | empty => []
  | entry n _ _ rest => n :: rest.firstNames

/-- The names that have a value alone. -/
def names (m : PlaceMap α) : List Text := m.firstNames.filter fun name => (m.get? [name]).isSome

/-- All places on the way to a value. -/
def places : PlaceMap α → List Place
  | empty => []
  | entry n _ below rest => [n] :: below.places.map (n :: ·) ++ rest.places

/-- The places that have a value, with it. -/
def toList (m : PlaceMap α) : List (Place × α) :=
  m.places.filterMap fun place => (m.get? place).map fun a => (place, a)

/-! ## Look-up -/

@[simp] theorem get?_empty (p : Place) : (empty : PlaceMap α).get? p = none := rfl

@[simp] theorem get?_top (m : PlaceMap α) : m.get? [] = none := by
  cases m <;> rfl

theorem get?_single (name : Text) (place : Place) (a : α) (p : Place) :
    (single name place a).get? p = if p = name :: place then some a else none := by
  induction place generalizing name p with
  | nil =>
    cases p with
    | nil => simp
    | cons x xs =>
      by_cases h : name = x
      · subst h; cases xs <;> simp [single, get?]
      · simp [single, get?, h, Ne.symm h]
  | cons next place ih =>
    cases p with
    | nil => simp
    | cons x xs =>
      by_cases h : name = x
      · subst h; cases xs <;> simp [single, get?, ih]
      · simp [single, get?, h, Ne.symm h]

/-- A look-up finds an inserted value at its place and what was there before elsewhere. -/
theorem get?_insert (m : PlaceMap α) {place : Place} (h : place ≠ []) (a : α) (p : Place) :
    (m.insert place a).get? p = if p = place then some a else m.get? p := by
  induction m generalizing place p with
  | empty =>
    cases place with
    | nil => exact absurd rfl h
    | cons name place => simp [insert, get?_single]
  | entry n here below rest ihBelow ihRest =>
    cases place with
    | nil => exact absurd rfl h
    | cons name place =>
      by_cases hn : n = name
      -- the value belongs to the first entry or below it
      · subst hn
        cases place with
        | nil =>
          cases p with
          | nil => simp
          | cons x xs =>
            by_cases hx : n = x
            · subst hx; cases xs <;> simp [insert, get?]
            · simp [insert, get?, hx, Ne.symm hx]
        | cons next place =>
          cases p with
          | nil => simp
          | cons x xs =>
            by_cases hx : n = x
            · subst hx; cases xs <;> simp [insert, get?, ihBelow]
            · simp [insert, get?, hx, Ne.symm hx]
      -- the first entry stays
      · cases p with
        | nil => simp
        | cons x xs =>
          by_cases hx : n = x
          · subst hx; simp [insert, get?, hn]
          · simp [insert, get?, hn, hx, ihRest]

/-- The values under a place are those for the places that go on from it. -/
theorem get?_under (m : PlaceMap α) (place : Place) {p : Place} (h : p ≠ []) :
    (m.under place).get? p = m.get? (place ++ p) := by
  induction m generalizing place with
  | empty => cases place <;> simp [under]
  | entry n here b rest ihBelow ihRest =>
    cases place with
    | nil => simp [under]
    | cons name place =>
      by_cases hn : n = name
      · cases hp : place ++ p with
        | nil => exact absurd (List.append_eq_nil_iff.1 hp).2 h
        | cons next q => simp [under, get?, hn, ihBelow, hp]
      · simp [under, get?, hn, ihRest]

/-- What is under a place under another is under the two places joined. -/
theorem under_under (m : PlaceMap α) (place q : Place) :
    (m.under place).under q = m.under (place ++ q) := by
  induction m generalizing place with
  | empty =>
    cases place with
    | nil => rfl
    | cons name place => cases q <;> rfl
  | entry n here b rest ihBelow ihRest =>
    cases place with
    | nil => rfl
    | cons name place =>
      by_cases hn : n = name
      · simp [under, hn, ihBelow]
      · have h := ihRest (name :: place)
        simpa [under, hn] using h

/-! ## Listings -/

theorem mem_firstNames_of_get? {m : PlaceMap α} {name : Text} {place : Place} {a : α}
    (h : m.get? (name :: place) = some a) : name ∈ m.firstNames := by
  induction m with
  | empty => simp at h
  | entry n here below rest _ ihRest =>
    by_cases hn : n = name
    · simp [firstNames, hn]
    · exact List.mem_cons_of_mem _ (ihRest (by simpa [get?, hn] using h))

/-- The names of a map are those that have a value alone. -/
theorem mem_names_iff {m : PlaceMap α} {name : Text} :
    name ∈ m.names ↔ (m.get? [name]).isSome := by
  constructor
  · intro h
    exact (List.mem_filter.1 h).2
  · intro h
    obtain ⟨a, ha⟩ := Option.isSome_iff_exists.1 h
    exact List.mem_filter.2 ⟨mem_firstNames_of_get? ha, h⟩

theorem mem_places_of_get? {m : PlaceMap α} {p : Place} {a : α} (h : m.get? p = some a) :
    p ∈ m.places := by
  induction m generalizing p with
  | empty => simp at h
  | entry n here below rest ihBelow ihRest =>
    cases p with
    | nil => simp at h
    | cons name place =>
      by_cases hn : n = name
      · subst hn
        cases place with
        | nil => simp [places]
        | cons next place =>
          have hb : below.get? (next :: place) = some a := by simpa [get?] using h
          simp [places, ihBelow hb]
      · have hr : rest.get? (name :: place) = some a := by simpa [get?, hn] using h
        simp [places, ihRest hr]

/-- The listing holds exactly what look-ups find. -/
theorem mem_toList_iff {m : PlaceMap α} {p : Place} {a : α} :
    (p, a) ∈ m.toList ↔ m.get? p = some a := by
  simp only [toList, List.mem_filterMap, Option.map_eq_some_iff, Prod.mk.injEq]
  constructor
  · rintro ⟨q, -, b, hb, rfl, rfl⟩
    exact hb
  · intro h
    exact ⟨p, mem_places_of_get? h, a, h, rfl, rfl⟩

end PlaceMap

end ComponentPages
