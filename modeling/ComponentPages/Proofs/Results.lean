import Mathlib.Data.List.Forall2

/-!
# Results made of results

What is computed from other results is there where they are, and is an error where one of them is.

- **`ok_bind`**, **`error_bind`**, **`bind_eq_ok_iff`**, **`map_eq_ok_iff`** — a result that depends
  on another.
- **`exists_eq_ok_of_any`**, **`exists_eq_ok_iff`**, **`exists_eq_error_iff`** — a result of which a
  test tells whether it is there.
- **`mapM_eq_ok_iff`**, **`exists_mapM_eq_ok_iff`**, **`mem_iff_of_mapM`**,
  **`mapM_map_eq_map_mapM`** — the results for all members of a list.
- **`mapM_eq_some_map`**, **`exists_of_mem_mapM_some`** — values that may be missing, for all
  members of a list.
- **`errorOf?`**, **`errorOf?_bind`**, **`errorOf?_mapM`** — the error of a result: that of the
  first result it is made of that is one.
-/

namespace ComponentPages

variable {α β ε : Type}

@[simp] theorem pure_eq_ok (a : α) : (pure a : Except ε α) = .ok a := rfl

@[simp] theorem throw_eq_error (e : ε) : (throw e : Except ε α) = .error e := rfl

@[simp] theorem ok_bind (a : α) (f : α → Except ε β) : Except.ok a >>= f = f a := rfl

@[simp] theorem error_bind (e : ε) (f : α → Except ε β) : Except.error e >>= f = .error e := rfl

/-- A result that depends on another is there where the other is. -/
theorem bind_eq_ok_iff {x : Except ε α} {f : α → Except ε β} {b : β} :
    x >>= f = .ok b ↔ ∃ a, x = .ok a ∧ f a = .ok b := by
  cases x with
  | error e =>
    constructor
    · intro h; cases h
    · rintro ⟨a, ha, -⟩; cases ha
  | ok a =>
    constructor
    · exact fun h => ⟨a, rfl, h⟩
    · rintro ⟨a', ha, h⟩; cases ha; exact h

/-- A result that is made of another is there where the other is. -/
theorem map_eq_ok_iff {x : Except ε α} {f : α → β} {b : β} :
    x.map f = .ok b ↔ ∃ a, x = .ok a ∧ f a = b := by
  cases x with
  | error e => simp [Except.map]
  | ok a => simp [Except.map]

/-- A result that passes a test is there. -/
theorem exists_eq_ok_of_any {x : Except ε α} {p : α → Bool} (h : x.toOption.any p = true) :
    ∃ a, x = .ok a ∧ p a = true := by
  cases x with
  | error e => cases h
  | ok a => exact ⟨a, rfl, h⟩

theorem exists_eq_ok_iff {x : Except ε α} : (∃ a, x = .ok a) ↔ x.isOk = true := by
  cases x <;> simp [Except.isOk, Except.toBool]

theorem exists_eq_error_iff {x : Except ε α} : (∃ e, x = .error e) ↔ x.isOk = false := by
  cases x <;> simp [Except.isOk, Except.toBool]

variable {f : α → Except ε β}

/-- All of a list is well-formed where each member is. -/
theorem mapM_eq_ok_iff {xs : List α} {ys : List β} :
    xs.mapM f = .ok ys ↔ List.Forall₂ (fun x y => f x = .ok y) xs ys := by
  induction xs generalizing ys with
  | nil =>
    rw [List.mapM_nil, List.forall₂_nil_left_iff]
    exact ⟨fun h => by cases h; rfl, fun h => by rw [h]; rfl⟩
  | cons x xs ih =>
    rw [List.mapM_cons]
    constructor
    · intro h
      obtain ⟨y, hx, h⟩ := bind_eq_ok_iff.1 h
      obtain ⟨zs, hxs, h⟩ := bind_eq_ok_iff.1 h
      cases h
      exact .cons hx (ih.1 hxs)
    · rintro (_ | ⟨hx, hxs⟩)
      rw [hx, ih.2 hxs]
      rfl

/-- Each result comes from a member of the list. -/
theorem exists_of_mem_mapM {xs : List α} {ys : List β} (h : xs.mapM f = .ok ys) {y : β}
    (hy : y ∈ ys) : ∃ x ∈ xs, f x = .ok y := by
  induction mapM_eq_ok_iff.1 h with
  | nil => cases hy
  | cons hx hxs ih =>
    rcases List.mem_cons.1 hy with rfl | hy
    · exact ⟨_, List.mem_cons_self .., hx⟩
    · obtain ⟨x, hmem, hxy⟩ := ih (mapM_eq_ok_iff.2 hxs) hy
      exact ⟨x, List.mem_cons_of_mem _ hmem, hxy⟩

/-- The results for a list are those for its members. -/
theorem mem_iff_of_mapM {xs : List α} {ys : List β} (h : xs.mapM f = .ok ys) {y : β} :
    y ∈ ys ↔ ∃ x ∈ xs, f x = .ok y := by
  refine ⟨exists_of_mem_mapM h, ?_⟩
  induction mapM_eq_ok_iff.1 h with
  | nil => simp
  | cons hx hxs ih =>
    rintro ⟨x, hmem, hxy⟩
    rcases List.mem_cons.1 hmem with rfl | hmem
    · exact List.mem_cons.2 (.inl (Except.ok.inj (hxy.symm.trans hx)))
    · exact List.mem_cons_of_mem _ (ih (mapM_eq_ok_iff.2 hxs) ⟨x, hmem, hxy⟩)

/-- There are results for a list where there are for all of its members. -/
theorem exists_mapM_eq_ok_iff {xs : List α} :
    (∃ ys, xs.mapM f = .ok ys) ↔ ∀ x ∈ xs, ∃ y, f x = .ok y := by
  induction xs with
  | nil => exact ⟨fun _ _ h => absurd h List.not_mem_nil, fun _ => ⟨[], rfl⟩⟩
  | cons x xs ih =>
    rw [List.forall_mem_cons, ← ih]
    simp only [mapM_eq_ok_iff, List.forall₂_cons_left_iff]
    exact ⟨fun ⟨_, y, ys, hx, hxs, _⟩ => ⟨⟨y, hx⟩, ys, hxs⟩,
      fun ⟨⟨y, hx⟩, ys, hxs⟩ => ⟨_, y, ys, hx, hxs, rfl⟩⟩

/-- What is kept of each member is kept of the list. -/
theorem map_eq_of_mapM {γ : Type} {g : α → γ} {g' : β → γ} (hf : ∀ x y, f x = .ok y → g' y = g x)
    {xs : List α} {ys : List β} (h : xs.mapM f = .ok ys) : ys.map g' = xs.map g := by
  induction mapM_eq_ok_iff.1 h with
  | nil => rfl
  | cons hx hxs ih => rw [List.map_cons, List.map_cons, hf _ _ hx, ih (mapM_eq_ok_iff.2 hxs)]

/-- Results that are changed one by one are those of what is changed one by one. -/
theorem mapM_map_eq_map_mapM {γ δ : Type} {g : γ → Except ε δ} {a : α → γ} {b : β → δ}
    (h : ∀ x, g (a x) = (f x).map b) (xs : List α) :
    (xs.map a).mapM g = (xs.mapM f).map (List.map b) := by
  induction xs with
  | nil => rfl
  | cons x xs ih =>
    rw [List.map_cons, List.mapM_cons, List.mapM_cons, h, ih]
    cases f x with
    | error e => rfl
    | ok y => cases xs.mapM f <;> rfl

/-! ## Values that may be missing -/

/-- Values that are read one by one are read as a list. -/
theorem mapM_eq_some_map {α β γ : Type} {read : β → Option γ} {f : α → β} {g : α → γ} {xs : List α}
    (h : ∀ x ∈ xs, read (f x) = some (g x)) : (xs.map f).mapM read = some (xs.map g) := by
  induction xs with
  | nil => rfl
  | cons x xs ih =>
    rw [List.forall_mem_cons] at h
    simp [h.1, ih h.2]

/-- Each result for a list comes from a member of it. -/
theorem exists_of_mem_mapM_some {α β : Type} {f : α → Option β} {xs : List α} {ys : List β} {y : β}
    (h : xs.mapM f = some ys) (hy : y ∈ ys) : ∃ x ∈ xs, f x = some y := by
  induction xs generalizing ys with
  | nil =>
    cases h
    cases hy
  | cons x xs ih =>
    rw [List.mapM_cons] at h
    obtain ⟨first, hfirst, hrest⟩ := Option.bind_eq_some_iff.1 h
    obtain ⟨others, hothers, hys⟩ := Option.bind_eq_some_iff.1 hrest
    cases hys
    rcases List.mem_cons.1 hy with rfl | hy
    · exact ⟨x, List.mem_cons_self .., hfirst⟩
    · obtain ⟨z, hz, hzy⟩ := ih hothers hy
      exact ⟨z, List.mem_cons_of_mem _ hz, hzy⟩

/-! ## Errors -/

/-- The error that a result is, if it is one. -/
def errorOf? : Except ε α → Option ε
  | .error e => some e
  | .ok _ => none

@[simp] theorem errorOf?_ok (a : α) : errorOf? (.ok a : Except ε α) = none := rfl

@[simp] theorem errorOf?_error (e : ε) : errorOf? (.error e : Except ε α) = some e := rfl

theorem errorOf?_eq_some_iff {x : Except ε α} {e : ε} : errorOf? x = some e ↔ x = .error e := by
  cases x <;> simp

theorem errorOf?_eq_none_iff {x : Except ε α} : errorOf? x = none ↔ ∃ a, x = .ok a := by
  cases x <;> simp

@[simp] theorem errorOf?_map (x : Except ε α) (g : α → β) : errorOf? (x.map g) = errorOf? x := by
  cases x <;> rfl

/-- A result made of another is an error where the other is. -/
theorem errorOf?_bind_pure (x : Except ε α) (g : α → β) :
    errorOf? (x >>= fun a => pure (g a)) = errorOf? x := by
  cases x <;> rfl

/-- The first of two errors counts, where the second does not depend on the first result. -/
theorem errorOf?_bind {x : Except ε α} {g : α → Except ε β} {e? : Option ε}
    (h : ∀ a, errorOf? (g a) = e?) : errorOf? (x >>= g) = (errorOf? x).or e? := by
  cases x with
  | error e => rfl
  | ok a => exact h a

/-- **The error for a list is the first error for one of its members.** -/
theorem errorOf?_mapM (f : α → Except ε β) (xs : List α) :
    errorOf? (xs.mapM f) = xs.findSome? fun x => errorOf? (f x) := by
  induction xs with
  | nil => rfl
  | cons x xs ih =>
    have hrest (y : β) : errorOf? (xs.mapM f >>= fun ys => pure (y :: ys)) =
        xs.findSome? fun x => errorOf? (f x) := by
      rw [errorOf?_bind_pure, ih]
    rw [List.mapM_cons, errorOf?_bind hrest, List.findSome?_cons]
    cases errorOf? (f x) <;> rfl

end ComponentPages
