import ComponentPages.Proofs.Lines
import ComponentPages.Types.Resolve

/-!
# Unions of values

A union of values without links is shown as the list of its values. Where it has source text the
members are the parts of that text between pipes, so that a value with a pipe in it is taken apart
there.

- **`enumeration`**, **`literalsOf`** — the list of the values as it is shown, and the elements of
  the union.
- **`pipeParts`**, **`pipeParts_joinWith`** — the members of source text; values without a pipe that
  are put together with pipes are its members.
- **`resolve_literals`** — without source text the values are listed as they are; with it they are
  where none of them has a pipe in it, and only there.
-/

namespace ComponentPages

/-- Members as they are listed. -/
def enumeration (members : List Text) : Text :=
  "enum(".toList ++ joinWith ", ".toList members ++ [')']

/-- The elements of a union of values: literals without source text of their own. -/
def literalsOf (values : List Text) : List TypeDescriptor := values.map fun v => .literal v none

/-- A value as a type node gives it, without a link. -/
structure IsPlainValue (links : LinkTable) (value : Text) : Prop where
  ne_nil : value ≠ []
  trimmed : trim value = value
  unlinked : lookup links (unquote value) = none

instance (links : LinkTable) (value : Text) : Decidable (IsPlainValue links value) :=
  decidable_of_iff (value ≠ [] ∧ trim value = value ∧ lookup links (unquote value) = none)
    ⟨fun ⟨hne, htrim, hlink⟩ => ⟨hne, htrim, hlink⟩, fun h => ⟨h.1, h.2, h.3⟩⟩

/-! ## The members of source text -/

/-- The parts of a text between pipes, without blanks around them and without empty ones. -/
def pipeParts (s : Text) : List Text := ((splitOn '|' s).map trim).filter fun part => !part.isEmpty

/-- No part has a pipe in it. -/
theorem not_mem_of_mem_pipeParts {s part : Text} (h : part ∈ pipeParts s) : '|' ∉ part := by
  obtain ⟨whole, hwhole, rfl⟩ := List.mem_map.1 (List.mem_filter.1 h).1
  exact fun hmem => not_mem_of_mem_splitOn hwhole ((trim_isInfix whole).subset hmem)

/-- A text that begins with neither a blank nor a pipe has a part. -/
theorem pipeParts_cons_ne_nil {c : Char} (hc : isBlank c = false) (hpipe : c ≠ '|') (s : Text) :
    pipeParts (c :: s) ≠ [] := by
  obtain ⟨first, more, hsplit⟩ := List.exists_cons_of_ne_nil (splitOn_ne_nil '|' s)
  have hfirst : trim (c :: first) ≠ [] := by
    rw [Ne, trim_eq_nil_iff, isBlankText_cons, hc]
    exact Bool.false_ne_true
  simp [pipeParts, splitOn, hpipe, hsplit, hfirst]

/-- A blank in front of a text makes no difference to its parts. -/
theorem pipeParts_space_cons (s : Text) : pipeParts (' ' :: s) = pipeParts s := by
  obtain ⟨first, more, hsplit⟩ := List.exists_cons_of_ne_nil (splitOn_ne_nil '|' s)
  have hfirst : trim (' ' :: first) = trim first := rfl
  simp [pipeParts, splitOn, hsplit, hfirst]

/-- A value without a pipe is its only part. -/
theorem pipeParts_of_not_mem {value : Text} (hne : value ≠ []) (htrim : trim value = value)
    (h : '|' ∉ value) : pipeParts value = [value] := by
  simp [pipeParts, splitOn_of_not_mem h, htrim, hne]

/-- A value without a pipe is the first part of a text that it begins, before a pipe between
blanks. -/
theorem pipeParts_append {value : Text} (hne : value ≠ []) (htrim : trim value = value)
    (h : '|' ∉ value) (rest : Text) :
    pipeParts (value ++ " | ".toList ++ rest) = value :: pipeParts rest := by
  -- the blank before the pipe goes with the value, the one after it with the rest
  have hsplit : splitOn '|' (value ++ " | ".toList ++ rest) =
      (value ++ [' ']) :: splitOn '|' (' ' :: rest) := by
    rw [← splitOn_append_cons (by simpa using h), List.append_assoc, List.append_assoc]
    rfl
  have hvalue : trim (value ++ [' ']) = value := by
    rw [trim_eq_trimStart_trimEnd, trimEnd_append_of_blank _ rfl, ← trim_eq_trimStart_trimEnd,
      htrim]
  rw [pipeParts, hsplit, List.map_cons, hvalue, List.filter_cons_of_pos (by simpa using hne),
    ← pipeParts_space_cons rest]
  rfl

/-- **Values without a pipe that are put together with pipes are the parts of the result.** -/
theorem pipeParts_joinWith {values : List Text} (hne : values ≠ [])
    (h : ∀ v ∈ values, v ≠ [] ∧ trim v = v ∧ '|' ∉ v) :
    pipeParts (joinWith " | ".toList values) = values := by
  induction values with
  | nil => exact absurd rfl hne
  | cons v values ih =>
    obtain ⟨⟨hv, htrim, hpipe⟩, hvalues⟩ := List.forall_mem_cons.1 h
    cases values with
    | nil => rw [joinWith_singleton, pipeParts_of_not_mem hv htrim hpipe]
    | cons next values =>
      rw [joinWith_cons_cons, pipeParts_append hv htrim hpipe, ih (List.cons_ne_nil _ _) hvalues]

/-! ## What is shown -/

/-- Without source text the members are the values. -/
theorem unionMembers_literalsOf (values : List Text) :
    unionMembers (literalsOf values) none = values := by
  rw [unionMembers, literalsOf, List.map_map]
  exact List.map_id values

/-- Values without links give their union none. -/
theorem firstLink?_literalsOf {links : LinkTable} {values : List Text}
    (h : ∀ v ∈ values, lookup links (unquote v) = none) :
    firstLink? links (literalsOf values) = none := by
  induction values with
  | nil => rfl
  | cons v values ih =>
    obtain ⟨hv, hvalues⟩ := List.forall_mem_cons.1 h
    rw [literalsOf, List.map_cons, firstLink?, hv]
    exact ih hvalues

/-- A union without a link that has members lists them. -/
theorem resolve_union_of_members {links : LinkTable} {elements : List TypeDescriptor}
    {raw : Option Text} (hlink : firstLink? links elements = none)
    (hmembers : unionMembers elements raw ≠ []) :
    resolve links (.union elements raw) = .plain (enumeration (unionMembers elements raw)) := by
  have henum : enumText? elements raw = some (enumeration (unionMembers elements raw)) := by
    unfold enumText?
    split
    · next hnil => exact absurd hnil hmembers
    · rfl
  rw [resolve, hlink, henum]
  rfl

/-- A union without a link and without members shows its source text. -/
theorem resolve_union_of_no_members {links : LinkTable} {elements : List TypeDescriptor}
    {raw : Text} (hlink : firstLink? links elements = none)
    (hmembers : pipeParts raw = []) :
    resolve links (.union elements (some raw)) = .plain raw := by
  have henum : enumText? elements (some raw) = none := by
    unfold enumText?
    rw [show unionMembers elements (some raw) = [] from hmembers]
  rw [resolve, hlink, henum]
  exact ite_self _

/-- A listed member is part of the list. -/
theorem mem_enumeration {members : List Text} {member : Text} {c : Char} (hm : member ∈ members)
    (hc : c ∈ member) : c ∈ enumeration members := by
  have hjoin : c ∈ joinWith ", ".toList members := (infix_joinWith_of_mem hm).subset hc
  exact List.mem_append_left _ (List.mem_append_right _ hjoin)

/-- A list has a pipe in it only where a member has one. -/
theorem not_mem_enumeration {members : List Text} (h : ∀ m ∈ members, '|' ∉ m) :
    '|' ∉ enumeration members := by
  have hjoin : '|' ∉ joinWith ", ".toList members := not_mem_joinWith (by decide) h
  intro hmem
  rcases List.mem_append.1 hmem with hfront | hlast
  · exact (List.mem_append.1 hfront).elim (by decide) hjoin
  · revert hlast
    decide

/-- **A union of values without links is shown as the list of its values.** With the values between
pipes as its source text it is shown so where no value has a pipe in it, and only there: a value
that has one is listed as its parts. -/
theorem resolve_literals {links : LinkTable} {values : List Text} (hne : values ≠ [])
    (h : ∀ v ∈ values, IsPlainValue links v) :
    resolve links (.union (literalsOf values) none) = .plain (enumeration values) ∧
      (resolve links (.union (literalsOf values) (some (joinWith " | ".toList values))) =
          .plain (enumeration values) ↔
        ∀ v ∈ values, '|' ∉ v) := by
  have hlink := firstLink?_literalsOf fun v hv => (h v hv).unlinked
  constructor
  · have hmembers := unionMembers_literalsOf values
    rw [resolve_union_of_members hlink (by rwa [hmembers]), hmembers]
  generalize hraw : joinWith " | ".toList values = raw
  constructor
  · intro hshown v hv hpipe
    have hlisted : '|' ∈ enumeration values := mem_enumeration hv hpipe
    by_cases hparts : pipeParts raw = []
    · -- the list begins with a letter, and source text that does has a member
      rw [resolve_union_of_no_members hlink hparts] at hshown
      have hstart : raw = enumeration values := congrArg Resolved.text hshown
      rw [hstart] at hparts
      exact pipeParts_cons_ne_nil (by decide) (by decide) _ hparts
    · -- the members of source text have no pipe in them
      have hmembers : unionMembers (literalsOf values) (some raw) ≠ [] := hparts
      rw [resolve_union_of_members hlink hmembers] at hshown
      have hsame : enumeration (pipeParts raw) = enumeration values :=
        congrArg Resolved.text hshown
      rw [← hsame] at hlisted
      exact not_mem_enumeration (fun m hm => not_mem_of_mem_pipeParts hm) hlisted
  · intro hpipes
    have hparts : pipeParts raw = values := by
      rw [← hraw]
      exact pipeParts_joinWith hne fun v hv => ⟨(h v hv).ne_nil, (h v hv).trimmed, hpipes v hv⟩
    have hmembers : unionMembers (literalsOf values) (some raw) = values := hparts
    rw [resolve_union_of_members hlink (by rwa [hmembers]), hmembers]

/-- Two values in quotation marks are listed, one of them with blanks and brackets in it. -/
theorem resolve_literals_twoValues :
    let values := ["'small'".toList, "\"very (large), or so\"".toList]
    (values ≠ [] ∧ ∀ v ∈ values, IsPlainValue builtinLinks v) ∧
      resolve builtinLinks (.union (literalsOf values) none) = .plain (enumeration values) ∧
      resolve builtinLinks (.union (literalsOf values) (some (joinWith " | ".toList values))) =
        .plain (enumeration values) := by
  intro values
  have hvalues : ∀ v ∈ values, IsPlainValue builtinLinks v := by decide +kernel
  have hshown := resolve_literals (List.cons_ne_nil _ _) hvalues
  exact ⟨⟨List.cons_ne_nil _ _, hvalues⟩, hshown.1, hshown.2.2 (by decide)⟩

/-- A value with a pipe in it is taken apart where the union has source text: two values are listed
as three members. -/
theorem not_listed_valueWithPipe :
    let values := ["'a|b'".toList, "'c'".toList]
    (∀ v ∈ values, IsPlainValue builtinLinks v) ∧
      resolve builtinLinks (.union (literalsOf values) (some (joinWith " | ".toList values))) =
        .plain "enum('a, b', 'c')".toList ∧
      Resolved.plain "enum('a, b', 'c')".toList ≠ .plain (enumeration values) := by
  decide +kernel

end ComponentPages
