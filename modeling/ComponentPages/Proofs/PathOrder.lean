import Mathlib.Data.List.Sort
import ComponentPages.Path.Basic

/-!
# The order of paths

Paths are ordered by their parts. This is a linear order of lists of parts, so that a sorted list of
paths without repeats tells which paths it was made of and nothing else: neither in which order they
came nor how often.

- **`compareParts_eq_compareLex`** — parts are compared by the lexicographic order, from which the
  laws of orders come.
- **`pairwise_sortPaths`** — sorted paths are in strict order.
- **`exists_mem_sortPaths`** — every path is among them in some spelling.
- **`map_pathParts_sortPaths_eq`** — lists of the same paths have the same sorted list.
-/

namespace ComponentPages

open Std

/-! ## Parts in order -/

/-- Texts that begin with a character each are compared by that one first. -/
theorem compareTexts_cons (c d : Char) (s t : Text) :
    compareTexts (c :: s) (d :: t) = (compareOn Char.toNat c d).then (compareTexts s t) := by
  rw [compareTexts, compareTexts, compareOn, textLE]
  rcases Nat.lt_trichotomy c.toNat d.toNat with hlt | heq | hgt
  · have hne : c ≠ d := fun h => Nat.lt_irrefl _ (h ▸ hlt)
    simp [hne, hlt, Nat.compare_eq_lt.2 hlt]
  · obtain rfl := Char.toNat_inj.1 heq
    simp
  · have hne : c ≠ d := fun h => Nat.lt_irrefl _ (h ▸ hgt)
    simp [hne, Nat.lt_asymm hgt, Nat.compare_eq_gt.2 hgt]

/-- Texts are compared character by character. -/
theorem compareTexts_eq_compareLex : compareTexts = List.compareLex (compareOn Char.toNat) := by
  funext s t
  induction s generalizing t with
  | nil => cases t <;> rfl
  | cons c s ih =>
    cases t with
    | nil => rfl
    | cons d t => rw [compareTexts_cons, ih, List.compareLex_cons_cons]

instance : TransCmp compareTexts := compareTexts_eq_compareLex ▸ inferInstance

theorem eq_of_compareTexts_eq {s t : Text} (h : compareTexts s t = .eq) : s = t := by
  unfold compareTexts at h
  split_ifs at h with heq
  exact heq

/-- The text of a part that is a name. -/
def PathPart.text : PathPart → Text
  | name n => n
  | _ => []

instance : TransCmp fun p q : PathPart => compareTexts p.text q.text where
  eq_swap := OrientedCmp.eq_swap
  isLE_trans := TransCmp.isLE_trans

/-- Parts are compared by their kind first, and names then by their texts. -/
theorem PathPart.compare_eq_compareLex :
    PathPart.compare =
      compareLex (compareOn PathPart.rank) fun p q => compareTexts p.text q.text := by
  funext p q
  cases p <;> cases q <;> rfl

instance : TransCmp PathPart.compare := PathPart.compare_eq_compareLex ▸ inferInstance

instance : LawfulEqCmp PathPart.compare where
  eq_of_compare {p q} h := by
    cases p <;> cases q <;> first | rfl | cases h | skip
    exact congrArg _ (eq_of_compareTexts_eq h)

/-- Lists of parts are compared part by part. -/
theorem compareParts_eq_compareLex : compareParts = List.compareLex PathPart.compare := by
  funext ps qs
  induction ps generalizing qs with
  | nil => cases qs <;> rfl
  | cons p ps ih =>
    cases qs with
    | nil => rfl
    | cons q qs => rw [compareParts, ih, List.compareLex_cons_cons]

instance : TransCmp compareParts := compareParts_eq_compareLex ▸ inferInstance

instance : LawfulEqCmp compareParts := compareParts_eq_compareLex ▸ inferInstance

instance : TransCmp comparePaths where
  eq_swap {p q} := (OrientedCmp.eq_swap : compareParts (pathParts p) (pathParts q) = _)
  isLE_trans {p q _} :=
    (TransCmp.isLE_trans : (compareParts (pathParts p) (pathParts q)).isLE = true → _)

/-- Paths that are compared as equal have the same parts. -/
theorem pathParts_eq_of_comparePaths {p q : Text} (h : comparePaths p q = .eq) :
    pathParts p = pathParts q :=
  LawfulEqCmp.eq_of_compare (show compareParts (pathParts p) (pathParts q) = .eq from h)

/-! ## Sorted paths -/

/-- Paths in order that have different parts are in strict order. -/
theorem comparePaths_eq_lt {p q : Text} (h : (comparePaths p q).isLE = true)
    (hne : pathParts p ≠ pathParts q) : comparePaths p q = .lt := by
  cases hc : comparePaths p q with
  | lt => rfl
  | eq => exact absurd (pathParts_eq_of_comparePaths hc) hne
  | gt => rw [hc] at h; cases h

/-- To drop repeats drops spellings of paths that stay. -/
theorem dropRepeats_sublist (paths : List Text) : (sortPaths.dropRepeats paths).Sublist paths := by
  fun_induction sortPaths.dropRepeats paths with
  | case1 => exact .refl _
  | case2 p => exact .refl _
  | case3 p q rest heq ih => exact ih.trans ((List.sublist_cons_self q rest).cons_cons p)
  | case4 p q rest hne ih => exact ih.cons_cons p

theorem exists_mem_dropRepeats (paths : List Text) : ∀ path ∈ paths,
    ∃ other ∈ sortPaths.dropRepeats paths, pathParts other = pathParts path := by
  fun_induction sortPaths.dropRepeats paths with
  | case1 => exact fun path h => absurd h List.not_mem_nil
  | case2 p => exact fun path h => ⟨path, h, rfl⟩
  | case3 p q rest heq ih =>
    obtain ⟨hp, hrest⟩ := List.forall_mem_cons.1 ih
    exact List.forall_mem_cons.2 ⟨hp, List.forall_mem_cons.2 ⟨heq ▸ hp, hrest⟩⟩
  | case4 p q rest hne ih =>
    refine List.forall_mem_cons.2 ⟨⟨p, List.mem_cons_self .., rfl⟩, fun path hpath => ?_⟩
    obtain ⟨other, hother, hparts⟩ := ih path hpath
    exact ⟨other, List.mem_cons_of_mem _ hother, hparts⟩

/-- Paths in order are in strict order without repeats. -/
theorem pairwise_dropRepeats {paths : List Text}
    (h : paths.Pairwise fun p q => (comparePaths p q).isLE = true) :
    (sortPaths.dropRepeats paths).Pairwise fun p q => comparePaths p q = .lt := by
  fun_induction sortPaths.dropRepeats paths with
  | case1 => exact .nil
  | case2 p => exact List.pairwise_singleton ..
  | case3 p q rest heq ih => exact ih (h.sublist ((List.sublist_cons_self q rest).cons_cons p))
  | case4 p q rest hne ih =>
    obtain ⟨hp, hrest⟩ := List.pairwise_cons.1 h
    have hpq : comparePaths p q = .lt := comparePaths_eq_lt (hp q (List.mem_cons_self ..)) hne
    refine List.pairwise_cons.2 ⟨fun r hr => ?_, ih hrest⟩
    rcases List.mem_cons.1 ((dropRepeats_sublist _).subset hr) with rfl | hr
    · exact hpq
    · exact TransCmp.lt_of_lt_of_isLE hpq ((List.pairwise_cons.1 hrest).1 r hr)

/-- **Sorted paths are in strict order.** -/
theorem pairwise_sortPaths (paths : List Text) :
    (sortPaths paths).Pairwise fun p q => comparePaths p q = .lt := by
  refine pairwise_dropRepeats (List.pairwise_mergeSort (fun p q r => ?_) (fun p q => ?_) paths)
  · exact TransCmp.isLE_trans
  · rw [@OrientedCmp.eq_swap _ comparePaths _ q p]
    cases comparePaths p q <;> rfl

/-- Paths in order without repeats are left as they are. -/
theorem sortPaths_eq_self {paths : List Text} (h : paths.Pairwise fun p q =>
    (comparePaths p q).isLE = true ∧ pathParts p ≠ pathParts q) : sortPaths paths = paths := by
  rw [sortPaths, List.mergeSort_of_pairwise (h.imp And.left)]
  induction paths with
  | nil => rw [sortPaths.dropRepeats]
  | cons p rest ih =>
    obtain ⟨hp, hrest⟩ := List.pairwise_cons.1 h
    cases rest with
    | nil => rw [sortPaths.dropRepeats]
    | cons q rest =>
      rw [sortPaths.dropRepeats, if_neg (hp q (List.mem_cons_self ..)).2, ih hrest]

/-- To sort paths finds no new ones. -/
theorem mem_of_mem_sortPaths {path : Text} {paths : List Text} (h : path ∈ sortPaths paths) :
    path ∈ paths :=
  List.mem_mergeSort.1 ((dropRepeats_sublist _).subset h)

/-- **Every path is found among the sorted ones**, in some spelling. -/
theorem exists_mem_sortPaths {path : Text} {paths : List Text} (h : path ∈ paths) :
    ∃ other ∈ sortPaths paths, pathParts other = pathParts path :=
  exists_mem_dropRepeats _ path (List.mem_mergeSort.2 h)

theorem mem_map_pathParts_sortPaths {parts : List PathPart} {paths : List Text} :
    parts ∈ (sortPaths paths).map pathParts ↔ parts ∈ paths.map pathParts := by
  simp only [List.mem_map]
  constructor
  · rintro ⟨path, hpath, hparts⟩
    exact ⟨path, mem_of_mem_sortPaths hpath, hparts⟩
  · rintro ⟨path, hpath, hparts⟩
    obtain ⟨other, hother, heq⟩ := exists_mem_sortPaths hpath
    exact ⟨other, hother, heq.trans hparts⟩

/-- **Lists of the same paths have the same sorted list**, but for the spelling. -/
theorem map_pathParts_sortPaths_eq {paths others : List Text}
    (h : ∀ path, path ∈ others ↔ path ∈ paths) :
    (sortPaths others).map pathParts = (sortPaths paths).map pathParts := by
  have hstrict (l : List Text) : ((sortPaths l).map pathParts).Pairwise
      fun ps qs => compareParts ps qs = .lt := List.pairwise_map.2 (pairwise_sortPaths l)
  have hirrefl : Std.Irrefl fun ps qs => compareParts ps qs = .lt :=
    ⟨fun ps h => by simp [ReflCmp.compare_self] at h⟩
  have hantisymm : Std.Antisymm fun ps qs => compareParts ps qs = .lt :=
    ⟨fun ps qs h h' => absurd h' (OrientedCmp.not_lt_of_lt h)⟩
  refine (hstrict others).eq_of_mem_iff (hstrict paths) fun parts => ?_
  rw [mem_map_pathParts_sortPaths, mem_map_pathParts_sortPaths]
  simp only [List.mem_map, h]

end ComponentPages
