import ComponentPages.Config.Badge
import ComponentPages.Description.TagSet
import ComponentPages.Proofs.Trimming
import Mathlib.Data.List.Nodup

/-!
# Platform ids and their labels

Platforms are told apart by their ids, and an id counts as the same in any case of its letters.
Where the ids of a list are different in this sense, each of them has a label of its own.

- **`DistinctIds`** — ids that are different whatever the case of their letters.
- **`DistinctIds.addId`** — adding an id keeps them different.
- **`lower_of_labelFor?`** — the label of an id is for the same platform.
- **`LabelledApart`**, **`DistinctIds.labelledApart`** — no label is that of two ids.
- **`badge_of_not_blank`**, **`badges_of_not_blank`** — the badges of ids that are not blank.
-/

namespace ComponentPages

/-! ## Different ids -/

/-- No two of the ids are the same but for the case of their letters. -/
def DistinctIds (ids : List Text) : Prop := (ids.map asciiLower).Nodup

instance (ids : List Text) : Decidable (DistinctIds ids) :=
  inferInstanceAs (Decidable (ids.map asciiLower).Nodup)

@[simp] theorem distinctIds_nil : DistinctIds [] := List.nodup_nil

/-- **Adding an id keeps the ids different**: an id that is there in some case is not added. -/
theorem DistinctIds.addId {ids : List Text} (h : DistinctIds ids) (id : Text) :
    DistinctIds (TagSet.addId ids id) := by
  dsimp only [TagSet.addId]
  split
  · exact h
  · next hnew =>
    rw [Bool.or_eq_true, not_or, List.any_eq_true] at hnew
    have hnone : asciiLower (trim id) ∉ ids.map asciiLower := fun hmem => by
      obtain ⟨known, hknown, heq⟩ := List.mem_map.1 hmem
      exact hnew.2 ⟨known, hknown, sameIgnoringCase_iff.2 heq⟩
    rw [DistinctIds, List.map_append, List.map_singleton, ← List.concat_eq_append]
    exact List.Nodup.concat hnone h

/-- What holds of some ids and of one more holds after that one is added. -/
theorem forall_mem_addId {P : Text → Prop} {ids : List Text} {id : Text}
    (h : ∀ known ∈ ids, P known) (hid : P (trim id)) : ∀ known ∈ TagSet.addId ids id, P known := by
  dsimp only [TagSet.addId]
  split
  · exact h
  · exact List.forall_mem_append.2 ⟨h, List.forall_mem_singleton.2 hid⟩

/-! ## Labels -/

section Labels

variable {labels : List PlatformLabel} {id : Text} {label : PlatformLabel}

/-- The label of an id is for the same platform. -/
theorem lower_of_labelFor? (h : labelFor? labels id = some label) :
    asciiLower label.id = asciiLower (trim id) := by
  have hsame : sameIgnoringCase label.id (trim id) = true := by
    simpa using List.find?_some h
  exact sameIgnoringCase_iff.1 hsame

/-- No label is that of two of the ids. -/
def LabelledApart (labels : List PlatformLabel) (ids : List Text) : Prop :=
  ids.Pairwise fun id id' => ∀ label, labelFor? labels id = some label →
    labelFor? labels id' ≠ some label

/-- **Different ids have different labels**, whatever labels there are. -/
theorem DistinctIds.labelledApart {ids : List Text} (h : DistinctIds ids)
    (htrim : ∀ id ∈ ids, trim id = id) (labels : List PlatformLabel) :
    LabelledApart labels ids := by
  refine (List.pairwise_map.1 h).imp_of_mem fun hid hid' hne label hlabel hlabel' => hne ?_
  rw [← htrim _ hid, ← htrim _ hid', ← lower_of_labelFor? hlabel, lower_of_labelFor? hlabel']

/-! ## Badges -/

/-- The badge of an id that is not blank: the markup of its label, or the id itself. -/
theorem badge_of_not_blank (h : isBlankText id = false) :
    badge labels id = ((labelFor? labels id).map PlatformLabel.markup).getD id := by
  rw [badge, if_neg (by rw [h]; simp)]
  cases labelFor? labels id <;> rfl

/-- The badge of an id that is not blank is not empty. -/
theorem badge_ne_nil (h : isBlankText id = false) : badge labels id ≠ [] := by
  rw [badge_of_not_blank h]
  cases labelFor? labels id with
  | none =>
    intro hnil
    rw [show id = [] from hnil] at h
    cases h
  | some label => exact List.append_ne_nil_of_right_ne_nil _ (by decide)

/-- **Each id that is not blank has its badge** among those of several ids. -/
theorem badges_of_not_blank {ids : List Text} (h : ∀ id ∈ ids, isBlankText id = false) :
    badges labels ids = joinWith [' '] (ids.map (badge labels)) := by
  have hall : (ids.map (badge labels)).filter (fun b => !b.isEmpty) = ids.map (badge labels) := by
    refine List.filter_eq_self.2 fun b hb => ?_
    obtain ⟨id, hid, rfl⟩ := List.mem_map.1 hb
    simpa using badge_ne_nil (h id hid)
  rw [badges, hall]

end Labels

end ComponentPages
