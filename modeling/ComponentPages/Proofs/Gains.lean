import ComponentPages.Proofs.Scanning

/-!
# Tags that gain platforms

Two readings of nearly the same text may differ in the platforms that one directive names, and in
nothing else. The directive is for one value, the first that is recorded after those that were found
before it, or for the description as a whole.

- **`Names`**, **`Adds`** — the platforms of a list, and those that adding a list makes known; the
  case of letters does not matter.
- **`OneGains`** — the same values in the same order, and the one behind the first few for more
  platforms.
- **`TagSet.Gains`** — the same tags, and more platforms in the place where the directive belongs.
- **`TagSet.Gains.addPlatforms`**, **`TagSet.Gains.record`** — what is recorded afterwards does not
  change this.
-/

namespace ComponentPages

/-! ## Platforms -/

/-- The platform is in the list, in some case of its letters. -/
def Names (ids : List Text) (id : Text) : Prop := ∃ known ∈ ids, asciiLower known = asciiLower id

/-- The platform is in the list once blanks are trimmed, in some case of its letters. -/
def Adds (ids : List Text) (id : Text) : Prop :=
  ∃ new ∈ ids, trim new ≠ [] ∧ asciiLower (trim new) = asciiLower id

theorem adds_cons {new id : Text} {ids : List Text} :
    Adds (new :: ids) id ↔
      (trim new ≠ [] ∧ asciiLower (trim new) = asciiLower id) ∨ Adds ids id := by
  unfold Adds
  rw [List.exists_mem_cons_iff]

theorem adds_append {ids ids' : List Text} {id : Text} :
    Adds (ids ++ ids') id ↔ Adds ids id ∨ Adds ids' id := by
  induction ids with
  | nil => simp [Adds]
  | cons new ids ih => rw [List.cons_append, adds_cons, adds_cons, ih, or_assoc]

/-- Ids that a list is split into are added as they are. -/
theorem adds_splitIds {list id : Text} : Adds (splitIds list) id ↔ Names (splitIds list) id := by
  constructor
  · rintro ⟨new, hnew, -, heq⟩
    rw [trim_of_mem_splitIds hnew] at heq
    exact ⟨new, hnew, heq⟩
  · rintro ⟨new, hnew, heq⟩
    rw [← trim_of_mem_splitIds hnew] at heq
    refine ⟨new, hnew, ?_, heq⟩
    rw [trim_of_mem_splitIds hnew]
    exact (mem_splitIds hnew).1

/-- Adding an id makes it known, unless it is blank, and forgets none. -/
theorem names_addId {ids : List Text} {new id : Text} :
    Names (TagSet.addId ids new) id ↔
      Names ids id ∨ (trim new ≠ [] ∧ asciiLower (trim new) = asciiLower id) := by
  dsimp only [TagSet.addId]
  split
  · next hknown =>
    refine ⟨.inl, ?_⟩
    rintro (h | ⟨hne, heq⟩)
    · exact h
    · -- the id is there already, perhaps in another case
      rw [Bool.or_eq_true, List.isEmpty_iff, List.any_eq_true] at hknown
      obtain ⟨known, hmem, hsame⟩ := hknown.resolve_left hne
      exact ⟨known, hmem, (sameIgnoringCase_iff.1 hsame).trans heq⟩
  · next hnew =>
    rw [Bool.or_eq_true, not_or, List.isEmpty_iff] at hnew
    constructor
    · rintro ⟨known, hmem, heq⟩
      rcases List.mem_append.1 hmem with hmem | hmem
      · exact .inl ⟨known, hmem, heq⟩
      · rw [List.mem_singleton.1 hmem] at heq
        exact .inr ⟨hnew.1, heq⟩
    · rintro (⟨known, hmem, heq⟩ | ⟨-, heq⟩)
      · exact ⟨known, List.mem_append_left _ hmem, heq⟩
      · exact ⟨trim new, by simp, heq⟩

/-- **Adding platforms** makes them known and forgets none. -/
theorem names_addPlatforms {t : TagSet} {ids : List Text} {id : Text} :
    Names (t.addPlatforms ids).platform id ↔ Names t.platform id ∨ Adds ids id := by
  induction ids generalizing t with
  | nil => simp [Adds]
  | cons new ids ih =>
    rw [TagSet.addPlatforms_cons, ih, adds_cons, ← or_assoc]
    exact or_congr_left names_addId

namespace TagSet

@[simp] theorem default_addPlatforms (t : TagSet) (ids : List Text) :
    (t.addPlatforms ids).default = t.default := by
  induction ids generalizing t with
  | nil => rfl
  | cons id ids ih => rw [addPlatforms_cons, ih]; rfl

@[simp] theorem typeOverrides_addPlatforms (t : TagSet) (ids : List Text) :
    (t.addPlatforms ids).typeOverrides = t.typeOverrides := by
  induction ids generalizing t with
  | nil => rfl
  | cons id ids ih => rw [addPlatforms_cons, ih]; rfl

/-- Which platforms there are afterwards depends on nothing but the platforms. -/
theorem platform_addPlatforms_congr {t t' : TagSet} (h : t'.platform = t.platform)
    (ids : List Text) : (t'.addPlatforms ids).platform = (t.addPlatforms ids).platform := by
  induction ids generalizing t t' with
  | nil => exact h
  | cons id ids ih =>
    rw [addPlatforms_cons, addPlatforms_cons]
    exact ih (by rw [addPlatform, addPlatform, h])

end TagSet

/-! ## Values -/

/-- The same values in the same order, and the one that follows those of `before` for more
platforms. -/
def OneGains (ids : List Text) (before vs vs' : List PlatformValue) : Prop :=
  ∃ v after, vs = before ++ v :: after ∧
    vs' = before ++ { v with platforms := ids ++ v.platforms } :: after

section OneGains

variable {ids : List Text} {before vs vs' : List PlatformValue}

/-- Values that are recorded afterwards do not change which value gains. -/
theorem OneGains.append (h : OneGains ids before vs vs') (more : List PlatformValue) :
    OneGains ids before (vs ++ more) (vs' ++ more) := by
  obtain ⟨v, after, rfl, rfl⟩ := h
  exact ⟨v, after ++ more, by simp, by simp⟩

/-- A value that gains platforms is the same value. -/
theorem OneGains.map_value (h : OneGains ids before vs vs') :
    vs'.map (·.value) = vs.map (·.value) := by
  obtain ⟨v, after, rfl, rfl⟩ := h
  simp

end OneGains

/-! ## Tags -/

namespace TagSet

variable {ids : List Text} {key? : Option TagKey} {found t t' : TagSet}

/-- **The same tags with more platforms**: the value of the given tag gains them that is recorded
first after the tags that were found before, or, for a list of platforms and for no tag at all, the
description as a whole. -/
def Gains (ids : List Text) (key? : Option TagKey) (found t t' : TagSet) : Prop :=
  match key? with
  | some .default => t'.platform = t.platform ∧ OneGains ids found.default t.default t'.default ∧
      t'.typeOverrides = t.typeOverrides
  | some .type => t'.platform = t.platform ∧ t'.default = t.default ∧
      OneGains ids found.typeOverrides t.typeOverrides t'.typeOverrides
  | _ => (∀ id, Names t'.platform id ↔ Names t.platform id ∨ Names ids id) ∧
      t'.default = t.default ∧ t'.typeOverrides = t.typeOverrides

/-- The description as a whole gains the platforms where they are for no tag, or for a list of
platforms. -/
theorem gains_whole (h : key? = none ∨ key? = some .platform)
    (hplatform : ∀ id, Names t'.platform id ↔ Names t.platform id ∨ Names ids id)
    (hdefault : t'.default = t.default) (htype : t'.typeOverrides = t.typeOverrides) :
    Gains ids key? found t t' := by
  rcases h with rfl | rfl
  · exact ⟨hplatform, hdefault, htype⟩
  · exact ⟨hplatform, hdefault, htype⟩

/-- Tags that gain platforms keep their values. -/
theorem Gains.values (h : Gains ids key? found t t') :
    t'.default.map (·.value) = t.default.map (·.value) ∧
      t'.typeOverrides.map (·.value) = t.typeOverrides.map (·.value) := by
  match key?, h with
  | some .default, ⟨_, hdefault, htype⟩ => exact ⟨hdefault.map_value, by rw [htype]⟩
  | some .type, ⟨_, hdefault, htype⟩ => exact ⟨by rw [hdefault], htype.map_value⟩
  | some .platform, ⟨_, hdefault, htype⟩ => exact ⟨by rw [hdefault], by rw [htype]⟩
  | none, ⟨_, hdefault, htype⟩ => exact ⟨by rw [hdefault], by rw [htype]⟩

/-- Platforms that are added afterwards do not change what is gained. -/
theorem Gains.addPlatforms (h : Gains ids key? found t t') (more : List Text) :
    Gains ids key? found (t.addPlatforms more) (t'.addPlatforms more) := by
  have hwhole (h : (∀ id, Names t'.platform id ↔ Names t.platform id ∨ Names ids id) ∧
      t'.default = t.default ∧ t'.typeOverrides = t.typeOverrides)
      (hkey : key? = none ∨ key? = some .platform) :
      Gains ids key? found (t.addPlatforms more) (t'.addPlatforms more) := by
    refine gains_whole hkey (fun id => ?_) (by simp [h.2.1]) (by simp [h.2.2])
    rw [names_addPlatforms, names_addPlatforms, h.1 id, or_right_comm]
  match key?, h with
  | some .default, ⟨hplatform, hdefault, htype⟩ =>
    exact ⟨platform_addPlatforms_congr hplatform more, by simpa using hdefault, by simp [htype]⟩
  | some .type, ⟨hplatform, hdefault, htype⟩ =>
    exact ⟨platform_addPlatforms_congr hplatform more, by simp [hdefault], by simpa using htype⟩
  | some .platform, h => exact hwhole h (.inr rfl)
  | none, h => exact hwhole h (.inl rfl)

/-- Values that are added afterwards do not change what is gained. -/
theorem Gains.append (h : Gains ids key? found t t') (defaults types : List PlatformValue) :
    Gains ids key? found ⟨t.platform, t.default ++ defaults, t.typeOverrides ++ types⟩
      ⟨t'.platform, t'.default ++ defaults, t'.typeOverrides ++ types⟩ := by
  have same {vs vs' : List PlatformValue} (more : List PlatformValue) (h : vs' = vs) :
      vs' ++ more = vs ++ more := congrArg (· ++ more) h
  match key?, h with
  | some .default, ⟨hplatform, hdefault, htype⟩ =>
    exact ⟨hplatform, hdefault.append defaults, same types htype⟩
  | some .type, ⟨hplatform, hdefault, htype⟩ =>
    exact ⟨hplatform, same defaults hdefault, htype.append types⟩
  | some .platform, ⟨hplatform, hdefault, htype⟩ =>
    exact ⟨hplatform, same defaults hdefault, same types htype⟩
  | none, ⟨hplatform, hdefault, htype⟩ =>
    exact ⟨hplatform, same defaults hdefault, same types htype⟩

/-- A tag that is recorded afterwards does not change what is gained. -/
theorem Gains.record (h : Gains ids key? found t t') (key : TagKey) (value : Text) :
    Gains ids key? found (Scan.record t key value) (Scan.record t' key value) := by
  cases key with
  | platform => exact h.addPlatforms _
  | default => simpa [Scan.record] using h.append [Scan.platformValue value] []
  | type => simpa [Scan.record] using h.append [] [Scan.platformValue value]

/-- **A tag that is recorded with a directive in front of its value** gains the platforms of the
directive, and its value is the first after those that were found before it. -/
theorem gains_record_leading {d list : Text} (hd : directiveAt? d = some (list, [])) (t : TagSet)
    (key : TagKey) {value : Text} (hvalue : trimStart value = value) :
    Gains (splitIds list) (some key) t (Scan.record t key value)
      (Scan.record t key (d ++ ' ' :: value)) := by
  have hstrip := stripDirectives_leading hd hvalue
  have hplatformValue : Scan.platformValue (d ++ ' ' :: value) =
      ⟨(Scan.platformValue value).value,
        splitIds list ++ (Scan.platformValue value).platforms⟩ := by
    simp only [Scan.platformValue, hstrip]
  cases key with
  | platform =>
    refine gains_whole (.inr rfl) (fun id => ?_) (by simp [Scan.record]) (by simp [Scan.record])
    simp only [Scan.record, hstrip]
    rw [names_addPlatforms, names_addPlatforms, adds_append, adds_append, adds_append,
      @adds_splitIds list id]
    tauto
  | default => exact ⟨rfl, ⟨_, [], rfl, by rw [← hplatformValue]; rfl⟩, rfl⟩
  | type => exact ⟨rfl, rfl, ⟨_, [], rfl, by rw [← hplatformValue]; rfl⟩⟩

end TagSet

end ComponentPages
