import ComponentPages.Markdown.Method
import ComponentPages.Proofs.FenceScan
import ComponentPages.Proofs.RecordedTags

/-!
# Headings are lines

A heading is one line where the names and labels in it are: the platforms that it shows come from
directives and tags, and an id that is read there has no blanks.

- **`TagSet.PlainIds`**, **`plainIds_extract`** — the platforms that are recorded of a description.
- **`LineEnd`**, **`lineEnd_badges`** — their badges are on one line and do not end in a blank.
- **`HeadingLine`**, **`headingLine_propHeading`**, **`headingLine_methodHeading`** — the headings.
-/

namespace ComponentPages

/-! ## Platforms -/

/-- All platforms are plain ids. -/
def TagSet.PlainIds (t : TagSet) : Prop := ∀ id ∈ t.platform, PlainId id

/-- **The platforms of a description are plain ids.** -/
theorem plainIds_extract (t : Text) : (extract t).tags.PlainIds := fun id hid =>
  ((wellFormed_extract t).ids id hid).toPlainId

/-! ## Badges -/

/-- What may stand at the end of a line: a text on one line that ends in something else than a
blank. -/
structure LineEnd (s : Text) : Prop where
  ne_nil : s ≠ []
  oneLine : '\n' ∉ s
  keepsEnd : trimEnd s = s

instance (s : Text) : Decidable (LineEnd s) :=
  decidable_of_iff (s ≠ [] ∧ '\n' ∉ s ∧ trimEnd s = s)
    ⟨fun h => ⟨h.1, h.2.1, h.2.2⟩, fun h => ⟨h.ne_nil, h.oneLine, h.keepsEnd⟩⟩

theorem LineEnd.not_blank {s : Text} (h : LineEnd s) : isBlankText s = false := by
  by_contra hblank
  rw [Bool.not_eq_false, ← trimEnd_eq_nil_iff, h.keepsEnd] at hblank
  exact h.ne_nil hblank

/-- A text that ends a line does so with more text on the same line before it. -/
theorem LineEnd.append {s : Text} (h : LineEnd s) {b : Text} (hb : '\n' ∉ b) :
    LineEnd (b ++ s) := by
  refine ⟨by simp [h.ne_nil], ?_, ?_⟩
  · rw [List.mem_append, not_or]
    exact ⟨hb, h.oneLine⟩
  · rw [trimEnd_append b h.not_blank, h.keepsEnd]

/-- What follows the end of a line is trimmed on its own. -/
theorem LineEnd.trimEnd_append {s : Text} (h : LineEnd s) (b t : Text) :
    trimEnd (b ++ (s ++ t)) = b ++ (s ++ trimEnd t) := by
  rw [← List.append_assoc, ← List.append_assoc]
  cases ht : isBlankText t with
  | true =>
    rw [trimEnd_append_of_blank _ ht, ComponentPages.trimEnd_append b h.not_blank, h.keepsEnd,
      trimEnd_eq_nil_iff.2 ht, List.append_nil]
  | false => rw [ComponentPages.trimEnd_append _ ht]

/-- Texts that end a line do so put together with spaces between them. -/
theorem lineEnd_joinWith {parts : List Text} (hne : parts ≠ []) (h : ∀ p ∈ parts, LineEnd p) :
    LineEnd (joinWith [' '] parts) := by
  induction parts with
  | nil => exact absurd rfl hne
  | cons p parts ih =>
    cases parts with
    | nil =>
      rw [joinWith_singleton]
      exact h p (List.mem_cons_self ..)
    | cons q parts =>
      have hp := h p (List.mem_cons_self ..)
      rw [joinWith_cons_cons]
      exact (ih (by simp) fun r hr => h r (List.mem_cons_of_mem _ hr)).append
        (by simp [hp.oneLine])

theorem PlainId.lineEnd {id : Text} (h : PlainId id) : LineEnd id := by
  refine ⟨h.ne_nil, fun hmem => ?_, ?_⟩
  · cases h.noBlank _ hmem
  · exact trimEnd_eq_self_of_getLast? (List.getLast?_eq_some_getLast h.ne_nil)
      (h.noBlank _ (List.getLast_mem h.ne_nil))

/-- The labels of a configuration are on one line each. -/
def Config.OneLineLabels (config : Config) : Prop :=
  ∀ label ∈ config.platforms, '\n' ∉ label.label ∧ '\n' ∉ label.cssClass

instance (config : Config) : Decidable config.OneLineLabels :=
  inferInstanceAs (Decidable (∀ label ∈ config.platforms, _))

section Headings

variable {config : Config}

/-- The badge of an id is on one line and does not end in a blank. -/
theorem lineEnd_badge (h : config.OneLineLabels) {id : Text} (hid : PlainId id) :
    LineEnd (badge config.platforms id) := by
  rw [badge_of_not_blank hid.not_blank]
  cases hfound : labelFor? config.platforms id with
  | none => exact hid.lineEnd
  | some label =>
    obtain ⟨hlabel, hclass⟩ := h label (List.mem_of_find?_eq_some hfound)
    have hclosing : LineEnd "</div>".toList := by decide
    refine hclosing.append ?_
    simp [hlabel, hclass]

/-- **The badges of some ids** are on one line and do not end in a blank. -/
theorem lineEnd_badges (h : config.OneLineLabels) {ids : List Text} (hne : ids ≠ [])
    (hids : ∀ id ∈ ids, PlainId id) : LineEnd (badges config.platforms ids) := by
  have hbadges : ∀ b ∈ ids.map (badge config.platforms), LineEnd b := by
    intro b hb
    obtain ⟨id, hid, rfl⟩ := List.mem_map.1 hb
    exact lineEnd_badge h (hids id hid)
  rw [badges_of_not_blank fun id hid => (hids id hid).not_blank]
  exact lineEnd_joinWith (by simpa using hne) hbadges

/-! ## Headings -/

/-- A heading: one line that begins with a number sign and does not end in a blank. -/
structure HeadingLine (l : Text) : Prop where
  lineEnd : LineEnd l
  marked : l.head? = some '#'

instance (l : Text) : Decidable (HeadingLine l) :=
  decidable_of_iff (LineEnd l ∧ l.head? = some '#')
    ⟨fun h => ⟨h.1, h.2⟩, fun h => ⟨h.lineEnd, h.marked⟩⟩

/-- A heading opens no code block. -/
theorem HeadingLine.opensNone {l : Text} (h : HeadingLine l) : OpensNone l := by
  obtain ⟨rest, rfl⟩ := List.head?_eq_some_iff.1 h.marked
  exact opensNone_cons (by decide) (by decide) rest

/-- A text that ends a line does so with badges after it. -/
theorem lineEnd_append_headingBadges (h : config.OneLineLabels) {s : Text} (hs : LineEnd s)
    {ids : List Text} (hids : ∀ id ∈ ids, PlainId id) :
    LineEnd (s ++ headingBadges config.platforms ids) := by
  cases ids with
  | nil =>
    have hnone : headingBadges config.platforms [] = [] := rfl
    rwa [hnone, List.append_nil]
  | cons id ids =>
    have hbadges := lineEnd_badges h (List.cons_ne_nil id ids) hids
    have hspace : LineEnd (' ' :: badges config.platforms (id :: ids)) :=
      hbadges.append (b := [' ']) (by decide)
    exact hspace.append hs.oneLine

/-- **The heading of a property** is one line where the name of the property is. -/
theorem headingLine_propHeading (h : config.OneLineLabels) {p : PropDoc} (hname : '\n' ∉ p.name)
    (hids : p.tags.PlainIds) : HeadingLine (propHeading config p) := by
  have hticks : LineEnd [backtick] := by decide
  have hquoted : LineEnd (inBackticks p.name) :=
    hticks.append (b := backtick :: p.name) (by simp [hname, backtick])
  have hbadge : '\n' ∉ (if p.required then requiredBadge else []) := by
    split <;> decide
  have hbefore : LineEnd ("### ".toList ++ (if p.required then requiredBadge else []) ++
      inBackticks p.name) :=
    hquoted.append (by rw [List.mem_append, not_or]; exact ⟨by decide, hbadge⟩)
  exact ⟨lineEnd_append_headingBadges h hbefore hids, rfl⟩

/-- **The heading of a method** is one line where its names are. -/
theorem headingLine_methodHeading (h : config.OneLineLabels) {m : MethodDoc} (hname : '\n' ∉ m.name)
    (hids : m.tags.PlainIds) : HeadingLine (methodHeading config m) := by
  have hclosing : LineEnd "()`".toList := by decide
  have hbefore : LineEnd ("### `".toList ++ m.name ++ "()`".toList) :=
    hclosing.append (by rw [List.mem_append, not_or]; exact ⟨by decide, hname⟩)
  exact ⟨lineEnd_append_headingBadges h hbefore hids, rfl⟩

end Headings

end ComponentPages
