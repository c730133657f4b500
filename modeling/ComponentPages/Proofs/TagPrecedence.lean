import ComponentPages.Proofs.Normalizing

/-!
# Tags take precedence

A type or a default value in the tags of a property stands for the one in source, which then has no
influence on the page. So nothing is lost if it is taken out of the metadata beforehand, together
with the note whether a default value was computed.

- **`Metadata.Property.withoutOverridden`**, **`PropDoc.withoutOverridden`** — a property without
  what its tags override, before and after it is read.
- **`PropDoc.ofProperty_withoutOverridden`** — taking it out before or after is the same.
- **`renderProp_withoutOverridden`**, **`sortProps_withoutOverridden`** — what is shown does not
  change.
- **`renderMarkdown_eq_of_withoutOverridden_eq`** — pages that differ in nothing else are shown the
  same.
-/

namespace ComponentPages

/-! ## What is overridden -/

/-- The property without the type and the default value that its tags override, and without the note
whether the default value was computed. -/
def Metadata.Property.withoutOverridden (p : Metadata.Property) : Metadata.Property :=
  let tags := (extractOptional p.description).tags
  { p with
    type? := if tags.typeOverrides.isEmpty then p.type? else none
    defaultValue :=
      if tags.default.isEmpty then p.defaultValue.map fun v => { v with computed := false }
      else none }

/-- The property as it is shown, without what its tags override. -/
def PropDoc.withoutOverridden (p : PropDoc) : PropDoc :=
  { p with
    type? := if p.tags.typeOverrides.isEmpty then p.type? else none
    defaultValue := if p.tags.default.isEmpty then p.defaultValue else none }

/-- The type of a property is all that can keep it from being shown. -/
theorem PropDoc.ofProperty_eq_map (name : Text) (p : Metadata.Property) :
    PropDoc.ofProperty name p =
      (propType name p.type? (!(extractOptional p.description).tags.typeOverrides.isEmpty)).map
        fun type => {
          name
          required := p.required
          type? := type
          defaultValue := p.defaultValue.bind fun v => nonBlank? v.value
          description := (extractOptional p.description).cleanText
          tags := (extractOptional p.description).tags } := by
  show (propType name p.type? _).bind _ = _
  cases propType name p.type? (!(extractOptional p.description).tags.typeOverrides.isEmpty) <;> rfl

/-- A type that tags override can be there, be missing, or have nothing to show. -/
theorem propType_overridden (name : Text) (type : Option TypeNode) :
    ∃ d, propType name type true = .ok d := by
  cases type with
  | none => exact ⟨none, rfl⟩
  | some node => cases h : TypeDescriptor.ofNode? node <;> simp [propType, h]

/-- A type can be taken out before it is read or after, where it is overridden. -/
theorem propType_withoutOverridden (name : Text) (type : Option TypeNode) (used : Bool) :
    propType name (if used then type else none) (!used) =
      (propType name type (!used)).map fun d => if used then d else none := by
  cases used with
  | true => cases h : propType name type false <;> simp [h, Except.map]
  | false =>
    obtain ⟨d, hd⟩ := propType_overridden name type
    show propType name none true = (propType name type true).map fun _ => none
    rw [hd]
    rfl

/-- **What tags override can be taken out before a property is read or after.** -/
theorem PropDoc.ofProperty_withoutOverridden (name : Text) (p : Metadata.Property) :
    PropDoc.ofProperty name p.withoutOverridden =
      (PropDoc.ofProperty name p).map PropDoc.withoutOverridden := by
  have hdefault : (p.withoutOverridden.defaultValue.bind fun v => nonBlank? v.value) =
      if (extractOptional p.description).tags.default.isEmpty then
        p.defaultValue.bind fun v => nonBlank? v.value
      else none := by
    unfold Metadata.Property.withoutOverridden
    dsimp only
    split
    · cases p.defaultValue <;> rfl
    · rfl
  rw [ofProperty_eq_map, ofProperty_eq_map, hdefault]
  simp only [Metadata.Property.withoutOverridden, propType_withoutOverridden]
  cases propType name p.type? (!(extractOptional p.description).tags.typeOverrides.isEmpty) <;> rfl

/-! ## What is shown -/

theorem renderProp_withoutOverridden (config : Config) (p : PropDoc) :
    renderProp config p.withoutOverridden = renderProp config p := by
  have htype : typeColumn config p.withoutOverridden = typeColumn config p := by
    unfold typeColumn PropDoc.withoutOverridden
    cases p.tags.typeOverrides.isEmpty <;> rfl
  have hdefault : defaultColumn? config p.withoutOverridden = defaultColumn? config p := by
    unfold defaultColumn? PropDoc.withoutOverridden
    cases p.tags.default.isEmpty <;> rfl
  have hrow : propRow config p.withoutOverridden = propRow config p := by
    rw [propRow, propRow, htype, hdefault]
  rw [renderProp, renderProp, hrow]
  rfl

/-- The order of listing does not depend on types and default values. -/
theorem sortProps_withoutOverridden (ps : List PropDoc) :
    sortProps (ps.map PropDoc.withoutOverridden) = (sortProps ps).map PropDoc.withoutOverridden :=
  (List.map_mergeSort (r := PropDoc.le) (s := PropDoc.le)
    (f := PropDoc.withoutOverridden) fun _ _ _ _ => rfl).symm

/-! ## Maps -/

section MapValues

variable {α β : Type}

/-- The entries with their values changed. -/
def mapEntries (f : α → β) (entries : List (Text × α)) : List (Text × β) :=
  entries.map fun e => (e.1, f e.2)

theorem keysOf_mapEntries (f : α → β) (entries : List (Text × α)) :
    keysOf (mapEntries f entries) = keysOf entries := by
  simp [keysOf, mapEntries]

namespace OrderedMap

/-- The map with its values changed. -/
def mapValues (f : α → β) (m : OrderedMap α) : OrderedMap β :=
  ⟨mapEntries f m.entries, by rw [keysOf_mapEntries]; exact m.nodup⟩

@[simp] theorem values_mapValues (f : α → β) (m : OrderedMap α) :
    (m.mapValues f).values = m.values.map f := by
  simp [values, mapValues, mapEntries]

@[simp] theorem isEmpty_mapValues (f : α → β) (m : OrderedMap α) :
    (m.mapValues f).isEmpty = m.isEmpty := by
  simp [isEmpty, mapValues, mapEntries]

theorem mapEntries_putEntry (f : α → β) (key : Text) (value : α) (entries : List (Text × α)) :
    mapEntries f (putEntry key value entries) = putEntry key (f value) (mapEntries f entries) := by
  induction entries with
  | nil => rfl
  | cons e rest ih =>
    by_cases h : e.1 = key
    · simp [mapEntries, putEntry, h]
    · simpa [mapEntries, putEntry, h] using ih

/-- Values can be changed before they are inserted or after. -/
theorem mapValues_insertAll (f : α → β) (m : OrderedMap α) (entries : List (Text × α)) :
    (m.insertAll entries).mapValues f = (m.mapValues f).insertAll (mapEntries f entries) := by
  induction entries generalizing m with
  | nil => rfl
  | cons e rest ih =>
    have hinsert : (m.insert e.1 e.2).mapValues f = (m.mapValues f).insert e.1 (f e.2) :=
      OrderedMap.ext (mapEntries_putEntry f e.1 e.2 m.entries)
    show ((m.insert e.1 e.2).insertAll rest).mapValues f =
      ((m.mapValues f).insert e.1 (f e.2)).insertAll (mapEntries f rest)
    rw [ih, hinsert]

end OrderedMap

end MapValues

/-! ## Pages -/

/-- The component without what the tags of its properties override. -/
def Metadata.Component.withoutOverridden (c : Metadata.Component) : Metadata.Component :=
  { c with props := c.props.mapValues Metadata.Property.withoutOverridden }

/-- The page without what the tags of its properties override. -/
def Metadata.Page.withoutOverridden (p : Metadata.Page) : Metadata.Page :=
  { p with component := p.component.withoutOverridden }

/-- The component as it is shown, without what the tags of its properties override. -/
def ComponentDoc.withoutOverridden (d : ComponentDoc) : ComponentDoc :=
  { d with props := d.props.mapValues PropDoc.withoutOverridden }

theorem propEntries_withoutOverridden (entries : List (Text × Metadata.Property)) :
    propEntries (mapEntries Metadata.Property.withoutOverridden entries) =
      (propEntries entries).map (mapEntries PropDoc.withoutOverridden) := by
  refine mapM_map_eq_map_mapM (fun e => ?_) entries
  rw [PropDoc.ofProperty_withoutOverridden]
  cases PropDoc.ofProperty e.1 e.2 <;> rfl

/-- What tags override can be taken out before a component is read or after. -/
theorem ComponentDoc.ofComponent_withoutOverridden (c : Metadata.Component) :
    ComponentDoc.ofComponent c.withoutOverridden =
      (ComponentDoc.ofComponent c).map ComponentDoc.withoutOverridden := by
  show (propEntries (mapEntries Metadata.Property.withoutOverridden c.props.entries)).bind _ =
    ((propEntries c.props.entries).bind _).map _
  rw [propEntries_withoutOverridden]
  cases propEntries c.props.entries with
  | error e => rfl
  | ok props =>
    have hprops : OrderedMap.ofList (mapEntries PropDoc.withoutOverridden props) =
        (OrderedMap.ofList props).mapValues PropDoc.withoutOverridden :=
      (OrderedMap.mapValues_insertAll PropDoc.withoutOverridden OrderedMap.empty props).symm
    show ((c.methods.mapM MethodDoc.ofMethod).bind _) =
      ((c.methods.mapM MethodDoc.ofMethod).bind _).map _
    cases c.methods.mapM MethodDoc.ofMethod with
    | error e => rfl
    | ok methods =>
      show Except.ok _ = Except.ok _
      rw [hprops]
      rfl

/-- What tags override is not shown. -/
theorem referenceParts_withoutOverridden (config : Config) (d : ComponentDoc) :
    referenceParts config d.withoutOverridden = referenceParts config d := by
  have hprops : renderProps? config d.withoutOverridden = renderProps? config d := by
    simp only [renderProps?, ComponentDoc.withoutOverridden, OrderedMap.isEmpty_mapValues,
      OrderedMap.values_mapValues, sortProps_withoutOverridden, List.map_map, Function.comp_def,
      renderProp_withoutOverridden]
  rw [referenceParts, referenceParts, hprops]
  rfl

/-- **A page can do without what its tags override.** -/
theorem renderMarkdown_withoutOverridden (config : Config) (p : Metadata.Page) :
    p.withoutOverridden.renderMarkdown config = p.renderMarkdown config := by
  show ((ComponentDoc.ofComponent p.component.withoutOverridden).bind _).map _ =
    ((ComponentDoc.ofComponent p.component).bind _).map _
  rw [ComponentDoc.ofComponent_withoutOverridden]
  cases ComponentDoc.ofComponent p.component with
  | error e => rfl
  | ok d =>
    show Except.ok (PageDoc.renderMarkdown config ⟨p.id, p.title, d.withoutOverridden⟩) =
      Except.ok (PageDoc.renderMarkdown config ⟨p.id, p.title, d⟩)
    unfold PageDoc.renderMarkdown pageParts
    rw [referenceParts_withoutOverridden]
    rfl

/-- **Tags take precedence over structure**: where two pages differ in nothing but types and default
values that the tags of their properties override, and in whether default values were computed, the
one is shown as the other is, or refused for the same reason. -/
theorem renderMarkdown_eq_of_withoutOverridden_eq {p q : Metadata.Page}
    (h : q.withoutOverridden = p.withoutOverridden) (config : Config) :
    q.renderMarkdown config = p.renderMarkdown config := by
  rw [← renderMarkdown_withoutOverridden config q, h, renderMarkdown_withoutOverridden]

/-- A page with a property whose type is overridden and one whose default value is. -/
def overriddenPage (size : Option TypeNode) (width : Option Metadata.DefaultValue) :
    Metadata.Page where
  id := "box".toList
  title := "Box".toList
  component := {
    displayName := "Box".toList
    description := none
    props := .ofList [
      ("size".toList, ⟨size, true, some "@type {@platform ios} number".toList, none⟩),
      ("width".toList, ⟨some (.node (some "number".toList) none none none [] none), false,
        some "@default 0".toList, width⟩)]
    methods := []
    composes := [] }

/-- A type without anything to show is as good as another, and a computed value as good as none. -/
theorem renderMarkdown_eq_of_withoutOverridden_eq_box :
    (overriddenPage (some (.node none none none none [] none))
          (some ⟨"x".toList, true⟩)).withoutOverridden =
        (overriddenPage (some (.node (some "string".toList) none none none [] none))
          none).withoutOverridden ∧
      (overriddenPage (some (.node none none none none [] none))
          (some ⟨"x".toList, true⟩)).renderMarkdown .builtin =
        (overriddenPage (some (.node (some "string".toList) none none none [] none))
          none).renderMarkdown .builtin := by
  have hsize : (extractOptional
      (some "@type {@platform ios} number".toList)).tags.typeOverrides.isEmpty = false := by
    decide +kernel
  have hwidth : (extractOptional (some "@default 0".toList)).tags.default.isEmpty = false := by
    decide +kernel
  have h : (overriddenPage (some (.node none none none none [] none))
        (some ⟨"x".toList, true⟩)).withoutOverridden =
      (overriddenPage (some (.node (some "string".toList) none none none [] none))
        none).withoutOverridden := by
    unfold Metadata.Page.withoutOverridden Metadata.Component.withoutOverridden overriddenPage
    simp only [OrderedMap.ofList, OrderedMap.mapValues_insertAll, mapEntries, List.map,
      Metadata.Property.withoutOverridden, hsize, hwidth, Bool.false_eq_true, if_false]
  exact ⟨h, renderMarkdown_eq_of_withoutOverridden_eq h .builtin⟩

end ComponentPages
