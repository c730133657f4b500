import ComponentPages.Page.Render
import ComponentPages.Proofs.Results

/-!
# What a page of metadata gives

The page of some metadata is all of it or an error. Where it is a page, each of its parts is that of
a part of the metadata.

- **`PropDoc.eq_of_ofProperty`**, **`MethodDoc.eq_of_ofMethod`** — the parts of a property and of a
  method.
- **`ComponentDoc.ofComponent_eq_ok_iff`**, **`PageDoc.ofPage_eq_ok_iff`** — the parts of a
  component and of a page.
- **`exists_property_of_mem`**, **`exists_method_of_mem`** — where the parts of a page come from.
-/

namespace ComponentPages

/-! ## Properties and methods -/

/-- The parts of a property are read off its metadata, the text and the tags off its description. -/
theorem PropDoc.eq_of_ofProperty {name : Text} {p : Metadata.Property} {d : PropDoc}
    (h : PropDoc.ofProperty name p = .ok d) :
    d = {
      name
      required := p.required
      type? := d.type?
      defaultValue := p.defaultValue.bind fun v => nonBlank? v.value
      description := (extractOptional p.description).cleanText
      tags := (extractOptional p.description).tags } := by
  obtain ⟨type, -, hd⟩ := bind_eq_ok_iff.1 h
  cases hd
  rfl

/-- The parts of a parameter are read off its metadata. -/
theorem ParamDoc.eq_of_ofParameter {method : Text} {p : Metadata.Parameter} {d : ParamDoc}
    (h : ParamDoc.ofParameter method p = .ok d) :
    d = {
      name := p.name
      type? := d.type?
      optional := p.optional
      description := p.description.bind nonBlank? } := by
  unfold ParamDoc.ofParameter at h
  dsimp only at h
  split at h
  · cases h; rfl
  · split at h
    · cases h; rfl
    · cases h

/-- The parts of a method are read off its metadata, each parameter by itself. -/
theorem MethodDoc.eq_of_ofMethod {m : Metadata.Method} {d : MethodDoc}
    (h : MethodDoc.ofMethod m = .ok d) :
    m.params.mapM (ParamDoc.ofParameter m.name) = .ok d.params ∧
      d = {
        name := m.name
        params := d.params
        modifiers := m.modifiers
        description := (extractOptional m.description).cleanText
        tags := (extractOptional m.description).tags } := by
  obtain ⟨params, hparams, hd⟩ := bind_eq_ok_iff.1 h
  cases hd
  exact ⟨hparams, rfl⟩

/-- The methods have the names of the metadata. -/
theorem names_of_methods {ms : List Metadata.Method} {ds : List MethodDoc}
    (h : ms.mapM MethodDoc.ofMethod = .ok ds) : ds.map MethodDoc.name = ms.map (·.name) :=
  map_eq_of_mapM (fun m d hd => by rw [(MethodDoc.eq_of_ofMethod hd).2]) h

/-- The entries of the properties keep their names, and each holds the property of its name. -/
theorem propEntries_eq_ok_iff {entries : List (Text × Metadata.Property)}
    {docs : List (Text × PropDoc)} :
    propEntries entries = .ok docs ↔
      List.Forall₂ (fun e d => d.1 = e.1 ∧ PropDoc.ofProperty e.1 e.2 = .ok d.2) entries docs := by
  rw [propEntries, mapM_eq_ok_iff]
  refine ⟨List.Forall₂.imp fun e d h => ?_, List.Forall₂.imp fun e d h => ?_⟩
  · cases hprop : PropDoc.ofProperty e.1 e.2 with
    | error err => rw [hprop] at h; cases h
    | ok p => rw [hprop] at h; cases h; exact ⟨rfl, rfl⟩
  · obtain ⟨k, doc⟩ := d
    obtain ⟨rfl, hdoc⟩ := h
    rw [hdoc]
    rfl

/-- Each property that is shown is one of the metadata. -/
theorem exists_of_mem_propEntries {entries : List (Text × Metadata.Property)}
    {docs : List (Text × PropDoc)} (h : propEntries entries = .ok docs) {d : Text × PropDoc}
    (hd : d ∈ docs) : ∃ e ∈ entries, PropDoc.ofProperty e.1 e.2 = .ok d.2 := by
  induction propEntries_eq_ok_iff.1 h with
  | nil => cases hd
  | cons he hes ih =>
    rcases List.mem_cons.1 hd with rfl | hd
    · exact ⟨_, List.mem_cons_self .., he.2⟩
    · obtain ⟨e, hmem, hprop⟩ := ih (propEntries_eq_ok_iff.2 hes) hd
      exact ⟨e, List.mem_cons_of_mem _ hmem, hprop⟩

/-- The properties are listed under the names of the metadata. -/
theorem keysOf_of_propEntries {entries : List (Text × Metadata.Property)}
    {docs : List (Text × PropDoc)} (h : propEntries entries = .ok docs) :
    keysOf docs = keysOf entries := by
  induction propEntries_eq_ok_iff.1 h with
  | nil => rfl
  | cons hd hds ih =>
    rw [keysOf, keysOf, List.map_cons, List.map_cons, hd.1]
    exact congrArg _ (ih (propEntries_eq_ok_iff.2 hds))

/-- Each property has its name. -/
theorem names_of_propEntries {entries : List (Text × Metadata.Property)}
    {docs : List (Text × PropDoc)} (h : propEntries entries = .ok docs) :
    (docs.map Prod.snd).map PropDoc.name = keysOf entries := by
  induction propEntries_eq_ok_iff.1 h with
  | nil => rfl
  | cons hd hds ih =>
    rw [keysOf, List.map_cons, List.map_cons, List.map_cons, PropDoc.eq_of_ofProperty hd.2]
    exact congrArg _ (ih (propEntries_eq_ok_iff.2 hds))

/-! ## Components and pages -/

namespace OrderedMap

variable {α : Type}

/-- A new key goes to the end. -/
theorem putEntry_of_not_mem {key : Text} {entries : List (Text × α)} (h : key ∉ keysOf entries)
    (value : α) : putEntry key value entries = entries ++ [(key, value)] := by
  induction entries with
  | nil => rfl
  | cons e rest ih =>
    rw [keysOf, List.map_cons, List.mem_cons, not_or] at h
    rw [putEntry, if_neg (Ne.symm h.1), ih h.2, List.cons_append]

/-- New keys go to the end one after another. -/
theorem entries_insertAll {m : OrderedMap α} {entries : List (Text × α)}
    (h : (keysOf (m.entries ++ entries)).Nodup) :
    (m.insertAll entries).entries = m.entries ++ entries := by
  induction entries generalizing m with
  | nil => exact (List.append_nil _).symm
  | cons e rest ih =>
    obtain ⟨key, value⟩ := e
    have hkey : key ∉ keysOf m.entries := by
      intro hmem
      rw [keysOf, List.map_append, List.nodup_append] at h
      exact h.2.2 key hmem key (List.mem_cons_self ..) rfl
    have hinsert : (m.insert key value).entries = m.entries ++ [(key, value)] :=
      putEntry_of_not_mem hkey value
    have hrest := ih (m := m.insert key value) (by rwa [hinsert, List.append_assoc])
    rw [hinsert, List.append_assoc] at hrest
    exact hrest

/-- A list of entries without a repeated key is the entries of its map. -/
theorem entries_ofList {entries : List (Text × α)} (h : (keysOf entries).Nodup) :
    (ofList entries).entries = entries :=
  entries_insertAll (m := empty) h

end OrderedMap

/-- **The parts of a component**: all properties and methods have to be there. -/
theorem ComponentDoc.ofComponent_eq_ok_iff {c : Metadata.Component} {d : ComponentDoc} :
    ComponentDoc.ofComponent c = .ok d ↔
      ∃ props methods, propEntries c.props.entries = .ok props ∧
        c.methods.mapM MethodDoc.ofMethod = .ok methods ∧
        d = {
          displayName := c.displayName
          description := (extractOptional c.description).description
          tags := (extractOptional c.description).tags
          props := .ofList props
          methods
          composes := c.composes } := by
  constructor
  · intro h
    obtain ⟨props, hprops, h⟩ := bind_eq_ok_iff.1 h
    obtain ⟨methods, hmethods, h⟩ := bind_eq_ok_iff.1 h
    cases h
    exact ⟨props, methods, hprops, hmethods, rfl⟩
  · rintro ⟨props, methods, hprops, hmethods, rfl⟩
    rw [ComponentDoc.ofComponent, hprops, hmethods]
    rfl

/-- The parts of a page are those of its metadata, with the component as it is shown. -/
theorem PageDoc.ofPage_eq_ok_iff {p : Metadata.Page} {d : PageDoc} :
    PageDoc.ofPage p = .ok d ↔
      ∃ component, ComponentDoc.ofComponent p.component = .ok component ∧
        d = ⟨p.id, p.title, component⟩ := by
  constructor
  · intro h
    obtain ⟨component, hcomponent, h⟩ := bind_eq_ok_iff.1 h
    cases h
    exact ⟨component, hcomponent, rfl⟩
  · rintro ⟨component, hcomponent, rfl⟩
    rw [PageDoc.ofPage, hcomponent]
    rfl

/-- **The Markdown page of some metadata** is that of its component, where this can be shown. -/
theorem Metadata.Page.renderMarkdown_eq_ok_iff {config : Config} {p : Metadata.Page} {text : Text} :
    p.renderMarkdown config = .ok text ↔
      ∃ component, ComponentDoc.ofComponent p.component = .ok component ∧
        text = PageDoc.renderMarkdown config ⟨p.id, p.title, component⟩ := by
  rw [renderMarkdown, render]
  constructor
  · intro h
    cases hpage : PageDoc.ofPage p with
    | error e => rw [hpage] at h; cases h
    | ok d =>
      obtain ⟨component, hcomponent, rfl⟩ := PageDoc.ofPage_eq_ok_iff.1 hpage
      rw [hpage] at h
      cases h
      exact ⟨component, hcomponent, rfl⟩
  · rintro ⟨component, hcomponent, rfl⟩
    rw [PageDoc.ofPage_eq_ok_iff.2 ⟨component, hcomponent, rfl⟩]
    rfl

/-- The description of a page is that of the metadata. -/
theorem description_of_ofPage {p : Metadata.Page} {doc : PageDoc} (h : PageDoc.ofPage p = .ok doc) :
    doc.component.description = (extractOptional p.component.description).description := by
  obtain ⟨component, hcomponent, rfl⟩ := PageDoc.ofPage_eq_ok_iff.1 h
  obtain ⟨props, methods, -, -, rfl⟩ := ComponentDoc.ofComponent_eq_ok_iff.1 hcomponent
  rfl

/-- A page that can be shown is shown. -/
theorem Metadata.Page.renderMarkdown_of_ofPage (config : Config) {p : Metadata.Page} {doc : PageDoc}
    (h : PageDoc.ofPage p = .ok doc) :
    p.renderMarkdown config = .ok (doc.renderMarkdown config) := by
  rw [renderMarkdown, render, h]
  rfl

/-- The values of the properties of a component are those that were read. -/
theorem values_ofList_of_propEntries {c : Metadata.Component} {props : List (Text × PropDoc)}
    (h : propEntries c.props.entries = .ok props) :
    (OrderedMap.ofList props).values = props.map Prod.snd := by
  have hkeys : (keysOf props).Nodup := keysOf_of_propEntries h ▸ c.props.nodup
  rw [OrderedMap.values, OrderedMap.entries_ofList hkeys]

section Parts

variable {p : Metadata.Page} {doc : PageDoc}

/-- Each property of a page is one of the metadata. -/
theorem exists_property_of_mem (h : PageDoc.ofPage p = .ok doc) {q : PropDoc}
    (hq : q ∈ doc.component.props.values) :
    ∃ e ∈ p.component.props.entries, PropDoc.ofProperty e.1 e.2 = .ok q := by
  obtain ⟨component, hcomponent, rfl⟩ := PageDoc.ofPage_eq_ok_iff.1 h
  obtain ⟨props, methods, hprops, -, rfl⟩ := ComponentDoc.ofComponent_eq_ok_iff.1 hcomponent
  dsimp only at hq
  rw [values_ofList_of_propEntries hprops] at hq
  obtain ⟨d, hd, rfl⟩ := List.mem_map.1 hq
  exact exists_of_mem_propEntries hprops hd

/-- Each method of a page is one of the metadata. -/
theorem exists_method_of_mem (h : PageDoc.ofPage p = .ok doc) {m : MethodDoc}
    (hm : m ∈ doc.component.methods) :
    ∃ source ∈ p.component.methods, MethodDoc.ofMethod source = .ok m := by
  obtain ⟨component, hcomponent, rfl⟩ := PageDoc.ofPage_eq_ok_iff.1 h
  obtain ⟨props, methods, -, hmethods, rfl⟩ := ComponentDoc.ofComponent_eq_ok_iff.1 hcomponent
  exact exists_of_mem_mapM hmethods hm

end Parts

end ComponentPages
