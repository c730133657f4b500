import ComponentPages.Proofs.Directives
import ComponentPages.Proofs.Normalizing
import ComponentPages.Proofs.TypeDisplay

/-!
# The names that are looked up

A page only depends on the entries that the link table has for the names in its types and for the
types that it inherits from.

- **`TypeDescriptor.Mentions`**, **`Metadata.Page.Mentions`** — the names in a type and in a page.
- **`TypeDescriptor.SameTargets`** — two link tables have the same entries for the names in a type.
- **`resolve_congr`** — then the type is shown the same.
- **`renderMarkdown_congr_links`** — and so is a page.
-/

namespace ComponentPages

/-! ## Names in signatures -/

/-- The code points of blank characters. -/
def blankCodes : List Nat :=
  [9, 10, 11, 12, 13, 0x20, 0x85, 0xA0, 0x1680, 0x2000, 0x2001, 0x2002, 0x2003, 0x2004, 0x2005,
    0x2006, 0x2007, 0x2008, 0x2009, 0x200A, 0x202F, 0x205F, 0x3000, 0x2028, 0x2029]

theorem toNat_mem_blankCodes {c : Char} (h : isBlank c = true) : c.toNat ∈ blankCodes := by
  simp only [isBlank, Bool.or_eq_true, Bool.and_eq_true, decide_eq_true_eq, beq_iff_eq] at h
  simp only [blankCodes, List.mem_cons, List.not_mem_nil, or_false]
  omega

/-- Blanks are no part of words. -/
theorem isWordChar_of_isBlank {c : Char} (h : isBlank c = true) : isWordChar c = false := by
  have hranges : ∀ n ∈ blankCodes, inRanges wordRanges n 0 wordRanges.size = false := by
    decide +kernel
  have hascii : isAsciiWord c = false := by
    cases hword : isAsciiWord c with
    | false => rfl
    | true => exact absurd h (by rw [not_isBlank_of_isAsciiWord hword]; simp)
  rw [isWordChar, hascii, hranges _ (toNat_mem_blankCodes h)]
  simp

theorem isBlank_of_inTypeName {c : Char} (h : inTypeName c = true) : isBlank c = false := by
  cases hblank : isBlank c with
  | false => rfl
  | true =>
    rw [inTypeName, isWordChar_of_isBlank hblank, Bool.false_or, beq_iff_eq] at h
    subst h
    exact absurd hblank (by decide)

/-- A character that begins a type name can go on with one. -/
theorem inTypeName_of_startsTypeName {c : Char} (h : startsTypeName c = true) :
    inTypeName c = true := by
  simp only [startsTypeName, Bool.or_eq_true, beq_iff_eq] at h
  simp only [inTypeName, isWordChar, isAsciiWord, Char.isAlphanum, Bool.or_eq_true, beq_iff_eq]
  tauto

/-- The name in a signature is all of one piece. -/
theorem inTypeName_of_mem_signatureToken? {raw token : Text}
    (h : signatureToken? raw = some token) : ∀ c ∈ token, inTypeName c = true := by
  induction raw with
  | nil => cases h
  | cons c rest ih =>
    rw [signatureToken?] at h
    split at h
    · next d name hrest =>
      split at h
      · next hstart =>
        cases h
        rw [Bool.and_eq_true] at hstart
        intro e he
        rcases List.mem_cons.1 he with rfl | he
        · exact inTypeName_of_startsTypeName hstart.2
        · exact List.mem_takeWhile_imp he
      · exact ih h
    · exact ih h

/-- The name in a signature has no blanks around it. -/
theorem trim_signatureToken? {raw token : Text} (h : signatureToken? raw = some token) :
    trim token = token := by
  refine trim_eq_self_of_not_blank fun c hc => ?_
  exact isBlank_of_inTypeName (inTypeName_of_mem_signatureToken? h c hc)

/-! ## Names in types -/

namespace TypeDescriptor

/-- The name by which a type is looked up, if it is: its own, that of its value, or the first one in
the source of a function. -/
def lookupName? : TypeDescriptor → Option Text
  | signature kind raw _ => if kind = functionKind then raw.bind signatureToken? else none
  | d => d.linkName?

/-- A name by which a type, or one that it is made of, is looked up. -/
def Mentions (d : TypeDescriptor) (name : Text) : Prop :=
  ∃ e : TypeDescriptor, e.Within d ∧ e.lookupName? = some name

/-- Two link tables have the same entries for the names in a type. -/
def SameTargets (s t : LinkTable) (d : TypeDescriptor) : Prop :=
  ∀ name, d.Mentions name → t.get? name = s.get? name

variable {s t : LinkTable} {d : TypeDescriptor}

theorem SameTargets.name (h : d.SameTargets s t) {name : Text} (hname : d.lookupName? = some name) :
    t.get? name = s.get? name :=
  h name ⟨d, .self d, hname⟩

theorem SameTargets.part (h : d.SameTargets s t) {p : TypeDescriptor} (hp : p ∈ d.parts) :
    p.SameTargets s t := by
  rintro name ⟨e, he, hname⟩
  exact h name ⟨e, .part hp he, hname⟩

end TypeDescriptor

/-! ## Types -/

section Tables

variable {s t : LinkTable}

theorem lookup_congr {name : Text} (h : t.get? (trim name) = s.get? (trim name)) :
    lookup t name = lookup s name := by
  rw [lookup, lookup, h]

theorem resolveFunction_congr {kind : Text} {raw : Option Text}
    (h : ∀ token, raw.bind signatureToken? = some token → t.get? token = s.get? token) :
    resolveFunction t kind raw = resolveFunction s kind raw := by
  have hlookup : (raw.bind signatureToken?).bind (lookup t) =
      (raw.bind signatureToken?).bind (lookup s) := by
    refine Option.bind_congr fun token htoken => lookup_congr ?_
    obtain ⟨text, -, htext⟩ := Option.bind_eq_some_iff.1 htoken
    rw [trim_signatureToken? htext]
    exact h token htoken
  rw [resolveFunction, resolveFunction, hlookup]

open TypeDescriptor

mutual

/-- **A type is shown the same where the entries for its names are the same.** -/
theorem resolve_congr : ∀ d : TypeDescriptor, d.SameTargets s t → resolve t d = resolve s d
  | primitive name raw, h | named name raw, h => by
    rw [resolve, resolve, lookup_congr (h.name rfl)]
  | literal value raw, h => by
    rw [resolve, resolve, lookup_congr (h.name rfl)]
  | union elements raw, h => by
    rw [resolve, resolve, firstLink?_congr elements fun d hd => h.part hd]
  | readOnlyArray none raw, h => by
    unfold resolve
    dsimp only
  | readOnlyArray (some inner) raw, h => by
    have hinner := resolve_congr inner (h.part (List.mem_cons_self ..))
    unfold resolve
    -- the members of a union are listed without a look at the table
    cases inner with
    | union elements raw => dsimp only
    | _ => dsimp only; rw [hinner]
  | readOnlyObject none raw, h => by
    unfold resolve
    dsimp only
  | readOnlyObject (some inner) raw, h => by
    unfold resolve
    cases inner with
    | signature kind raw properties =>
      have hentries := linkedEntries_congr properties fun d hd =>
        (h.part (List.mem_cons_self ..)).part hd
      dsimp only
      rw [hentries]
    | _ => dsimp only
  | signature kind raw properties, h => by
    unfold resolve
    split
    · next hkind =>
      rw [resolveFunction_congr fun token htoken => h.name (by simp [lookupName?, hkind, htoken])]
    · rfl

theorem firstLink?_congr : ∀ ds : List TypeDescriptor, (∀ d ∈ ds, d.SameTargets s t) →
    firstLink? t ds = firstLink? s ds
  | [], _ => rfl
  | d :: ds, h => by
    have hd := h d (List.mem_cons_self ..)
    have hresolve := resolve_congr d hd
    have hds := firstLink?_congr ds fun e he => h e (List.mem_cons_of_mem _ he)
    cases d with
    | literal value raw => rw [firstLink?, firstLink?, lookup_congr (hd.name rfl), hds]
    | _ => unfold firstLink?; rw [hresolve, hds]

theorem linkedEntries_congr : ∀ es : List (Text × TypeDescriptor),
    (∀ d ∈ es.map Prod.snd, d.SameTargets s t) → linkedEntries t es = linkedEntries s es
  | [], _ => rfl
  | (key, d) :: es, h => by
    have hd := resolve_congr d (h d (List.mem_cons_self ..))
    have hes := linkedEntries_congr es fun e he => h e (List.mem_cons_of_mem _ he)
    rw [linkedEntries, linkedEntries, hd, hes]

end

theorem renderType_congr {d : TypeDescriptor} (h : d.SameTargets s t) :
    renderType t d = renderType s d := by
  rw [renderType, renderType, resolve_congr d h]

theorem renderName_congr {name : Text} (h : t.get? (trim name) = s.get? (trim name)) :
    renderName t name = renderName s name := by
  rw [renderName, renderName, lookup_congr h]

/-! ## Properties and methods -/

variable (labels : List PlatformLabel)

theorem renderProp_congr {p : PropDoc} (h : ∀ d ∈ p.type?, d.SameTargets s t) :
    renderProp ⟨t, labels⟩ p = renderProp ⟨s, labels⟩ p := by
  have htype : typeColumn ⟨t, labels⟩ p = typeColumn ⟨s, labels⟩ p := by
    unfold typeColumn
    cases hd : p.type? with
    | none => dsimp only
    | some d =>
      dsimp only
      rw [renderType_congr (h d hd)]
  have hdefault : defaultColumn? ⟨t, labels⟩ p = defaultColumn? ⟨s, labels⟩ p := by
    unfold defaultColumn?
    dsimp only
  have hheading : propHeading ⟨t, labels⟩ p = propHeading ⟨s, labels⟩ p := by
    unfold propHeading
    dsimp only
  unfold renderProp propRow
  rw [htype, hdefault, hheading]

theorem paramRow_congr {p : ParamDoc} (h : ∀ d ∈ p.type?, d.SameTargets s t) :
    paramRow ⟨t, labels⟩ p = paramRow ⟨s, labels⟩ p := by
  unfold paramRow
  cases hd : p.type? with
  | none => dsimp only
  | some d =>
    dsimp only
    rw [renderType_congr (h d hd)]

/-- The types of the keys of an object are parts of its type. -/
theorem mem_parts_of_mem_objectEntries {d : TypeDescriptor} {e : Text × TypeDescriptor}
    (h : e ∈ objectEntries d) : e.2 ∈ d.parts := by
  cases d with
  | signature kind raw properties =>
    rw [objectEntries] at h
    split at h
    · exact List.mem_map_of_mem h
    · cases h
  | _ => cases h

theorem validKeys?_congr {p : ParamDoc} (h : ∀ d ∈ p.type?, d.SameTargets s t) :
    validKeys? ⟨t, labels⟩ p = validKeys? ⟨s, labels⟩ p := by
  unfold validKeys?
  cases hd : p.type? with
  | none => rw [Option.map_none]
  | some d =>
    have hkeys : (objectEntries d).map (fun e => keyLine ⟨t, labels⟩ e.1 e.2) =
        (objectEntries d).map fun e => keyLine ⟨s, labels⟩ e.1 e.2 := by
      refine List.map_congr_left fun e he => ?_
      unfold keyLine
      rw [renderType_congr ((h d hd).part (mem_parts_of_mem_objectEntries he))]
    rw [Option.map_some]
    cases hentries : objectEntries d with
    | nil => dsimp only
    | cons entry entries =>
      rw [hentries] at hkeys
      dsimp only
      rw [hkeys]

theorem renderMethod_congr {m : MethodDoc} (h : ∀ p ∈ m.params, ∀ d ∈ p.type?, d.SameTargets s t)
    (displayName : Text) :
    renderMethod ⟨t, labels⟩ displayName m = renderMethod ⟨s, labels⟩ displayName m := by
  have hrows : parameterTable ⟨t, labels⟩ m.params = parameterTable ⟨s, labels⟩ m.params :=
    congrArg renderTable (List.map_congr_left fun p hp => paramRow_congr labels (h p hp))
  have hkeys : m.params.filterMap (validKeys? ⟨t, labels⟩) =
      m.params.filterMap (validKeys? ⟨s, labels⟩) :=
    List.filterMap_congr fun p hp => validKeys?_congr labels (h p hp)
  have hheading : methodHeading ⟨t, labels⟩ m = methodHeading ⟨s, labels⟩ m := by
    unfold methodHeading
    dsimp only
  unfold renderMethod parameterParts
  rw [hheading, hrows, hkeys]

/-! ## Pages -/

/-- Two link tables have the same entries for all names in the types of a component and for what it
inherits from. -/
structure ComponentDoc.SameTargets (s t : LinkTable) (d : ComponentDoc) : Prop where
  props : ∀ p ∈ d.props.values, ∀ type ∈ p.type?, type.SameTargets s t
  params : ∀ m ∈ d.methods, ∀ p ∈ m.params, ∀ type ∈ p.type?, type.SameTargets s t
  composes : ∀ parent ∈ d.composes, t.get? (trim parent) = s.get? (trim parent)

theorem referenceParts_congr {d : ComponentDoc} (h : d.SameTargets s t) :
    referenceParts ⟨t, labels⟩ d = referenceParts ⟨s, labels⟩ d := by
  have hinherits : d.composes.map (inheritsLine ⟨t, labels⟩) =
      d.composes.map (inheritsLine ⟨s, labels⟩) := by
    refine List.map_congr_left fun parent hparent => ?_
    unfold inheritsLine
    rw [renderName_congr (h.composes parent hparent)]
  have hprops : (sortProps d.props.values).map (renderProp ⟨t, labels⟩) =
      (sortProps d.props.values).map (renderProp ⟨s, labels⟩) :=
    List.map_congr_left fun p hp => renderProp_congr labels (h.props p (List.mem_mergeSort.1 hp))
  have hmethods : (sortMethods d.methods).map (renderMethod ⟨t, labels⟩ d.displayName) =
      (sortMethods d.methods).map (renderMethod ⟨s, labels⟩ d.displayName) :=
    List.map_congr_left fun m hm =>
      renderMethod_congr labels (h.params m (List.mem_mergeSort.1 hm)) d.displayName
  have hpropsSection : renderProps? ⟨t, labels⟩ d = renderProps? ⟨s, labels⟩ d := by
    unfold renderProps?
    rw [hinherits, hprops]
  have hmethodsSection : renderMethods? ⟨t, labels⟩ d = renderMethods? ⟨s, labels⟩ d := by
    unfold renderMethods?
    rw [hmethods]
  unfold referenceParts
  rw [hpropsSection, hmethodsSection]

end Tables

/-- The types in the metadata of a page, those without anything to show left out. -/
def Metadata.Page.types (p : Metadata.Page) : List TypeDescriptor :=
  p.component.props.values.filterMap (fun q => q.type?.bind TypeDescriptor.ofNode?) ++
    p.component.methods.flatMap fun m =>
      m.params.filterMap fun q => q.type?.bind TypeDescriptor.ofNode?

/-- A name that is looked up for a page: one in its types, or one of those it inherits from. -/
def Metadata.Page.Mentions (p : Metadata.Page) (name : Text) : Prop :=
  (∃ d ∈ p.types, d.Mentions name) ∨ ∃ parent ∈ p.component.composes, name = trim parent

/-- The type of a property that is shown is that of the metadata. -/
theorem type_of_ofProperty {name : Text} {p : Metadata.Property} {q : PropDoc}
    (h : PropDoc.ofProperty name p = .ok q) {d : TypeDescriptor} (hd : q.type? = some d) :
    p.type?.bind TypeDescriptor.ofNode? = some d := by
  obtain ⟨type, htype, hq⟩ := bind_eq_ok_iff.1 h
  cases hq
  obtain rfl : type = some d := hd
  unfold propType at htype
  split at htype
  · split at htype <;> cases htype
  · next node hnode =>
    split at htype
    · next e he =>
      cases htype
      rw [hnode, Option.bind_some, he]
    · split at htype <;> cases htype

/-- The type of a parameter that is shown is that of the metadata. -/
theorem type_of_ofParameter {method : Text} {p : Metadata.Parameter} {q : ParamDoc}
    (h : ParamDoc.ofParameter method p = .ok q) {d : TypeDescriptor} (hd : q.type? = some d) :
    p.type?.bind TypeDescriptor.ofNode? = some d := by
  unfold ParamDoc.ofParameter at h
  dsimp only at h
  split at h
  · cases h; cases hd
  · next node hnode =>
    split at h
    · next e he =>
      cases h
      cases hd
      rw [hnode, Option.bind_some, he]
    · cases h

/-- The types of a page that is shown are those of the metadata. -/
theorem sameTargets_of_ofPage {s t : LinkTable} {p : Metadata.Page} {doc : PageDoc}
    (h : ∀ name, p.Mentions name → t.get? name = s.get? name) (hdoc : PageDoc.ofPage p = .ok doc) :
    doc.component.SameTargets s t where
  props q hq d hd name hname := by
    obtain ⟨e, he, hprop⟩ := exists_property_of_mem hdoc hq
    refine h name (.inl ⟨d, List.mem_append_left _ ?_, hname⟩)
    exact List.mem_filterMap.2 ⟨e.2, List.mem_map_of_mem he, type_of_ofProperty hprop hd⟩
  params m hm q hq d hd name hname := by
    obtain ⟨source, hsource, hmethod⟩ := exists_method_of_mem hdoc hm
    obtain ⟨param, hparam, hq⟩ := exists_of_mem_mapM (MethodDoc.eq_of_ofMethod hmethod).1 hq
    refine h name (.inl ⟨d, List.mem_append_right _ ?_, hname⟩)
    exact List.mem_flatMap.2
      ⟨source, hsource, List.mem_filterMap.2 ⟨param, hparam, type_of_ofParameter hq hd⟩⟩
  composes parent hparent := by
    obtain ⟨component, hcomponent, rfl⟩ := PageDoc.ofPage_eq_ok_iff.1 hdoc
    obtain ⟨props, methods, -, -, rfl⟩ := ComponentDoc.ofComponent_eq_ok_iff.1 hcomponent
    exact h _ (.inr ⟨parent, hparent, rfl⟩)

/-- **Links for other names change nothing**: under two configurations with the same labels and the
same entries for the names that are looked up for a page, the page is the same, or is refused for
the same reason. -/
theorem renderMarkdown_congr_links (p : Metadata.Page) {c d : Config}
    (hlabels : d.platforms = c.platforms)
    (hlinks : ∀ name, p.Mentions name → d.links.get? name = c.links.get? name) :
    p.renderMarkdown d = p.renderMarkdown c := by
  obtain ⟨s, labels⟩ := c
  obtain ⟨t, labels'⟩ := d
  obtain rfl : labels' = labels := hlabels
  unfold Metadata.Page.renderMarkdown Metadata.Page.render
  cases hdoc : PageDoc.ofPage p with
  | error e =>
    show Except.error e = Except.error e
    rfl
  | ok doc =>
    have hparts : pageParts ⟨t, labels'⟩ doc = pageParts ⟨s, labels'⟩ doc := by
      rw [pageParts, pageParts, referenceParts_congr labels' (sameTargets_of_ofPage hlinks hdoc)]
    show Except.ok (doc.renderMarkdown ⟨t, labels'⟩) = Except.ok (doc.renderMarkdown ⟨s, labels'⟩)
    rw [PageDoc.renderMarkdown, PageDoc.renderMarkdown, hparts]

/-- A page with a property that is a value or a function of an event. -/
def handlerPage : Metadata.Page where
  id := "box".toList
  title := "Box".toList
  component := {
    displayName := "Box".toList
    description := none
    props := .ofList [("onPress".toList,
      ⟨some (.node (some "union".toList) none none none
        [.node (some "literal".toList) none none (some "' auto '".toList) [] none,
          .node (some "signature".toList) (some "(event: PressEvent) => void".toList)
            (some "function".toList) none [] none] none), true, none, none⟩)]
    methods := []
    composes := [" ViewProps".toList] }

/-- The page looks up no other names than these three. -/
theorem mem_of_mentions_handlerPage {name : Text} (h : handlerPage.Mentions name) :
    name ∈ ["auto".toList, "PressEvent".toList, "ViewProps".toList] := by
  rcases h with ⟨d, hd, e, he, hname⟩ | ⟨parent, hparent, rfl⟩
  · obtain rfl : d = .union [.literal "' auto '".toList none,
        .signature "function".toList (some "(event: PressEvent) => void".toList) []] none :=
      List.mem_singleton.1 hd
    cases he with
    | self => cases hname
    | part hp he =>
      rcases List.mem_cons.1 hp with rfl | hp
      · cases he with
        | self => cases hname; decide
        | part hp _ => cases hp
      · obtain rfl := List.mem_singleton.1 hp
        cases he with
        | self => cases hname; decide
        | part hp _ => cases hp
  · obtain rfl := List.mem_singleton.1 hparent
    decide

/-- A link for another type does not change the page. -/
theorem renderMarkdown_congr_links_handlerPage :
    (∀ name, handlerPage.Mentions name →
        (builtinLinks.insert "LayoutEvent".toList ⟨"L".toList, "l".toList⟩).get? name =
          builtinLinks.get? name) ∧
      handlerPage.renderMarkdown
          ⟨builtinLinks.insert "LayoutEvent".toList ⟨"L".toList, "l".toList⟩, builtinPlatforms⟩ =
        handlerPage.renderMarkdown ⟨builtinLinks, builtinPlatforms⟩ := by
  have hlinks : ∀ name, handlerPage.Mentions name →
      (builtinLinks.insert "LayoutEvent".toList ⟨"L".toList, "l".toList⟩).get? name =
        builtinLinks.get? name := by
    intro name hname
    have hne : ∀ n ∈ ["auto".toList, "PressEvent".toList, "ViewProps".toList],
        n ≠ "LayoutEvent".toList := by decide
    rw [OrderedMap.get?_insert, if_neg (hne name (mem_of_mentions_handlerPage hname))]
  exact ⟨hlinks, renderMarkdown_congr_links handlerPage rfl hlinks⟩

end ComponentPages
