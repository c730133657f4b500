import ComponentPages.Markdown.Page
import ComponentPages.Proofs.Lines

/-!
# The outline of a page

A page is one list of parts with blank lines between them, however deeply its sections are nested:
headings, parts that are made of names, types and values, and parts that tell what is written in a
description, a type or a link.

- **`OutlinePart`**, **`pageOutline`** — the parts of a page.
- **`joinSections_pageOutline`** — the page is its parts put together.
- **`pageHeadings`**, **`headings_pageOutline`** — the headings among them.
-/

namespace ComponentPages

/-! ## Sections of sections -/

/-- Sections put together as one section, where there are any. -/
def asSection (ps : List Text) : List Text := if ps.isEmpty then [] else [joinSections ps]

@[simp] theorem asSection_nil : asSection [] = [] := rfl

theorem asSection_of_ne_nil {ps : List Text} (h : ps ≠ []) : asSection ps = [joinSections ps] :=
  if_neg (by simpa using h)

/-- **Sections may be put together beforehand.** -/
theorem joinSections_asSection (ps qs rs : List Text) :
    joinSections (ps ++ (asSection qs ++ rs)) = joinSections (ps ++ (qs ++ rs)) := by
  by_cases hqs : qs = []
  · rw [hqs, asSection_nil]
  rw [asSection_of_ne_nil hqs, List.singleton_append]
  have hinner : joinSections (joinSections qs :: rs) = joinSections (qs ++ rs) := by
    by_cases hrs : rs = []
    · rw [hrs, joinSections_singleton, List.append_nil]
    · rw [joinSections_cons _ hrs, joinSections_append hqs hrs]
  induction ps with
  | nil => exact hinner
  | cons p ps ih =>
    rw [List.cons_append, List.cons_append, joinSections_cons p (by simp),
      joinSections_cons p (by simp [hqs]), ih]

/-- A paragraph before sections is one more section, where it is not empty. -/
theorem paragraph_append (s : Text) {ps : List Text} (h : ps ≠ []) :
    paragraph s ++ joinSections ps = joinSections (sectionOf s ++ ps) := by
  cases s with
  | nil => rfl
  | cons c s =>
    rw [sectionOf_cons, List.singleton_append, joinSections_cons _ h, paragraph, if_neg (by simp)]
    simp

/-! ## The parts of a page -/

/-- A part of a page. -/
inductive OutlinePart where
  /-- A heading of the reference. -/
  | heading (line : Text)
  /-- What is made of names, types and values. -/
  | made (text : Text)
  /-- What is told in the words of a description, of a type in source or of a configured link. -/
  | told (text : Text)
deriving DecidableEq, Repr

namespace OutlinePart

/-- The text of a part. -/
def text : OutlinePart → Text
  | .heading line => line
  | .made text => text
  | .told text => text

/-- The heading that a part is. -/
def heading? : OutlinePart → Option Text
  | .heading line => some line
  | _ => none

end OutlinePart

/-- The texts of parts. -/
def partTexts (parts : List OutlinePart) : List Text := parts.map OutlinePart.text

/-- The headings among parts. -/
def headingsOf (parts : List OutlinePart) : List Text := parts.filterMap OutlinePart.heading?

/-- The parts of a property. -/
def propOutline (config : Config) (p : PropDoc) : List OutlinePart :=
  .heading (propHeading config p) ::
    ((sectionOf p.description).map .told ++ [.made (renderTable [propRow config p])])

/-- The parts that tell of the parameters of a method. -/
def parameterOutline (config : Config) (params : List ParamDoc) : List OutlinePart :=
  if params.isEmpty then []
  else
    .made "**Parameters:**".toList :: .made (trimEnd (parameterTable config params)) ::
      (params.filterMap (validKeys? config)).map .told

/-- The parts of a method. -/
def methodOutline (config : Config) (displayName : Text) (m : MethodDoc) : List OutlinePart :=
  .heading (methodHeading config m) :: .made (callBlock m displayName) ::
    ((sectionOf m.description).map .told ++ parameterOutline config m.params)

/-- The line between two blocks. -/
def ruleLine : Text := "---".toList

/-- Blocks with a line between neighbours. -/
def ruledOutline : List (List OutlinePart) → List OutlinePart
  | [] => []
  | [block] => block
  | block :: next :: blocks => block ++ .made ruleLine :: ruledOutline (next :: blocks)

/-- The parts of the section of the properties. -/
def propsOutline (config : Config) (c : ComponentDoc) : List OutlinePart :=
  if c.props.isEmpty then []
  else
    .heading "## Props".toList ::
      ((sectionOf (joinSections (c.composes.map (inheritsLine config)))).map .told ++
        ruledOutline ((sortProps c.props.values).map (propOutline config)))

/-- The parts of the section of the methods. -/
def methodsOutline (config : Config) (c : ComponentDoc) : List OutlinePart :=
  if c.methods.isEmpty then []
  else
    .heading "## Methods".toList ::
      ruledOutline ((sortMethods c.methods).map (methodOutline config c.displayName))

/-- The parts of the reference. -/
def referenceOutline (config : Config) (c : ComponentDoc) : List OutlinePart :=
  if c.props.isEmpty && c.methods.isEmpty then []
  else
    .made ruleLine :: .heading "# Reference".toList ::
      (propsOutline config c ++ methodsOutline config c)

/-- **The parts of a page.** -/
def pageOutline (config : Config) (p : PageDoc) : List OutlinePart :=
  .made (frontMatter p) ::
    ((descriptionParts p.component.description).map .told ++ referenceOutline config p.component)

/-! ## The page is its parts put together -/

@[simp] theorem partTexts_nil : partTexts [] = [] := rfl

@[simp] theorem partTexts_cons (part : OutlinePart) (parts : List OutlinePart) :
    partTexts (part :: parts) = part.text :: partTexts parts := rfl

@[simp] theorem partTexts_append (parts parts' : List OutlinePart) :
    partTexts (parts ++ parts') = partTexts parts ++ partTexts parts' := List.map_append

@[simp] theorem partTexts_told (texts : List Text) : partTexts (texts.map .told) = texts := by
  rw [partTexts, List.map_map]
  exact List.map_id texts

theorem propHeading_ne_nil (config : Config) (p : PropDoc) : propHeading config p ≠ [] := by
  have hmark : (propHeading config p).head? = some '#' := rfl
  intro hnil
  rw [hnil] at hmark
  cases hmark

theorem propOutline_ne_nil (config : Config) (p : PropDoc) : propOutline config p ≠ [] :=
  List.cons_ne_nil _ _

theorem methodOutline_ne_nil (config : Config) (displayName : Text) (m : MethodDoc) :
    methodOutline config displayName m ≠ [] :=
  List.cons_ne_nil _ _

/-- A property is its parts put together. -/
theorem renderProp_eq (config : Config) (p : PropDoc) :
    renderProp config p = joinSections (partTexts (propOutline config p)) := by
  have htable : renderTable [propRow config p] = joinSections [renderTable [propRow config p]] := by
    rw [joinSections_singleton]
  rw [renderProp, htable, List.append_assoc, paragraph_append _ (by simp),
    paragraph_append _ (by simp), sectionOf_of_ne_nil (propHeading_ne_nil config p)]
  simp [propOutline, OutlinePart.text]

/-- A method is its parts put together. -/
theorem renderMethod_eq (config : Config) (displayName : Text) (m : MethodDoc) :
    renderMethod config displayName m =
      joinSections (partTexts (methodOutline config displayName m)) := by
  have hparams : partTexts (parameterOutline config m.params) = parameterParts config m.params := by
    unfold parameterOutline parameterParts
    split
    · rfl
    · simp [OutlinePart.text]
  simp [renderMethod, methodOutline, OutlinePart.text, hparams]

/-- Blocks that are not empty have parts. -/
theorem ruledOutline_ne_nil {blocks : List (List OutlinePart)} (hne : blocks ≠ [])
    (h : ∀ block ∈ blocks, block ≠ []) : ruledOutline blocks ≠ [] := by
  fun_cases ruledOutline blocks with
  | case1 => exact absurd rfl hne
  | case2 block => exact h block (List.mem_singleton_self block)
  | case3 block next blocks => simp

/-- Blocks with a line between neighbours are their parts put together. -/
theorem joinWith_blockSeparator {blocks : List (List OutlinePart)}
    (h : ∀ block ∈ blocks, block ≠ []) :
    joinWith blockSeparator (blocks.map fun block => joinSections (partTexts block)) =
      joinSections (partTexts (ruledOutline blocks)) := by
  fun_induction ruledOutline blocks with
  | case1 => rfl
  | case2 block => exact joinWith_singleton _ _
  | case3 block next blocks ih =>
    have hblock : partTexts block ≠ [] := by simpa [partTexts] using h block (by simp)
    have hrest : ∀ b ∈ next :: blocks, b ≠ [] := fun b hb => h b (List.mem_cons_of_mem _ hb)
    have hruled : partTexts (ruledOutline (next :: blocks)) ≠ [] := by
      simpa [partTexts] using ruledOutline_ne_nil (by simp) hrest
    have hsep : blockSeparator = '\n' :: '\n' :: ruleLine ++ ['\n', '\n'] := rfl
    rw [List.map_cons, List.map_cons, joinWith_cons_cons, ← List.map_cons (f := fun block =>
      joinSections (partTexts block)), ih hrest, partTexts_append, partTexts_cons,
      joinSections_append hblock (by simp), joinSections_cons _ hruled, hsep]
    simp [OutlinePart.text]

/-- The blocks of some things are their parts put together, where there are any. -/
theorem joinWith_blockSeparator_map {α : Type} {xs : List α} {render : α → Text}
    {outline : α → List OutlinePart} (hne : ∀ x, outline x ≠ [])
    (hrender : ∀ x, render x = joinSections (partTexts (outline x))) (hxs : xs ≠ []) :
    joinWith blockSeparator (xs.map render) =
        joinSections (partTexts (ruledOutline (xs.map outline))) ∧
      partTexts (ruledOutline (xs.map outline)) ≠ [] := by
  have hblocks : ∀ block ∈ xs.map outline, block ≠ [] := by
    intro block hblock
    obtain ⟨x, -, rfl⟩ := List.mem_map.1 hblock
    exact hne x
  have hmap : xs.map render = (xs.map outline).map fun block => joinSections (partTexts block) := by
    rw [List.map_map]
    exact List.map_congr_left fun x _ => hrender x
  have hruled : ruledOutline (xs.map outline) ≠ [] :=
    ruledOutline_ne_nil (by simpa using hxs) hblocks
  exact ⟨by rw [hmap, joinWith_blockSeparator hblocks], by simpa [partTexts] using hruled⟩

/-- The section of the properties is its parts put together. -/
theorem toList_renderProps? (config : Config) (c : ComponentDoc) :
    (renderProps? config c).toList = asSection (partTexts (propsOutline config c)) := by
  unfold renderProps? propsOutline
  split
  · rfl
  · next hprops =>
    have hvalues : sortProps c.props.values ≠ [] := by
      intro hnil
      have hlength := congrArg List.length hnil
      rw [sortProps, List.length_mergeSort, List.length_nil, List.length_eq_zero_iff] at hlength
      exact hprops (by simpa [OrderedMap.values, OrderedMap.isEmpty] using hlength)
    obtain ⟨hblocks, hne⟩ := joinWith_blockSeparator_map (propOutline_ne_nil config)
      (renderProp_eq config) hvalues
    have hheading : "## Props\n\n".toList = "## Props".toList ++ ['\n', '\n'] := rfl
    rw [hblocks, hheading, List.append_assoc, paragraph_append _ hne,
      asSection_of_ne_nil (by simp), partTexts_cons, partTexts_append, partTexts_told,
      joinSections_cons _ (by simp [hne]), List.append_assoc]
    rfl

/-- The section of the methods is its parts put together. -/
theorem toList_renderMethods? (config : Config) (c : ComponentDoc) :
    (renderMethods? config c).toList = asSection (partTexts (methodsOutline config c)) := by
  unfold renderMethods? methodsOutline
  split
  · rfl
  · next hmethods =>
    have hsorted : sortMethods c.methods ≠ [] := by
      intro hnil
      have hlength := congrArg List.length hnil
      rw [sortMethods, List.length_mergeSort, List.length_nil, List.length_eq_zero_iff] at hlength
      exact hmethods (by rw [hlength]; rfl)
    obtain ⟨hblocks, hne⟩ := joinWith_blockSeparator_map
      (methodOutline_ne_nil config c.displayName) (renderMethod_eq config c.displayName) hsorted
    have hheading : "## Methods\n\n".toList = "## Methods".toList ++ ['\n', '\n'] := rfl
    rw [hblocks, hheading, asSection_of_ne_nil (by simp), partTexts_cons,
      joinSections_cons _ hne, List.append_assoc]
    rfl

/-- A description that has parts begins with one that is not empty. -/
theorem joinSections_descriptionParts_ne_nil {d : Description} (h : descriptionParts d ≠ []) :
    joinSections (descriptionParts d) ≠ [] := by
  have hcons {p : Text} (ps : List Text) (hp : p ≠ []) : joinSections (p :: ps) ≠ [] := by
    by_cases hps : ps = []
    · rw [hps, joinSections_singleton]
      exact hp
    · rw [joinSections_cons p hps]
      simp
  have hsection {q : Text} (hq : sectionOf q ≠ []) : q ≠ [] := by
    rintro rfl
    exact hq rfl
  unfold descriptionParts at h ⊢
  by_cases htext : sectionOf d.text = []
  · rw [htext, List.nil_append] at h ⊢
    by_cases hexamples : d.examples.isEmpty = true
    · rw [if_pos hexamples, List.nil_append] at h ⊢
      rw [sectionOf_of_ne_nil (hsection h)]
      exact hcons [] (hsection h)
    · rw [if_neg hexamples]
      exact hcons _ (by decide)
  · rw [sectionOf_of_ne_nil (hsection htext)]
    exact hcons _ (hsection htext)

/-- A description is its parts put together. -/
theorem sectionOf_joinSections_descriptionParts (d : Description) :
    sectionOf (joinSections (descriptionParts d)) = asSection (descriptionParts d) := by
  by_cases h : descriptionParts d = []
  · rw [h]
    rfl
  · rw [asSection_of_ne_nil h, sectionOf_of_ne_nil (joinSections_descriptionParts_ne_nil h)]

/-- The reference is there where there are properties or methods. -/
theorem referenceParts_eq (config : Config) (c : ComponentDoc) :
    referenceParts config c =
      if c.props.isEmpty && c.methods.isEmpty then []
      else
        ruleLine :: "# Reference".toList :: (asSection (partTexts (propsOutline config c)) ++
          asSection (partTexts (methodsOutline config c))) := by
  rw [← toList_renderProps?, ← toList_renderMethods?]
  unfold referenceParts renderProps? renderMethods?
  cases hprops : c.props.isEmpty <;> cases hmethods : c.methods.isEmpty <;> rfl

/-- **A page is its parts put together.** -/
theorem joinSections_pageOutline (config : Config) (p : PageDoc) :
    joinSections (pageParts config p) = joinSections (partTexts (pageOutline config p)) := by
  have hdescription := joinSections_asSection [frontMatter p]
    (descriptionParts p.component.description)
  rw [pageParts, sectionOf_joinSections_descriptionParts, ← List.singleton_append, hdescription,
    referenceParts_eq, pageOutline, partTexts_cons, partTexts_append, partTexts_told,
    referenceOutline]
  split
  · rfl
  · -- each of the two sections of the reference is opened in its turn
    have hprops := joinSections_asSection (frontMatter p ::
      (descriptionParts p.component.description ++ [ruleLine, "# Reference".toList]))
      (partTexts (propsOutline config p.component))
      (asSection (partTexts (methodsOutline config p.component)))
    have hmethods := joinSections_asSection (frontMatter p ::
      (descriptionParts p.component.description ++ [ruleLine, "# Reference".toList] ++
        partTexts (propsOutline config p.component)))
      (partTexts (methodsOutline config p.component)) []
    simp only [List.append_nil, List.cons_append, List.append_assoc, List.nil_append,
      partTexts_cons, partTexts_append, OutlinePart.text] at hprops hmethods ⊢
    rw [hprops, hmethods]

/-! ## The headings of a page -/

@[simp] theorem headingsOf_nil : headingsOf [] = [] := rfl

@[simp] theorem headingsOf_cons_heading (line : Text) (parts : List OutlinePart) :
    headingsOf (.heading line :: parts) = line :: headingsOf parts := rfl

@[simp] theorem headingsOf_cons_made (text : Text) (parts : List OutlinePart) :
    headingsOf (.made text :: parts) = headingsOf parts := rfl

@[simp] theorem headingsOf_append (parts parts' : List OutlinePart) :
    headingsOf (parts ++ parts') = headingsOf parts ++ headingsOf parts' :=
  List.filterMap_append

@[simp] theorem headingsOf_told (texts : List Text) : headingsOf (texts.map .told) = [] := by
  rw [headingsOf, List.filterMap_map]
  exact List.filterMap_eq_nil_iff.2 fun _ _ => rfl

/-- The lines between blocks are no headings. -/
theorem headingsOf_ruledOutline (blocks : List (List OutlinePart)) :
    headingsOf (ruledOutline blocks) = blocks.flatMap headingsOf := by
  fun_induction ruledOutline blocks with
  | case1 => rfl
  | case2 block => rw [List.flatMap_singleton]
  | case3 block next blocks ih =>
    simp only [headingsOf_append, headingsOf_cons_made, ih, List.flatMap_cons]

/-- Blocks with one heading each have these headings with lines between them. -/
theorem headingsOf_ruledOutline_map {α : Type} {xs : List α} {outline : α → List OutlinePart}
    {heading : α → Text} (h : ∀ x, headingsOf (outline x) = [heading x]) :
    headingsOf (ruledOutline (xs.map outline)) = xs.map heading := by
  rw [headingsOf_ruledOutline, List.flatMap_map, ← List.flatMap_pure_eq_map]
  exact List.flatMap_congr fun x _ => h x

theorem headingsOf_propOutline (config : Config) (p : PropDoc) :
    headingsOf (propOutline config p) = [propHeading config p] := by
  simp [propOutline]

theorem headingsOf_methodOutline (config : Config) (displayName : Text) (m : MethodDoc) :
    headingsOf (methodOutline config displayName m) = [methodHeading config m] := by
  have hparams : headingsOf (parameterOutline config m.params) = [] := by
    unfold parameterOutline
    split
    · rfl
    · simp only [headingsOf_cons_made, headingsOf_told]
  simp [methodOutline, hparams]

/-- The headings of a page: that of the reference, where there is one, and in it those of the
properties and those of the methods, in the order in which they are listed. -/
def pageHeadings (config : Config) (c : ComponentDoc) : List Text :=
  (if c.props.isEmpty && c.methods.isEmpty then [] else ["# Reference".toList]) ++
    (if c.props.isEmpty then []
      else "## Props".toList :: (sortProps c.props.values).map (propHeading config)) ++
    (if c.methods.isEmpty then []
      else "## Methods".toList :: (sortMethods c.methods).map (methodHeading config))

/-- **The headings among the parts of a page** are that of its reference, and those of its
properties and methods. -/
theorem headings_pageOutline (config : Config) (p : PageDoc) :
    headingsOf (pageOutline config p) = pageHeadings config p.component := by
  have hprops : headingsOf (propsOutline config p.component) =
      if p.component.props.isEmpty then []
      else "## Props".toList ::
        (sortProps p.component.props.values).map (propHeading config) := by
    unfold propsOutline
    split
    · rfl
    · rw [headingsOf_cons_heading, headingsOf_append, headingsOf_told, List.nil_append,
        headingsOf_ruledOutline_map (headingsOf_propOutline config)]
  have hmethods : headingsOf (methodsOutline config p.component) =
      if p.component.methods.isEmpty then []
      else "## Methods".toList ::
        (sortMethods p.component.methods).map (methodHeading config) := by
    unfold methodsOutline
    split
    · rfl
    · rw [headingsOf_cons_heading,
        headingsOf_ruledOutline_map (headingsOf_methodOutline config p.component.displayName)]
  rw [pageOutline, headingsOf_cons_made, headingsOf_append, headingsOf_told, List.nil_append,
    referenceOutline, pageHeadings, List.append_assoc, ← hprops, ← hmethods]
  split
  · next hempty =>
    rw [Bool.and_eq_true] at hempty
    rw [hprops, hmethods, if_pos hempty.1, if_pos hempty.2]
    rfl
  · rw [headingsOf_cons_made, headingsOf_cons_heading, headingsOf_append, List.singleton_append]

end ComponentPages
