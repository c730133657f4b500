import ComponentPages.Proofs.PageParts

/-!
# What a page tells

What is told on a page in other words than its own leaves no code block open where the descriptions
leave none open and where links and the keys of object parameters are shown on one line each.

- **`closesFences_descriptionParts`** — the description of a component, its examples under tabs or
  not.
- **`closesFences_validKeys`**, **`closesFences_inheritsLines`** — the keys of an object parameter
  and the links to inherited properties.
- **`toldCloses_pageOutline`** — all that is told on a page.
-/

namespace ComponentPages

/-! ## Descriptions -/

/-- The switch between the tabs holds no markers. -/
theorem closesFences_toggler : ClosesFences toggler := by
  -- the literals are taken apart beforehand: decoding them is what would take long
  simp only [toggler, List.map, String.toList_append]
  repeat rw [String.toList_ofList]
  decide +kernel

/-- The pair that is shown under tabs is of the examples. -/
theorem mem_of_tabbedPair? {examples : List Example} {functional classical : Example}
    (h : tabbedPair? examples = some (functional, classical)) :
    functional ∈ examples ∧ classical ∈ examples := by
  unfold tabbedPair? at h
  split at h
  · next hfunctional hclassical =>
    cases h
    have hf : functional ∈ examples.filter isFunctional := by simp [hfunctional]
    have hc : classical ∈ examples.filter isClass := by simp [hclassical]
    exact ⟨(List.mem_filter.1 hf).1, (List.mem_filter.1 hc).1⟩
  · cases h

/-- The examples, and what opens and closes the tabs. -/
theorem closesFences_exampleParts {examples : List Example}
    (h : ∀ e ∈ examples, ClosesFences e.intro ∧ ClosesFences e.raw) :
    ∀ s ∈ exampleParts examples, ClosesFences s := by
  intro s hs
  unfold exampleParts at hs
  split at hs
  · next functional classical hpair =>
    obtain ⟨hfunctional, hclassical⟩ := mem_of_tabbedPair? hpair
    have hmarks : ∀ mark ∈ [functionalBlock, classBlock, endBlock], ClosesFences mark := by
      decide +kernel
    simp only [List.mem_append, List.mem_cons, List.not_mem_nil, or_false] at hs
    rcases hs with ((hs | hs) | rfl | rfl | rfl | rfl | rfl | rfl) | hs
    · exact closesFences_of_mem_sectionOf (h _ hfunctional).1 hs
    · exact closesFences_of_mem_sectionOf (h _ hclassical).1 hs
    · exact closesFences_toggler
    · exact hmarks _ (by simp)
    · exact (h _ hfunctional).2
    · exact hmarks _ (by simp)
    · exact (h _ hclassical).2
    · exact hmarks _ (by simp)
    · obtain ⟨e, he, hs⟩ := List.mem_flatMap.1 hs
      exact closesFences_of_mem_sections (h e (List.mem_filter.1 he).1) hs
  · obtain ⟨e, he, hs⟩ := List.mem_flatMap.1 hs
    exact closesFences_of_mem_sections (h e he) hs

/-- **The parts of a description** are told as they are, and what is put between them opens
nothing. -/
theorem closesFences_descriptionParts {d : Description} (htext : ClosesFences d.text)
    (hexamples : ∀ e ∈ d.examples, ClosesFences e.intro ∧ ClosesFences e.raw)
    (hfooter : ClosesFences d.footer) : ∀ s ∈ descriptionParts d, ClosesFences s := by
  intro s hs
  rcases List.mem_append.1 hs with hs | hs
  · rcases List.mem_append.1 hs with hs | hs
    · exact closesFences_of_mem_sectionOf htext hs
    · split at hs
      · cases hs
      · rcases List.mem_cons.1 hs with rfl | hs
        · decide +kernel
        · exact closesFences_exampleParts hexamples s hs
  · exact closesFences_of_mem_sectionOf hfooter hs

/-! ## Keys and links -/

/-- The keys of an object parameter and their types are shown on one line each. -/
def ParamDoc.OneLineKeys (config : Config) (q : ParamDoc) : Prop :=
  ∀ d ∈ q.type?, ∀ e ∈ objectEntries d, '\n' ∉ e.1 ∧ '\n' ∉ renderType config.links e.2

instance (config : Config) (q : ParamDoc) : Decidable (q.OneLineKeys config) :=
  inferInstanceAs (Decidable (∀ d ∈ q.type?, ∀ e ∈ objectEntries d, _))

/-- The line of a key is idle where the key and its type are on one line. -/
theorem idleLine_keyLine {config : Config} {key : Text} {d : TypeDescriptor} (hkey : '\n' ∉ key)
    (hshown : '\n' ∉ renderType config.links d) : IdleLine (keyLine config key d) := by
  have hdash : beginsPlain "- '".toList = true ∧ '\n' ∉ "- '".toList := by decide +kernel
  have hbetween : '\n' ∉ "' (".toList := by decide +kernel
  unfold keyLine
  generalize "- '".toList = dash at hdash ⊢
  generalize "' (".toList = between at hbetween ⊢
  constructor
  · simp [hdash.2, hkey, hbetween, hshown]
  · simp only [List.append_assoc]
    exact opensNone_append hdash.1 _

/-- The list of the keys of an object parameter leaves no code block open where they are on one line
each. -/
theorem closesFences_validKeys {config : Config} {q : ParamDoc} (hname : '\n' ∉ q.name)
    (hkeys : q.OneLineKeys config) {s : Text} (hs : validKeys? config q = some s) :
    ClosesFences s := by
  unfold validKeys? at hs
  split at hs
  · next entry entries htype =>
    obtain ⟨d, hd, hentries⟩ := Option.map_eq_some_iff.1 htype
    have hline : ∀ l ∈ (entry :: entries).map fun e => keyLine config e.1 e.2, IdleLine l := by
      intro l hl
      obtain ⟨e, he, rfl⟩ := List.mem_map.1 hl
      obtain ⟨hkey, hshown⟩ := hkeys d hd e (hentries ▸ he)
      exact idleLine_keyLine hkey hshown
    have hlist : ClosesFences (joinLines ((entry :: entries).map fun e =>
        keyLine config e.1 e.2)) := by
      refine closesFences_of_opensNone ?_
      rw [lines_joinLines (by simp) fun l hl => (hline l hl).oneLine]
      exact fun l hl => (hline l hl).opensNone
    have hheading : ClosesFences ("Valid `".toList ++ (q.name ++ "` keys are:".toList)) :=
      closesFences_append (by decide +kernel) (by decide +kernel)
        (by rw [List.mem_append, not_or]; exact ⟨hname, by decide +kernel⟩)
    have hassoc (valid are keys : Text) :
        valid ++ q.name ++ (are ++ ['\n', '\n']) ++ keys =
          valid ++ (q.name ++ are) ++ '\n' :: ([] ++ '\n' :: keys) := by
      simp
    have hwhole := hassoc "Valid `".toList "` keys are:".toList
      (joinLines ((entry :: entries).map fun e => keyLine config e.1 e.2))
    have hclosed := hheading.append_newline (closesFences_nil.append_newline hlist)
    rw [← hwhole] at hclosed
    cases hs
    exact hclosed
  · cases hs

/-- The links of a configuration are on one line each. -/
def Config.OneLineLinks (config : Config) : Prop :=
  ∀ target ∈ config.links.values, '\n' ∉ target.text ∧ '\n' ∉ target.url

instance (config : Config) : Decidable config.OneLineLinks :=
  inferInstanceAs (Decidable (∀ target ∈ config.links.values, _))

/-- A character is written as an entity or as it is. -/
theorem newline_not_mem_encodeEntity {c : Char} (hc : c ≠ '\n') : '\n' ∉ encodeEntity c := by
  unfold encodeEntity
  split_ifs
  · decide
  · decide
  · decide
  · decide
  · simpa using hc.symm

/-- Inline code is on one line. -/
theorem newline_not_mem_codeCell (value : Text) : '\n' ∉ codeCell value := by
  have hflat : '\n' ∉ onOneLine value := by
    intro hmem
    obtain ⟨c, -, hc⟩ := List.mem_map.1 hmem
    split at hc
    · cases hc
    · next hne => exact hne hc
  have hencoded : '\n' ∉ (onOneLine value).flatMap encodeEntity := by
    intro hmem
    obtain ⟨c, hc, hentity⟩ := List.mem_flatMap.1 hmem
    exact newline_not_mem_encodeEntity (fun heq => hflat (heq ▸ hc)) hentity
  unfold codeCell
  dsimp only
  split
  · rw [List.mem_append, List.mem_append, not_or, not_or]
    exact ⟨⟨by decide, hencoded⟩, by decide⟩
  · simp [hflat, backtick]

/-- A type name is shown on one line. -/
theorem newline_not_mem_renderName {config : Config} (h : config.OneLineLinks) (name : Text) :
    '\n' ∉ renderName config.links name := by
  unfold renderName lookup
  cases hget : config.links.get? (trim name) with
  | none => exact newline_not_mem_codeCell name
  | some target =>
    obtain ⟨htext, hurl⟩ := h target (OrderedMap.mem_values_of_get? hget)
    simp [Resolved.link, Resolved.markdown, htext, hurl]

/-- The lines that name inherited properties. -/
theorem closesFences_inheritsLines {config : Config} (h : config.OneLineLinks) (names : List Text) :
    ClosesFences (joinSections (names.map (inheritsLine config))) := by
  refine closesFences_joinSections fun l hl => ?_
  obtain ⟨name, -, rfl⟩ := List.mem_map.1 hl
  have hname : '\n' ∉ renderName config.links name ++ ['.'] := by
    rw [List.mem_append, not_or]
    exact ⟨newline_not_mem_renderName h name, by decide⟩
  have hline : ClosesFences ("Inherits ".toList ++ (renderName config.links name ++ ['.'])) :=
    closesFences_append (by decide +kernel) (by decide +kernel) hname
  rwa [← List.append_assoc] at hline

/-! ## All that is told -/

/-- The descriptions of a page: that of the component and those of its properties and methods. -/
def Metadata.Page.descriptions (p : Metadata.Page) : List (Option Text) :=
  p.component.description :: (p.component.props.values.map (·.description) ++
    p.component.methods.map (·.description))

/-- **What is told of descriptions that leave no code block open** leaves none open. -/
theorem toldCloses_pageOutline {config : Config} {p : Metadata.Page} {doc : PageDoc}
    (hpage : PageDoc.ofPage p = .ok doc) (hdoc : doc.OneLine)
    (hdescriptions : ∀ d ∈ p.descriptions, LeavesNoFence (d.getD []))
    (hlinks : config.OneLineLinks)
    (hkeys : ∀ m ∈ doc.component.methods, ∀ q ∈ m.params, q.OneLineKeys config) :
    ∀ part ∈ pageOutline config doc, part.ToldCloses := by
  refine forall_mem_pageOutline trivial ?_ trivial trivial trivial
    (closesFences_inheritsLines hlinks _) ?_ trivial ?_
  · rw [description_of_ofPage hpage]
    obtain ⟨htext, hexamples, hfooter⟩ :=
      closesFences_description (hdescriptions _ (List.mem_cons_self ..))
    exact closesFences_descriptionParts htext hexamples hfooter
  · intro q hq
    obtain ⟨e, he, hprop⟩ := exists_property_of_mem hpage hq
    have hmem : e.2.description ∈ p.descriptions :=
      List.mem_cons_of_mem _ (List.mem_append_left _
        (List.mem_map_of_mem (List.mem_map_of_mem he)))
    refine forall_mem_propOutline trivial ?_ trivial
    rw [PropDoc.eq_of_ofProperty hprop]
    exact closesFences_cleanText (hdescriptions _ hmem)
  · intro m hm
    obtain ⟨source, hsource, hmethod⟩ := exists_method_of_mem hpage hm
    have hmem : source.description ∈ p.descriptions :=
      List.mem_cons_of_mem _ (List.mem_append_right _ (List.mem_map_of_mem hsource))
    refine forall_mem_methodOutline trivial trivial ?_ trivial trivial fun q hq s hs => ?_
    · rw [(MethodDoc.eq_of_ofMethod hmethod).2]
      exact closesFences_cleanText (hdescriptions _ hmem)
    · exact closesFences_validKeys ((hdoc.methods m hm).2.2 q hq) (hkeys m hm q hq) hs

end ComponentPages
