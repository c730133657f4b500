import ComponentPages.Proofs.ClosedDescriptions
import ComponentPages.Proofs.HeadingLines
import ComponentPages.Proofs.Normalizing
import ComponentPages.Proofs.PageOutline
import ComponentPages.Proofs.TableReading

/-!
# The parts of a page close their code blocks

Whatever a page makes of names, types and values leaves no code block open, where names and labels
are on one line: tables begin each line with a pipe, and the shape of a call is a block of its own.
What is told in other words than its own is taken up elsewhere.

- **`PageDoc.OneLine`**, **`PageDoc.oneLine_ofPage`** — the names and platforms of a page are those
  of its metadata.
- **`forall_mem_pageOutline`** — what holds of each kind of part holds of the parts of a page.
- **`OutlinePart.Harmless`**, **`harmless_pageOutline`** — what can be said of every page.
-/

namespace ComponentPages

/-! ## Names in lower case -/

/-- A character with a greater code point is no line feed. -/
theorem ofNat_ne_newline {n : Nat} (h : 10 < n) : Char.ofNat n ≠ '\n' := by
  intro heq
  have hcode : (Char.ofNat n).toNat = 10 := congrArg Char.toNat heq
  by_cases hvalid : n.isValidChar
  · have haux : Char.ofNat n = Char.ofNatAux n hvalid := dif_pos hvalid
    have hn : (Char.ofNatAux n hvalid).toNat = n := rfl
    rw [haux, hn] at hcode
    exact absurd hcode (Nat.ne_of_gt h)
  · -- without such a character there is the null character
    have hnull : (Char.ofNat n).toNat = 0 := congrArg Char.toNat (dif_neg hvalid)
    rw [hnull] at hcode
    cases hcode

/-- No run of upper-case letters is moved down to the line feed. -/
theorem lowerBeyondAscii_ne_newline {c : Char} (hc : c ≠ '\n') : lowerBeyondAscii c ≠ '\n' := by
  unfold lowerBeyondAscii
  split
  · next first last step distance hfind =>
    have hall : ∀ run ∈ lowerRuns, 10 < (run.1 : Int) + run.2.2.2 := by decide +kernel
    have hrun : 10 < (first : Int) + distance := hall _ (List.mem_of_find?_eq_some hfind)
    have hfirst := List.find?_some hfind
    simp only [Bool.and_eq_true, decide_eq_true_eq] at hfirst
    exact ofNat_ne_newline (by omega)
  · exact hc

/-- A name on one line stays on one line. -/
theorem newline_not_mem_lowerFirst {s : Text} (h : '\n' ∉ s) : '\n' ∉ lowerFirst s := by
  cases s with
  | nil => exact List.not_mem_nil
  | cons c rest =>
    rw [List.mem_cons, not_or] at h
    rw [lowerFirst, List.mem_append, not_or]
    refine ⟨?_, h.2⟩
    unfold lowerCase
    split
    · next hascii =>
      have hall : ∀ n < 0x80, Char.ofNat n ≠ '\n' → (Char.ofNat n).toLower ≠ '\n' := by decide
      have hlower := hall c.toNat hascii
      rw [Char.ofNat_toNat] at hlower
      simpa using (hlower (Ne.symm h.1)).symm
    · split
      · decide
      · simpa using (lowerBeyondAscii_ne_newline (Ne.symm h.1)).symm

/-! ## What is made -/

/-- The lines of a table begin with a pipe. -/
theorem opensNone_lines_renderTable (rows : List TableRow) :
    ∀ l ∈ lines (renderTable rows), OpensNone l := by
  have hline (cells : List (Text × Nat)) : OpensNone (tableLine cells) :=
    opensNone_cons (by decide) (by decide) _
  by_cases hcolumns : columns rows = []
  · have hnil : renderTable rows = [] := by
      unfold renderTable
      rw [hcolumns]
    rw [hnil]
    intro l hl
    rw [List.mem_singleton.1 hl]
    exact opensNone_nil
  rw [renderTable_of_ne_nil hcolumns, tableLines_eq, lines_flatMap_newline]
  · intro l hl
    rcases List.mem_append.1 hl with hl | hl
    · rcases List.mem_cons.1 hl with rfl | hl
      · exact hline _
      · rcases List.mem_cons.1 hl with rfl | hl
        · exact hline _
        · obtain ⟨row, -, rfl⟩ := List.mem_map.1 hl
          exact hline _
    · rw [List.mem_singleton.1 hl]
      exact opensNone_nil
  · intro l hl
    rcases List.mem_cons.1 hl with rfl | hl
    · exact newline_not_mem_tableLine (fitsLine_header rows)
    · rcases List.mem_cons.1 hl with rfl | hl
      · exact newline_not_mem_tableLine (fitsLine_divider _)
      · obtain ⟨row, hrow, rfl⟩ := List.mem_map.1 hl
        exact newline_not_mem_tableLine (fitsLine_row hrow _)

/-- A named value on one line, where the name begins with no marker. -/
theorem closesFences_append {name value : Text} (hplain : beginsPlain name = true)
    (hname : '\n' ∉ name) (hvalue : '\n' ∉ value) : ClosesFences (name ++ value) :=
  closesFences_of_line (by rw [List.mem_append, not_or]; exact ⟨hname, hvalue⟩)
    (opensNone_append hplain value)

/-- Two texts with a line feed between them close their code blocks where each of them does. -/
theorem ClosesFences.append_newline {s t : Text} (hs : ClosesFences s) (ht : ClosesFences t) :
    ClosesFences (s ++ '\n' :: t) := by
  rw [ClosesFences, lines_append_newline, fenceAfter_append, hs]
  exact ht

/-- The front matter. -/
theorem closesFences_frontMatter {p : PageDoc} (hid : '\n' ∉ p.id) (htitle : '\n' ∉ p.title) :
    ClosesFences (frontMatter p) := by
  have hlines : frontMatter p = ruleLine ++ '\n' :: ("id: ".toList ++ p.id ++
      '\n' :: ("title: ".toList ++ p.title ++ '\n' :: ruleLine)) := by
    have hassoc (rule id title : Text) :
        rule ++ '\n' :: id ++ p.id ++ '\n' :: title ++ p.title ++ '\n' :: rule =
          rule ++ '\n' :: (id ++ p.id ++ '\n' :: (title ++ p.title ++ '\n' :: rule)) := by
      simp
    exact hassoc ruleLine "id: ".toList "title: ".toList
  have hrule : ClosesFences ruleLine := by decide +kernel
  have hidLine : ClosesFences ("id: ".toList ++ p.id) :=
    closesFences_append (by decide +kernel) (by decide +kernel) hid
  have htitleLine : ClosesFences ("title: ".toList ++ p.title) :=
    closesFences_append (by decide +kernel) (by decide +kernel) htitle
  rw [hlines]
  exact hrule.append_newline (hidLine.append_newline (htitleLine.append_newline hrule))

/-- The shape of a call is a block of one line, and the line does not close it. -/
theorem closesFences_callBlock {m : MethodDoc} {displayName : Text} (hname : '\n' ∉ m.name)
    (hparams : ∀ q ∈ m.params, '\n' ∉ q.name) (hdisplay : '\n' ∉ displayName) :
    ClosesFences (callBlock m displayName) := by
  have hreceiver : '\n' ∉ receiver m displayName := by
    unfold receiver
    split
    · exact hdisplay
    · exact newline_not_mem_lowerFirst hdisplay
  have harguments : '\n' ∉ joinWith ", ".toList (m.params.map argument) := by
    refine not_mem_joinWith (by decide +kernel) fun a ha => ?_
    obtain ⟨q, hq, rfl⟩ := List.mem_map.1 ha
    unfold argument
    split <;> simp [hparams q hq]
  have hlines (first semicolon last : Text) :
      first ++ ['\n'] ++ receiver m displayName ++ '.' :: m.name ++
          '(' :: joinWith ", ".toList (m.params.map argument) ++ (semicolon ++ '\n' :: last) =
        joinLines [first, receiver m displayName ++ '.' :: m.name ++
          '(' :: joinWith ", ".toList (m.params.map argument) ++ semicolon, last] := by
    generalize joinWith ", ".toList (m.params.map argument) = arguments
    rw [joinLines_cons _ (by simp), joinLines_cons _ (by simp), joinLines_singleton]
    simp
  have hblock := hlines "```jsx".toList ");".toList "```".toList
  generalize hcall : receiver m displayName ++ '.' :: m.name ++
      '(' :: joinWith ", ".toList (m.params.map argument) ++ ");".toList = call at hblock
  have hparenthesis : '(' ∈ call := by simp [← hcall]
  have hnl : '\n' ∉ call := by
    rw [← hcall]
    simp only [List.mem_append, List.mem_cons, not_or]
    exact ⟨⟨⟨hreceiver, by decide, hname⟩, by decide, harguments⟩, by decide +kernel⟩
  have hwhole : callBlock m displayName = joinLines ["```jsx".toList, call, "```".toList] := hblock
  have hopens : fenceOpening? (trim "```jsx".toList) = some ⟨backtick, 3, "jsx".toList⟩ := by
    decide +kernel
  have hcloses : (⟨backtick, 3, "jsx".toList⟩ : FenceOpening).closedBy "```".toList = true := by
    decide +kernel
  have hinside : ∀ l ∈ [call],
      (⟨backtick, 3, "jsx".toList⟩ : FenceOpening).closedBy l = false := fun l hl => by
    rw [List.mem_singleton.1 hl]
    exact not_closedBy_of_mem hparenthesis (by decide) (by decide)
  rw [ClosesFences, hwhole, lines_joinLines (by simp)]
  · exact fenceAfter_block hopens hinside hcloses
  · intro l hl
    rcases List.mem_cons.1 hl with rfl | hl
    · decide +kernel
    · rcases List.mem_cons.1 hl with rfl | hl
      · exact hnl
      · rw [List.mem_singleton.1 hl]
        decide +kernel

/-! ## Names on one line -/

/-- The names of some metadata are on one line each. -/
structure Metadata.Page.OneLineNames (p : Metadata.Page) : Prop where
  id : '\n' ∉ p.id
  title : '\n' ∉ p.title
  displayName : '\n' ∉ p.component.displayName
  props : ∀ name ∈ p.component.props.keys, '\n' ∉ name
  methods : ∀ m ∈ p.component.methods, '\n' ∉ m.name ∧ ∀ q ∈ m.params, '\n' ∉ q.name

instance (p : Metadata.Page) : Decidable p.OneLineNames :=
  decidable_of_iff ('\n' ∉ p.id ∧ '\n' ∉ p.title ∧ '\n' ∉ p.component.displayName ∧
      (∀ name ∈ p.component.props.keys, '\n' ∉ name) ∧
      ∀ m ∈ p.component.methods, '\n' ∉ m.name ∧ ∀ q ∈ m.params, '\n' ∉ q.name)
    ⟨fun ⟨hid, htitle, hdisplay, hprops, hmethods⟩ => ⟨hid, htitle, hdisplay, hprops, hmethods⟩,
      fun h => ⟨h.id, h.title, h.displayName, h.props, h.methods⟩⟩

/-- The names of a page are on one line each, and its platforms are ids. -/
structure PageDoc.OneLine (p : PageDoc) : Prop where
  id : '\n' ∉ p.id
  title : '\n' ∉ p.title
  displayName : '\n' ∉ p.component.displayName
  props : ∀ q ∈ p.component.props.values, '\n' ∉ q.name ∧ q.tags.PlainIds
  methods : ∀ m ∈ p.component.methods,
    '\n' ∉ m.name ∧ m.tags.PlainIds ∧ ∀ q ∈ m.params, '\n' ∉ q.name

/-- **The page of metadata whose names are on one line.** -/
theorem PageDoc.oneLine_ofPage {p : Metadata.Page} {doc : PageDoc}
    (hpage : PageDoc.ofPage p = .ok doc) (hnames : p.OneLineNames) : doc.OneLine := by
  have hprops : ∀ q ∈ doc.component.props.values, '\n' ∉ q.name ∧ q.tags.PlainIds := by
    intro q hq
    obtain ⟨e, he, hprop⟩ := exists_property_of_mem hpage hq
    rw [PropDoc.eq_of_ofProperty hprop]
    exact ⟨hnames.props e.1 (List.mem_map_of_mem he), plainIds_extract _⟩
  have hmethods : ∀ m ∈ doc.component.methods,
      '\n' ∉ m.name ∧ m.tags.PlainIds ∧ ∀ q ∈ m.params, '\n' ∉ q.name := by
    intro m hm
    obtain ⟨source, hsource, hmethod⟩ := exists_method_of_mem hpage hm
    obtain ⟨hparams, hdoc⟩ := MethodDoc.eq_of_ofMethod hmethod
    obtain ⟨hname, hsourceParams⟩ := hnames.methods source hsource
    rw [hdoc]
    refine ⟨hname, plainIds_extract _, fun q hq => ?_⟩
    obtain ⟨sourceParam, hmem, hq⟩ := exists_of_mem_mapM hparams hq
    rw [ParamDoc.eq_of_ofParameter hq]
    exact hsourceParams sourceParam hmem
  obtain ⟨component, hcomponent, rfl⟩ := PageDoc.ofPage_eq_ok_iff.1 hpage
  obtain ⟨props, methods, -, -, rfl⟩ := ComponentDoc.ofComponent_eq_ok_iff.1 hcomponent
  exact ⟨hnames.id, hnames.title, hnames.displayName, hprops, hmethods⟩

/-! ## All parts of a page -/

section Outline

variable {P : OutlinePart → Prop} {config : Config}

/-- What holds of the heading, the description and the table of a property holds of all its parts.
-/
theorem forall_mem_propOutline {q : PropDoc} (hheading : P (.heading (propHeading config q)))
    (hdescription : P (.told q.description)) (htable : P (.made (renderTable [propRow config q]))) :
    ∀ part ∈ propOutline config q, P part := by
  intro part hpart
  rcases List.mem_cons.1 hpart with rfl | hpart
  · exact hheading
  rcases List.mem_append.1 hpart with hpart | hpart
  · obtain ⟨s, hs, rfl⟩ := List.mem_map.1 hpart
    rw [(mem_sectionOf.1 hs).1]
    exact hdescription
  · rw [List.mem_singleton.1 hpart]
    exact htable

/-- What holds of the heading, the call, the description and the parameters of a method holds of all
its parts. -/
theorem forall_mem_methodOutline {m : MethodDoc} {displayName : Text}
    (hheading : P (.heading (methodHeading config m))) (hcall : P (.made (callBlock m displayName)))
    (hdescription : P (.told m.description)) (hlabel : P (.made "**Parameters:**".toList))
    (htable : P (.made (trimEnd (parameterTable config m.params))))
    (hkeys : ∀ q ∈ m.params, ∀ s ∈ validKeys? config q, P (.told s)) :
    ∀ part ∈ methodOutline config displayName m, P part := by
  have hparameters : ∀ part ∈ parameterOutline config m.params, P part := by
    intro part hpart
    unfold parameterOutline at hpart
    split at hpart
    · cases hpart
    rcases List.mem_cons.1 hpart with rfl | hpart
    · exact hlabel
    rcases List.mem_cons.1 hpart with rfl | hpart
    · exact htable
    · obtain ⟨s, hs, rfl⟩ := List.mem_map.1 hpart
      obtain ⟨q, hq, hvalid⟩ := List.mem_filterMap.1 hs
      exact hkeys q hq s hvalid
  intro part hpart
  rcases List.mem_cons.1 hpart with rfl | hpart
  · exact hheading
  rcases List.mem_cons.1 hpart with rfl | hpart
  · exact hcall
  rcases List.mem_append.1 hpart with hpart | hpart
  · obtain ⟨s, hs, rfl⟩ := List.mem_map.1 hpart
    rw [(mem_sectionOf.1 hs).1]
    exact hdescription
  · exact hparameters part hpart

/-- What holds of the parts of blocks and of the line between them holds of blocks with lines
between them. -/
theorem forall_mem_ruledOutline (hrule : P (.made ruleLine)) {blocks : List (List OutlinePart)}
    (h : ∀ block ∈ blocks, ∀ part ∈ block, P part) : ∀ part ∈ ruledOutline blocks, P part := by
  fun_induction ruledOutline blocks with
  | case1 => exact fun part hpart => absurd hpart List.not_mem_nil
  | case2 block => exact h block (List.mem_singleton_self block)
  | case3 block next blocks ih =>
    intro part hpart
    rcases List.mem_append.1 hpart with hpart | hpart
    · exact h block (List.mem_cons_self ..) part hpart
    · rcases List.mem_cons.1 hpart with rfl | hpart
      · exact hrule
      · exact ih (fun b hb => h b (List.mem_cons_of_mem _ hb)) part hpart

/-- **What holds of each kind of part** holds of all parts of a page. -/
theorem forall_mem_pageOutline {p : PageDoc} (hfront : P (.made (frontMatter p)))
    (hdescription : ∀ s ∈ descriptionParts p.component.description, P (.told s))
    (hrule : P (.made ruleLine)) (hreference : P (.heading "# Reference".toList))
    (hprops : P (.heading "## Props".toList))
    (hinherits : P (.told (joinSections (p.component.composes.map (inheritsLine config)))))
    (hprop : ∀ q ∈ p.component.props.values, ∀ part ∈ propOutline config q, P part)
    (hmethods : P (.heading "## Methods".toList))
    (hmethod : ∀ m ∈ p.component.methods,
      ∀ part ∈ methodOutline config p.component.displayName m, P part) :
    ∀ part ∈ pageOutline config p, P part := by
  have hpropsOutline : ∀ part ∈ propsOutline config p.component, P part := by
    intro part hpart
    unfold propsOutline at hpart
    split at hpart
    · cases hpart
    · rcases List.mem_cons.1 hpart with rfl | hpart
      · exact hprops
      · rcases List.mem_append.1 hpart with hpart | hpart
        · obtain ⟨s, hs, rfl⟩ := List.mem_map.1 hpart
          rw [(mem_sectionOf.1 hs).1]
          exact hinherits
        · refine forall_mem_ruledOutline hrule (fun block hblock => ?_) part hpart
          obtain ⟨q, hq, rfl⟩ := List.mem_map.1 hblock
          exact hprop q (List.mem_mergeSort.1 hq)
  have hmethodsOutline : ∀ part ∈ methodsOutline config p.component, P part := by
    intro part hpart
    unfold methodsOutline at hpart
    split at hpart
    · cases hpart
    · rcases List.mem_cons.1 hpart with rfl | hpart
      · exact hmethods
      · refine forall_mem_ruledOutline hrule (fun block hblock => ?_) part hpart
        obtain ⟨m, hm, rfl⟩ := List.mem_map.1 hblock
        exact hmethod m (List.mem_mergeSort.1 hm)
  intro part hpart
  rcases List.mem_cons.1 hpart with rfl | hpart
  · exact hfront
  rcases List.mem_append.1 hpart with hpart | hpart
  · obtain ⟨s, hs, rfl⟩ := List.mem_map.1 hpart
    exact hdescription s hs
  unfold referenceOutline at hpart
  split at hpart
  · cases hpart
  · rcases List.mem_cons.1 hpart with rfl | hpart
    · exact hrule
    rcases List.mem_cons.1 hpart with rfl | hpart
    · exact hreference
    · rcases List.mem_append.1 hpart with hpart | hpart
      · exact hpropsOutline part hpart
      · exact hmethodsOutline part hpart

namespace OutlinePart

/-- The part is a heading, closes its code blocks or is told in other words. -/
def Harmless : OutlinePart → Prop
  | .heading line => HeadingLine line
  | .made text => ClosesFences text
  | .told _ => True

/-- The part is not told, or it closes its code blocks. -/
def ToldCloses : OutlinePart → Prop
  | .told text => ClosesFences text
  | _ => True

/-- A harmless part closes its code blocks unless it is told and does not. -/
theorem Harmless.closesFences {part : OutlinePart} (h : part.Harmless) (htold : part.ToldCloses) :
    ClosesFences part.text := by
  cases part with
  | heading line => exact closesFences_of_line h.lineEnd.oneLine h.opensNone
  | made text => exact h
  | told text => exact htold

end OutlinePart

/-- All parts of a property are harmless where its name is on one line. -/
theorem harmless_propOutline (hlabels : config.OneLineLabels) {q : PropDoc} (hname : '\n' ∉ q.name)
    (hids : q.tags.PlainIds) : ∀ part ∈ propOutline config q, part.Harmless :=
  forall_mem_propOutline (headingLine_propHeading hlabels hname hids) trivial
    (closesFences_of_opensNone (opensNone_lines_renderTable _))

/-- All parts of a method are harmless where its names are on one line each. -/
theorem harmless_methodOutline (hlabels : config.OneLineLabels) {m : MethodDoc}
    {displayName : Text} (hname : '\n' ∉ m.name) (hids : m.tags.PlainIds)
    (hparams : ∀ q ∈ m.params, '\n' ∉ q.name) (hdisplay : '\n' ∉ displayName) :
    ∀ part ∈ methodOutline config displayName m, part.Harmless := by
  have hlabel : ClosesFences "**Parameters:**".toList := by decide +kernel
  have htable : ClosesFences (trimEnd (parameterTable config m.params)) :=
    closesFences_of_opensNone (opensNone_lines_trimEnd (opensNone_lines_renderTable _))
  exact forall_mem_methodOutline (headingLine_methodHeading hlabels hname hids)
    (closesFences_callBlock hname hparams hdisplay) trivial hlabel htable fun _ _ _ _ => trivial

/-- **All parts of a page whose names are on one line.** -/
theorem harmless_pageOutline (hlabels : config.OneLineLabels) {p : PageDoc} (h : p.OneLine) :
    ∀ part ∈ pageOutline config p, part.Harmless := by
  have hrule : ClosesFences ruleLine := by decide +kernel
  have hreference : HeadingLine "# Reference".toList := by decide +kernel
  have hprops : HeadingLine "## Props".toList := by decide +kernel
  have hmethods : HeadingLine "## Methods".toList := by decide +kernel
  refine forall_mem_pageOutline (closesFences_frontMatter h.id h.title) (fun s _ => trivial) hrule
    hreference hprops trivial (fun q hq => ?_) hmethods
    (fun m hm => ?_)
  · obtain ⟨hname, hids⟩ := h.props q hq
    exact harmless_propOutline hlabels hname hids
  · obtain ⟨hname, hids, hparams⟩ := h.methods m hm
    exact harmless_methodOutline hlabels hname hids hparams h.displayName

end Outline

end ComponentPages
